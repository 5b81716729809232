/-
# Loading forgets the past

Whatever was done to two machines before, a load of the same program does the
same to both as long as their random sources stand at the same place. A program
that is too large is refused and leaves each machine as it was; any other one
leaves both in the one state described by `StartsOver`. With timers that are not
bound to time this carries over to emulators: a load that is accepted also ends
the interrupt and switches the buzzer off, and from then on no session can tell
the two apart.
-/

import ChipEight.Proofs.History
import ChipEight.Proofs.Session

namespace ChipEight

namespace Memory

/-- Bytes that fit replace as many of those that were there. -/
theorem toList_put (m : Memory) {start : Nat} {bs : List UInt8}
    (fits : start + bs.length ≤ size) :
    (m.put start bs).bytes.toList =
      m.bytes.toList.take start ++ bs ++ m.bytes.toList.drop (start + bs.length) := by
  induction bs generalizing m start with
  | nil => simp [put]
  | cons b bs ih =>
      rw [List.length_cons] at fits
      let before := m.bytes.toList
      have here : start < before.length := by
        rw [Vector.length_toList]
        simp only [size] at fits
        omega
      have set : (m.setByte start b).bytes.toList =
          (before.take start ++ [b]) ++ before.drop (start + 1) := by
        rw [setByte, Vector.toList_setIfInBounds, List.set_eq_take_append_cons_drop, if_pos here,
          List.append_assoc]
        rfl
      have length : (before.take start ++ [b]).length = start + 1 := by
        rw [List.length_append, List.length_take_of_le (Nat.le_of_lt here)]
        rfl
      rw [put, ih _ (by omega), set, List.take_left' length, ← List.drop_drop,
        List.drop_left' length, List.drop_drop, List.append_assoc _ [b] bs, List.length_cons,
        Nat.add_assoc, Nat.add_comm 1]
      rfl

/-- The font at the bottom, the program where programs start, and zeros elsewhere. -/
theorem toList_image {program : List UInt8} (fits : program.length ≤ programCapacity) :
    (image program).bytes.toList =
      Font.bytes ++ List.replicate (512 - 80) 0 ++ program ++
        List.replicate (3584 - program.length) 0 := by
  have font : Font.bytes.length = 80 := Font.length_bytes
  have blank : zero.bytes.toList = List.replicate size 0 := Vector.toList_replicate
  have withFont : (zero.put Font.start Font.bytes).bytes.toList =
      Font.bytes ++ List.replicate (4096 - 80) 0 := by
    rw [toList_put _ (by decide), blank, List.drop_replicate, font]
    rfl
  have behind : 4096 - 80 - (512 + program.length - 80) = 3584 - program.length := by omega
  simp only [programCapacity, programStart, size] at fits
  rw [image, programStart, toList_put _ (by simp only [size]; omega), withFont, List.take_append,
    List.take_of_length_le (by omega), List.take_replicate, List.drop_append,
    List.drop_of_length_le (by omega), List.nil_append, List.drop_replicate, font, behind]
  rfl

end Memory

namespace Machine

/-- A machine that starts over with a program: everything is cleared but for the
font and the program, and the program counter points at the program. The font is the
eighty bytes at the bottom, five for every digit. -/
structure StartsOver (m : Machine) (program : List UInt8) : Prop where
  memory : m.memory.bytes.toList =
    [0xF0, 0x90, 0x90, 0x90, 0xF0,
      0x20, 0x60, 0x20, 0x20, 0x70,
      0xF0, 0x10, 0xF0, 0x80, 0xF0,
      0xF0, 0x10, 0xF0, 0x10, 0xF0,
      0x90, 0x90, 0xF0, 0x10, 0x10,
      0xF0, 0x80, 0xF0, 0x10, 0xF0,
      0xF0, 0x80, 0xF0, 0x90, 0xF0,
      0xF0, 0x10, 0x20, 0x40, 0x40,
      0xF0, 0x90, 0xF0, 0x90, 0xF0,
      0xF0, 0x90, 0xF0, 0x10, 0xF0,
      0xF0, 0x90, 0xF0, 0x90, 0x90,
      0xE0, 0x90, 0xE0, 0x90, 0xE0,
      0xF0, 0x80, 0x80, 0x80, 0xF0,
      0xE0, 0x90, 0x90, 0x90, 0xE0,
      0xF0, 0x80, 0xF0, 0x80, 0xF0,
      0xF0, 0x80, 0xF0, 0x80, 0x80] ++ List.replicate (512 - 80) 0 ++ program ++
        List.replicate (3584 - program.length) 0
  registers : m.registers = ⟨Vector.replicate 16 0, 0, 0x200⟩
  timers : m.timers = ⟨0, 0⟩
  slots : m.stack.slots = Vector.replicate 16 0
  depth : m.stack.depth = 0
  display : ∀ x y, m.display.lit x y = false
  keypad : ∀ k, m.keypad.isDown k = false
  running : m.halted = false

variable {m m' : Machine} {program : List UInt8}

theorem startsOver_loaded (fits : program.length ≤ Memory.programCapacity) :
    (m.loaded program).StartsOver program where
  memory := Memory.toList_image fits
  registers := rfl
  timers := rfl
  slots := rfl
  depth := rfl
  display := Display.lit_dark
  keypad := Keypad.isDown_released
  running := rfl

/-- Of the machine before it, a load looks at the random source only. -/
theorem loaded_congr (same : m.random = m'.random) : m.loaded program = m'.loaded program := by
  simp only [loaded, clear, same]

end Machine

namespace Emulator

variable {e e' : Emulator} {program : List UInt8}

theorem load_of_large (large : Memory.programCapacity < program.length) (now : Readings) :
    e.load program now =
      (.error (.programTooLarge program.length Memory.programCapacity), e) := by
  rw [load, Machine.load_of_large large]

theorem load_of_fits (fits : program.length ≤ Memory.programCapacity) (now : Readings) :
    e.load program now =
      (.ok (),
        { e with
          machine := e.machine.loaded program
          interrupted := false
          buzzing := false }.restartClocks now) := by
  rw [load, Machine.load_of_fits fits]

/-- After an accepted load nothing tells emulators apart whose random sources
stand at the same place, if neither binds its timers to time. -/
theorem alike_of_load (same : e.machine.random = e'.machine.random)
    (free : e.timerClock.interval = 0) (free' : e'.timerClock.interval = 0)
    (fits : program.length ≤ Memory.programCapacity) (now now' : Readings) :
    (e.load program now).2.Alike (e'.load program now').2 := by
  rw [load_of_fits fits, load_of_fits fits]
  exact ⟨Machine.loaded_congr same, rfl, rfl, free, free'⟩

end Emulator

namespace Machine

/-- Two machines whose random sources stand at the same place load one program.

If it is too large, both refuse it and stay as they are. Otherwise both accept
it and are in one and the same state, cleared but for the font and the program,
so every later history goes the same on both. Emulators that drive the two and
do not bind their timers to time do the same: a refused load changes nothing,
not even the interrupt, and after an accepted one, which ends the interrupt, the
same sessions have the same answers and lead to the same machine, at any pace
and whenever they take place. -/
theorem load_erases_history {m m' : Machine} (same : m.random = m'.random)
    (program : List UInt8) :
    let tooLarge := Fault.programTooLarge program.length 3584
    (3584 < program.length →
      m.load program = (.error tooLarge, m) ∧ m'.load program = (.error tooLarge, m')) ∧
    (program.length ≤ 3584 →
      (∃ n, m.load program = (.ok (), n) ∧ m'.load program = (.ok (), n) ∧
        n.StartsOver program ∧ n.random = m.random) ∧
      ∀ history,
        m.outcomes (.load program :: history) = m'.outcomes (.load program :: history) ∧
          m.after (.load program :: history) = m'.after (.load program :: history)) ∧
    ∀ e e' : Emulator, e.machine = m → e'.machine = m' →
      e.timerClock.interval = 0 → e'.timerClock.interval = 0 → ∀ now now' : Readings,
      (3584 < program.length →
        e.load program now = (.error tooLarge, e) ∧ e'.load program now' = (.error tooLarge, e')) ∧
      (program.length ≤ 3584 →
        ∃ f f' : Emulator,
          e.load program now = (.ok (), f) ∧ e'.load program now' = (.ok (), f') ∧
          f.interrupted = false ∧ f'.interrupted = false ∧
          f.machine = f'.machine ∧ f.machine.StartsOver program ∧ f.machine.random = m.random ∧
          ∀ clock clock' requests,
            (f.session clock requests).1 = (f'.session clock' requests).1 ∧
              (f.session clock requests).2.machine = (f'.session clock' requests).2.machine) := by
  intro tooLarge
  have state : m.loaded program = m'.loaded program := loaded_congr same
  refine ⟨fun large => ⟨load_of_large large, load_of_large large⟩, fun fits => ⟨?_, ?_⟩, ?_⟩
  · exact ⟨m.loaded program, load_of_fits fits, state ▸ load_of_fits fits,
      startsOver_loaded fits, rfl⟩
  · intro history
    have next : m.act (.load program) = m'.act (.load program) := by
      rw [act, act, load_of_fits fits, load_of_fits fits, state]
    show (m.act _).outcomes history = (m'.act _).outcomes history ∧
      (m.act _).after history = (m'.act _).after history
    rw [next]
    exact ⟨rfl, rfl⟩
  · rintro e e' rfl rfl free free' now now'
    refine ⟨fun large => ⟨Emulator.load_of_large large now, Emulator.load_of_large large now'⟩,
      fun fits => ?_⟩
    have alike := Emulator.alike_of_load same free free' fits now now'
    rw [Emulator.load_of_fits fits, Emulator.load_of_fits fits] at alike ⊢
    refine ⟨_, _, rfl, rfl, rfl, rfl, state, startsOver_loaded fits, rfl, ?_⟩
    intro clock clock' requests
    obtain ⟨answers, last⟩ := alike.session clock clock' requests
    exact ⟨answers, last.machine⟩

/-- A machine with a key down while its buzzer sounds, and one that failed and
whose emulator is interrupted: one byte too many is refused by both, and after
the same short program a run and a step have the same answers. -/
theorem load_erases_history_interrupted :
    let m := (powerOn 7).after [.load [0x60, 0x05, 0xF0, 0x18], .step, .step, .setKey 3 true]
    let m' := (powerOn 7).after [.step, .halt]
    let e :=
      { Emulator.ofSettings ⟨none, 0, some 7⟩ (.replicate 8 0) 0 with
        machine := m
        buzzing := true }
    let e' :=
      { Emulator.ofSettings ⟨some 700, 2000000000, some 7⟩ (.replicate 8 0) 9 with
        machine := m', interrupted := true }
    m ≠ m' ∧
      e'.load (List.replicate 3585 0) 9 = (.error (.programTooLarge 3585 3584), e') ∧
      ∃ f f' : Emulator,
        e.load [0xF0, 0x0A] 5 = (.ok (), f) ∧ e'.load [0xF0, 0x0A] 9 = (.ok (), f') ∧
        f'.interrupted = false ∧
        ∀ clock clock',
          let requests := [.run (fun k => if k = 1 then [.set 4 true] else []) 3, .step]
          (f.session clock requests).1 = (f'.session clock' requests).1 := by
  intro m m' e e'
  obtain ⟨same, different⟩ : m.random = m'.random ∧ m ≠ m' := by decide +kernel
  have free : cycleLength 0 = 0 := rfl
  have free' : cycleLength 2000000000 = 0 := cycleLength_eq_zero_iff.mpr (.inr (by decide))
  obtain ⟨-, -, refuses⟩ := load_erases_history same (List.replicate 3585 0)
  obtain ⟨-, -, accepts⟩ := load_erases_history same [0xF0, 0x0A]
  have refused := (refuses e e' rfl rfl free free' 5 9).1 (by rw [List.length_replicate]; decide)
  obtain ⟨f, f', loaded, loaded', -, going, -, -, -, later⟩ :=
    (accepts e e' rfl rfl free free' 5 9).2 (by decide)
  rw [List.length_replicate] at refused
  exact ⟨different, refused.2, f, f', loaded, loaded', going,
    fun clock clock' => (later clock clock' _).1⟩

end Machine

end ChipEight
