/-
# What an instruction may change

Every instruction has a footprint: the registers, the bytes and the other parts
of the machine that it may change. All else stays as it was, whatever the state.
The footprints are a table that is read off the instruction alone, and one case
analysis over the instructions shows that executions keep to it. Memory is the
part with a history: since only two instructions write to it, a byte is what the
last of them that reached it left there, or what was loaded.
-/

import ChipEight.Instruction.Coding
import ChipEight.Proofs.History

namespace ChipEight

/-- The parts of a machine, beside the program counter, that may change. -/
structure Footprint where
  /-- The byte registers. -/
  registers : List Register := []
  /-- The number of bytes of memory, from the index on. -/
  bytes : Nat := 0
  /-- The index register. -/
  index : Bool := false
  /-- The delay timer. -/
  delay : Bool := false
  /-- The sound timer. -/
  sound : Bool := false
  /-- The call stack. -/
  stack : Bool := false
  /-- The display. -/
  display : Bool := false
  /-- The source of random bytes. -/
  random : Bool := false

/-- Bytes that were written in one go, from an address on. -/
structure Store where
  start : Nat
  bytes : List UInt8
  deriving DecidableEq

/-- The byte that a store left at an address, if it reached it. -/
def Store.byteAt? (s : Store) (a : Nat) : Option UInt8 :=
  if s.start ≤ a then s.bytes[a - s.start]? else none

namespace Arithmetic

/-- Whether an operation reports a flag. -/
def reports : Arithmetic → Bool
  | .copy | .or | .and | .xor => false
  | .add | .subtract | .shiftRight | .subtractFrom | .shiftLeft => true

theorem isSome_compute (operation : Arithmetic) (a b : UInt8) :
    (operation.compute a b).2.isSome = operation.reports := by
  cases operation <;> rfl

end Arithmetic

namespace Instruction

/-- What an instruction may change. -/
def footprint : Instruction → Footprint
  | .jump _ | .jumpOffset _ | .skip _ => {}
  | .ret | .call _ => { stack := true }
  | .setByte x _ | .addByte x _ | .readDelay x | .awaitKey x => { registers := [x] }
  | .random x _ => { registers := [x], random := true }
  | .arithmetic operation x _ =>
    { registers := if operation.reports then [x, Registers.flagRegister] else [x] }
  | .loadRegisters last => { registers := (List.finRange 16).filter (· ≤ last) }
  | .setIndex _ | .addIndex _ | .pointAtDigit _ => { index := true }
  | .storeDecimal _ => { bytes := 3 }
  | .storeRegisters last => { bytes := last.val + 1 }
  | .clear => { display := true }
  | .draw .. => { registers := [Registers.flagRegister], display := true }
  | .setDelay _ => { delay := true }
  | .setSound _ => { sound := true }

/-- What an instruction reports when it is carried out, with some key down or none. -/
def signal (i : Instruction) (someKeyDown : Bool) : Signal :=
  match i with
  | .clear | .draw .. => .draw
  | .ret | .jump _ | .call _ | .jumpOffset _ => .jump
  | .setSound _ => .sound
  | .awaitKey _ => if someKeyDown then .proceed else .keyWait
  | _ => .proceed

/-- The bytes that an instruction writes to the index and behind it. -/
def stored (i : Instruction) (m : Machine) : List UInt8 :=
  match i with
  | .storeDecimal x => decimalDigits (m.v x)
  | .storeRegisters last => m.registers.firstValues (last.val + 1)
  | _ => []

theorem signal_ne_interrupt (i : Instruction) (someKeyDown : Bool) :
    i.signal someKeyDown ≠ .interrupt := by
  cases i with
  | awaitKey x => cases someKeyDown <;> nofun
  | _ => nofun

theorem stack_footprint (i : Instruction) : i.footprint.stack = (i.isCall || i.isReturn) := by
  cases i <;> rfl

theorem registers_footprint_arithmetic (operation : Arithmetic) (x y : Register) :
    x ∈ (arithmetic operation x y).footprint.registers ∧
      (operation.reports = true →
        Registers.flagRegister ∈ (arithmetic operation x y).footprint.registers) := by
  cases operation <;> simp [footprint, Arithmetic.reports]

theorem length_stored (i : Instruction) (m : Machine) :
    (i.stored m).length = i.footprint.bytes := by
  cases i with
  | storeRegisters last =>
      have inside : last.val + 1 ≤ 16 := last.isLt
      rw [stored, Registers.firstValues, List.length_take, Vector.length_toList]
      exact Nat.min_eq_left inside
  | _ => rfl

end Instruction

namespace Memory

variable {memory later : Memory} {start length : Nat} {bs : List UInt8}

theorem readRange_eq_ok_iff :
    memory.readRange start length = .ok bs ↔
      start + length ≤ size ∧ memory.span start length = bs := by
  rw [readRange_eq]
  split
  · next inside => simp [inside]
  · next outside => simp [outside]

theorem writeRange_eq_ok_iff :
    memory.writeRange start bs = .ok later ↔
      start + bs.length ≤ size ∧ memory.put start bs = later := by
  rw [writeRange_eq]
  split
  · next inside => simp [inside]
  · next outside => simp [outside]

theorem getElem?_span (memory : Memory) (start : Nat) {length i : Nat} (inside : i < length) :
    (memory.span start length)[i]? = some (memory.byteAt (start + i)) := by
  rw [span, List.getElem?_map, List.getElem?_range inside]
  rfl

/-- Inside the memory, a put is what the view shows of the same bytes as a store. -/
theorem byteAt_put_eq_getD (memory : Memory) (start : Nat) (bs : List UInt8) {a : Nat}
    (inside : a < size) :
    (memory.put start bs).byteAt a =
      (Store.byteAt? ⟨start, bs⟩ a).getD (memory.byteAt a) := by
  have reached : Store.byteAt? ⟨start, bs⟩ a = if start ≤ a then bs[a - start]? else none := rfl
  rw [byteAt_put, reached]
  by_cases covered : start ≤ a ∧ a < start + bs.length
  · have offset : a - start < bs.length := by omega
    rw [if_pos ⟨covered.1, covered.2, inside⟩, if_pos covered.1, List.getElem?_eq_getElem offset]
    rfl
  · rw [if_neg fun reached => covered ⟨reached.1, reached.2.1⟩]
    split
    · have beyond : bs.length ≤ a - start := by omega
      rw [List.getElem?_eq_none beyond]
      rfl
    · rfl

end Memory

namespace Registers

/-- Putting a result into a register touches this register and, with a flag, the
flag register. -/
theorem get_setResult_of_ne (registers : Registers) {x r : Register}
    (result : UInt8 × Option Bool) (other : r ≠ x)
    (unflagged : result.2.isSome → r ≠ flagRegister) :
    (registers.setResult x result).get r = registers.get r := by
  obtain ⟨value, flag⟩ := result
  cases flag with
  | none => rw [setResult, get_set, if_neg other]
  | some raised => rw [setResult, setFlag, get_set, if_neg (unflagged rfl), get_set, if_neg other]

theorem pc_setResult (registers : Registers) (x : Register) (result : UInt8 × Option Bool) :
    (registers.setResult x result).pc = registers.pc := by
  obtain ⟨value, flag⟩ := result
  cases flag <;> rfl

theorem index_setResult (registers : Registers) (x : Register) (result : UInt8 × Option Bool) :
    (registers.setResult x result).index = registers.index := by
  obtain ⟨value, flag⟩ := result
  cases flag <;> rfl

theorem pc_setFrom (registers : Registers) (x : Nat) (values : List UInt8) :
    (registers.setFrom x values).pc = registers.pc := by
  induction values generalizing registers x with
  | nil => rfl
  | cons b bs ih => exact ih ..

theorem index_setFrom (registers : Registers) (x : Nat) (values : List UInt8) :
    (registers.setFrom x values).index = registers.index := by
  induction values generalizing registers x with
  | nil => rfl
  | cons b bs ih => exact ih ..

end Registers

namespace Keypad

theorem firstDown?_eq_none_iff {p : Keypad} : p.firstDown? = none ↔ p.anyDown = false := by
  have unset : p.anyDown = false ↔ p.mask = 0 := by simp [anyDown]
  rw [unset, firstDown?, List.find?_eq_none]
  constructor
  · intro up
    apply BitVec.eq_of_getLsbD_eq
    intro k inside
    have key := up ⟨k, inside⟩ (List.mem_finRange _)
    simpa [isDown] using key
  · intro zero k _
    simp [isDown, zero]

theorem anyDown_eq_false_iff {p : Keypad} :
    p.anyDown = false ↔ ∀ k : Key, p.isDown k.val = false := by
  rw [← firstDown?_eq_none_iff, firstDown?, List.find?_eq_none]
  simp [Key.all]

end Keypad

namespace Machine

variable {m next : Machine} {i : Instruction} {signal : Signal}

/-! ## One instruction -/

/-- Waiting for a key goes back to the instruction while no key is down, and else
takes the first one. -/
theorem awaitKey_cases {x : Register} (done : m.execute (.awaitKey x) = (.ok signal, next)) :
    (m.keypad.anyDown = false ∧ signal = .keyWait ∧ next = m.rewind) ∨
      ∃ key : Key, m.keypad.anyDown = true ∧ signal = .proceed ∧
        next = m.setV x (UInt8.ofNat key.val) ∧ m.keypad.firstDown? = some key := by
  rw [execute, takeKey] at done
  cases first : m.keypad.firstDown? with
  | none =>
      rw [first] at done
      cases done
      exact .inl ⟨Keypad.firstDown?_eq_none_iff.mp first, rfl, rfl⟩
  | some key =>
      rw [first] at done
      cases done
      have down : m.keypad.anyDown = true := by
        rw [← Bool.not_eq_false, ← Keypad.firstDown?_eq_none_iff, first]
        exact Option.some_ne_none key
      exact .inr ⟨key, down, rfl, rfl, rfl⟩

/-- A machine differs from an earlier one at most in the parts of a footprint and
in the program counter. -/
structure ChangesOnly (m next : Machine) (part : Footprint) : Prop where
  registers : ∀ r, r ∉ part.registers → next.v r = m.v r
  memory : ∀ a, ¬ (m.index.val ≤ a ∧ a < m.index.val + part.bytes) →
    next.memory.byteAt a = m.memory.byteAt a
  index : part.index = false → next.index = m.index
  delay : part.delay = false → next.timers.delay = m.timers.delay
  sound : part.sound = false → next.timers.sound = m.timers.sound
  stack : part.stack = false → next.stack = m.stack
  display : part.display = false → next.display = m.display
  random : part.random = false → next.random = m.random
  keypad : next.keypad = m.keypad
  halted : next.halted = m.halted

theorem ChangesOnly.refl (m : Machine) (part : Footprint) : m.ChangesOnly m part :=
  ⟨fun _ _ => rfl, fun _ _ => rfl, fun _ => rfl, fun _ => rfl, fun _ => rfl, fun _ => rfl,
    fun _ => rfl, fun _ => rfl, rfl, rfl⟩

theorem ChangesOnly.of_registers {registers : Registers} {part : Footprint}
    (same : ∀ r, r ∉ part.registers → registers.get r = m.registers.get r)
    (index : part.index = false → registers.index = m.registers.index) :
    m.ChangesOnly { m with registers } part :=
  { ChangesOnly.refl m part with registers := same, index := index }

theorem ChangesOnly.setPc (m : Machine) (pc : UInt16) (part : Footprint) :
    m.ChangesOnly (m.setPc pc) part :=
  .of_registers (fun _ _ => rfl) fun _ => rfl

theorem ChangesOnly.setV {x : Register} {part : Footprint} (m : Machine) (value : UInt8)
    (listed : x ∈ part.registers) : m.ChangesOnly (m.setV x value) part := by
  refine .of_registers (fun r unlisted => ?_) fun _ => rfl
  have other : r ≠ x := fun same => unlisted (same ▸ listed)
  rw [Registers.get_set, if_neg other]

/-- An instruction writes its bytes to the index and behind it, and no others. -/
theorem memory_of_execute (done : m.execute i = (.ok signal, next)) :
    next.memory = m.memory.put m.index.val (i.stored m) := by
  cases i with
  | storeDecimal | storeRegisters =>
      obtain ⟨memory, written, done⟩ := orFault_eq_ok_iff.mp done
      cases done
      exact (Memory.writeRange_eq_ok_iff.mp written).2.symm
  | ret | call | draw | loadRegisters =>
      obtain ⟨_, _, done⟩ := orFault_eq_ok_iff.mp done
      cases done
      rfl
  | awaitKey x => obtain ⟨-, -, rfl⟩ | ⟨key, -, -, rfl, -⟩ := awaitKey_cases done <;> rfl
  | skip condition =>
      cases done
      split <;> rfl
  | _ =>
      cases done
      rfl

theorem signal_of_execute (done : m.execute i = (.ok signal, next)) :
    signal = i.signal m.keypad.anyDown := by
  cases i with
  | ret | call | draw | storeDecimal | storeRegisters | loadRegisters =>
      obtain ⟨_, _, done⟩ := orFault_eq_ok_iff.mp done
      cases done
      rfl
  | awaitKey x =>
      obtain ⟨keys, rfl, -⟩ | ⟨key, keys, rfl, -⟩ := awaitKey_cases done
      · rw [keys]
        rfl
      · rw [keys]
        rfl
  | _ =>
      cases done
      rfl

/-- An instruction that is carried out keeps to its footprint. -/
theorem changesOnly_of_execute (done : m.execute i = (.ok signal, next)) :
    m.ChangesOnly next i.footprint := by
  have unchanged := ChangesOnly.refl m i.footprint
  -- the window of a store is the same for both kinds, whatever the bytes are
  have memory (a : Nat) (outside : ¬ (m.index.val ≤ a ∧ a < m.index.val + i.footprint.bytes)) :
      next.memory.byteAt a = m.memory.byteAt a := by
    rw [memory_of_execute done, Memory.byteAt_put, Instruction.length_stored]
    exact if_neg fun reached => outside ⟨reached.1, reached.2.1⟩
  cases i with
  | clear =>
      cases done
      exact { unchanged with display := fun fixed => by cases fixed }
  | ret | call =>
      obtain ⟨_, _, done⟩ := orFault_eq_ok_iff.mp done
      cases done
      exact { unchanged with stack := fun fixed => by cases fixed }
  | jump | jumpOffset =>
      cases done
      exact .setPc ..
  | skip condition =>
      cases done
      split
      · exact .setPc ..
      · exact unchanged
  | setByte x | addByte x | readDelay x =>
      cases done
      exact .setV m _ (List.mem_singleton_self x)
  | awaitKey x =>
      obtain ⟨-, -, rfl⟩ | ⟨key, -, -, rfl, -⟩ := awaitKey_cases done
      · exact .setPc ..
      · exact .setV m _ (List.mem_singleton_self x)
  | arithmetic operation x y =>
      cases done
      refine .of_registers (fun r unlisted => ?_) fun _ => Registers.index_setResult ..
      have parts := Instruction.registers_footprint_arithmetic operation x y
      refine Registers.get_setResult_of_ne _ _ ?_ fun flagged => ?_
      · rintro rfl
        exact unlisted parts.1
      · rintro rfl
        exact unlisted (parts.2 ((Arithmetic.isSome_compute ..).symm.trans flagged))
  | setIndex | addIndex | pointAtDigit =>
      cases done
      exact { unchanged with index := fun fixed => by cases fixed }
  | random x mask =>
      cases done
      exact { ChangesOnly.setV m _ (List.mem_singleton_self x) with
        random := fun fixed => by cases fixed }
  | draw x y rows =>
      obtain ⟨sprite, _, done⟩ := orFault_eq_ok_iff.mp done
      cases done
      exact { ChangesOnly.setV m _ (List.mem_singleton_self Registers.flagRegister) with
        display := fun fixed => by cases fixed }
  | setDelay =>
      cases done
      exact { unchanged with delay := fun fixed => by cases fixed }
  | setSound =>
      cases done
      exact { unchanged with sound := fun fixed => by cases fixed }
  | storeDecimal | storeRegisters =>
      obtain ⟨_, _, done⟩ := orFault_eq_ok_iff.mp done
      cases done
      exact { unchanged with memory := memory }
  | loadRegisters last =>
      obtain ⟨values, found, done⟩ := orFault_eq_ok_iff.mp done
      cases done
      have count : values.length = last.val + 1 := by
        rw [← (Memory.readRange_eq_ok_iff.mp found).2, Memory.length_span]
      refine .of_registers (fun r unlisted => ?_) fun _ => Registers.index_setFrom ..
      have above : ¬ r ≤ last := fun listed =>
        unlisted (List.mem_filter.mpr ⟨List.mem_finRange r, decide_eq_true listed⟩)
      refine (Registers.get_setFrom ..).trans (if_neg fun reached => above ?_)
      rw [count] at reached
      exact Fin.le_def.mpr (by omega)

/-- Only calls and returns touch the call stack. -/
theorem stack_of_execute (noCall : i.isCall = false) (noReturn : i.isReturn = false)
    (done : m.execute i = (.ok signal, next)) : next.stack = m.stack := by
  refine (changesOnly_of_execute done).stack ?_
  rw [Instruction.stack_footprint, noCall, noReturn]
  rfl

/-- The interrupt comes from the outside: no step of a machine signals it. -/
theorem step_ne_interrupt : m.step ≠ (.ok .interrupt, next) := by
  intro made
  obtain ⟨-, i, -, done⟩ := step_eq_ok_iff.mp made
  exact i.signal_ne_interrupt _ (signal_of_execute done).symm

theorem fetched?_eq_some_toWord_iff : m.fetched? = some i.toWord ↔ m.instruction? = some i := by
  simp only [instruction?, Option.bind_eq_some_iff, Instruction.ofWord?_eq_some_iff]
  simp [eq_comm]

/-- At the word of an instruction, a step succeeds exactly if the machine runs and
carries out this instruction. -/
theorem step_eq_ok_iff_execute (found : m.fetched? = some i.toWord) :
    m.step = (.ok signal, next) ↔
      m.halted = false ∧ m.advance.execute i = (.ok signal, next) := by
  rw [step_eq_ok_iff]
  simp [fetched?_eq_some_toWord_iff.mp found]

/-- A machine that runs carries out the instruction of the word that it fetches, and
keeps to the footprint of this instruction. -/
theorem step_of_execute (running : m.halted = false) (found : m.fetched? = some i.toWord)
    (done : m.advance.execute i = (.ok signal, next)) :
    m.step = (.ok signal, next) ∧ m.ChangesOnly next i.footprint :=
  -- the advanced counter is no part that a footprint speaks of
  ⟨(step_eq_ok_iff_execute found).mpr ⟨running, done⟩, { changesOnly_of_execute done with }⟩

/-- A machine whose step executes an instruction runs, and has fetched the word of it. -/
theorem fetched?_of_executed? {address : UInt16}
    (executed : m.executed? .step = some ⟨address, i⟩) :
    m.halted = false ∧ m.fetched? = some i.toWord ∧
      ∃ signal next, m.step = (.ok signal, next) := by
  obtain ⟨-, standing, signal, next, made⟩ := executed?_step_eq_some_iff.mp executed
  exact ⟨(step_eq_ok_iff.mp made).1, fetched?_eq_some_toWord_iff.mpr standing, signal, next, made⟩

/-- A step that succeeds carries out the instruction of the word at the program
counter, reports what that instruction reports and keeps to its footprint. -/
theorem changesOnly_of_step (made : m.step = (.ok signal, next)) :
    ∃ i : Instruction, i.toWord = m.memory.wordAt m.pc.toNat ∧ signal = i.signal m.keypad.anyDown ∧
      m.ChangesOnly next i.footprint := by
  obtain ⟨-, i, standing, done⟩ := step_eq_ok_iff.mp made
  have word := Instruction.toWord_of_ofWord? (instruction?_eq_some_iff.mp standing).2
  have reported := signal_of_execute done
  -- the advanced counter is no part that a footprint speaks of
  have changes : m.ChangesOnly next i.footprint := { changesOnly_of_execute done with }
  exact ⟨i, word, reported, changes⟩

/-! ## Memory over a history -/

/-- The store that an action makes, if it carries out an instruction. Only two
instructions store any bytes. -/
def store? (m : Machine) (a : Action) : Option Store :=
  (m.executed? a).map fun e => ⟨m.index.val, e.instruction.stored m⟩

/-- The stores made during a history, in order. -/
def stores (m : Machine) : List Action → List Store
  | [] => []
  | a :: rest => (m.store? a).toList ++ (m.act a).stores rest

/-- The byte that the last of the stores to reach an address left there. -/
def lastStored? (stores : List Store) (address : Nat) : Option UInt8 :=
  stores.reverse.findSome? fun s => s.byteAt? address

theorem lastStored?_append (earlier later : List Store) (address : Nat) :
    lastStored? (earlier ++ later) address =
      (lastStored? later address).or (lastStored? earlier address) := by
  rw [lastStored?, List.reverse_append, List.findSome?_append]
  rfl

/-- One action leaves at an address the byte that it stores there, if it stores any. -/
theorem byteAt_act {a : Action} (kept : m.Keeps a) {address : Nat}
    (inside : address < Memory.size) :
    (m.act a).memory.byteAt address =
      (lastStored? (m.store? a).toList address).getD (m.memory.byteAt address) := by
  rcases act_cases kept with ⟨i, signal, -, -, done, executed⟩ | ⟨none, silent⟩
  · have same : i.stored m.advance = i.stored m := by cases i <;> rfl
    have memory : (m.act a).memory = m.memory.put m.index.val (i.stored m) :=
      (memory_of_execute done).trans (congrArg (m.memory.put m.index.val) same)
    have made : lastStored? (m.store? a).toList address =
        Store.byteAt? ⟨m.index.val, i.stored m⟩ address := by
      rw [store?, executed]
      exact List.findSome?_singleton
    rw [memory, made, Memory.byteAt_put_eq_getD _ _ _ inside]
  · rw [store?, none, silent]
    rfl

/-- After a history, a byte is what the last store to reach it left there, or
else what it was at first. -/
theorem byteAt_after {history : List Action} (kept : m.Continues history) {address : Nat}
    (inside : address < Memory.size) :
    (m.after history).memory.byteAt address =
      (lastStored? (m.stores history) address).getD (m.memory.byteAt address) := by
  induction history generalizing m with
  | nil => rfl
  | cons a rest ih =>
      rw [after_cons, ih kept.2, byteAt_act kept.1 inside, stores, lastStored?_append,
        Option.getD_or]

/-- A step that succeeds keeps to the footprint of the instruction at the program
counter and reports what that instruction reports, which is never an interrupt.
From a load on, a byte of memory is therefore what the last instruction that
stored to it left there, or else what the load put there. -/
theorem steps_keep_to_their_footprint (m : Machine) :
    (∀ signal next, m.step = (.ok signal, next) →
      (∃ i : Instruction, i.toWord = m.memory.wordAt m.pc.toNat ∧
        signal = i.signal m.keypad.anyDown ∧ m.ChangesOnly next i.footprint) ∧
      signal ≠ .interrupt) ∧
      ∀ start program history, load start program = (.ok (), m) → m.Continues history →
        ∀ address < Memory.size,
          (m.after history).memory.byteAt address =
            (lastStored? (m.stores history) address).getD
              ((Memory.image program).byteAt address) := by
  constructor
  · intro signal next made
    obtain ⟨i, word, reported, changes⟩ := changesOnly_of_step made
    refine ⟨⟨i, word, reported, changes⟩, ?_⟩
    rw [reported]
    exact i.signal_ne_interrupt _
  · intro start program history accepted kept address inside
    obtain ⟨-, rfl⟩ := load_eq_ok_iff.mp accepted
    exact byteAt_after kept inside

/-- Three digits are stored and then the register they came from, over the first
of them: the others stay, and so does what was loaded. The first step only
changes the register it names. -/
theorem steps_keep_to_their_footprint_overlapping :
    let program : List UInt8 := [0x60, 0x7B, 0xA3, 0x00, 0xF0, 0x33, 0xF0, 0x55]
    let m := (powerOn 0).loaded program
    let history : List Action := [.step, .step, .step, .tick, .step]
    (powerOn 0).load program = (.ok (), m) ∧ m.Continues history ∧
      (m.after history).memory.span 0x300 4 = [123, 2, 3, 0] ∧
      (m.after history).memory.byteAt 0x200 = 0x60 ∧
      ∃ next, m.step = (.ok .proceed, next) ∧ next.v 1 = m.v 1 ∧ next.display = m.display := by
  intro program m history
  have accepted : (powerOn 0).load program = (.ok (), m) := load_of_fits (by decide)
  have kept : m.Continues history := ⟨trivial, trivial, trivial, trivial, trivial, trivial⟩
  obtain ⟨stored, standing, found⟩ :
      m.stores history = [⟨0, []⟩, ⟨0, []⟩, ⟨0x300, [1, 2, 3]⟩, ⟨0x300, [123]⟩] ∧
        m.instruction? = some (.setByte 0 123) ∧
        m.memory.wordAt m.pc.toNat = (Instruction.setByte 0 123).toWord := by decide +kernel
  obtain ⟨step, run⟩ := steps_keep_to_their_footprint m
  have bytes := run (powerOn 0) program history accepted kept
  rw [stored] at bytes
  have made := step_eq_ok_iff.mpr ⟨rfl, _, standing, rfl⟩
  obtain ⟨⟨i, word, reported, changes⟩, -⟩ := step _ _ made
  obtain rfl : i = .setByte 0 123 := Instruction.toWord_inj.mp (word.trans found)
  have digits : (m.after history).memory.span 0x300 4 = [123, 2, 3, 0] := by
    rw [Memory.span, List.range_eq_range']
    simp only [List.range', List.map, bytes 0x300 (by decide), bytes 0x301 (by decide),
      bytes 0x302 (by decide), bytes 0x303 (by decide)]
    decide +kernel
  exact ⟨accepted, kept, digits, (bytes 0x200 (by decide)).trans (by decide +kernel), _, made,
    changes.registers 1 (by decide), changes.display rfl⟩

end Machine

end ChipEight
