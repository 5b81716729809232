/-
# The screen is never out of date

A run hands a display over exactly when a step has drawn on it, and at once: no
poll comes in between, and what is handed over is what the step left. No other
instruction touches the display, and a step that fails has drawn nothing. So
whatever was handed over last in a run is what its display still holds, at every
poll and when the run is over.
-/

import ChipEight.Proofs.Passes

namespace ChipEight

/-- The display that a call hands over, if it is a call to show one. -/
def DeviceCall.frame? : DeviceCall → Option Display
  | .draw frame => some frame
  | .buzz _ => none

/-- The displays handed over in a log, each with the number of polls before it. -/
def shown (log : List (Nat × DeviceCall)) : List (Nat × Display) :=
  log.filterMap fun call => call.2.frame?.map fun frame => (call.1, frame)

/-- The display handed over last in a log, if any was. -/
def lastShown? (log : List (Nat × DeviceCall)) : Option Display :=
  (shown log).getLast?.map Prod.snd

theorem shown_append (earlier later : List (Nat × DeviceCall)) :
    shown (earlier ++ later) = shown earlier ++ shown later :=
  List.filterMap_append

theorem shown_numbered (polls : Nat) (calls : List DeviceCall) :
    shown (calls.map fun call => (polls, call)) =
      (calls.filterMap DeviceCall.frame?).map fun frame => (polls, frame) := by
  rw [shown, List.filterMap_map, List.map_filterMap]
  rfl

theorem lastShown?_append (earlier later : List (Nat × DeviceCall)) :
    lastShown? (earlier ++ later) = (lastShown? later).or (lastShown? earlier) := by
  rw [lastShown?, shown_append, List.getLast?_append, Option.map_or]
  rfl

namespace Instruction

/-- What may change the display reports that it has drawn. -/
theorem display_footprint {i : Instruction} {someKeyDown : Bool}
    (other : i.signal someKeyDown ≠ .draw) : i.footprint.display = false := by
  cases i with
  | clear | draw => exact absurd rfl other
  | _ => rfl

end Instruction

namespace Machine

variable {m next : Machine} {outcome : Except Fault Signal}

/-- A step that does not report that it has drawn leaves the display alone, and so
does one that fails. -/
theorem display_of_step (made : m.step = (outcome, next)) (other : outcome ≠ .ok .draw) :
    next.display = m.display := by
  cases outcome with
  | error fault =>
      obtain ⟨rfl, -⟩ := step_eq_error_iff.mp made
      rfl
  | ok signal =>
      obtain ⟨i, -, reported, changes⟩ := changesOnly_of_step made
      apply changes.display
      apply Instruction.display_footprint
      rw [← reported]
      exact fun drew => other (congrArg Except.ok drew)

theorem display_tick (m : Machine) (count : Nat) : (m.tick count).display = m.display := by
  rw [tick_eq]

theorem display_editKeys (m : Machine) (edits : List KeyEdit) :
    (m.editKeys edits).display = m.display := by
  rw [editKeys_eq]

end Machine

namespace Emulator

/-- The displays to hand over after a step: the one it left, if it has drawn. -/
def drawn : Except Fault Signal × Emulator → List Display
  | (.ok .draw, next) => [next.machine.display]
  | _ => []

/-! ## One pass -/

theorem display_step {e next : Emulator} {now : Readings} {outcome : Except Fault Signal}
    (made : e.step now = (outcome, next)) (other : outcome ≠ .ok .draw) :
    next.machine.display = e.machine.display := by
  cases stopped : e.interrupted with
  | true =>
      rw [step_of_interrupted stopped] at made
      cases made
      rfl
  | false =>
      obtain ⟨cycles, pace, timerClock, -, same⟩ := step_of_running stopped now
      rw [same] at made
      cases made
      exact (Machine.display_of_step rfl other).trans (Machine.display_tick _ _)

theorem frames_followSound (e : Emulator) : e.followSound.2.filterMap DeviceCall.frame? = [] := by
  rw [followSound]
  split <;> rfl

theorem machine_followSound (e : Emulator) : e.followSound.1.machine = e.machine := by
  rw [fst_followSound]

/-- A pass hands over what its step has drawn, and nothing else. -/
theorem frames_turn (e : Emulator) (now : Readings) :
    (e.turn now).calls.filterMap DeviceCall.frame? = drawn (e.step now) := by
  rcases e.turn_cases now with ⟨fault, next, made, turned⟩ | ⟨stopped, turned⟩ |
    ⟨signal, next, -, made, turned⟩
  · rw [turned, made]
    rfl
  · rw [turned, step_of_interrupted stopped]
    exact frames_followSound e
  · rw [turned, made, List.filterMap_append, frames_followSound, List.nil_append]
    cases signal <;> rfl

/-- Behind a pass, the display is the one that it handed over, or else as before. -/
theorem display_turn (e : Emulator) (now : Readings) :
    (e.turn now).emulator.machine.display =
      (drawn (e.step now)).getLast?.getD e.machine.display := by
  rcases e.turn_cases now with ⟨fault, next, made, turned⟩ | ⟨stopped, turned⟩ |
    ⟨signal, next, -, made, turned⟩
  · rw [turned, made]
    exact display_step made nofun
  · rw [turned, step_of_interrupted stopped]
    exact congrArg Machine.display (machine_followSound e)
  · have followed : (e.turn now).emulator.machine.display = next.machine.display := by
      rw [turned]
      exact congrArg Machine.display (machine_followSound next)
    rw [followed, made]
    by_cases drew : signal = .draw
    · rw [drew]
      rfl
    · have nothing : drawn (.ok signal, next) = [] := by
        cases signal with
        | draw => exact absurd rfl drew
        | _ => rfl
      rw [nothing]
      apply display_step made
      intro same
      exact drew (Except.ok.inj same)

/-! ## Whole runs -/

section Run

variable (script : Nat → List KeyEdit) (now : Nat → Readings) (stop : Nat)

theorem display_polled (e : Emulator) (k : Nat) :
    (e.polled script stop k).machine.display = e.machine.display := by
  obtain ⟨halted, machine⟩ := machine_polled script stop e k
  rw [machine]
  exact Machine.display_editKeys _ _

theorem shown_turnAt (e : Emulator) (k : Nat) :
    shown ((e.turnAt script now stop k).calls.map fun call => (k + 1, call)) =
      (drawn (e.stepAt script now stop k)).map fun frame => (k + 1, frame) := by
  rw [shown_numbered, turnAt, frames_turn]
  rfl

theorem shown_callsOf (e : Emulator) (k : Nat) :
    shown (e.callsOf script now stop k) =
      (List.range k).flatMap fun i =>
        (drawn (e.stepAt script now stop i)).map fun frame => (i + 1, frame) := by
  induction k with
  | zero => rfl
  | succ k ih =>
      rw [callsOf, shown_append, ih, shown_turnAt, List.range_succ, List.flatMap_append,
        List.flatMap_singleton]

/-- At a poll, the display is the one handed over last, by induction on the passes. -/
theorem display_atPoll (e : Emulator) (k : Nat) :
    (e.atPoll script now stop k).machine.display =
      (lastShown? (e.callsOf script now stop k)).getD e.machine.display := by
  induction k with
  | zero => rfl
  | succ k ih =>
      have last : lastShown? ((e.turnAt script now stop k).calls.map fun call => (k + 1, call)) =
          (drawn (e.stepAt script now stop k)).getLast? := by
        rw [lastShown?, shown_turnAt, List.getLast?_map, Option.map_map]
        exact congrFun Option.map_id _
      rw [atPoll_succ, turnAt, display_turn, display_polled, ih, callsOf, lastShown?_append, last,
        Option.getD_or]
      rfl

/-- A run shows exactly what its steps have drawn, and its screen is never out of
date.

Whatever the emulator, the keys and the readings of time are: the displays that a
run hands over are, poll by poll, those that the step behind the poll left if it
reported that it had drawn, each handed over once and before the next poll. So at
every poll that the run comes to, and when it has ended in whatever way, the
display of the machine is the one handed over last, or the one from the start of
the run if there was none. -/
theorem screen_is_never_out_of_date (e : Emulator) (script : Nat → List KeyEdit)
    (now : Nat → Readings) (stop : Nat) :
    let devices := Devices.logging script now
    let done := Id.run (e.run devices stop [])
    (∀ k < done.polls,
      e.run devices stop [] =
        runLoop devices (stop - k) k (e.atPoll script now stop k) (callsBefore k done.record)) ∧
      (shown done.record =
        (List.range done.polls).flatMap fun k =>
          (drawn (e.stepAt script now stop k)).map fun frame => (k + 1, frame)) ∧
      (∀ k < done.polls,
        (e.atPoll script now stop k).machine.display =
          (lastShown? (callsBefore k done.record)).getD e.machine.display) ∧
      done.emulator.machine.display = (lastShown? done.record).getD e.machine.display := by
  intro devices done
  obtain ⟨last, ends⟩ := exists_endsAt script now stop e
  have record : shown done.record = shown (e.callsOf script now stop (last + 1)) := by
    rw [ends.record, shown_append]
    split <;> exact List.append_nil _
  refine ⟨run_at_poll e script now stop, ?_, ?_, ?_⟩
  · rw [record, ends.polls, shown_callsOf]
  · intro k made
    rw [ends.polls] at made
    rw [ends.callsBefore_record (Nat.le_of_lt_succ made), display_atPoll]
  · rw [lastShown?, record, ends.emulator]
    exact display_atPoll script now stop e (last + 1)

/-- A row of pixels is drawn and erased, and then a return fails: two displays are
handed over, behind the first two polls, and the run leaves the second one
although it ends in a fault. -/
theorem screen_is_never_out_of_date_failing :
    let program : List UInt8 := [0xD0, 0x01, 0x00, 0xE0, 0x00, 0xEE]
    let e :=
      { ofSettings .usual (.replicate 8 0) 0 with machine := (Machine.powerOn 0).loaded program }
    let script : Nat → List KeyEdit := fun k => if k = 1 then [.set 3 true] else []
    let now : Nat → Readings := fun k => .atOnce (20000000 * k)
    let done := Id.run (e.run (.logging script now) 9 [])
    done.polls = 3 ∧ done.result = .error .stackUnderflow ∧
      (shown done.record).map Prod.fst = [1, 2] ∧
      (e.atPoll script now 9 1).machine.display.lit 0 0 = true ∧
      done.emulator.machine.display.lit 0 0 = false := by
  intro program e script now done
  obtain ⟨polls, result⟩ : done.polls = 3 ∧ done.result = .error .stackUnderflow := by
    decide +kernel
  obtain ⟨-, frames, atPoll, atEnd⟩ := screen_is_never_out_of_date e script now 9
  have handed : (shown done.record).map Prod.fst = [1, 2] := by
    rw [frames, polls]
    decide +kernel
  have drawn : (e.atPoll script now 9 1).machine.display.lit 0 0 = true := by
    rw [atPoll 1 (by rw [polls]; decide)]
    decide +kernel
  have erased : done.emulator.machine.display.lit 0 0 = false := by
    rw [atEnd]
    decide +kernel
  exact ⟨polls, result, handed, drawn, erased⟩

end Run

end Emulator

end ChipEight
