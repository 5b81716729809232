/-
# Blanking a part of a machine

Some parts of a machine have no say in what is fetched, nor in whether it can be
carried out. Such a part can be blanked, that is put to some fixed value, and a
step still fails or succeeds as before, with the same fault and the same
instruction. If the instruction does not read the part, the step also does the
same as before to everything else.
-/

import ChipEight.Proofs.Diagnosis
import ChipEight.Proofs.History

namespace ChipEight

/-- What is to be seen of an attempt through a function that blanks a part of machines. -/
def Attempt.through (attempt : Attempt) (blank : Machine → Machine) : Attempt :=
  (attempt.1, blank attempt.2)

/-- The function blanks a part with no say in what is fetched and whether it can
be carried out. Of what is carried out, only the given instructions read the part. -/
structure Blanks (blank : Machine → Machine) (reads : Instruction → Bool) : Prop where
  idem (m : Machine) : blank (blank m) = blank m
  diagnosis (m : Machine) : (blank m).diagnosis = m.diagnosis
  instruction? (m : Machine) : (blank m).instruction? = m.instruction?
  pc (m : Machine) : (blank m).pc = m.pc
  halted (m : Machine) : (blank m).halted = m.halted
  halt (m : Machine) : (blank m).halt = blank m.halt
  advance (m : Machine) : (blank m).advance = blank m.advance
  execute (m : Machine) {i : Instruction} (unread : reads i = false) :
    (m.execute i).through blank = ((blank m).execute i).through blank

variable {blank : Machine → Machine} {reads : Instruction → Bool} {m m' : Machine}

/-- What is done with the outcome of a component is done on the blank machine, whether
or not the outcome is a fault. -/
theorem through_orFault {α : Type} {found : Except Fault α} {go go' : α → Attempt}
    (idem : blank (blank m) = blank m)
    (same : ∀ value, (go value).through blank = (go' value).through blank) :
    (m.orFault found go).through blank = ((blank m).orFault found go').through blank := by
  cases found with
  | ok value => exact same value
  | error fault => exact congrArg (Prod.mk (Except.error fault)) idem.symm

namespace Blanks

variable (blanks : Blanks blank reads)

include blanks

/-- What a step carries out can be told from the blank machine, even if the
instruction reads what is blanked. -/
theorem executed?_step (m : Machine) : (blank m).executed? .step = m.executed? .step := by
  have here := m.step_of_diagnosis
  have there := (blank m).step_of_diagnosis
  rw [blanks.diagnosis] at there
  cases diagnosed : m.diagnosis with
  | some fault =>
      rw [diagnosed] at here there
      rw [Machine.executed?_step_of_error here, Machine.executed?_step_of_error there]
  | none =>
      rw [diagnosed] at here there
      obtain ⟨signal, next, made⟩ := here
      obtain ⟨signal', next', made'⟩ := there
      simp only [Machine.executed?, made, made', blanks.instruction?, blanks.pc]

/-- A step goes the same way from the blank machine, unless it carries out an
instruction that reads what is blanked. -/
theorem step (m : Machine)
    (unread : ∀ e, m.executed? .step = some e → reads e.instruction = false) :
    m.step.through blank = (blank m).step.through blank := by
  have here := m.step_of_diagnosis
  cases diagnosed : m.diagnosis with
  | some fault =>
      have there := (blank m).step_of_diagnosis
      rw [diagnosed] at here
      rw [blanks.diagnosis, diagnosed] at there
      rw [here, there, blanks.halt]
      exact congrArg (Prod.mk (Except.error fault)) (blanks.idem m.halt).symm
  | none =>
      rw [diagnosed] at here
      obtain ⟨signal, next, made⟩ := here
      obtain ⟨running, i, standing, done⟩ := Machine.step_eq_ok_iff.mp made
      have executed := Machine.executed?_step_of_ok standing made
      have same := blanks.execute m.advance (unread _ executed)
      rw [done, ← blanks.advance] at same
      cases done' : (blank m).advance.execute i with
      | mk outcome next' =>
          rw [done'] at same
          obtain rfl : .ok signal = outcome := congrArg Prod.fst same
          have made' : (blank m).step = (.ok signal, next') :=
            Machine.step_eq_ok_iff.mpr
              ⟨(blanks.halted m).trans running, i, (blanks.instruction? m).trans standing, done'⟩
          rw [made, made']
          exact same

/-- Steps go the same way from machines that are the same when blanked. -/
theorem step_congr (same : blank m = blank m')
    (unread : ∀ e, m.executed? .step = some e → reads e.instruction = false) :
    m.step.through blank = m'.step.through blank := by
  have executed : m.executed? .step = m'.executed? .step := by
    rw [← blanks.executed?_step m, same, blanks.executed?_step]
  rw [blanks.step m unread, same, ← blanks.step m' (executed ▸ unread)]

end Blanks

end ChipEight
