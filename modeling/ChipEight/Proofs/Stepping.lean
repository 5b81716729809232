/-
# Plain stepping

The plainest way to run a program is to step the machine, until a step fails or
enough steps are made. What comes of it is what a reader of a program would work
out by hand: the machine at the end, how many steps drew, and the fault if there
was one. Once a step has failed, more steps to make lead to nothing new.

A host has a part in stepping only by the time that it lets pass and by the random
bytes that it seeds. Behind a veil over both, steps go the same way on every host,
as long as no instruction is carried out that reads either.
-/

import ChipEight.Proofs.Blanking

namespace ChipEight

namespace Instruction

/-- Whether an instruction reads what a host decides: the delay timer, or at least
one bit of a random byte. -/
def readsHost : Instruction → Bool
  | .readDelay _ => true
  | .random _ mask => mask != 0
  | _ => false

end Instruction

/-- What comes of plain stepping. -/
structure Stepped where
  /-- The machine at the end. -/
  machine : Machine
  /-- The number of steps that drew. -/
  draws : Nat
  /-- The fault of the step that failed, if one did. -/
  fault? : Option Fault

namespace Machine

variable {m m' next : Machine} {signal : Signal} {fault : Fault} {i : Instruction}

/-- Step a machine until so many steps are made or one has failed. -/
def stepUpTo (m : Machine) : Nat → Stepped
  | 0 => ⟨m, 0, none⟩
  | left + 1 =>
    match m.step with
    | (.error fault, next) => ⟨next, 0, some fault⟩
    | (.ok signal, next) =>
      let later := next.stepUpTo left
      { later with draws := (if signal = .draw then 1 else 0) + later.draws }

theorem stepUpTo_of_error (failed : m.step = (.error fault, next)) (left : Nat) :
    m.stepUpTo (left + 1) = ⟨next, 0, some fault⟩ := by
  rw [stepUpTo, failed]

theorem stepUpTo_of_ok (made : m.step = (.ok signal, next)) (left : Nat) :
    m.stepUpTo (left + 1) =
      { next.stepUpTo left with
        draws := (if signal = .draw then 1 else 0) + (next.stepUpTo left).draws } := by
  rw [stepUpTo, made]

/-- A step that has failed is the last one, however many are still to be made. -/
theorem stepUpTo_of_fault {steps more : Nat} (failed : (m.stepUpTo steps).fault? ≠ none)
    (larger : steps ≤ more) : m.stepUpTo more = m.stepUpTo steps := by
  induction steps generalizing m more with
  | zero => exact absurd rfl failed
  | succ steps ih =>
      cases more with
      | zero => cases larger
      | succ more =>
          cases made : m.step with
          | mk outcome next =>
              cases outcome with
              | error fault => rw [stepUpTo_of_error made, stepUpTo_of_error made]
              | ok signal =>
                  rw [stepUpTo_of_ok made] at failed
                  rw [stepUpTo_of_ok made, stepUpTo_of_ok made,
                    ih failed (Nat.le_of_succ_le_succ larger)]

/-! ## Behind the veil -/

/-- None of so many steps carries out an instruction that reads what a host decides. -/
def HostFree (m : Machine) (steps : Nat) : Prop :=
  ∀ x ∈ m.executions (List.replicate steps .step), x.instruction.readsHost = false

instance (m : Machine) (steps : Nat) : Decidable (m.HostFree steps) :=
  inferInstanceAs (Decidable (∀ _ ∈ _, _))

theorem hostFree_succ {steps : Nat} :
    m.HostFree (steps + 1) ↔
      (∀ x, m.executed? .step = some x → x.instruction.readsHost = false) ∧
        m.step.2.HostFree steps := by
  rw [HostFree, List.replicate_succ, executions, List.forall_mem_append]
  simp only [Option.mem_toList]
  rfl

/-- A machine without what a host decides. -/
def veil (m : Machine) : Machine :=
  { m with timers := .zero, random := .ofSeed 0 }

theorem veil_takeRandom (m : Machine) (x : Register) :
    (m.takeRandom x 0).veil = (m.veil.takeRandom x 0).veil := by
  simp only [takeRandom, UInt8.and_zero]
  rfl

/-- An instruction that does not read what a host decides does the same on every host. -/
theorem through_veil_execute (m : Machine) (unread : i.readsHost = false) :
    (m.execute i).through veil = (m.veil.execute i).through veil := by
  cases i with
  | ret | call | draw | storeDecimal | storeRegisters | loadRegisters =>
      exact through_orFault rfl fun _ => rfl
  | random x mask =>
      obtain rfl : mask = 0 := by simpa [Instruction.readsHost] using unread
      exact congrArg (Prod.mk (Except.ok Signal.proceed)) (veil_takeRandom m x)
  | readDelay => cases unread
  | skip condition =>
      have met : condition.isMet m.veil = condition.isMet m := by cases condition <;> rfl
      rw [execute, execute, met]
      split <;> rfl
  | awaitKey x =>
      rw [execute, execute, takeKey, takeKey]
      dsimp only [veil]
      split <;> rfl
  | _ => rfl

theorem blanks_veil : Blanks veil Instruction.readsHost where
  idem _ := rfl
  diagnosis _ := rfl
  instruction? _ := rfl
  pc _ := rfl
  halted _ := rfl
  halt _ := rfl
  advance _ := rfl
  execute m _ unread := through_veil_execute m unread

theorem hostFree_of_halted (stopped : m.halted = true) (steps : Nat) : m.HostFree steps := by
  induction steps with
  | zero => nofun
  | succ steps ih =>
      have failed := step_of_halted stopped
      rw [hostFree_succ, failed, executed?_step_of_error failed]
      exact ⟨nofun, ih⟩

/-- Behind a step that has failed, nothing is carried out. -/
theorem hostFree_of_fault {steps : Nat} (failed : (m.stepUpTo steps).fault? ≠ none)
    (free : m.HostFree steps) (more : Nat) : m.HostFree more := by
  induction steps generalizing m more with
  | zero => exact absurd rfl failed
  | succ steps ih =>
      obtain ⟨unread, later⟩ := hostFree_succ.mp free
      cases more with
      | zero => nofun
      | succ more =>
          refine hostFree_succ.mpr ⟨unread, ?_⟩
          cases made : m.step with
          | mk outcome next =>
              rw [made] at later
              cases outcome with
              | error fault =>
                  obtain ⟨rfl, -⟩ := step_eq_error_iff.mp made
                  exact hostFree_of_halted rfl more
              | ok signal =>
                  rw [stepUpTo_of_ok made] at failed
                  exact ih failed later more

end Machine

end ChipEight
