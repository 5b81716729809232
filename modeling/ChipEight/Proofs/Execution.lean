/-
# What one step can do

A step either carries out the instruction at the program counter or fails and
leaves the machine as it was, now halted. This module opens the definitions of a
step once: what is fetched, when an instruction is refused and with which fault,
and that a refusal comes before the first change. Everything later reasons from
these statements, so that a change to one instruction stays here.
-/

import ChipEight.Machine.Step

namespace ChipEight

namespace Instruction

/-- The number of bytes of memory, from the index on, that an instruction reads
or writes. -/
def dataLength : Instruction → Nat
  | .draw _ _ rows => rows.val
  | .storeDecimal _ => 3
  | .storeRegisters last | .loadRegisters last => last.val + 1
  | _ => 0

/-- Whether an instruction is a call. -/
def isCall : Instruction → Bool
  | .call _ => true
  | _ => false

/-- Whether an instruction is a return. -/
def isReturn : Instruction → Bool
  | .ret => true
  | _ => false

end Instruction

namespace Fault

/-- The faults of a machine at work, as against those of loading and of files. -/
def IsOfStep : Fault → Prop
  | .outOfBounds _ | .unknownInstruction .. | .stackOverflow | .stackUnderflow | .halted => True
  | .programTooLarge .. | .file _ | .formatting => False

end Fault

namespace Memory

/-- The address behind an instruction that is inside the memory does not wrap. -/
theorem toNat_add_two {a : UInt16} (inside : a.toNat + 1 < size) :
    (a + 2).toNat = a.toNat + 2 := by
  have bound : a.toNat + 2 < 2 ^ 16 := by
    simp only [size] at inside
    omega
  rw [UInt16.toNat_add]
  exact Nat.mod_eq_of_lt bound

end Memory

namespace Machine

variable {m next : Machine} {i : Instruction} {signal : Signal} {fault : Fault}

/-- The word at the program counter, if both of its bytes are inside the memory. -/
def fetched? (m : Machine) : Option Word :=
  (m.memory.readWord m.pc.toNat).toOption

/-- The instruction at the program counter, if there is one. -/
def instruction? (m : Machine) : Option Instruction :=
  m.fetched?.bind Instruction.ofWord?

/-- The fault of accessing so many bytes from the index on, unless all are inside. -/
def dataFault (m : Machine) (length : Nat) : Option Fault :=
  if m.index.val + length ≤ Memory.size then none
  else some (.outOfBounds (max m.index.val Memory.size))

/-- The fault that an instruction ends in on a machine, if it is refused. -/
def refusal (m : Machine) : Instruction → Option Fault
  | .ret => if m.stack.depth = 0 then some .stackUnderflow else none
  | .call _ => if m.stack.depth = CallStack.capacity then some .stackOverflow else none
  | i => m.dataFault i.dataLength

/-! ## Fetching -/

theorem fetched?_eq (m : Machine) :
    m.fetched? =
      if m.pc.toNat + 1 < Memory.size then some (m.memory.wordAt m.pc.toNat) else none := by
  rw [fetched?, Memory.readWord_eq]
  split <;> rfl

theorem fetched?_eq_some_iff {word : Word} :
    m.fetched? = some word ↔
      m.pc.toNat + 1 < Memory.size ∧ m.memory.wordAt m.pc.toNat = word := by
  rw [fetched?_eq]
  split
  · next inside => simp [inside]
  · next outside => simp [outside]

theorem instruction?_eq_some_iff :
    m.instruction? = some i ↔
      m.pc.toNat + 1 < Memory.size ∧
        Instruction.ofWord? (m.memory.wordAt m.pc.toNat) = some i := by
  simp only [instruction?, Option.bind_eq_some_iff, fetched?_eq_some_iff]
  constructor
  · rintro ⟨word, ⟨inside, rfl⟩, read⟩
    exact ⟨inside, read⟩
  · rintro ⟨inside, read⟩
    exact ⟨_, ⟨inside, rfl⟩, read⟩

theorem attempt_of_outside (outside : Memory.size ≤ m.pc.toNat + 1) :
    m.attempt = (.error (.outOfBounds (max m.pc.toNat Memory.size)), m) := by
  rw [attempt, Memory.readWord_eq, if_neg (Nat.not_lt.mpr outside), orFault]

theorem attempt_of_unknown (inside : m.pc.toNat + 1 < Memory.size)
    (unknown : Instruction.ofWord? (m.memory.wordAt m.pc.toNat) = none) :
    m.attempt =
      (.error (.unknownInstruction m.pc (m.memory.wordAt m.pc.toNat)), m.advance) := by
  rw [attempt, Memory.readWord_eq, if_pos inside]
  simp only [orFault, unknown]

theorem attempt_of_instruction? (standing : m.instruction? = some i) :
    m.attempt = m.advance.execute i := by
  obtain ⟨inside, read⟩ := instruction?_eq_some_iff.mp standing
  rw [attempt, Memory.readWord_eq, if_pos inside]
  simp only [orFault, read]

/-! ## Refusals -/

theorem orFault_eq_ok_iff {α : Type} {found : Except Fault α} {go : α → Attempt} :
    m.orFault found go = (.ok signal, next) ↔
      ∃ value, found = .ok value ∧ go value = (.ok signal, next) := by
  cases found <;> simp [orFault]

/-- A lookup whose use cannot fail ends in its own fault, on the same machine. -/
theorem orFault_eq_error_iff {α : Type} {found : Except Fault α} {go : α → Attempt}
    (total : ∀ value, ∃ signal, (go value).1 = .ok signal) :
    m.orFault found go = (.error fault, next) ↔ found = .error fault ∧ next = m := by
  cases found with
  | ok value =>
      obtain ⟨signal, done⟩ := total value
      constructor
      · intro failed
        rw [orFault] at failed
        rw [failed] at done
        cases done
      · rintro ⟨impossible, -⟩
        cases impossible
  | error cause => simp [orFault, eq_comm]

theorem readRange_eq_error_iff {length : Nat} :
    m.memory.readRange m.index.val length = .error fault ↔ m.dataFault length = some fault := by
  rw [Memory.readRange_eq, dataFault]
  split <;> simp

theorem writeRange_eq_error_iff {bs : List UInt8} :
    m.memory.writeRange m.index.val bs = .error fault ↔ m.dataFault bs.length = some fault := by
  rw [Memory.writeRange_eq, dataFault]
  split <;> simp

/-- The index is an address, so nothing is wrong with accessing no byte at all. -/
theorem dataFault_zero (m : Machine) : m.dataFault 0 = none :=
  if_pos (Nat.le_of_lt m.index.isLt)

/-- An instruction fails exactly when it is refused, and then nothing about the
machine has changed: what can be missing is looked up before the first change. -/
theorem execute_eq_error_iff :
    m.execute i = (.error fault, next) ↔ m.refusal i = some fault ∧ next = m := by
  cases i with
  | ret =>
      rw [execute, returnFromCall, orFault_eq_error_iff fun _ => ⟨_, rfl⟩,
        CallStack.pop_eq_error_iff]
      simp [refusal, eq_comm]
  | call target =>
      rw [execute, callTo, orFault_eq_error_iff fun _ => ⟨_, rfl⟩, CallStack.push_eq_error_iff]
      simp [refusal, eq_comm]
  | draw x y rows =>
      rw [execute, drawSprite, orFault_eq_error_iff fun _ => ⟨_, rfl⟩, readRange_eq_error_iff]
      rfl
  | storeDecimal x =>
      rw [execute, storeAtIndex, orFault_eq_error_iff fun _ => ⟨_, rfl⟩, writeRange_eq_error_iff]
      rfl
  | storeRegisters last =>
      have count : (m.registers.firstValues (last.val + 1)).length = last.val + 1 := by
        rw [Registers.firstValues, List.length_take, Vector.length_toList]
        exact Nat.min_eq_left (Nat.succ_le_of_lt last.isLt)
      rw [execute, storeAtIndex, orFault_eq_error_iff fun _ => ⟨_, rfl⟩, writeRange_eq_error_iff,
        count]
      rfl
  | loadRegisters last =>
      rw [execute, loadAtIndex, orFault_eq_error_iff fun _ => ⟨_, rfl⟩, readRange_eq_error_iff]
      rfl
  | awaitKey x =>
      simp only [execute, takeKey, refusal, Instruction.dataLength, dataFault_zero]
      split <;> simp
  | _ => simp [execute, refusal, Instruction.dataLength, dataFault_zero]

theorem execute_eq_ok_of_refusal (accepted : m.refusal i = none) :
    ∃ signal next, m.execute i = (.ok signal, next) := by
  cases done : m.execute i with
  | mk outcome next =>
      cases outcome with
      | ok signal => exact ⟨signal, next, rfl⟩
      | error fault =>
          obtain ⟨refused, -⟩ := execute_eq_error_iff.mp done
          rw [accepted] at refused
          cases refused

/-! ## The call stack -/

theorem execute_call_eq_ok_iff {target : Address} :
    m.execute (.call target) = (.ok signal, next) ↔
      ∃ stack, m.stack.push m.pc = .ok stack ∧ signal = .jump ∧
        next = { m with stack }.setPc (UInt16.ofNat target.val) := by
  rw [execute, callTo, orFault_eq_ok_iff]
  simp [eq_comm]

theorem execute_ret_eq_ok_iff :
    m.execute .ret = (.ok signal, next) ↔
      ∃ pc stack, m.stack.pop = .ok (pc, stack) ∧ signal = .jump ∧
        next = { m with stack }.setPc pc := by
  rw [execute, returnFromCall, orFault_eq_ok_iff]
  simp [eq_comm]

/-! ## Steps -/

theorem setPc_advance (m : Machine) : m.advance.setPc m.pc = m := rfl

/-- An attempt meets the end of the memory, a word that is no instruction, or an
instruction. -/
theorem fetch_cases (m : Machine) :
    Memory.size ≤ m.pc.toNat + 1 ∨
      (m.pc.toNat + 1 < Memory.size ∧
        Instruction.ofWord? (m.memory.wordAt m.pc.toNat) = none) ∨
      ∃ i, m.instruction? = some i := by
  rcases Nat.lt_or_ge (m.pc.toNat + 1) Memory.size with inside | outside
  · cases read : Instruction.ofWord? (m.memory.wordAt m.pc.toNat) with
    | none => exact .inr (.inl ⟨inside, rfl⟩)
    | some i => exact .inr (.inr ⟨i, instruction?_eq_some_iff.mpr ⟨inside, read⟩⟩)
  · exact .inl outside

/-- Putting the counter back is all that is needed after a failed attempt. -/
theorem setPc_of_attempt_error (failed : m.attempt = (.error fault, next)) :
    next.setPc m.pc = m := by
  rcases fetch_cases m with outside | ⟨inside, unknown⟩ | ⟨i, standing⟩
  · rw [attempt_of_outside outside] at failed
    cases failed
    rfl
  · rw [attempt_of_unknown inside unknown] at failed
    cases failed
    exact setPc_advance m
  · rw [attempt_of_instruction? standing] at failed
    obtain ⟨-, rfl⟩ := execute_eq_error_iff.mp failed
    exact setPc_advance m

theorem halt_of_halted (stopped : m.halted = true) : m.halt = m := by
  rw [halt, ← stopped]

theorem step_of_halted (stopped : m.halted = true) : m.step = (.error .halted, m) := by
  rw [step, if_pos stopped]

/-- A step succeeds exactly when the machine runs and carries out the
instruction at its program counter. -/
theorem step_eq_ok_iff :
    m.step = (.ok signal, next) ↔
      m.halted = false ∧
        ∃ i, m.instruction? = some i ∧ m.advance.execute i = (.ok signal, next) := by
  constructor
  · intro done
    cases running : m.halted with
    | true =>
        rw [step_of_halted running] at done
        cases done
    | false =>
        have tried : m.attempt = (.ok signal, next) := by
          simp only [step, running, Bool.false_eq_true, if_false] at done
          split at done
          · next attempted =>
              rw [attempted]
              exact done
          · cases done
        refine ⟨rfl, ?_⟩
        rcases fetch_cases m with outside | ⟨inside, unknown⟩ | ⟨i, standing⟩
        · rw [attempt_of_outside outside] at tried
          cases tried
        · rw [attempt_of_unknown inside unknown] at tried
          cases tried
        · rw [attempt_of_instruction? standing] at tried
          exact ⟨i, standing, tried⟩
  · rintro ⟨running, i, standing, done⟩
    simp only [step, running, attempt_of_instruction? standing, done, Bool.false_eq_true, if_false]

/-- A failed step leaves everything as it was, and the machine halted. -/
theorem step_eq_error_iff :
    m.step = (.error fault, next) ↔
      next = m.halt ∧
        ((m.halted = true ∧ fault = .halted) ∨
          (m.halted = false ∧ m.attempt.1 = .error fault)) := by
  cases running : m.halted with
  | true =>
      rw [step_of_halted running, halt_of_halted running]
      simp [eq_comm, and_comm]
  | false =>
      cases tried : m.attempt with
      | mk outcome after =>
          cases outcome with
          | ok signal => simp [step, running, tried]
          | error cause =>
              rw [step]
              simp only [running, tried, Bool.false_eq_true, if_false]
              rw [setPc_of_attempt_error tried]
              simp [eq_comm, and_comm]

/-- What refuses an instruction is the same before and after the counter moves on. -/
theorem refusal_advance (m : Machine) (i : Instruction) : m.advance.refusal i = m.refusal i := by
  cases i <;> rfl

theorem step_of_refusal (running : m.halted = false) (standing : m.instruction? = some i)
    (refused : m.refusal i = some fault) : m.step = (.error fault, m.halt) := by
  refine step_eq_error_iff.mpr ⟨rfl, .inr ⟨running, ?_⟩⟩
  have failed : m.advance.execute i = (.error fault, m.advance) :=
    execute_eq_error_iff.mpr ⟨(refusal_advance m i).trans refused, rfl⟩
  rw [attempt_of_instruction? standing, failed]

theorem isOfStep_of_refusal (refused : m.refusal i = some fault) : fault.IsOfStep := by
  unfold refusal dataFault at refused
  repeat' split at refused
  all_goals cases refused <;> trivial

theorem isOfStep_of_step (failed : m.step = (.error fault, next)) : fault.IsOfStep := by
  obtain ⟨-, ⟨-, rfl⟩ | ⟨-, tried⟩⟩ := step_eq_error_iff.mp failed
  · trivial
  rcases fetch_cases m with outside | ⟨inside, unknown⟩ | ⟨i, standing⟩
  · rw [attempt_of_outside outside] at tried
    cases tried
    trivial
  · rw [attempt_of_unknown inside unknown] at tried
    cases tried
    trivial
  · rw [attempt_of_instruction? standing] at tried
    exact isOfStep_of_refusal (execute_eq_error_iff.mp (Prod.ext tried rfl)).1

end Machine

end ChipEight
