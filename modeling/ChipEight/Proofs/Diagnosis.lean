/-
# Which fault a step ends in

The fault of a step can be told from the machine before it: whether it has
stopped, where the program counter points, which word is there, how deep the
call stack is and how far the index is from the end of the memory. `diagnosis`
reads these off in the order in which a step meets them, on the word alone and
without carrying anything out, and a step fails exactly as diagnosed.
-/

import ChipEight.Proofs.Pattern
import Mathlib.Order.Bounds.Defs

namespace ChipEight

/-- A fault of a step is fatal or a decoding fault, and no fault of anything else. -/
theorem Fault.classes_of_isOfStep {fault : Fault} (ofStep : fault.IsOfStep) :
    (∀ size capacity, fault ≠ .programTooLarge size capacity) ∧
      (∀ cause, fault ≠ .file cause) ∧ fault ≠ .formatting ∧
      (fault.isFatal = true ∧ fault.isDecode = false ∨
        fault.isFatal = false ∧ fault.isDecode = true) := by
  cases fault <;> first | exact ofStep.elim | simp [isFatal, isDecode]

namespace Machine

variable {m next : Machine} {i : Instruction} {signal : Signal} {fault : Fault}

/-- The word at the program counter, whether or not it is inside the memory. -/
def wordAtPc (m : Machine) : Word :=
  m.memory.wordAt m.pc.toNat

/-- The fault that the next step will end in, if it will fail. -/
def diagnosis (m : Machine) : Option Fault :=
  if m.halted then some .halted
  else if 0xFFF ≤ m.pc.toNat then some (.outOfBounds (max m.pc.toNat 0x1000))
  else if !m.wordAtPc.isDocumented then some (.unknownInstruction m.pc m.wordAtPc)
  else if m.wordAtPc = 0x00EE ∧ m.stack.depth = 0 then some .stackUnderflow
  else if m.wordAtPc.family = 0x2 ∧ m.stack.depth = 16 then some .stackOverflow
  else if 0x1000 < m.index.val + m.wordAtPc.dataLength then some (.outOfBounds 0x1000)
  else none

/-- The addresses that the next step needs: those of the word, and behind a word
that can be fetched those of the bytes that it asks for. -/
def neededAddresses (m : Machine) : List Nat :=
  [m.pc.toNat, m.pc.toNat + 1] ++
    if m.pc.toNat + 1 < Memory.size then
      (List.range m.wordAtPc.dataLength).map (m.index.val + ·)
    else []

/-- A refusal in terms of the word of the instruction. -/
theorem refusal_eq (m : Machine) (i : Instruction) :
    m.refusal i =
      if i.toWord = 0x00EE ∧ m.stack.depth = 0 then some .stackUnderflow
      else if i.toWord.family = 0x2 ∧ m.stack.depth = 16 then some .stackOverflow
      else if 0x1000 < m.index.val + i.toWord.dataLength then some (.outOfBounds 0x1000)
      else none := by
  have bound : m.index.val < 0x1000 := m.index.isLt
  have last : max m.index.val 0x1000 = 0x1000 := Nat.max_eq_right (Nat.le_of_lt bound)
  have data : m.dataFault i.dataLength =
      if 0x1000 < m.index.val + i.dataLength then some (.outOfBounds 0x1000) else none := by
    rw [dataFault, Memory.size, last]
    by_cases inside : m.index.val + i.dataLength ≤ 0x1000
    · rw [if_pos inside, if_neg (Nat.not_lt.mpr inside)]
    · rw [if_neg inside, if_pos (Nat.not_le.mp inside)]
  simp only [Instruction.toWord_eq_ret_iff, Instruction.family_toWord_eq_call_iff,
    Instruction.dataLength_toWord]
  -- a return and a call want no data, so nothing is left of the last condition
  have short : ¬ 0x1000 < m.index.val := Nat.not_lt.mpr (Nat.le_of_lt bound)
  cases i with
  | ret => simp [refusal, Instruction.isCall, Instruction.dataLength, short]
  | call target =>
      by_cases full : m.stack.depth = 16 <;>
        simp [refusal, CallStack.capacity, Instruction.isCall, Instruction.dataLength, short, full]
  | _ => simpa [refusal, Instruction.isCall] using data

/-- Behind a fetched instruction, the diagnosis is the refusal of the instruction. -/
theorem diagnosis_of_instruction? (running : m.halted = false)
    (standing : m.instruction? = some i) : m.diagnosis = m.refusal i := by
  obtain ⟨inside, read⟩ := instruction?_eq_some_iff.mp standing
  have documented : m.wordAtPc.isDocumented = true := by
    rw [← Instruction.isSome_ofWord?, wordAtPc, read]
    rfl
  have word : i.toWord = m.wordAtPc := Instruction.toWord_of_ofWord? read
  have fetched : ¬ 0xFFF ≤ m.pc.toNat := by
    simp only [Memory.size] at inside
    omega
  rw [refusal_eq, diagnosis, word, running, documented, if_neg fetched]
  rfl

/-- A step ends in the fault of its diagnosis, and succeeds where there is none. -/
theorem step_of_diagnosis (m : Machine) :
    match m.diagnosis with
    | some fault => m.step = (.error fault, m.halt)
    | none => ∃ signal next, m.step = (.ok signal, next) := by
  cases running : m.halted with
  | true =>
      have stopped : m.diagnosis = some .halted := if_pos running
      rw [stopped]
      exact step_eq_error_iff.mpr ⟨rfl, .inl ⟨running, rfl⟩⟩
  | false =>
      have notHalted : ¬ m.halted = true := by simp [running]
      rcases fetch_cases m with outside | ⟨inside, unknown⟩ | ⟨i, standing⟩
      · have far : 0xFFF ≤ m.pc.toNat := Nat.le_of_succ_le_succ outside
        rw [diagnosis, if_neg notHalted, if_pos far]
        refine step_eq_error_iff.mpr ⟨rfl, .inr ⟨running, ?_⟩⟩
        rw [attempt_of_outside outside]
        rfl
      · have near : ¬ 0xFFF ≤ m.pc.toNat := by
          simp only [Memory.size] at inside
          omega
        have undocumented : (!m.wordAtPc.isDocumented) = true := by
          rw [← Instruction.isSome_ofWord?, wordAtPc, unknown]
          rfl
        rw [diagnosis, if_neg notHalted, if_neg near, if_pos undocumented]
        refine step_eq_error_iff.mpr ⟨rfl, .inr ⟨running, ?_⟩⟩
        rw [attempt_of_unknown inside unknown]
        rfl
      · rw [diagnosis_of_instruction? running standing]
        cases refused : m.refusal i with
        | some fault => exact step_of_refusal running standing refused
        | none =>
            obtain ⟨signal, next, done⟩ :=
              execute_eq_ok_of_refusal ((refusal_advance m i).trans refused)
            exact ⟨signal, next, step_eq_ok_iff.mpr ⟨running, i, standing, done⟩⟩

/-- The address of a diagnosed access out of bounds is the first one outside. -/
theorem isLeast_of_diagnosis {a : Nat} (diagnosed : m.diagnosis = some (.outOfBounds a)) :
    IsLeast {b | b ∈ m.neededAddresses ∧ Memory.size ≤ b} a := by
  have bound : m.index.val < 0x1000 := m.index.isLt
  unfold diagnosis at diagnosed
  by_cases far : 0xFFF ≤ m.pc.toNat
  · -- only the two addresses of the word are needed, and the second is outside
    have ends : ¬ m.pc.toNat + 1 < Memory.size := Nat.not_lt.mpr (Nat.succ_le_succ far)
    have needed : m.neededAddresses = [m.pc.toNat, m.pc.toNat + 1] := by
      rw [neededAddresses, if_neg ends, List.append_nil]
    rw [if_pos far] at diagnosed
    split at diagnosed
    · cases diagnosed
    · cases diagnosed
      simp only [needed, Memory.size, List.mem_cons, List.not_mem_nil, or_false]
      constructor
      · show _ ∧ _
        omega
      · rintro b ⟨at_pc, outside⟩
        omega
  · -- the word is inside, so what is outside belongs to its data
    rw [if_neg far] at diagnosed
    have reaches : 0x1000 < m.index.val + m.wordAtPc.dataLength ∧ a = 0x1000 := by
      repeat' split at diagnosed
      all_goals cases diagnosed
      exact ⟨‹_›, rfl⟩
    obtain ⟨reaches, rfl⟩ := reaches
    have inside : m.pc.toNat + 1 < Memory.size := Nat.succ_lt_succ (Nat.not_le.mp far)
    have needed : m.neededAddresses = [m.pc.toNat, m.pc.toNat + 1] ++
        (List.range m.wordAtPc.dataLength).map (m.index.val + ·) := by
      rw [neededAddresses, if_pos inside]
    rw [needed]
    refine ⟨⟨List.mem_append_right _ (List.mem_map.mpr ?_), Nat.le_refl _⟩, fun b later => later.2⟩
    exact ⟨0x1000 - m.index.val, List.mem_range.mpr (by omega), by omega⟩

/-- The step of any machine fails exactly when `diagnosis` names a fault, and with that
fault. No such fault is one of loading, of files or of texts; each is either fatal or a
decoding fault, not both; and an address that it reports is the first one that is needed
and not there. -/
theorem fails_exactly_as_diagnosed (m : Machine) :
    (∀ fault, m.step.1 = .error fault ↔ m.diagnosis = some fault) ∧
      ((∃ signal, m.step.1 = .ok signal) ↔ m.diagnosis = none) ∧
      (∀ fault, m.step.1 = .error fault →
        (∀ size capacity, fault ≠ .programTooLarge size capacity) ∧
          (∀ cause, fault ≠ .file cause) ∧ fault ≠ .formatting ∧
          (fault.isFatal = true ∧ fault.isDecode = false ∨
            fault.isFatal = false ∧ fault.isDecode = true)) ∧
      ∀ a, m.step.1 = .error (.outOfBounds a) →
        IsLeast {b | b ∈ m.neededAddresses ∧ Memory.size ≤ b} a := by
  have failed (fault : Fault) : m.step.1 = .error fault ↔ m.diagnosis = some fault := by
    have agrees := m.step_of_diagnosis
    cases diagnosed : m.diagnosis with
    | some found =>
        simp only [diagnosed] at agrees
        simp [agrees]
    | none =>
        simp only [diagnosed] at agrees
        obtain ⟨signal, next, done⟩ := agrees
        simp [done]
  have succeeded : (∃ signal, m.step.1 = .ok signal) ↔ m.diagnosis = none := by
    cases outcome : m.step.1 with
    | error fault => simp [(failed fault).mp outcome]
    | ok signal =>
        refine ⟨fun _ => ?_, fun _ => ⟨signal, rfl⟩⟩
        refine Option.eq_none_iff_forall_ne_some.mpr fun fault diagnosed => ?_
        cases outcome.symm.trans ((failed fault).mpr diagnosed)
  refine ⟨failed, succeeded, fun fault ended => ?_, fun a ended =>
    isLeast_of_diagnosis ((failed _).mp ended)⟩
  exact Fault.classes_of_isOfStep (isOfStep_of_step (Prod.ext ended rfl))

/-- The second byte of a word at the last address is the first one outside. -/
theorem fails_exactly_as_diagnosed_at_last_address :
    let m := (powerOn 0).setPc 0xFFF
    m.step.1 = .error (.outOfBounds 0x1000) ∧
      Fault.isFatal (.outOfBounds 0x1000) = true ∧
      IsLeast {b | b ∈ m.neededAddresses ∧ Memory.size ≤ b} 0x1000 := by
  intro m
  have failed : m.step.1 = .error (.outOfBounds 0x1000) :=
    ((fails_exactly_as_diagnosed m).1 _).mpr rfl
  obtain ⟨-, -, classes, least⟩ := fails_exactly_as_diagnosed m
  rcases (classes _ failed).2.2.2 with ⟨fatal, -⟩ | ⟨-, decoding⟩
  · exact ⟨failed, fatal, least _ failed⟩
  · cases decoding

end Machine

end ChipEight
