/-
# Results and flags in whole numbers

A byte cannot hold every sum or difference, so an operation splits its outcome into a
byte and a flag that together say what it is. For each operation this is one equation
between whole numbers, and the equation leaves no choice: only one byte and one flag
fit. The operands are read before anything is written and the flag is written last, so
the equation speaks of the old values whichever registers are named. When the result
goes to the flag register it is lost, and the flag is still the one that fits.
-/

import ChipEight.Proofs.Footprint

namespace ChipEight

namespace Arithmetic

/-- What the result and the flag of an operation that reports one say together about
the values of x and y. -/
def Balances : Arithmetic → (a b result flag : Int) → Prop
  | .add, a, b, result, flag => result + 256 * flag = a + b
  | .subtract, a, b, result, flag => result = a - b + 256 * (1 - flag)
  | .shiftRight, a, _, result, flag => 2 * result + flag = a
  | .subtractFrom, a, b, result, flag => result = b - a + 256 * (1 - flag)
  | .shiftLeft, a, _, result, flag => result + 256 * flag = 2 * a
  | _, _, _, _, _ => False

/-- Whether a byte and a flag are the outcome of an operation in whole numbers. -/
def Fits (operation : Arithmetic) (a b result flag : UInt8) : Prop :=
  (flag = 0 ∨ flag = 1) ∧ operation.Balances a.toNat b.toNat result.toNat flag.toNat

/-- For the same operands only one byte and one flag fit. -/
theorem Fits.unique {operation : Arithmetic} {a b result flag result' flag' : UInt8}
    (first : operation.Fits a b result flag) (second : operation.Fits a b result' flag') :
    result' = result ∧ flag' = flag := by
  obtain ⟨bit, balanced⟩ := first
  obtain ⟨bit', balanced'⟩ := second
  have bound := result.toNat_lt
  have bound' := result'.toNat_lt
  have small : flag.toNat ≤ 1 := by rcases bit with rfl | rfl <;> decide
  have small' : flag'.toNat ≤ 1 := by rcases bit' with rfl | rfl <;> decide
  have same : result'.toNat = result.toNat ∧ flag'.toNat = flag.toNat := by
    cases operation <;> simp only [Balances] at balanced balanced' <;> omega
  exact ⟨UInt8.toNat_inj.mp same.1, UInt8.toNat_inj.mp same.2⟩

/-- The number that a flag is kept as. -/
theorem toNat_flag (raised : Prop) [Decidable raised] :
    (if decide raised = true then 1 else 0 : UInt8).toNat = if raised then 1 else 0 := by
  by_cases up : raised <;> simp [up]

/-- A difference of bytes is the whole difference, unless it borrows. -/
theorem toNat_sub_eq (a b : UInt8) :
    ((a - b).toNat : Int) = a.toNat - b.toNat +
      256 * (1 - (if decide (b ≤ a) = true then 1 else 0 : UInt8).toNat) := by
  have boundA := a.toNat_lt
  have boundB := b.toNat_lt
  simp only [toNat_flag, UInt8.toNat_sub, UInt8.le_iff_toNat_le]
  split <;> omega

theorem exists_compute_of_reports {operation : Arithmetic} (reports : operation.reports = true)
    (a b : UInt8) : ∃ result raised, operation.compute a b = (result, some raised) := by
  have flagged := (isSome_compute operation a b).trans reports
  obtain ⟨raised, flag⟩ := Option.isSome_iff_exists.mp flagged
  exact ⟨_, raised, Prod.ext rfl flag⟩

/-- What an operation computes fits. -/
theorem fits_compute {operation : Arithmetic} {a b result : UInt8} {raised : Bool}
    (computed : operation.compute a b = (result, some raised)) :
    operation.Fits a b result (if raised then 1 else 0) := by
  have boundA := a.toNat_lt
  have boundB := b.toNat_lt
  refine ⟨by cases raised <;> simp, ?_⟩
  cases operation with
  | add =>
      cases computed
      simp only [Balances, toNat_flag, UInt8.toNat_add]
      split <;> omega
  | subtract =>
      cases computed
      exact toNat_sub_eq a b
  | shiftRight =>
      have half : (a / 2).toNat = a.toNat / 2 := rfl
      have lost : (a % 2 == 1) = decide (a.toNat % 2 = 1) := by
        rw [Bool.eq_iff_iff, beq_iff_eq, decide_eq_true_eq, ← UInt8.toNat_inj]
        rfl
      cases computed
      simp only [Balances, lost, toNat_flag, half]
      split <;> omega
  | subtractFrom =>
      cases computed
      exact toNat_sub_eq b a
  | shiftLeft =>
      have twice : (2 * a).toNat = 2 * a.toNat % 256 := UInt8.toNat_mul 2 a
      have lost : 128 ≤ a ↔ 128 ≤ a.toNat := UInt8.le_iff_toNat_le
      cases computed
      simp only [Balances, toNat_flag, twice, lost]
      split <;> omega
  | _ => cases computed

end Arithmetic

namespace Machine

variable {m : Machine} {x y : Register}

/-- An arithmetic instruction reads both operands, and then puts what it computes of them
where it belongs. -/
theorem step_arithmetic {operation : Arithmetic} {computed : UInt8 × Option Bool}
    (running : m.halted = false)
    (found : m.fetched? = some (.ofNibbles 0x8 x y operation.nibble))
    (result : operation.compute (m.v x) (m.v y) = computed) :
    ∃ next, m.step = (.ok .proceed, next) ∧
      next.registers = m.registers.advance.setResult x computed ∧
      m.ChangesOnly next
        { registers := if computed.2.isSome then [x, Registers.flagRegister] else [x] } := by
  obtain ⟨made, changes⟩ := step_of_execute (i := .arithmetic operation x y) running found rfl
  rw [Instruction.footprint, ← Arithmetic.isSome_compute operation (m.v x) (m.v y)] at changes
  subst result
  exact ⟨_, made, rfl, changes⟩

/-- An operation that reports leaves a byte and a flag that fit. The flag is written last,
so a result for the same register is lost. -/
theorem exists_step_of_reports {operation : Arithmetic} (running : m.halted = false)
    (reports : operation.reports = true)
    (found : m.fetched? = some (.ofNibbles 0x8 x y operation.nibble)) :
    ∃ next result, m.step = (.ok .proceed, next) ∧
      operation.Fits (m.v x) (m.v y) result (next.v 0xF) ∧ (x ≠ 0xF → next.v x = result) ∧
      m.ChangesOnly next { registers := [x, 0xF] } := by
  obtain ⟨result, raised, computed⟩ := Arithmetic.exists_compute_of_reports reports (m.v x) (m.v y)
  obtain ⟨next, made, registers, changes⟩ := step_arithmetic running found computed
  have left : next.v 0xF = if raised then 1 else 0 := by
    rw [v, registers]
    exact Registers.get_set_self ..
  refine ⟨next, result, made, ?_, fun (plain : x ≠ Registers.flagRegister) => ?_, changes⟩
  · rw [left]
    exact Arithmetic.fits_compute computed
  · rw [v, registers, Registers.setResult, Registers.setFlag, Registers.get_set, if_neg plain,
      Registers.get_set_self]

/-- An operation that reports no flag leaves its result, also in the flag register. -/
theorem exists_step_of_plain {operation : Arithmetic} {result : UInt8} (running : m.halted = false)
    (computed : operation.compute (m.v x) (m.v y) = (result, none))
    (found : m.fetched? = some (.ofNibbles 0x8 x y operation.nibble)) :
    ∃ next, m.step = (.ok .proceed, next) ∧ next.v x = result ∧
      m.ChangesOnly next { registers := [x] } := by
  obtain ⟨next, made, registers, changes⟩ := step_arithmetic running found computed
  refine ⟨next, made, ?_, changes⟩
  rw [v, registers]
  exact Registers.get_set_self ..

/-- In every state of the registers and for all operands, which may be the flag register
or the same, the five operations that report a flag leave a byte and a flag that fit
the old values, and the only ones that do. If the result is for the flag register the
flag stands there instead. The other operations leave their result and no flag, and an
addition to the index leaves all byte registers alone. -/
theorem results_and_flags_fit (running : m.halted = false) :
    (∀ operation nibble,
      (operation, nibble) ∈ [(Arithmetic.add, (0x4 : Nibble)), (.subtract, 0x5),
        (.shiftRight, 0x6), (.subtractFrom, 0x7), (.shiftLeft, 0xE)] →
      m.fetched? = some (.ofNibbles 0x8 x y nibble) →
        ∃ next result, m.step = (.ok .proceed, next) ∧
          operation.Fits (m.v x) (m.v y) result (next.v 0xF) ∧
          (∀ result' flag', operation.Fits (m.v x) (m.v y) result' flag' →
            result' = result ∧ flag' = next.v 0xF) ∧
          (x ≠ 0xF → next.v x = result) ∧
          m.ChangesOnly next { registers := [x, 0xF] }) ∧
      (∀ nibble result,
        (nibble, result) ∈ [((0x0 : Nibble), m.v y), (0x1, m.v x ||| m.v y),
          (0x2, m.v x &&& m.v y), (0x3, m.v x ^^^ m.v y)] →
        m.fetched? = some (.ofNibbles 0x8 x y nibble) →
          ∃ next, m.step = (.ok .proceed, next) ∧ next.v x = result ∧
            m.ChangesOnly next { registers := [x] }) ∧
      (∀ value, m.fetched? = some (.ofByte 0x7 x value) →
        ∃ next, m.step = (.ok .proceed, next) ∧
          (next.v x).toNat = ((m.v x).toNat + value.toNat) % 256 ∧
          m.ChangesOnly next { registers := [x] }) ∧
      (m.fetched? = some (.ofByte 0xF x 0x1E) →
        ∃ next, m.step = (.ok .proceed, next) ∧
          next.index.val = (m.index.val + (m.v x).toNat) % 4096 ∧
          m.ChangesOnly next { index := true }) := by
  refine ⟨fun operation nibble listed found => ?_, fun nibble result listed found => ?_,
    fun value found => ?_, fun found => ?_⟩
  · obtain ⟨reports, rfl⟩ : operation.reports = true ∧ operation.nibble = nibble := by
      simp only [List.mem_cons, Prod.mk.injEq, List.not_mem_nil, or_false] at listed
      rcases listed with ⟨rfl, rfl⟩ | ⟨rfl, rfl⟩ | ⟨rfl, rfl⟩ | ⟨rfl, rfl⟩ | ⟨rfl, rfl⟩ <;>
        exact ⟨rfl, rfl⟩
    obtain ⟨next, result, made, fits, kept, changes⟩ :=
      exists_step_of_reports running reports found
    exact ⟨next, result, made, fits, fun _ _ other => fits.unique other, kept, changes⟩
  · obtain ⟨operation, rfl, plain⟩ : ∃ operation : Arithmetic, operation.nibble = nibble ∧
        operation.compute (m.v x) (m.v y) = (result, none) := by
      simp only [List.mem_cons, Prod.mk.injEq, List.not_mem_nil, or_false] at listed
      rcases listed with ⟨rfl, rfl⟩ | ⟨rfl, rfl⟩ | ⟨rfl, rfl⟩ | ⟨rfl, rfl⟩
      · exact ⟨.copy, rfl, rfl⟩
      · exact ⟨.or, rfl, rfl⟩
      · exact ⟨.and, rfl, rfl⟩
      · exact ⟨.xor, rfl, rfl⟩
    exact exists_step_of_plain running plain found
  · obtain ⟨made, changes⟩ := step_of_execute (i := .addByte x value) running found rfl
    refine ⟨_, made, ?_, changes⟩
    have sum : (m.advance.setV x (m.v x + value)).v x = m.v x + value :=
      Registers.get_set_self ..
    exact (congrArg UInt8.toNat sum).trans (UInt8.toNat_add ..)
  · obtain ⟨made, changes⟩ := step_of_execute (i := .addIndex x) running found rfl
    exact ⟨_, made, rfl, changes⟩

/-- A sum for the flag register, of that register with itself, leaves only its carry; and
a difference with the flag register borrows from what stood there before. -/
theorem results_and_flags_fit_aliased :
    let program : List UInt8 := [0x6F, 0x90, 0x8F, 0xF4, 0x80, 0xF5]
    let m := (powerOn 0).loaded program
    let first := m.after [.step]
    let second := m.after [.step, .step]
    (first.halted = false ∧ first.fetched? = some (.ofNibbles 0x8 0xF 0xF 0x4) ∧
        ∃ next, first.step = (.ok .proceed, next) ∧ next.v 0xF = 1) ∧
      second.halted = false ∧ second.fetched? = some (.ofNibbles 0x8 0x0 0xF 0x5) ∧
        ∃ next, second.step = (.ok .proceed, next) ∧ next.v 0x0 = 255 ∧ next.v 0xF = 0 := by
  intro program m first second
  obtain ⟨adding, old⟩ : first.executed? .step = some ⟨0x202, .arithmetic .add 0xF 0xF⟩ ∧
      first.v 0xF = 0x90 := by decide +kernel
  obtain ⟨subtracting, zero, carry⟩ :
      second.executed? .step = some ⟨0x204, .arithmetic .subtract 0x0 0xF⟩ ∧
        second.v 0x0 = 0 ∧ second.v 0xF = 1 := by decide +kernel
  obtain ⟨running, found, -⟩ := fetched?_of_executed? adding
  obtain ⟨running', found', -⟩ := fetched?_of_executed? subtracting
  obtain ⟨flagged, -⟩ := results_and_flags_fit running (x := 0xF) (y := 0xF)
  obtain ⟨flagged', -⟩ := results_and_flags_fit running' (x := 0x0) (y := 0xF)
  obtain ⟨next, lost, made, -, unique, -⟩ := flagged .add 0x4 (by decide) found
  obtain ⟨last, result, remade, -, unique', kept, -⟩ := flagged' .subtract 0x5 (by decide) found'
  have sum : Arithmetic.Fits .add (first.v 0xF) (first.v 0xF) 0x20 1 := by
    rw [old]
    exact ⟨.inr rfl, rfl⟩
  have difference : Arithmetic.Fits .subtract (second.v 0x0) (second.v 0xF) 255 0 := by
    rw [zero, carry]
    exact ⟨.inl rfl, rfl⟩
  obtain ⟨rfl, borrowed⟩ := unique' _ _ difference
  exact ⟨⟨running, found, next, made, (unique _ _ sum).2.symm⟩, running', found', last, remade,
    kept (by decide), borrowed.symm⟩

end Machine

end ChipEight
