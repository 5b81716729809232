/-
# Registers in memory and back

Three instructions carry bytes between the registers and the memory at the index: one
writes the first registers, one reads them back, and one writes the decimal digits of a
register. None of them moves the index, so what was written is read back by pointing at
the same place again. What happens in between is a history of any length; it may change
the registers, the index and the rest of memory, the program itself included, as long as
none of its stores reaches the bytes that are kept.
-/

import ChipEight.Proofs.Footprint

namespace ChipEight

namespace Registers

theorem getElem?_firstValues (registers : Registers) {count : Nat} {r : Register}
    (below : r.val < count) : (registers.firstValues count)[r.val]? = some (registers.get r) := by
  rw [firstValues, List.getElem?_take_of_lt below]
  simp [get]

end Registers

namespace Memory

/-- What is put into memory stands there byte by byte. -/
theorem byteAt_put_add (memory : Memory) {start i : Nat} {bs : List UInt8} {b : UInt8}
    (fits : start + bs.length ≤ size) (found : bs[i]? = some b) :
    (memory.put start bs).byteAt (start + i) = b := by
  obtain ⟨inside, rfl⟩ := List.getElem?_eq_some_iff.mp found
  rw [byteAt_put, if_pos ⟨Nat.le_add_right .., Nat.add_lt_add_left inside _, by omega⟩,
    Nat.add_sub_cancel_left, found]
  rfl

end Memory

/-- Three decimal digits are enough for a byte. -/
theorem decimalDigits_eq (b : UInt8) :
    ∃ hundreds tens ones : UInt8, decimalDigits b = [hundreds, tens, ones] ∧
      hundreds ≤ 9 ∧ tens ≤ 9 ∧ ones ≤ 9 ∧
      100 * hundreds.toNat + 10 * tens.toNat + ones.toNat = b.toNat := by
  have bound := b.toNat_lt
  have hundreds : (b / 100 % 10).toNat = b.toNat / 100 % 10 := rfl
  have tens : (b / 10 % 10).toNat = b.toNat / 10 % 10 := rfl
  have ones : (b % 10).toNat = b.toNat % 10 := rfl
  have nine (d : UInt8) (small : d.toNat < 10) : d ≤ 9 := by
    rw [UInt8.le_iff_toNat_le]
    exact Nat.le_of_lt_succ small
  refine ⟨_, _, _, rfl, nine _ ?_, nine _ ?_, nine _ ?_, ?_⟩ <;> omega

/-- No store of a list reaches an address exactly if none of them left a byte there. -/
theorem lastStored?_eq_none_iff {stores : List Store} {address : Nat} :
    Machine.lastStored? stores address = none ↔ ∀ s ∈ stores, s.byteAt? address = none := by
  rw [Machine.lastStored?, List.findSome?_eq_none_iff]
  simp only [List.mem_reverse]

namespace Machine

variable {m next : Machine} {i : Instruction} {signal : Signal} {x last r : Register}

/-! ## One transfer -/

theorem dataFault_eq_none_iff {length : Nat} :
    m.dataFault length = none ↔ m.index.val + length ≤ Memory.size := by
  rw [dataFault]
  split
  · next inside => simp [inside]
  · next outside => simp [outside]

/-- A machine that runs carries out the instruction that it fetches unless it is refused. -/
theorem exists_step_iff (running : m.halted = false) (found : m.fetched? = some i.toWord) :
    (∃ signal next, m.step = (.ok signal, next)) ↔ m.refusal i = none := by
  constructor
  · rintro ⟨signal, next, made⟩
    cases refused : m.refusal i with
    | none => rfl
    | some fault =>
        rw [step_of_refusal running (fetched?_eq_some_toWord_iff.mp found) refused] at made
        cases made
  · intro accepted
    obtain ⟨signal, next, done⟩ :=
      execute_eq_ok_of_refusal ((refusal_advance m i).trans accepted)
    exact ⟨signal, next, (step_of_execute running found done).1⟩

/-- An instruction that needs bytes behind the index is carried out exactly if the last
of them is inside the memory. -/
theorem exists_step_iff_lt {k : Nat} (running : m.halted = false)
    (found : m.fetched? = some i.toWord) (needs : m.refusal i = m.dataFault (k + 1)) :
    (∃ signal next, m.step = (.ok signal, next)) ↔ m.index.val + k < 4096 := by
  rw [exists_step_iff running found, needs, dataFault_eq_none_iff, Memory.size]
  omega

/-- The bytes of an instruction that stores fit behind the index. -/
theorem le_size_of_execute (done : m.execute i = (.ok signal, next)) :
    m.index.val + (i.stored m).length ≤ Memory.size := by
  cases i with
  | storeDecimal | storeRegisters =>
      obtain ⟨memory, written, -⟩ := orFault_eq_ok_iff.mp done
      exact (Memory.writeRange_eq_ok_iff.mp written).1
  | _ => exact Nat.le_of_lt m.index.isLt

/-- What an instruction stores stands in memory behind the index. -/
theorem byteAt_of_execute (done : m.execute i = (.ok signal, next)) {k : Nat} {b : UInt8}
    (stored : (i.stored m)[k]? = some b) : next.memory.byteAt (m.index.val + k) = b := by
  rw [memory_of_execute done]
  exact Memory.byteAt_put_add _ (le_size_of_execute done) stored

/-- A step at an instruction carries it out, from behind it, and keeps to its footprint. -/
theorem execute_of_step (found : m.fetched? = some i.toWord) (made : m.step = (.ok signal, next)) :
    m.advance.execute i = (.ok signal, next) ∧ m.ChangesOnly next i.footprint := by
  obtain ⟨running, done⟩ := (step_eq_ok_iff_execute found).mp made
  exact ⟨done, (step_of_execute running found done).2⟩

theorem stored_of_step (found : m.fetched? = some (.ofByte 0xF last 0x55))
    (made : m.step = (.ok signal, next)) {r : Register} (below : r ≤ last) :
    next.memory.byteAt (m.index.val + r.val) = m.v r := by
  obtain ⟨done, -⟩ := execute_of_step (i := .storeRegisters last) found made
  exact byteAt_of_execute done (Registers.getElem?_firstValues _ (Nat.lt_succ_of_le below))

theorem loaded_of_step (found : m.fetched? = some (.ofByte 0xF last 0x65))
    (made : m.step = (.ok signal, next)) (r : Register) :
    next.v r = if r ≤ last then m.memory.byteAt (m.index.val + r.val) else m.v r := by
  obtain ⟨done, -⟩ := execute_of_step (i := .loadRegisters last) found made
  obtain ⟨values, read, done⟩ := orFault_eq_ok_iff.mp done
  obtain ⟨-, rfl⟩ := Memory.readRange_eq_ok_iff.mp read
  cases done
  refine (Registers.get_setFrom ..).trans ?_
  rw [Memory.length_span]
  by_cases below : r ≤ last
  · have inside : r.val < last.val + 1 := Nat.lt_succ_of_le below
    rw [if_pos below, if_pos (by omega), Nat.sub_zero, Memory.getElem?_span _ _ inside]
    rfl
  · have outside : ¬ r.val < last.val + 1 := fun inside => below (Nat.le_of_lt_succ inside)
    rw [if_neg below, if_neg (by omega)]
    rfl

theorem decimal_of_step (found : m.fetched? = some (.ofByte 0xF x 0x33))
    (made : m.step = (.ok signal, next)) :
    let digit (k : Nat) := next.memory.byteAt (m.index.val + k)
    (digit 0 ≤ 9 ∧ digit 1 ≤ 9 ∧ digit 2 ≤ 9) ∧
      100 * (digit 0).toNat + 10 * (digit 1).toNat + (digit 2).toNat = (m.v x).toNat := by
  obtain ⟨done, -⟩ := execute_of_step (i := .storeDecimal x) found made
  obtain ⟨hundreds, tens, ones, digits, small, small', small'', sum⟩ := decimalDigits_eq (m.v x)
  have standing (k : Nat) (b : UInt8) (here : [hundreds, tens, ones][k]? = some b) :
      next.memory.byteAt (m.index.val + k) = b :=
    byteAt_of_execute done ((congrArg (·[k]?) digits).trans here)
  intro digit
  have first : digit 0 = hundreds := standing 0 hundreds rfl
  have second : digit 1 = tens := standing 1 tens rfl
  have third : digit 2 = ones := standing 2 ones rfl
  rw [first, second, third]
  exact ⟨⟨small, small', small''⟩, sum⟩

/-! ## Between two transfers -/

/-- None of the stores of a history writes one of so many bytes from an address on. -/
def Spares (m : Machine) (history : List Action) (start length : Nat) : Prop :=
  ∀ s ∈ m.stores history, ∀ k < length, s.byteAt? (start + k) = none

instance (m : Machine) (history : List Action) (start length : Nat) :
    Decidable (m.Spares history start length) :=
  inferInstanceAs (Decidable (∀ _ ∈ _, ∀ _, _ → _))

theorem byteAt_of_spares {history : List Action} {start length k : Nat}
    (kept : m.Continues history) (spared : m.Spares history start length) (covered : k < length)
    (inside : start + k < Memory.size) :
    (m.after history).memory.byteAt (start + k) = m.memory.byteAt (start + k) := by
  rw [byteAt_after kept inside,
    lastStored?_eq_none_iff.mpr fun s member => spared s member k covered]
  rfl

/-- What a step stores of the registers is read back at any later time by pointing at it
again, as far as the reading asks for it, unless an instruction in between has stored to
one of the bytes. A store, a reading and the writing of decimal digits succeed exactly
if the bytes they need are inside the memory, the last one included; they leave the
index where it is, and nothing changes but the bytes or the registers they are about. -/
theorem registers_come_back_from_memory :
    (∀ (m stored : Machine) (signal : Signal) (last : Register) (history : List Action),
      m.fetched? = some (.ofByte 0xF last 0x55) → m.step = (.ok signal, stored) →
      stored.Continues history →
      stored.Spares history m.index.val (last.val + 1) →
        let now := stored.after history
        ∀ y ≤ last, now.halted = false → now.index = m.index →
          now.fetched? = some (.ofByte 0xF y 0x65) →
            ∃ next, now.step = (.ok .proceed, next) ∧
              ∀ r, next.v r = if r ≤ y then m.v r else now.v r) ∧
      ∀ (m : Machine) (x : Register), m.halted = false →
        (m.fetched? = some (.ofByte 0xF x 0x55) →
          ((∃ signal next, m.step = (.ok signal, next)) ↔ m.index.val + x.val < 4096) ∧
            ∀ signal next, m.step = (.ok signal, next) →
              next.index = m.index ∧
                (∀ r ≤ x, next.memory.byteAt (m.index.val + r.val) = m.v r) ∧
                m.ChangesOnly next { bytes := x.val + 1 }) ∧
        (m.fetched? = some (.ofByte 0xF x 0x65) →
          ((∃ signal next, m.step = (.ok signal, next)) ↔ m.index.val + x.val < 4096) ∧
            ∀ signal next, m.step = (.ok signal, next) →
              next.index = m.index ∧
                (∀ r ≤ x, next.v r = m.memory.byteAt (m.index.val + r.val)) ∧
                m.ChangesOnly next { registers := (List.finRange 16).filter (· ≤ x) }) ∧
        (m.fetched? = some (.ofByte 0xF x 0x33) →
          ((∃ signal next, m.step = (.ok signal, next)) ↔ m.index.val + 2 < 4096) ∧
            ∀ signal next, m.step = (.ok signal, next) →
              next.index = m.index ∧
                (let digit (k : Nat) := next.memory.byteAt (m.index.val + k)
                 (digit 0 ≤ 9 ∧ digit 1 ≤ 9 ∧ digit 2 ≤ 9) ∧
                   100 * (digit 0).toNat + 10 * (digit 1).toNat + (digit 2).toNat =
                     (m.v x).toNat) ∧
                m.ChangesOnly next { bytes := 3 }) := by
  refine ⟨?_, fun m x running => ⟨fun found => ?_, fun found => ?_, fun found => ?_⟩⟩
  · intro m stored signal last history found made kept spared now y below running same again
    have begun := ((step_eq_ok_iff_execute (i := .storeRegisters last) found).mp made).1
    have inside : m.index.val + last.val < 4096 :=
      (exists_step_iff_lt (i := .storeRegisters last) begun found rfl).mp ⟨signal, stored, made⟩
    have fewer : y.val ≤ last.val := below
    have reachable : now.index.val + y.val < 4096 := by
      rw [same]
      omega
    obtain ⟨signal', next, reread⟩ :=
      (exists_step_iff_lt (i := .loadRegisters y) running again rfl).mpr reachable
    obtain rfl : signal' = .proceed :=
      signal_of_execute (execute_of_step (i := .loadRegisters y) again reread).1
    refine ⟨next, reread, fun r => ?_⟩
    rw [loaded_of_step again reread r, same]
    by_cases covered : r ≤ y
    · have before : r.val ≤ y.val := covered
      have stays : now.memory.byteAt (m.index.val + r.val) =
          stored.memory.byteAt (m.index.val + r.val) :=
        byteAt_of_spares kept spared (by omega) (by rw [Memory.size]; omega)
      rw [if_pos covered, if_pos covered, stays,
        stored_of_step found made (Nat.le_trans covered below)]
    · rw [if_neg covered, if_neg covered]
  · refine ⟨exists_step_iff_lt (i := .storeRegisters x) running found rfl, ?_⟩
    intro signal next made
    have changes := (execute_of_step (i := .storeRegisters x) found made).2
    exact ⟨changes.index rfl, fun r below => stored_of_step found made below, changes⟩
  · refine ⟨exists_step_iff_lt (i := .loadRegisters x) running found rfl, ?_⟩
    intro signal next made
    have changes := (execute_of_step (i := .loadRegisters x) found made).2
    refine ⟨changes.index rfl, fun r below => ?_, changes⟩
    rw [loaded_of_step found made, if_pos below]
  · refine ⟨exists_step_iff_lt (i := .storeDecimal x) running found rfl, ?_⟩
    intro signal next made
    have changes := (execute_of_step (i := .storeDecimal x) found made).2
    exact ⟨changes.index rfl, decimal_of_step found made, changes⟩

/-- Two registers are stored to the last two bytes of memory. Both are changed, and then
the first one is read back and the other one keeps its new value. -/
theorem registers_come_back_from_memory_at_end :
    let program : List UInt8 :=
      [0x60, 0x05, 0xAF, 0xFE, 0xF1, 0x55, 0x60, 0x11, 0x61, 0x22, 0xF0, 0x65]
    let m := (powerOn 0).loaded program |>.after [.step, .step]
    let stored := m.step.2
    let history : List Action := [.step, .tick, .setKey 3 true, .step]
    let now := stored.after history
    m.index.val + 1 = 0xFFF ∧ m.fetched? = some (.ofByte 0xF 1 0x55) ∧
      stored.Continues history ∧ stored.Spares history m.index.val 2 ∧
      now.halted = false ∧ now.index = m.index ∧ now.fetched? = some (.ofByte 0xF 0 0x65) ∧
      ∃ next, now.step = (.ok .proceed, next) ∧ next.v 0 = 5 ∧ next.v 1 = 0x22 := by
  intro program m stored history now
  have kept : stored.Continues history := ⟨trivial, trivial, trivial, trivial, trivial⟩
  obtain ⟨storing, pointing, zero, reading, back, one, spared⟩ :
      m.executed? .step = some ⟨0x204, .storeRegisters 1⟩ ∧ m.index = 0xFFE ∧ m.v 0 = 5 ∧
        now.executed? .step = some ⟨0x20A, .loadRegisters 0⟩ ∧ now.index = 0xFFE ∧
          now.v 1 = 0x22 ∧ stored.Spares history 0xFFE 2 := by decide +kernel
  have place : m.index.val = 0xFFE := congrArg Fin.val pointing
  have same : now.index = m.index := back.trans pointing.symm
  rw [← place] at spared
  obtain ⟨-, found, signal, next, made⟩ := fetched?_of_executed? storing
  obtain ⟨running, again, -⟩ := fetched?_of_executed? reading
  obtain rfl : stored = next := congrArg Prod.snd made
  obtain ⟨last, reread, registers⟩ := registers_come_back_from_memory.1 m stored signal 1 history
    found made kept spared 0 (by decide) running same again
  exact ⟨congrArg (· + 1) place, found, kept, spared, running, same, again, last, reread,
    (registers 0).trans ((if_pos (by decide)).trans zero),
    (registers 1).trans ((if_neg (by decide)).trans one)⟩

end Machine

end ChipEight
