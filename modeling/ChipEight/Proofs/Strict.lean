/-
# Steps that cannot go out of range

The machine's words wrap around without a sign of it and its vectors are indexed
by numbers that fit by their types. Here is the step once more with nothing of
this taken for granted. A sum that does not fit its width, a difference below
zero, an index past the end of what it is used on, or a copy between ranges of
different lengths leaves it without any result. It has a result on every machine,
and that is the result of the plain step.

What stays as it is: arithmetic on bytes, which wraps by design, and registers,
whose numbers are nibbles of the instruction.
-/

import ChipEight.Proofs.Reachable

namespace ChipEight

namespace Strict

/-- The sum of two words, if it is a word. -/
def add (a b : UInt16) : Option UInt16 :=
  if a.toNat + b.toNat < 0x10000 then some (a + b) else none

/-- The difference of two words, if it is not below zero. -/
def subtract (a b : UInt16) : Option UInt16 :=
  if b ≤ a then some (a - b) else none

/-- The sum of two numbers of sixty-four bits, if it is one. -/
def addWide (a b : Nat) : Option Nat :=
  if a + b < 0x10000000000000000 then some (a + b) else none

end Strict

namespace Memory

/-- Read two bytes as a word. -/
def strictReadWord (m : Memory) (a : Nat) : Option (Except Fault Word) := do
  let second ← Strict.addWide a 1
  return do
    let high ← m.read a
    let low ← m.read second
    return Word.ofBytes high low

/-- Read a range of bytes. -/
def strictReadRange (m : Memory) (start length : Nat) :
    Option (Except Fault (List UInt8)) := do
  let stop ← Strict.addWide start length
  if size < stop then return .error (.outOfBounds (max start size))
  else
    let bs ← (List.range length).mapM fun i => m.bytes[start + i]?
    return .ok bs

/-- Replace the bytes from an address on. -/
def strictPut (m : Memory) (start : Nat) : List UInt8 → Option Memory
  | [] => some m
  | b :: bs => if start < size then (m.setByte start b).strictPut (start + 1) bs else none

/-- Write bytes over the range that they fill. -/
def strictWriteRange (m : Memory) (start : Nat) (bs : List UInt8) :
    Option (Except Fault Memory) := do
  let stop ← Strict.addWide start bs.length
  if size < stop then return .error (.outOfBounds (max start size))
  else
    let written ← m.strictPut start bs
    return .ok written

end Memory

namespace CallStack

/-- Leave a return address in the slot at the cursor. -/
def strictPush (s : CallStack) (address : UInt16) : Option (Except Fault CallStack) :=
  if capacity ≤ s.depth then some (.error .stackOverflow)
  else if room : s.depth < 16 then
    some (.ok ⟨s.slots.set s.depth address, s.depth + 1, room⟩)
  else none

/-- Take the most recent return address. -/
def strictPop (s : CallStack) : Option (Except Fault (UInt16 × CallStack)) :=
  if s.depth = 0 then some (.error .stackUnderflow)
  else do
    let address ← s.slots[s.depth - 1]?
    return .ok (address, ⟨s.slots, s.depth - 1, Nat.le_trans (Nat.sub_le _ _) s.depth_le⟩)

end CallStack

namespace Registers

/-- The values of the first `count` byte registers. -/
def strictFirstValues (r : Registers) (count : Nat) : Option (List UInt8) :=
  if count ≤ r.v.toList.length then some (r.firstValues count) else none

/-- Copy values over the first `count` byte registers. -/
def strictSetFirst (r : Registers) (count : Nat) (values : List UInt8) : Option Registers :=
  if count ≤ r.v.toList.length ∧ values.length = count then some (r.setFirst values) else none

end Registers

namespace Display

/-- Toggle the given coordinates in turn, and tell whether a lit pixel among them
turned dark. The coordinates are sums of sixty-four bits. -/
def strictToggleAll (collided : Bool) (d : Display) :
    List (Nat × Nat) → Option (Bool × Display)
  | [] => some (collided, d)
  | (x, y) :: rest =>
    if inside : (x < 0x10000000000000000 ∧ y < 0x10000000000000000) ∧
        x % width + y % height * width < pixelCount then
      let wasLit := d.pixels.get ⟨x % width + y % height * width, inside.2⟩
      strictToggleAll (collided || wasLit)
        ⟨d.pixels.set (x % width + y % height * width) (!wasLit) inside.2⟩ rest
    else none

/-- Draw a sprite, and tell whether it collided with a pixel that was lit. -/
def strictDraw (d : Display) (x y : Nat) (rows : List UInt8) : Option (Bool × Display) :=
  d.strictToggleAll false (spots x y rows)

end Display

namespace Machine

/-- Move the program counter past one instruction. -/
def strictAdvance (m : Machine) : Option Machine := do
  let pc ← Strict.add m.pc 2
  return m.setPc pc

/-- Move the program counter back by one instruction. -/
def strictRewind (m : Machine) : Option Machine := do
  let pc ← Strict.subtract m.pc 2
  return m.setPc pc

/-- Go on with what a component gave, or end with the fault it ended in. -/
def strictOrFault {α : Type} (m : Machine) (found : Option (Except Fault α))
    (go : α → Option Attempt) : Option Attempt := do
  match ← found with
  | .ok value => go value
  | .error fault => return (.error fault, m)

/-- Carry out an instruction on a machine whose program counter points behind it. -/
def strictExecute (m : Machine) : Instruction → Option Attempt
  | .ret => m.strictOrFault m.stack.strictPop fun (pc, stack) =>
      some (.ok .jump, { m with stack }.setPc pc)
  | .call target => m.strictOrFault (m.stack.strictPush m.pc) fun stack =>
      some (.ok .jump, { m with stack }.setPc (UInt16.ofNat target.val))
  | .skip condition =>
    if condition.isMet m then do
      let skipped ← m.strictAdvance
      return (.ok .proceed, skipped)
    else some (.ok .proceed, m)
  | .jumpOffset base => do
    let pc ← Strict.add (UInt16.ofNat base.val) (m.v 0).toUInt16
    return (.ok .jump, m.setPc pc)
  | .draw x y rows =>
    m.strictOrFault (m.memory.strictReadRange m.index.val rows.val) fun sprite => do
      let (collided, display) ← m.display.strictDraw ((m.v x).toNat % Display.width)
        ((m.v y).toNat % Display.height) sprite
      return (.ok .draw, { m with display, registers := m.registers.setFlag collided })
  | .awaitKey x =>
    match m.keypad.firstDown? with
    | some k => some (.ok .proceed, m.setV x (UInt8.ofNat k.val))
    | none => do
      let back ← m.strictRewind
      return (.ok .keyWait, back)
  | .storeDecimal x =>
    m.strictOrFault (m.memory.strictWriteRange m.index.val (decimalDigits (m.v x)))
      fun memory => some (.ok .proceed, { m with memory })
  | .storeRegisters last => do
    let values ← m.registers.strictFirstValues (last.val + 1)
    m.strictOrFault (m.memory.strictWriteRange m.index.val values)
      fun memory => some (.ok .proceed, { m with memory })
  | .loadRegisters last =>
    m.strictOrFault (m.memory.strictReadRange m.index.val (last.val + 1)) fun values => do
      let registers ← m.registers.strictSetFirst (last.val + 1) values
      return (.ok .proceed, { m with registers })
  | i => some (m.execute i)

/-- Fetch and carry out one instruction, whether or not the machine has stopped. -/
def strictAttempt (m : Machine) : Option Attempt :=
  m.strictOrFault (m.memory.strictReadWord m.pc.toNat) fun word => do
    let moved ← m.strictAdvance
    match Instruction.ofWord? word with
    | none => return (.error (.unknownInstruction m.pc word), moved)
    | some i => moved.strictExecute i

/-- One step, with every sum, every index and every copy checked. -/
def strictStep (m : Machine) : Option Attempt :=
  if m.halted then some (.error .halted, m)
  else do
    match ← m.strictAttempt with
    | (.ok signal, next) => return (.ok signal, next)
    | (.error fault, next) => return (.error fault, (next.setPc m.pc).halt)

end Machine

/-! ## Each check passes -/

namespace Strict

theorem add_eq_some {a b : UInt16} (fits : a.toNat + b.toNat < 0x10000) :
    add a b = some (a + b) :=
  if_pos fits

theorem addWide_eq_some {a b : Nat} (fits : a + b < 0x10000000000000000) :
    addWide a b = some (a + b) :=
  if_pos fits

end Strict

theorem mapM_eq_some_of_forall {α β : Type} {f : α → Option β} {g : α → β} {l : List α}
    (found : ∀ a ∈ l, f a = some (g a)) : l.mapM f = some (l.map g) := by
  induction l with
  | nil => rfl
  | cons a rest ih =>
      have later := ih fun b member => found b (List.mem_cons_of_mem a member)
      rw [List.mapM_cons, found a List.mem_cons_self, later]
      rfl

namespace Memory

theorem strictReadWord_eq (m : Memory) {a : Nat} (narrow : a < 0x10000) :
    m.strictReadWord a = some (m.readWord a) := by
  have fits : a + 1 < 0x10000000000000000 := by omega
  rw [strictReadWord, Strict.addWide_eq_some fits]
  rfl

theorem strictReadRange_eq (m : Memory) {start length : Nat}
    (narrow : start + length < 0x10000000000000000) :
    m.strictReadRange start length = some (m.readRange start length) := by
  rw [strictReadRange, Strict.addWide_eq_some narrow, readRange_eq]
  by_cases inside : start + length ≤ size
  · have found : ∀ i ∈ List.range length, m.bytes[start + i]? = some (m.byteAt (start + i)) := by
      intro i member
      have here : start + i < 4096 := by
        have below := List.mem_range.mp member
        simp only [size] at inside
        omega
      rw [byteAt, Vector.getElem?_eq_getElem here]
      rfl
    simp only [Option.bind_eq_bind, Option.bind_some, if_neg (Nat.not_lt.mpr inside),
      mapM_eq_some_of_forall found, if_pos inside]
    rfl
  · simp only [Option.bind_eq_bind, Option.bind_some, if_pos (Nat.not_le.mp inside),
      if_neg inside]
    rfl

theorem strictPut_eq (m : Memory) {start : Nat} {bs : List UInt8}
    (inside : start + bs.length ≤ size) : m.strictPut start bs = some (m.put start bs) := by
  induction bs generalizing m start with
  | nil => rfl
  | cons b bs ih =>
      rw [List.length_cons] at inside
      rw [strictPut, if_pos (by omega), put]
      exact ih _ (by omega)

theorem strictWriteRange_eq (m : Memory) {start : Nat} {bs : List UInt8}
    (narrow : start + bs.length < 0x10000000000000000) :
    m.strictWriteRange start bs = some (m.writeRange start bs) := by
  rw [strictWriteRange, Strict.addWide_eq_some narrow, writeRange_eq]
  by_cases inside : start + bs.length ≤ size
  · simp only [Option.bind_eq_bind, Option.bind_some, if_neg (Nat.not_lt.mpr inside),
      m.strictPut_eq inside, if_pos inside]
    rfl
  · simp only [Option.bind_eq_bind, Option.bind_some, if_pos (Nat.not_le.mp inside),
      if_neg inside]
    rfl

end Memory

namespace CallStack

theorem strictPush_eq (s : CallStack) (address : UInt16) :
    s.strictPush address = some (s.push address) := by
  rw [strictPush, push]
  by_cases full : capacity ≤ s.depth
  · have noRoom : ¬ s.depth < 16 := Nat.not_lt.mpr full
    rw [if_pos full, dif_neg noRoom]
  · have room : s.depth < 16 := Nat.not_le.mp full
    rw [if_neg full, dif_pos room, dif_pos room]

theorem strictPop_eq (s : CallStack) : s.strictPop = some s.pop := by
  obtain ⟨slots, depth, bound⟩ := s
  cases depth with
  | zero => rfl
  | succ depth =>
      have found : slots[depth + 1 - 1]? = some slots[depth] := Vector.getElem?_eq_getElem bound
      rw [strictPop, if_neg (Nat.succ_ne_zero depth), found]
      rfl

end CallStack

namespace Registers

theorem strictFirstValues_eq (r : Registers) (last : Register) :
    r.strictFirstValues (last.val + 1) = some (r.firstValues (last.val + 1)) := by
  rw [strictFirstValues, Vector.length_toList]
  exact if_pos last.isLt

theorem strictSetFirst_eq (r : Registers) (last : Register) {values : List UInt8}
    (count : values.length = last.val + 1) :
    r.strictSetFirst (last.val + 1) values = some (r.setFirst values) := by
  rw [strictSetFirst, Vector.length_toList]
  exact if_pos ⟨last.isLt, count⟩

end Registers

namespace Display

/-- The coordinates that a sprite toggles are near its corner. -/
theorem mem_spots {x y : Nat} {rows : List UInt8} {spot : Nat × Nat}
    (member : spot ∈ spots x y rows) : spot.1 < x + 8 ∧ spot.2 < y + rows.length := by
  induction rows generalizing y with
  | nil => cases member
  | cons row rows ih =>
      rw [spots, List.mem_append] at member
      rw [List.length_cons]
      rcases member with here | below
      · obtain ⟨column, listed, rfl⟩ := List.mem_map.mp here
        have narrow := List.mem_range.mp (List.mem_filter.mp listed).1
        exact ⟨Nat.add_lt_add_left narrow x, by omega⟩
      · have near := ih below
        omega

theorem strictToggleAll_eq (collided : Bool) (d : Display) {coordinates : List (Nat × Nat)}
    (narrow : ∀ spot ∈ coordinates, spot.1 < 0x10000000000000000 ∧ spot.2 < 0x10000000000000000) :
    d.strictToggleAll collided coordinates = some (d.toggleAll collided coordinates) := by
  induction coordinates generalizing collided d with
  | nil => rfl
  | cons spot rest ih =>
      obtain ⟨x, y⟩ := spot
      have here : x % width + y % height * width < pixelCount := (place x y).isLt
      rw [strictToggleAll, dif_pos ⟨narrow _ List.mem_cons_self, here⟩, toggleAll]
      exact ih _ _ fun other member => narrow other (List.mem_cons_of_mem _ member)

theorem strictDraw_eq (d : Display) {x y : Nat} {rows : List UInt8} (columns : x < width)
    (lines : y < height) (short : rows.length < 16) :
    d.strictDraw x y rows = some (d.draw x y rows) := by
  refine strictToggleAll_eq false d fun spot member => ?_
  have near := mem_spots member
  simp only [width, height] at columns lines
  omega

end Display

namespace Machine

variable {m : Machine}

theorem strictOrFault_eq {α : Type} {found : Except Fault α} {go : α → Attempt}
    {strictGo : α → Option Attempt} (m : Machine)
    (same : ∀ value, found = .ok value → strictGo value = some (go value)) :
    m.strictOrFault (some found) strictGo = some (m.orFault found go) := by
  cases found with
  | ok value => exact same value rfl
  | error fault => rfl

/-- The counter has room for another instruction behind one that was fetched. -/
theorem strictAdvance_eq (near : m.pc.toNat ≤ Memory.size) : m.strictAdvance = some m.advance := by
  have fits : m.pc.toNat + (2 : UInt16).toNat < 0x10000 :=
    Nat.lt_of_le_of_lt (Nat.add_le_add_right near 2) (by decide)
  rw [strictAdvance, Strict.add_eq_some fits]
  rfl

theorem strictRewind_eq (m : Machine) (behind : 2 ≤ m.pc.toNat) :
    m.strictRewind = some m.rewind := by
  have small : (2 : UInt16) ≤ m.pc := UInt16.le_iff_toNat_le.mpr behind
  rw [strictRewind, Strict.subtract, if_pos small]
  rfl

/-- Behind a fetched instruction, carrying it out stays in range. -/
theorem strictExecute_eq (m : Machine) (after : 2 ≤ m.pc.toNat) (near : m.pc.toNat ≤ Memory.size)
    (i : Instruction) : m.strictExecute i = some (m.execute i) := by
  have index : m.index.val < 4096 := m.index.isLt
  cases i with
  | ret =>
      rw [strictExecute, CallStack.strictPop_eq]
      exact m.strictOrFault_eq fun _ _ => rfl
  | call target =>
      rw [strictExecute, CallStack.strictPush_eq]
      exact m.strictOrFault_eq fun _ _ => rfl
  | skip condition =>
      rw [strictExecute, execute, strictAdvance_eq near]
      split <;> rfl
  | jumpOffset base =>
      have sum : (UInt16.ofNat base.val).toNat + (m.v 0).toUInt16.toNat < 0x10000 := by
        have bound := base.isLt
        have offset := (m.v 0).toNat_lt
        rw [UInt16.toNat_ofNat_of_lt' (Nat.lt_trans bound (by decide)), UInt8.toNat_toUInt16]
        omega
      have offset : UInt16.ofNat (m.v 0).toNat = (m.v 0).toUInt16 := by simp
      rw [strictExecute, Strict.add_eq_some sum, execute, UInt16.ofNat_add, offset]
      rfl
  | draw x y rows =>
      have rows_lt := rows.isLt
      rw [strictExecute, m.memory.strictReadRange_eq (by omega)]
      refine m.strictOrFault_eq fun sprite found => ?_
      have count : sprite.length = rows.val := by
        rw [← (Memory.readRange_eq_ok_iff.mp found).2, Memory.length_span]
      rw [Display.strictDraw_eq _ (Nat.mod_lt _ (by decide)) (Nat.mod_lt _ (by decide)) (by omega)]
      rfl
  | awaitKey x =>
      rw [strictExecute, execute, takeKey]
      cases m.keypad.firstDown? with
      | some key => rfl
      | none =>
          simp only [strictRewind_eq m after]
          rfl
  | storeDecimal x =>
      have three : (decimalDigits (m.v x)).length = 3 := rfl
      rw [strictExecute, m.memory.strictWriteRange_eq (by omega)]
      exact m.strictOrFault_eq fun _ _ => rfl
  | storeRegisters last =>
      have last_lt := last.isLt
      have count : (m.registers.firstValues (last.val + 1)).length = last.val + 1 :=
        Instruction.length_stored (.storeRegisters last) m
      rw [strictExecute, Registers.strictFirstValues_eq]
      simp only [Option.bind_eq_bind, Option.bind_some]
      rw [m.memory.strictWriteRange_eq (by omega)]
      exact m.strictOrFault_eq fun _ _ => rfl
  | loadRegisters last =>
      have last_lt := last.isLt
      rw [strictExecute, m.memory.strictReadRange_eq (by omega)]
      refine m.strictOrFault_eq fun values found => ?_
      have count : values.length = last.val + 1 := by
        rw [← (Memory.readRange_eq_ok_iff.mp found).2, Memory.length_span]
      rw [Registers.strictSetFirst_eq _ _ count]
      rfl
  | _ => rfl

theorem strictAttempt_eq (m : Machine) : m.strictAttempt = some m.attempt := by
  rw [strictAttempt, m.memory.strictReadWord_eq m.pc.toNat_lt]
  refine m.strictOrFault_eq fun word found => ?_
  have inside : m.pc.toNat + 1 < Memory.size := by
    rw [Memory.readWord_eq] at found
    split at found
    · assumption
    · cases found
  have moved : m.advance.pc.toNat = m.pc.toNat + 2 := Memory.toNat_add_two inside
  rw [strictAdvance_eq (by omega)]
  simp only [Option.bind_eq_bind, Option.bind_some]
  cases Instruction.ofWord? word with
  | none => rfl
  | some i => exact m.advance.strictExecute_eq (by omega) (by omega) i

theorem strictStep_eq (m : Machine) : m.strictStep = some m.step := by
  rw [strictStep, step, strictAttempt_eq]
  split
  · rfl
  · cases m.attempt with
    | mk outcome next => cases outcome <;> rfl

/-- A machine that was switched on and had anything done to it has its program
counter and its return addresses in range, and its next step, made with every
sum, index and copy checked, has the result that it has without. -/
theorem reachable_stays_in_range (seed : UInt64) (history : List Action) :
    let m := (powerOn seed).after history
    (m.pc.toNat ≤ 0x10FE ∧ m.index.val ≤ 0xFFF ∧ m.stack.depth ≤ 16 ∧
      ∀ a ∈ m.stack.entries, 2 ≤ a.toNat ∧ a.toNat ≤ 0x1000) ∧
      m.strictStep = some m.step := by
  intro m
  have held := inRange_after seed history
  exact ⟨⟨held.pc_le, Nat.le_of_lt_succ m.index.isLt, m.stack.depth_le, held.entries⟩,
    m.strictStep_eq⟩

/-- A call and a jump with the greatest base and offset: the counter reaches its
bound, behind the memory, and the next step fails without going out of range. -/
theorem reachable_stays_in_range_farthest :
    let program : List UInt8 := [0x22, 0x02, 0x60, 0xFF, 0xBF, 0xFF]
    let m := (powerOn 0).after [.load program, .step, .tick, .step, .step]
    m.pc.toNat = 0x10FE ∧ m.stack.entries = [0x202] ∧
      (2 ≤ (0x202 : UInt16).toNat ∧ (0x202 : UInt16).toNat ≤ 0x1000) ∧
      m.strictStep = some (.error (.outOfBounds 0x10FE), m.halt) := by
  intro program m
  obtain ⟨far, pending, running⟩ : m.pc.toNat = 0x10FE ∧ m.stack.entries = [0x202] ∧
      m.halted = false := by decide +kernel
  obtain ⟨⟨-, -, -, entries⟩, strict⟩ :=
    reachable_stays_in_range 0 [.load program, .step, .tick, .step, .step]
  refine ⟨far, pending, entries 0x202 (pending ▸ List.mem_singleton_self _), strict.trans ?_⟩
  have outside : m.attempt = (.error (.outOfBounds (max m.pc.toNat Memory.size)), m) :=
    attempt_of_outside (far ▸ by decide)
  rw [far] at outside
  exact congrArg some (step_eq_error_iff.mpr ⟨rfl, .inr ⟨running, congrArg Prod.fst outside⟩⟩)

end Machine

end ChipEight
