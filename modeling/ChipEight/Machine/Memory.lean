/-
# Memory

The machine has 4096 bytes. Every access from outside names its addresses as
natural numbers and is checked: an access that would leave the memory is a
fault and touches nothing. `byteAt` is the unchecked view through which the
operations are described; it reads zero outside, where no operation writes.
-/

import ChipEight.Fault
import ChipEight.Instruction.Word

namespace ChipEight

/-- The contents of the 4096 bytes of memory. -/
structure Memory where
  /-- The bytes by address. -/
  bytes : Vector UInt8 4096
  deriving DecidableEq

namespace Memory

/-- The number of bytes of memory. -/
def size : Nat := 4096

/-- The address at which programs are placed and started. -/
def programStart : Nat := 0x200

/-- The number of bytes from the start of programs to the end of memory. -/
def programCapacity : Nat := size - programStart

/-- The memory with every byte zero. -/
def zero : Memory :=
  ⟨Vector.replicate 4096 0⟩

/-- The byte at an address, and zero outside of the memory. -/
def byteAt (m : Memory) (a : Nat) : UInt8 :=
  m.bytes[a]?.getD 0

/-- The bytes at `length` addresses from `start` on. -/
def span (m : Memory) (start length : Nat) : List UInt8 :=
  (List.range length).map fun i => m.byteAt (start + i)

/-- Replace the byte at one address. Outside of the memory nothing changes. -/
def setByte (m : Memory) (a : Nat) (b : UInt8) : Memory :=
  ⟨m.bytes.setIfInBounds a b⟩

/-- Replace the bytes from `start` on by the given ones, as far as the memory reaches. -/
def put (m : Memory) (start : Nat) : List UInt8 → Memory
  | [] => m
  | b :: bs => (m.setByte start b).put (start + 1) bs

/-! ## Checked access -/

/-- Refuse a range that does not end inside the memory. The fault names the
first address of the range that lies outside. -/
def checkRange (start length : Nat) : Except Fault Unit :=
  if start + length ≤ size then .ok () else .error (.outOfBounds (max start size))

/-- Read one byte. -/
def read (m : Memory) (a : Nat) : Except Fault UInt8 :=
  if a < size then .ok (m.byteAt a) else .error (.outOfBounds a)

/-- Write one byte. -/
def write (m : Memory) (a : Nat) (b : UInt8) : Except Fault Memory :=
  if a < size then .ok (m.setByte a b) else .error (.outOfBounds a)

/-- Read two bytes as a word. The first one is looked up first, so it is the
one to blame when both lie outside. -/
def readWord (m : Memory) (a : Nat) : Except Fault Word := do
  let high ← m.read a
  let low ← m.read (a + 1)
  return Word.ofBytes high low

/-- The two bytes from an address on as a word, unchecked. -/
def wordAt (m : Memory) (a : Nat) : Word :=
  Word.ofBytes (m.byteAt a) (m.byteAt (a + 1))

/-- Read a range of bytes. -/
def readRange (m : Memory) (start length : Nat) : Except Fault (List UInt8) := do
  checkRange start length
  return m.span start length

/-- Write the given bytes over the range that they fill. -/
def writeRange (m : Memory) (start : Nat) (bs : List UInt8) : Except Fault Memory := do
  checkRange start bs.length
  return m.put start bs

/-- Write the same byte over a range. -/
def fill (m : Memory) (start length : Nat) (b : UInt8) : Except Fault Memory := do
  checkRange start length
  return m.put start (List.replicate length b)

/-- Copy bytes into memory. A start past the end is an access out of bounds;
bytes that do not fit behind a start inside are too large a program. -/
def load (m : Memory) (bs : List UInt8) (start : Nat) : Except Fault Memory :=
  if start > size then .error (.outOfBounds start)
  else if bs.length > size - start then .error (.programTooLarge bs.length (size - start))
  else .ok (m.put start bs)

/-- Copy a program to the place where programs start. -/
def loadProgram (m : Memory) (bs : List UInt8) : Except Fault Memory :=
  m.load bs programStart

/-! ## When access succeeds -/

/-- A word is read when both of its bytes are inside. -/
theorem readWord_eq (m : Memory) (a : Nat) :
    m.readWord a =
      if a + 1 < size then .ok (m.wordAt a) else .error (.outOfBounds (max a size)) := by
  simp only [readWord, read]
  by_cases both : a + 1 < size
  · rw [if_pos (by omega), if_pos both, if_pos both]
    rfl
  · rw [if_neg both, if_neg both]
    by_cases first : a < size
    · rw [if_pos first, show max a size = a + 1 by omega]
      rfl
    · rw [if_neg first, show max a size = a by omega]
      rfl

/-- A range is read when it ends inside. -/
theorem readRange_eq (m : Memory) (start length : Nat) :
    m.readRange start length =
      if start + length ≤ size then .ok (m.span start length)
      else .error (.outOfBounds (max start size)) := by
  simp only [readRange, checkRange]
  split <;> rfl

/-- Bytes are written when the range that they fill ends inside. -/
theorem writeRange_eq (m : Memory) (start : Nat) (bs : List UInt8) :
    m.writeRange start bs =
      if start + bs.length ≤ size then .ok (m.put start bs)
      else .error (.outOfBounds (max start size)) := by
  simp only [writeRange, checkRange]
  split <;> rfl

/-! ## What the operations do to the view -/

@[simp]
theorem byteAt_zero (a : Nat) : zero.byteAt a = 0 := by
  by_cases inside : a < 4096 <;> simp [byteAt, zero, inside]

theorem byteAt_setByte (m : Memory) (a i : Nat) (b : UInt8) :
    (m.setByte a b).byteAt i = if i = a ∧ i < size then b else m.byteAt i := by
  simp only [byteAt, setByte, size, Vector.getElem?_setIfInBounds]
  by_cases same : i = a
  · subst same
    by_cases inside : i < 4096 <;> simp [inside]
  · simp [same, Ne.symm same]

/-- Putting bytes changes exactly the addresses that they cover. -/
theorem byteAt_put (m : Memory) (start i : Nat) (bs : List UInt8) :
    (m.put start bs).byteAt i =
      if start ≤ i ∧ i < start + bs.length ∧ i < size then bs[i - start]?.getD 0
      else m.byteAt i := by
  induction bs generalizing m start with
  | nil =>
    simp only [put, List.length_nil]
    rw [if_neg (by omega)]
  | cons b bs ih =>
    rw [put, ih, byteAt_setByte, List.length_cons]
    by_cases later : start + 1 ≤ i ∧ i < start + 1 + bs.length ∧ i < size
    · rw [if_pos later, if_pos (by omega), show i - start = i - (start + 1) + 1 by omega,
        List.getElem?_cons_succ]
    · rw [if_neg later]
      by_cases first : i = start ∧ i < size
      · rw [if_pos first, if_pos (by omega), first.1, Nat.sub_self]
        rfl
      · rw [if_neg first, if_neg (by omega)]

@[simp]
theorem length_span (m : Memory) (start length : Nat) :
    (m.span start length).length = length := by
  simp [span]

/-- Two memories with the same view are equal. -/
theorem ext_byteAt {m m' : Memory} (same : ∀ a < size, m.byteAt a = m'.byteAt a) : m = m' := by
  obtain ⟨bytes⟩ := m
  obtain ⟨bytes'⟩ := m'
  congr 1
  apply Vector.ext
  intro a inside
  have at_a := same a inside
  simpa [byteAt, inside] using at_a

end Memory

end ChipEight
