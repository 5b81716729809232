/-
# Registers

Sixteen byte registers, the index register and the program counter. The last
byte register is also the flag: instructions that report a carry, a borrow, a
lost bit or a collision leave one or zero there. The index register has twelve
bits, so whatever is put into it is reduced to an address; the program counter
has sixteen, of which a running program uses fewer.
-/

import ChipEight.Instruction.Word

namespace ChipEight

/-- The register file. -/
structure Registers where
  /-- The byte registers by number. -/
  v : Vector UInt8 16
  /-- The index register. -/
  index : Address
  /-- The program counter. -/
  pc : UInt16
  deriving DecidableEq

namespace Registers

/-- The register that holds the flag. -/
def flagRegister : Register := 15

/-- The register file with everything zero. -/
def zero : Registers :=
  ⟨Vector.replicate 16 0, 0, 0⟩

/-- The value of a byte register. -/
def get (r : Registers) (x : Register) : UInt8 :=
  r.v[x]

/-- Replace the value of a byte register. -/
def set (r : Registers) (x : Register) (value : UInt8) : Registers :=
  { r with v := r.v.set x value }

/-- The value of the flag register. -/
def flag (r : Registers) : UInt8 :=
  r.get flagRegister

/-- Put one or zero into the flag register. -/
def setFlag (r : Registers) (raised : Bool) : Registers :=
  r.set flagRegister (if raised then 1 else 0)

/-- Put a number into the index register, which keeps its low twelve bits. -/
def setIndex (r : Registers) (value : Nat) : Registers :=
  { r with index := Fin.ofNat 4096 value }

/-- Put a number into the program counter. -/
def setPc (r : Registers) (pc : UInt16) : Registers :=
  { r with pc }

/-- Move the program counter past one instruction. -/
def advance (r : Registers) : Registers :=
  { r with pc := r.pc + 2 }

/-- Move the program counter back by one instruction. -/
def rewind (r : Registers) : Registers :=
  { r with pc := r.pc - 2 }

/-- The values of the first `count` byte registers. -/
def firstValues (r : Registers) (count : Nat) : List UInt8 :=
  r.v.toList.take count

/-- Replace the values of the byte registers from number `x` on by the given ones. -/
def setFrom (r : Registers) (x : Nat) : List UInt8 → Registers
  | [] => r
  | b :: bs => { r with v := r.v.setIfInBounds x b }.setFrom (x + 1) bs

/-- Replace the values of the first byte registers by the given ones. -/
def setFirst (r : Registers) (values : List UInt8) : Registers :=
  r.setFrom 0 values

/-! ## Reading after writing -/

theorem get_set (r : Registers) (x y : Register) (value : UInt8) :
    (r.set x value).get y = if y = x then value else r.get y := by
  simp only [get, set, Fin.getElem_fin, Vector.getElem_set, Fin.ext_iff]
  simp only [eq_comm]

@[simp]
theorem get_set_self (r : Registers) (x : Register) (value : UInt8) :
    (r.set x value).get x = value := by
  rw [get_set, if_pos rfl]

@[simp]
theorem set_index (r : Registers) (x : Register) (value : UInt8) :
    (r.set x value).index = r.index := rfl

@[simp]
theorem set_pc (r : Registers) (x : Register) (value : UInt8) :
    (r.set x value).pc = r.pc := rfl

@[simp]
theorem get_setIndex (r : Registers) (value : Nat) (x : Register) :
    (r.setIndex value).get x = r.get x := rfl

@[simp]
theorem get_setPc (r : Registers) (pc : UInt16) (x : Register) :
    (r.setPc pc).get x = r.get x := rfl

@[simp]
theorem get_advance (r : Registers) (x : Register) : r.advance.get x = r.get x := rfl

/-- Going back undoes going on, also where the program counter wraps around. -/
@[simp]
theorem rewind_advance (r : Registers) : r.advance.rewind = r := by
  simp [advance, rewind]

/-- Writing from a number on changes exactly the registers that the values reach. -/
theorem get_setFrom (r : Registers) (x : Nat) (values : List UInt8) (y : Register) :
    (r.setFrom x values).get y =
      if x ≤ y.val ∧ y.val < x + values.length then values[y.val - x]?.getD 0
      else r.get y := by
  induction values generalizing r x with
  | nil =>
    rw [setFrom, List.length_nil, if_neg (by omega)]
  | cons b bs ih =>
    rw [setFrom, ih, List.length_cons]
    by_cases later : x + 1 ≤ y.val ∧ y.val < x + 1 + bs.length
    · rw [if_pos later, if_pos (by omega), show y.val - x = y.val - (x + 1) + 1 by omega,
        List.getElem?_cons_succ]
    · rw [if_neg later]
      simp only [get, Fin.getElem_fin, Vector.getElem_setIfInBounds]
      by_cases first : x = y.val
      · rw [if_pos first, if_pos (by omega), first, Nat.sub_self]
        rfl
      · rw [if_neg first, if_neg (by omega)]

end Registers

end ChipEight
