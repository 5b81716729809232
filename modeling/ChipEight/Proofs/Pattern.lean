/-
# The documented instruction words

The instruction set as its reference writes it: four hexadecimal places of which
some are fixed and the others stand for operands. A word is read as an
instruction exactly when it matches one of these patterns, and what the pattern
says about the word can be said about the instruction.
-/

import ChipEight.Instruction.Coding
import ChipEight.Proofs.Execution

namespace ChipEight

/-- The hexadecimal digits of an instruction word, with none where any may stand. -/
structure Pattern where
  family : Option Nat
  x : Option Nat
  y : Option Nat
  nibble : Option Nat

namespace Pattern

/-- Whether a word has the fixed digits of a pattern. -/
def fits (p : Pattern) (w : Word) : Bool :=
  p.family.all (· == w.family.val) && p.x.all (· == w.x.val) && p.y.all (· == w.y.val) &&
    p.nibble.all (· == w.nibble.val)

/-- All patterns, in the order of their words. -/
def documented : List Pattern :=
  [⟨some 0x0, some 0x0, some 0xE, some 0x0⟩, -- 00E0
    ⟨some 0x0, some 0x0, some 0xE, some 0xE⟩, -- 00EE
    ⟨some 0x1, none, none, none⟩, -- 1nnn
    ⟨some 0x2, none, none, none⟩, -- 2nnn
    ⟨some 0x3, none, none, none⟩, -- 3xnn
    ⟨some 0x4, none, none, none⟩, -- 4xnn
    ⟨some 0x5, none, none, some 0x0⟩, -- 5xy0
    ⟨some 0x6, none, none, none⟩, -- 6xnn
    ⟨some 0x7, none, none, none⟩, -- 7xnn
    ⟨some 0x8, none, none, some 0x0⟩, -- 8xy0
    ⟨some 0x8, none, none, some 0x1⟩, -- 8xy1
    ⟨some 0x8, none, none, some 0x2⟩, -- 8xy2
    ⟨some 0x8, none, none, some 0x3⟩, -- 8xy3
    ⟨some 0x8, none, none, some 0x4⟩, -- 8xy4
    ⟨some 0x8, none, none, some 0x5⟩, -- 8xy5
    ⟨some 0x8, none, none, some 0x6⟩, -- 8xy6
    ⟨some 0x8, none, none, some 0x7⟩, -- 8xy7
    ⟨some 0x8, none, none, some 0xE⟩, -- 8xyE
    ⟨some 0x9, none, none, some 0x0⟩, -- 9xy0
    ⟨some 0xA, none, none, none⟩, -- Annn
    ⟨some 0xB, none, none, none⟩, -- Bnnn
    ⟨some 0xC, none, none, none⟩, -- Cxnn
    ⟨some 0xD, none, none, none⟩, -- Dxyn
    ⟨some 0xE, none, some 0x9, some 0xE⟩, -- Ex9E
    ⟨some 0xE, none, some 0xA, some 0x1⟩, -- ExA1
    ⟨some 0xF, none, some 0x0, some 0x7⟩, -- Fx07
    ⟨some 0xF, none, some 0x0, some 0xA⟩, -- Fx0A
    ⟨some 0xF, none, some 0x1, some 0x5⟩, -- Fx15
    ⟨some 0xF, none, some 0x1, some 0x8⟩, -- Fx18
    ⟨some 0xF, none, some 0x1, some 0xE⟩, -- Fx1E
    ⟨some 0xF, none, some 0x2, some 0x9⟩, -- Fx29
    ⟨some 0xF, none, some 0x3, some 0x3⟩, -- Fx33
    ⟨some 0xF, none, some 0x5, some 0x5⟩, -- Fx55
    ⟨some 0xF, none, some 0x6, some 0x5⟩] -- Fx65

end Pattern

namespace Word

/-- Whether a word matches one of the documented patterns. -/
def isDocumented (w : Word) : Bool :=
  Pattern.documented.any fun p => p.fits w

/-- The number of bytes of memory, from the index on, that a word asks for. -/
def dataLength (w : Word) : Nat :=
  if w.family = 0xD then w.nibble.val
  else if w.family = 0xF ∧ w.byte = 0x33 then 3
  else if w.family = 0xF ∧ (w.byte = 0x55 ∨ w.byte = 0x65) then w.x.val + 1
  else 0

theorem byte_eq_iff {w : Word} {b : UInt8} :
    w.byte = b ↔ w.y.val = b.toNat / 16 ∧ w.nibble.val = b.toNat % 16 := by
  have bound := b.toNat_lt
  rw [← UInt8.toNat_inj, toNat_byte]
  simp only [y, nibble]
  omega

theorem toNat_byte_eq (w : Word) : w.byte.toNat = w.y.val * 16 + w.nibble.val := by
  rw [toNat_byte]
  simp only [y, nibble]
  omega

theorem address_eq_iff {w : Word} {a : Address} :
    w.address = a ↔
      w.x.val = a.val / 256 ∧ w.y.val = a.val / 16 % 16 ∧ w.nibble.val = a.val % 16 := by
  rw [Fin.ext_iff]
  simp only [address, x, y, nibble]
  omega

end Word

namespace Instruction

theorem isSome_ofNibble? (n : Nibble) :
    (Arithmetic.ofNibble? n).isSome = decide (n.val ≤ 7 ∨ n.val = 0xE) := by
  revert n
  decide

theorem isSome_ofByte? (x : Register) (byte : UInt8) :
    (ofByte? x byte).isSome =
      [0x07, 0x0A, 0x15, 0x18, 0x1E, 0x29, 0x33, 0x55, 0x65].contains byte.toNat := by
  unfold ofByte?
  split
  case h_10 => simp_all
  all_goals simp_all

/-- A word is read as an instruction exactly when it matches a documented pattern. -/
theorem isSome_ofWord? (w : Word) : (ofWord? w).isSome = w.isDocumented := by
  unfold ofWord?
  -- one family after the other; within a family both sides are conditions on digits
  split
  case h_1 same =>
      have cls : w.address = 0x0E0 ↔ w.x.val = 0 ∧ w.y.val = 14 ∧ w.nibble.val = 0 :=
        Word.address_eq_iff
      have ret : w.address = 0x0EE ↔ w.x.val = 0 ∧ w.y.val = 14 ∧ w.nibble.val = 14 :=
        Word.address_eq_iff
      rw [Bool.eq_iff_iff]
      simp only [cls, ret, apply_ite Option.isSome]
      simp [Word.isDocumented, Pattern.documented, Pattern.fits, same]
      omega
  case h_6 same | h_10 same =>
      by_cases zero : w.nibble = 0
      · simp [Word.isDocumented, Pattern.documented, Pattern.fits, same, zero]
      · have other : 0 ≠ w.nibble.val := fun equal => zero (Fin.ext equal.symm)
        simp [Word.isDocumented, Pattern.documented, Pattern.fits, same, zero, other]
  case h_9 same =>
      rw [Bool.eq_iff_iff, Option.isSome_map, isSome_ofNibble?]
      simp [Word.isDocumented, Pattern.documented, Pattern.fits, same]
      omega
  case h_15 same =>
      have down : w.byte = 0x9E ↔ w.y.val = 9 ∧ w.nibble.val = 14 := Word.byte_eq_iff
      have up : w.byte = 0xA1 ↔ w.y.val = 10 ∧ w.nibble.val = 1 := Word.byte_eq_iff
      rw [Bool.eq_iff_iff]
      simp only [down, up, apply_ite Option.isSome]
      simp [Word.isDocumented, Pattern.documented, Pattern.fits, same]
      omega
  case h_16 =>
      have same : w.family.val = 15 := by
        have bound := w.family.isLt
        simp only [imp_false] at *
        omega
      have digits (n : Nat) : w.byte.toNat = n ↔ n / 16 = w.y.val ∧ n % 16 = w.nibble.val := by
        rw [Word.toNat_byte_eq]
        omega
      rw [Bool.eq_iff_iff, isSome_ofByte?]
      simp [Word.isDocumented, Pattern.documented, Pattern.fits, same, digits]
  all_goals
    next same => simp [Word.isDocumented, Pattern.documented, Pattern.fits, same]

/-! ## What the word says about the instruction -/

theorem toWord_eq_ret_iff {i : Instruction} : i.toWord = 0x00EE ↔ i = .ret := by
  have word : toWord .ret = 0x00EE := by decide
  rw [← word, toWord_inj]

theorem family_toWord_eq_call_iff {i : Instruction} :
    i.toWord.family = 0x2 ↔ i.isCall = true := by
  cases i with
  | skip condition => cases condition <;> simp [toWord, isCall]
  | _ => simp [toWord, isCall]

theorem dataLength_toWord (i : Instruction) : i.toWord.dataLength = i.dataLength := by
  cases i with
  | skip condition => cases condition <;> simp [toWord, Word.dataLength, dataLength]
  | _ => simp [toWord, Word.dataLength, dataLength]

end Instruction

end ChipEight
