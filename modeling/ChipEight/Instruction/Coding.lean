/-
# Words and instructions correspond

Reading a word as an instruction and writing an instruction as a word undo each
other. So a word stands for at most one instruction, different instructions
have different words, and a word that is read as nothing is the word of none.
-/

import ChipEight.Instruction.Basic

namespace ChipEight

namespace Word

/-! ## The fields of a composed word -/

@[simp]
theorem family_ofAddress (family : Nibble) (address : Address) :
    (ofAddress family address).family = family := by
  apply Fin.ext
  simp only [Word.family, toNat_ofAddress]
  omega

@[simp]
theorem address_ofAddress (family : Nibble) (address : Address) :
    (ofAddress family address).address = address := by
  apply Fin.ext
  simp only [Word.address, toNat_ofAddress]
  omega

@[simp]
theorem family_ofByte (family : Nibble) (x : Register) (byte : UInt8) :
    (ofByte family x byte).family = family := by
  have := byte.toNat_lt
  apply Fin.ext
  simp only [Word.family, toNat_ofByte]
  omega

@[simp]
theorem x_ofByte (family : Nibble) (x : Register) (byte : UInt8) :
    (ofByte family x byte).x = x := by
  have := byte.toNat_lt
  apply Fin.ext
  simp only [Word.x, toNat_ofByte]
  omega

@[simp]
theorem byte_ofByte (family : Nibble) (x : Register) (byte : UInt8) :
    (ofByte family x byte).byte = byte := by
  have := byte.toNat_lt
  apply UInt8.toNat_inj.mp
  rw [toNat_byte, toNat_ofByte]
  omega

@[simp]
theorem family_ofNibbles (family : Nibble) (x y : Register) (nibble : Nibble) :
    (ofNibbles family x y nibble).family = family := by
  apply Fin.ext
  simp only [Word.family, toNat_ofNibbles]
  omega

@[simp]
theorem x_ofNibbles (family : Nibble) (x y : Register) (nibble : Nibble) :
    (ofNibbles family x y nibble).x = x := by
  apply Fin.ext
  simp only [Word.x, toNat_ofNibbles]
  omega

@[simp]
theorem y_ofNibbles (family : Nibble) (x y : Register) (nibble : Nibble) :
    (ofNibbles family x y nibble).y = y := by
  apply Fin.ext
  simp only [Word.y, toNat_ofNibbles]
  omega

@[simp]
theorem nibble_ofNibbles (family : Nibble) (x y : Register) (nibble : Nibble) :
    (ofNibbles family x y nibble).nibble = nibble := by
  apply Fin.ext
  simp only [Word.nibble, toNat_ofNibbles]
  omega

end Word

namespace Instruction

/-! ## Reading and writing undo each other -/

/-- The word of an instruction is read as that instruction. -/
theorem ofWord?_toWord (i : Instruction) : ofWord? i.toWord = some i := by
  cases i with
  | skip condition =>
    cases condition <;>
      simp only [toWord, ofWord?, Word.family_ofByte, Word.x_ofByte, Word.byte_ofByte,
        Word.family_ofNibbles, Word.x_ofNibbles, Word.y_ofNibbles, Word.nibble_ofNibbles] <;>
      rfl
  | arithmetic operation x y =>
    simp only [toWord, ofWord?, Word.family_ofNibbles, Word.x_ofNibbles, Word.y_ofNibbles,
      Word.nibble_ofNibbles, Arithmetic.ofNibble?_eq_some_iff.mpr rfl]
    rfl
  | _ =>
    simp only [toWord, ofWord?, Word.family_ofAddress, Word.address_ofAddress,
      Word.family_ofByte, Word.x_ofByte, Word.byte_ofByte, Word.family_ofNibbles,
      Word.x_ofNibbles, Word.y_ofNibbles, Word.nibble_ofNibbles]
    rfl

/-- In the last family the byte alone decides about the instruction. -/
theorem toWord_of_ofByte? {x : Register} {byte : UInt8} {i : Instruction}
    (read : ofByte? x byte = some i) : i.toWord = .ofByte 0xF x byte := by
  unfold ofByte? at read
  split at read
  case h_10 => cases read
  all_goals
    next value =>
      cases read
      rw [show byte = UInt8.ofNat byte.toNat by simp, value]
      rfl

/-- What a word is read as has that word. -/
theorem toWord_of_ofWord? {w : Word} {i : Instruction} (read : ofWord? w = some i) :
    i.toWord = w := by
  have byAddress (family : Nibble) (a : Address) (same : w.family.val = family.val)
      (operand : w.address = a) : Word.ofAddress family a = w := by
    rw [← Fin.ext same, ← operand, Word.ofAddress_fields]
  have byByte (family : Nibble) (b : UInt8) (same : w.family.val = family.val)
      (operand : w.byte = b) : Word.ofByte family w.x b = w := by
    rw [← Fin.ext same, ← operand, Word.ofByte_fields]
  have byNibbles (family n : Nibble) (same : w.family.val = family.val)
      (operand : w.nibble = n) : Word.ofNibbles family w.x w.y n = w := by
    rw [← Fin.ext same, ← operand, Word.ofNibbles_fields]
  unfold ofWord? at read
  split at read
  case h_1 same =>
    split at read
    · next operand =>
      cases read
      exact byAddress 0x0 _ same operand
    · split at read
      · next operand =>
        cases read
        exact byAddress 0x0 _ same operand
      · cases read
  case h_2 same => cases read; exact byAddress 0x1 _ same rfl
  case h_3 same => cases read; exact byAddress 0x2 _ same rfl
  case h_4 same => cases read; exact byByte 0x3 _ same rfl
  case h_5 same => cases read; exact byByte 0x4 _ same rfl
  case h_6 same =>
    split at read
    · next operand =>
      cases read
      exact byNibbles 0x5 _ same operand
    · cases read
  case h_7 same => cases read; exact byByte 0x6 _ same rfl
  case h_8 same => cases read; exact byByte 0x7 _ same rfl
  case h_9 same =>
    obtain ⟨operation, known, rfl⟩ := Option.map_eq_some_iff.mp read
    exact byNibbles 0x8 _ same (Arithmetic.ofNibble?_eq_some_iff.mp known).symm
  case h_10 same =>
    split at read
    · next operand =>
      cases read
      exact byNibbles 0x9 _ same operand
    · cases read
  case h_11 same => cases read; exact byAddress 0xA _ same rfl
  case h_12 same => cases read; exact byAddress 0xB _ same rfl
  case h_13 same => cases read; exact byByte 0xC _ same rfl
  case h_14 same => cases read; exact byNibbles 0xD _ same rfl
  case h_15 same =>
    split at read
    · next operand =>
      cases read
      exact byByte 0xE _ same operand
    · split at read
      · next operand =>
        cases read
        exact byByte 0xE _ same operand
      · cases read
  case h_16 not0 not1 not2 not3 not4 not5 not6 not7 not8 not9 notA notB notC notD notE =>
    have last : w.family.val = 15 := by
      have := w.family.isLt
      simp only [imp_false] at *
      omega
    rw [toWord_of_ofByte? read]
    exact byByte 0xF _ last rfl

/-- A word stands for an instruction exactly when it is the word of that instruction. -/
theorem ofWord?_eq_some_iff {w : Word} {i : Instruction} :
    ofWord? w = some i ↔ i.toWord = w :=
  ⟨toWord_of_ofWord?, fun same => same ▸ ofWord?_toWord i⟩

/-- Different instructions have different words. -/
theorem toWord_inj {i j : Instruction} : i.toWord = j.toWord ↔ i = j := by
  constructor
  · intro same
    have read := ofWord?_toWord i
    rw [same, ofWord?_toWord] at read
    exact (Option.some.inj read).symm
  · exact fun same => same ▸ rfl

end Instruction

end ChipEight
