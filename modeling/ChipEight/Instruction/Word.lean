/-
# Instruction words

An instruction is one word of two bytes, high byte first. It is read as four
nibbles: a family, two register numbers and a short operand. The last two
nibbles together are a byte operand and the last three an address. Reading the
fields loses nothing, since the word is the sum of its nibbles by place.
-/

import ChipEight.Bounded

namespace ChipEight

/-- One of the sixteen registers, by number. -/
abbrev Register := Fin 16

/-- A four-bit operand. -/
abbrev Nibble := Fin 16

/-- An address of the machine's memory as an instruction can name it. -/
abbrev Address := Fin 4096

/-- Two bytes, read as a number with the high byte first. -/
abbrev Word := UInt16

/-- The low four bits of a byte. -/
def lowNibble (b : UInt8) : Nibble :=
  ⟨b.toNat % 16, Nat.mod_lt _ (by decide)⟩

namespace Word

/-- The word made of two bytes. -/
def ofBytes (high low : UInt8) : Word :=
  UInt16.ofNat (high.toNat * 256 + low.toNat)

/-- The first nibble: the family an instruction belongs to. -/
def family (w : Word) : Nibble :=
  ⟨w.toNat / 4096, Nat.div_lt_of_lt_mul w.toNat_lt⟩

/-- The second nibble: the first register operand. -/
def x (w : Word) : Register :=
  ⟨w.toNat / 256 % 16, Nat.mod_lt _ (by decide)⟩

/-- The third nibble: the second register operand. -/
def y (w : Word) : Register :=
  ⟨w.toNat / 16 % 16, Nat.mod_lt _ (by decide)⟩

/-- The last nibble. -/
def nibble (w : Word) : Nibble :=
  ⟨w.toNat % 16, Nat.mod_lt _ (by decide)⟩

/-- The first two nibbles as a byte. -/
def highByte (w : Word) : UInt8 :=
  UInt8.ofNat (w.toNat / 256)

/-- The last two nibbles as a byte. -/
def byte (w : Word) : UInt8 :=
  UInt8.ofNat (w.toNat % 256)

/-- The last three nibbles as an address. -/
def address (w : Word) : Address :=
  ⟨w.toNat % 4096, Nat.mod_lt _ (by decide)⟩

/-- A word whose first nibble is `family` and whose other three are `address`. -/
def ofAddress (family : Nibble) (address : Address) : Word :=
  UInt16.ofNat (family.val * 4096 + address.val)

/-- A word with a register and a byte after its family. -/
def ofByte (family : Nibble) (x : Register) (byte : UInt8) : Word :=
  UInt16.ofNat (family.val * 4096 + x.val * 256 + byte.toNat)

/-- A word given by its four nibbles. -/
def ofNibbles (family : Nibble) (x y : Register) (nibble : Nibble) : Word :=
  UInt16.ofNat (family.val * 4096 + x.val * 256 + y.val * 16 + nibble.val)

/-! ## The fields determine the word -/

theorem toNat_ofBytes (high low : UInt8) :
    (ofBytes high low).toNat = high.toNat * 256 + low.toNat := by
  have := high.toNat_lt
  have := low.toNat_lt
  rw [ofBytes, UInt16.toNat_ofNat']
  omega

theorem toNat_ofAddress (family : Nibble) (address : Address) :
    (ofAddress family address).toNat = family.val * 4096 + address.val := by
  rw [ofAddress, UInt16.toNat_ofNat']
  omega

theorem toNat_ofByte (family : Nibble) (x : Register) (byte : UInt8) :
    (ofByte family x byte).toNat = family.val * 4096 + x.val * 256 + byte.toNat := by
  have := byte.toNat_lt
  rw [ofByte, UInt16.toNat_ofNat']
  omega

theorem toNat_ofNibbles (family : Nibble) (x y : Register) (nibble : Nibble) :
    (ofNibbles family x y nibble).toNat =
      family.val * 4096 + x.val * 256 + y.val * 16 + nibble.val := by
  rw [ofNibbles, UInt16.toNat_ofNat']
  omega

theorem toNat_byte (w : Word) : w.byte.toNat = w.toNat % 256 := by
  rw [byte, UInt8.toNat_ofNat']
  omega

/-- Every word is given by its four nibbles. -/
theorem ofNibbles_fields (w : Word) : ofNibbles w.family w.x w.y w.nibble = w := by
  apply UInt16.toNat_inj.mp
  rw [toNat_ofNibbles]
  simp only [family, x, y, nibble]
  omega

/-- Every word is given by its family, its first register and its byte. -/
theorem ofByte_fields (w : Word) : ofByte w.family w.x w.byte = w := by
  apply UInt16.toNat_inj.mp
  rw [toNat_ofByte, toNat_byte]
  simp only [family, x]
  omega

/-- Every word is given by its family and its address. -/
theorem ofAddress_fields (w : Word) : ofAddress w.family w.address = w := by
  apply UInt16.toNat_inj.mp
  rw [toNat_ofAddress]
  simp only [family, address]
  omega

/-- Every word is given by its two bytes. -/
theorem ofBytes_highByte_byte (w : Word) : ofBytes w.highByte w.byte = w := by
  have bound := w.toNat_lt
  apply UInt16.toNat_inj.mp
  rw [toNat_ofBytes, toNat_byte, highByte, UInt8.toNat_ofNat']
  omega

theorem highByte_ofBytes (high low : UInt8) : (ofBytes high low).highByte = high := by
  have := high.toNat_lt
  have := low.toNat_lt
  apply UInt8.toNat_inj.mp
  rw [highByte, UInt8.toNat_ofNat', toNat_ofBytes]
  omega

theorem byte_ofBytes (high low : UInt8) : (ofBytes high low).byte = low := by
  have := low.toNat_lt
  apply UInt8.toNat_inj.mp
  rw [toNat_byte, toNat_ofBytes]
  omega

end Word

end ChipEight
