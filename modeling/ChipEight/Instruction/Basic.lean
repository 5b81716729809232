/-
# Instructions

The instruction set as data, with the reading of words as instructions and the
writing of instructions as words. The nine arithmetic instructions differ only
in the function they compute, and the six skips only in the condition they
test, so each group is one instruction with a parameter. Every instruction has
exactly one word; the words of no instruction are the undefined ones.
-/

import ChipEight.Instruction.Word

namespace ChipEight

/-- What an arithmetic instruction computes from the registers x and y. -/
inductive Arithmetic
  /-- The value of y. -/
  | copy
  /-- The bits set in x or in y. -/
  | or
  /-- The bits set in both. -/
  | and
  /-- The bits set in exactly one. -/
  | xor
  /-- The sum; the flag is the carry. -/
  | add
  /-- The value of x less that of y; the flag is up unless it borrows. -/
  | subtract
  /-- Half of x, whatever y is; the flag is the bit that is lost. -/
  | shiftRight
  /-- The value of y less that of x; the flag is up unless it borrows. -/
  | subtractFrom
  /-- Twice x, whatever y is; the flag is the bit that is lost. -/
  | shiftLeft
  deriving DecidableEq

/-- What a skip tests before it passes over the next instruction. -/
inductive Condition
  /-- The register holds the byte. -/
  | holds (x : Register) (value : UInt8)
  /-- The register does not hold the byte. -/
  | lacks (x : Register) (value : UInt8)
  /-- The registers are equal. -/
  | equal (x y : Register)
  /-- The registers differ. -/
  | differ (x y : Register)
  /-- The key numbered by the low half of the register is down. -/
  | keyDown (x : Register)
  /-- The key numbered by the low half of the register is up. -/
  | keyUp (x : Register)
  deriving DecidableEq

/-- One instruction with its operands. -/
inductive Instruction
  /-- Turn every pixel dark. -/
  | clear
  /-- Go back to behind the most recent call. -/
  | ret
  /-- Go on at the address. -/
  | jump (target : Address)
  /-- Go on at the address and come back on return. -/
  | call (target : Address)
  /-- Pass over the next instruction if the condition holds. -/
  | skip (condition : Condition)
  /-- Put the byte into the register. -/
  | setByte (x : Register) (value : UInt8)
  /-- Add the byte to the register, without a flag. -/
  | addByte (x : Register) (value : UInt8)
  /-- Replace register x by what the operation computes. -/
  | arithmetic (operation : Arithmetic) (x y : Register)
  /-- Put the address into the index register. -/
  | setIndex (address : Address)
  /-- Go on at the address plus the value of register zero. -/
  | jumpOffset (base : Address)
  /-- Put a random byte into the register, with only the bits of the mask. -/
  | random (x : Register) (mask : UInt8)
  /-- Draw the sprite of so many rows at the index, with its corner where the registers say. -/
  | draw (x y : Register) (rows : Nibble)
  /-- Put the delay timer into the register. -/
  | readDelay (x : Register)
  /-- Stall until a key is down, then put its number into the register. -/
  | awaitKey (x : Register)
  /-- Start the delay timer at the value of the register. -/
  | setDelay (x : Register)
  /-- Start the sound timer at the value of the register. -/
  | setSound (x : Register)
  /-- Add the register to the index. -/
  | addIndex (x : Register)
  /-- Point the index at the picture of the digit in the low half of the register. -/
  | pointAtDigit (x : Register)
  /-- Write the three decimal digits of the register to the index and behind it. -/
  | storeDecimal (x : Register)
  /-- Write register zero up to the given one to the index and behind it. -/
  | storeRegisters (last : Register)
  /-- Read register zero up to the given one from the index and behind it. -/
  | loadRegisters (last : Register)
  deriving DecidableEq

namespace Arithmetic

/-- The operation that the last nibble of a word stands for. -/
def ofNibble? (n : Nibble) : Option Arithmetic :=
  match n.val with
  | 0x0 => some .copy
  | 0x1 => some .or
  | 0x2 => some .and
  | 0x3 => some .xor
  | 0x4 => some .add
  | 0x5 => some .subtract
  | 0x6 => some .shiftRight
  | 0x7 => some .subtractFrom
  | 0xE => some .shiftLeft
  | _ => none

/-- The last nibble of the words of an operation. -/
def nibble : Arithmetic → Nibble
  | .copy => 0x0
  | .or => 0x1
  | .and => 0x2
  | .xor => 0x3
  | .add => 0x4
  | .subtract => 0x5
  | .shiftRight => 0x6
  | .subtractFrom => 0x7
  | .shiftLeft => 0xE

theorem ofNibble?_eq_some_iff {n : Nibble} {operation : Arithmetic} :
    ofNibble? n = some operation ↔ operation.nibble = n := by
  revert n
  cases operation <;> decide

end Arithmetic

namespace Instruction

/-- The instruction that a word of the last family stands for, by its byte. -/
def ofByte? (x : Register) (byte : UInt8) : Option Instruction :=
  match byte.toNat with
  | 0x07 => some (.readDelay x)
  | 0x0A => some (.awaitKey x)
  | 0x15 => some (.setDelay x)
  | 0x18 => some (.setSound x)
  | 0x1E => some (.addIndex x)
  | 0x29 => some (.pointAtDigit x)
  | 0x33 => some (.storeDecimal x)
  | 0x55 => some (.storeRegisters x)
  | 0x65 => some (.loadRegisters x)
  | _ => none

/-- The instruction that a word stands for, if it is one. -/
def ofWord? (w : Word) : Option Instruction :=
  match w.family.val with
  | 0x0 =>
    if w.address = 0x0E0 then some .clear
    else if w.address = 0x0EE then some .ret
    else none
  | 0x1 => some (.jump w.address)
  | 0x2 => some (.call w.address)
  | 0x3 => some (.skip (.holds w.x w.byte))
  | 0x4 => some (.skip (.lacks w.x w.byte))
  | 0x5 => if w.nibble = 0 then some (.skip (.equal w.x w.y)) else none
  | 0x6 => some (.setByte w.x w.byte)
  | 0x7 => some (.addByte w.x w.byte)
  | 0x8 => (Arithmetic.ofNibble? w.nibble).map fun operation => .arithmetic operation w.x w.y
  | 0x9 => if w.nibble = 0 then some (.skip (.differ w.x w.y)) else none
  | 0xA => some (.setIndex w.address)
  | 0xB => some (.jumpOffset w.address)
  | 0xC => some (.random w.x w.byte)
  | 0xD => some (.draw w.x w.y w.nibble)
  | 0xE =>
    if w.byte = 0x9E then some (.skip (.keyDown w.x))
    else if w.byte = 0xA1 then some (.skip (.keyUp w.x))
    else none
  | _ => ofByte? w.x w.byte

/-- The word of an instruction. -/
def toWord : Instruction → Word
  | .clear => .ofAddress 0x0 0x0E0
  | .ret => .ofAddress 0x0 0x0EE
  | .jump target => .ofAddress 0x1 target
  | .call target => .ofAddress 0x2 target
  | .skip (.holds x value) => .ofByte 0x3 x value
  | .skip (.lacks x value) => .ofByte 0x4 x value
  | .skip (.equal x y) => .ofNibbles 0x5 x y 0x0
  | .setByte x value => .ofByte 0x6 x value
  | .addByte x value => .ofByte 0x7 x value
  | .arithmetic operation x y => .ofNibbles 0x8 x y operation.nibble
  | .skip (.differ x y) => .ofNibbles 0x9 x y 0x0
  | .setIndex address => .ofAddress 0xA address
  | .jumpOffset base => .ofAddress 0xB base
  | .random x mask => .ofByte 0xC x mask
  | .draw x y rows => .ofNibbles 0xD x y rows
  | .skip (.keyDown x) => .ofByte 0xE x 0x9E
  | .skip (.keyUp x) => .ofByte 0xE x 0xA1
  | .readDelay x => .ofByte 0xF x 0x07
  | .awaitKey x => .ofByte 0xF x 0x0A
  | .setDelay x => .ofByte 0xF x 0x15
  | .setSound x => .ofByte 0xF x 0x18
  | .addIndex x => .ofByte 0xF x 0x1E
  | .pointAtDigit x => .ofByte 0xF x 0x29
  | .storeDecimal x => .ofByte 0xF x 0x33
  | .storeRegisters last => .ofByte 0xF last 0x55
  | .loadRegisters last => .ofByte 0xF last 0x65

end Instruction

end ChipEight
