/-
# Assembly statements

How instructions are written in assembly: an operation and its operands. The
operation alone does not name the instruction, for LD and ADD have many forms,
but the operation together with the kinds of its operands does. A shift is
written without its second register, which it does not use; that nibble is the
only thing about an instruction that its statement leaves out.
-/

import ChipEight.Numeral
import ChipEight.Instruction.Basic

namespace ChipEight

/-- An operand as it is written. -/
inductive Operand
  /-- A byte register. -/
  | register (x : Register)
  /-- A byte or a nibble, in decimal. -/
  | number (n : Nat)
  /-- An address, in hexadecimal. -/
  | address (a : Address)
  /-- The index register. -/
  | index
  /-- The memory that the index register points at. -/
  | indexed
  /-- The delay timer. -/
  | delayTimer
  /-- The sound timer. -/
  | soundTimer
  /-- The key that is waited for. -/
  | key
  /-- The picture of a digit. -/
  | digitPicture
  /-- The decimal digits of a register. -/
  | decimalDigits
  deriving DecidableEq

/-- An operation applied to operands. -/
structure Statement where
  /-- The name of the operation. -/
  operation : String
  /-- The operands from left to right. -/
  operands : List Operand
  deriving DecidableEq

namespace Operand

/-- The operand as text. -/
def text : Operand → List Char
  | .register x => ['v', Numeral.upperDigit x.val]
  | .number n => Numeral.decimal n
  | .address a => ['0', 'x'] ++ Numeral.hexPadded 3 a.val
  | .index => ['I']
  | .indexed => ['[', 'I', ']']
  | .delayTimer => ['D', 'T']
  | .soundTimer => ['S', 'T']
  | .key => ['K']
  | .digitPicture => ['F']
  | .decimalDigits => ['B']

end Operand

namespace Statement

/-- The statement as text: the operation, and behind a blank the operands with
a comma and a blank between them. -/
def text (s : Statement) : List Char :=
  match s.operands with
  | [] => s.operation.toList
  | operands => s.operation.toList ++ ' ' :: ", ".toList.intercalate (operands.map Operand.text)

end Statement

namespace Arithmetic

/-- The statement of an arithmetic instruction. -/
def statement (operation : Arithmetic) (x y : Register) : Statement :=
  match operation with
  | .copy => ⟨"LD", [.register x, .register y]⟩
  | .or => ⟨"OR", [.register x, .register y]⟩
  | .and => ⟨"AND", [.register x, .register y]⟩
  | .xor => ⟨"XOR", [.register x, .register y]⟩
  | .add => ⟨"ADD", [.register x, .register y]⟩
  | .subtract => ⟨"SUB", [.register x, .register y]⟩
  | .shiftRight => ⟨"SHR", [.register x]⟩
  | .subtractFrom => ⟨"SUBN", [.register x, .register y]⟩
  | .shiftLeft => ⟨"SHL", [.register x]⟩

end Arithmetic

namespace Condition

/-- The statement of the skip under a condition. -/
def statement : Condition → Statement
  | .holds x value => ⟨"SE", [.register x, .number value.toNat]⟩
  | .lacks x value => ⟨"SNE", [.register x, .number value.toNat]⟩
  | .equal x y => ⟨"SE", [.register x, .register y]⟩
  | .differ x y => ⟨"SNE", [.register x, .register y]⟩
  | .keyDown x => ⟨"SKP", [.register x]⟩
  | .keyUp x => ⟨"SKNP", [.register x]⟩

end Condition

namespace Instruction

/-- The statement of an instruction. -/
def statement : Instruction → Statement
  | .clear => ⟨"CLS", []⟩
  | .ret => ⟨"RET", []⟩
  | .jump target => ⟨"JP", [.address target]⟩
  | .call target => ⟨"CALL", [.address target]⟩
  | .skip condition => condition.statement
  | .setByte x value => ⟨"LD", [.register x, .number value.toNat]⟩
  | .addByte x value => ⟨"ADD", [.register x, .number value.toNat]⟩
  | .arithmetic operation x y => operation.statement x y
  | .setIndex address => ⟨"LD", [.index, .address address]⟩
  | .jumpOffset base => ⟨"JP", [.register 0, .address base]⟩
  | .random x mask => ⟨"RND", [.register x, .number mask.toNat]⟩
  | .draw x y rows => ⟨"DRW", [.register x, .register y, .number rows.val]⟩
  | .readDelay x => ⟨"LD", [.register x, .delayTimer]⟩
  | .awaitKey x => ⟨"LD", [.register x, .key]⟩
  | .setDelay x => ⟨"LD", [.delayTimer, .register x]⟩
  | .setSound x => ⟨"LD", [.soundTimer, .register x]⟩
  | .addIndex x => ⟨"ADD", [.index, .register x]⟩
  | .pointAtDigit x => ⟨"LD", [.digitPicture, .register x]⟩
  | .storeDecimal x => ⟨"LD", [.decimalDigits, .register x]⟩
  | .storeRegisters last => ⟨"LD", [.indexed, .register last]⟩
  | .loadRegisters last => ⟨"LD", [.register last, .indexed]⟩

/-- The instruction in assembly. -/
def text (i : Instruction) : List Char :=
  i.statement.text

end Instruction

end ChipEight
