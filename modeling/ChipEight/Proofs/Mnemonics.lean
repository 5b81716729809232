/-
# The assembly of every instruction

The forms of assembly, written out one by one: a mnemonic, and behind it the operands as
they are spelled. Registers are named by one upper-case hexadecimal digit behind a `v`,
addresses by three of them behind `0x`, and all other numbers are decimal. The two shifts
name the register that they shift and not the other one.
-/

import ChipEight.Instruction.Statement
import ChipEight.Proofs.NumeralText

namespace ChipEight

namespace Instruction

/-- A register as it is spelled. -/
def spelled (x : Register) : String :=
  "v" ++ upperHex 1 x.val

/-- The assembly of an instruction. -/
def assembly : Instruction → String
  | .clear => "CLS"
  | .ret => "RET"
  | .jump target => "JP 0x" ++ upperHex 3 target.val
  | .call target => "CALL 0x" ++ upperHex 3 target.val
  | .skip (.holds x value) => "SE " ++ spelled x ++ ", " ++ toString value.toNat
  | .skip (.lacks x value) => "SNE " ++ spelled x ++ ", " ++ toString value.toNat
  | .skip (.equal x y) => "SE " ++ spelled x ++ ", " ++ spelled y
  | .skip (.differ x y) => "SNE " ++ spelled x ++ ", " ++ spelled y
  | .skip (.keyDown x) => "SKP " ++ spelled x
  | .skip (.keyUp x) => "SKNP " ++ spelled x
  | .setByte x value => "LD " ++ spelled x ++ ", " ++ toString value.toNat
  | .addByte x value => "ADD " ++ spelled x ++ ", " ++ toString value.toNat
  | .arithmetic .copy x y => "LD " ++ spelled x ++ ", " ++ spelled y
  | .arithmetic .or x y => "OR " ++ spelled x ++ ", " ++ spelled y
  | .arithmetic .and x y => "AND " ++ spelled x ++ ", " ++ spelled y
  | .arithmetic .xor x y => "XOR " ++ spelled x ++ ", " ++ spelled y
  | .arithmetic .add x y => "ADD " ++ spelled x ++ ", " ++ spelled y
  | .arithmetic .subtract x y => "SUB " ++ spelled x ++ ", " ++ spelled y
  | .arithmetic .shiftRight x _ => "SHR " ++ spelled x
  | .arithmetic .subtractFrom x y => "SUBN " ++ spelled x ++ ", " ++ spelled y
  | .arithmetic .shiftLeft x _ => "SHL " ++ spelled x
  | .setIndex address => "LD I, 0x" ++ upperHex 3 address.val
  | .jumpOffset base => "JP v0, 0x" ++ upperHex 3 base.val
  | .random x mask => "RND " ++ spelled x ++ ", " ++ toString mask.toNat
  | .draw x y rows => "DRW " ++ spelled x ++ ", " ++ spelled y ++ ", " ++ toString rows.val
  | .readDelay x => "LD " ++ spelled x ++ ", DT"
  | .awaitKey x => "LD " ++ spelled x ++ ", K"
  | .setDelay x => "LD DT, " ++ spelled x
  | .setSound x => "LD ST, " ++ spelled x
  | .addIndex x => "ADD I, " ++ spelled x
  | .pointAtDigit x => "LD F, " ++ spelled x
  | .storeDecimal x => "LD B, " ++ spelled x
  | .storeRegisters last => "LD [I], " ++ spelled last
  | .loadRegisters last => "LD " ++ spelled last ++ ", [I]"

theorem toList_upperHex (width n : Nat) :
    (upperHex width n).toList = Numeral.hexPadded width n := by
  rw [← Numeral.ofList_hexPadded, String.toList_ofList]

theorem toList_spelled (x : Register) : (spelled x).toList = ['v', Numeral.upperDigit x.val] := by
  rw [spelled, String.toList_append, toList_upperHex, Numeral.hexPadded, Numeral.hex,
    Numeral.digits_of_lt x.isLt]
  simp [Numeral.padLeft]

/-- Instructions are written as it is set out here. -/
theorem text_eq_assembly (i : Instruction) : i.text = i.assembly.toList := by
  have zero : Numeral.upperDigit 0 = '0' := by decide
  cases i with
  | skip condition =>
      cases condition <;> simp [text, statement, Condition.statement, Statement.text,
        Operand.text, assembly, toList_spelled, Numeral.decimal_eq]
  | arithmetic operation x y =>
      cases operation <;> simp [text, statement, Arithmetic.statement, Statement.text,
        Operand.text, assembly, toList_spelled]
  | _ => simp [text, statement, Statement.text, Operand.text, assembly, toList_spelled,
      toList_upperHex, Numeral.decimal_eq, zero]

end Instruction

end ChipEight
