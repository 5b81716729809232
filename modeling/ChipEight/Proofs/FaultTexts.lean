/-
# The texts of faults

Every fault has two texts: a message of one line for a user, and a record that shows the
kind of the fault with all of its fields, which is what ends up on standard error. Here
both are written out, word by word, with every number as the library prints it.
-/

import ChipEight.Fault
import ChipEight.Proofs.NumeralText

namespace ChipEight

namespace SystemError

/-- The record of what the system answers: the number of the error, its kind and its text. -/
def written : SystemError → String
  | .notFound =>
    "Os \x7b code: 2, kind: NotFound, message: \"No such file or directory\" \x7d"
  | .permissionDenied =>
    "Os \x7b code: 13, kind: PermissionDenied, message: \"Permission denied\" \x7d"
  | .notDirectory =>
    "Os \x7b code: 20, kind: NotADirectory, message: \"Not a directory\" \x7d"
  | .isDirectory =>
    "Os \x7b code: 21, kind: IsADirectory, message: \"Is a directory\" \x7d"
  | .nameTooLong =>
    "Os \x7b code: 36, kind: InvalidFilename, message: \"File name too long\" \x7d"

/-- The message of what the system answers. -/
def told : SystemError → String
  | .notFound => "No such file or directory (os error 2)"
  | .permissionDenied => "Permission denied (os error 13)"
  | .notDirectory => "Not a directory (os error 20)"
  | .isDirectory => "Is a directory (os error 21)"
  | .nameTooLong => "File name too long (os error 36)"

end SystemError

namespace FileFault

/-- The record of the cause, which is its text where nothing else is known of it. -/
def written : FileFault → String
  | .system error => error.written
  | .other text => text

/-- The message of the cause. -/
def told : FileFault → String
  | .system error => error.told
  | .other text => text

theorem record_eq_written (cause : FileFault) : cause.record = cause.written := by
  cases cause with
  | system error => cases error <;> decide +kernel
  | other text => rfl

theorem message_eq_told (cause : FileFault) : cause.message = cause.told := by
  cases cause with
  | system error => cases error <;> decide +kernel
  | other text => rfl

end FileFault

namespace Fault

/-- The record of a fault. -/
def written : Fault → String
  | .programTooLarge size capacity =>
    "LargeProgram \x7b size: " ++ toString size ++ ", capacity: " ++ toString capacity ++ " \x7d"
  | .unknownInstruction address word =>
    "Decode \x7b address: " ++ toString address.toNat ++ ", opcode: " ++ toString word.toNat ++
      " \x7d"
  | .outOfBounds address => "OutOfBounds \x7b address: " ++ toString address ++ " \x7d"
  | .stackOverflow => "StackOverflow"
  | .stackUnderflow => "StackUnderflow"
  | .halted => "Halted"
  | .file cause => "Io(" ++ cause.written ++ ")"
  | .formatting => "Fmt(Error)"

/-- The message of a fault. -/
def told : Fault → String
  | .programTooLarge size capacity =>
    "program too large for VM memory: " ++ toString size ++ " bytes, " ++ toString capacity ++
      " available"
  | .unknownInstruction address word =>
    "unknown opcode " ++ upperHex 4 word.toNat ++ " at address 0x" ++ upperHex 3 address.toNat
  | .outOfBounds address => "memory access out of bounds: 0x" ++ upperHex 4 address
  | .stackOverflow => "call stack overflow"
  | .stackUnderflow => "call stack underflow"
  | .halted => "interpreter is halted"
  | .file cause => cause.told
  | .formatting => "an error occurred when formatting an argument"

theorem decimalText_eq (n : Nat) : decimalText n = toString n :=
  Numeral.ofList_decimal n

theorem hexText_eq (width n : Nat) : hexText width n = upperHex width n :=
  Numeral.ofList_hexPadded width n

theorem record_eq_written (fault : Fault) : fault.record = fault.written := by
  cases fault with
  | programTooLarge size capacity =>
      have front : "LargeProgram" ++ " \x7b size: " = "LargeProgram \x7b size: " := by
        decide +kernel
      show "LargeProgram" ++ _ ++ decimalText size ++ _ ++ decimalText capacity ++ _ =
        _ ++ toString size ++ _ ++ toString capacity ++ _
      rw [front, decimalText_eq, decimalText_eq]
  | unknownInstruction address word =>
      have front : "Decode" ++ " \x7b address: " = "Decode \x7b address: " := by decide +kernel
      show "Decode" ++ _ ++ decimalText address.toNat ++ _ ++ decimalText word.toNat ++ _ =
        _ ++ toString address.toNat ++ _ ++ toString word.toNat ++ _
      rw [front, decimalText_eq, decimalText_eq]
  | outOfBounds address =>
      have front : "OutOfBounds" ++ " \x7b address: " = "OutOfBounds \x7b address: " := by
        decide +kernel
      show "OutOfBounds" ++ _ ++ decimalText address ++ _ = _ ++ toString address ++ _
      rw [front, decimalText_eq]
  | file cause =>
      have front : "Io" ++ "(" = "Io(" := by decide +kernel
      show "Io" ++ _ ++ cause.record ++ _ = _ ++ cause.written ++ _
      rw [front, cause.record_eq_written]
  | _ => decide +kernel

theorem message_eq_told (fault : Fault) : fault.message = fault.told := by
  cases fault with
  | programTooLarge size capacity =>
      show _ ++ decimalText size ++ _ ++ decimalText capacity ++ _ =
        _ ++ toString size ++ _ ++ toString capacity ++ _
      rw [decimalText_eq, decimalText_eq]
  | unknownInstruction address word =>
      show _ ++ hexText 4 word.toNat ++ _ ++ hexText 3 address.toNat =
        _ ++ upperHex 4 word.toNat ++ _ ++ upperHex 3 address.toNat
      rw [hexText_eq, hexText_eq]
  | outOfBounds address =>
      show _ ++ hexText 4 address = _ ++ upperHex 4 address
      rw [hexText_eq]
  | file cause => exact cause.message_eq_told
  | _ => rfl

/-- Every fault reads as it is written out here. -/
theorem texts_eq (fault : Fault) : fault.record = fault.written ∧ fault.message = fault.told :=
  ⟨record_eq_written fault, message_eq_told fault⟩

end Fault

end ChipEight
