/-
# Faults

Everything that can go wrong, by its cause. A fault of the machine carries the
address or the size that explains it; a fault of a file carries the answer of
the operating system. The one-line message and the longer record of a fault
are both functions of the cause.
-/

import ChipEight.Numeral

namespace ChipEight

/-- What the operating system answers when a file cannot be read. -/
inductive SystemError
  /-- Nothing has the given name. -/
  | notFound
  /-- The rights to read the file are missing. -/
  | permissionDenied
  /-- Something on the way to the file is no directory. -/
  | notDirectory
  /-- The name is that of a directory. -/
  | isDirectory
  /-- The name, or a part of it, is too long. -/
  | nameTooLong
  deriving DecidableEq

namespace SystemError

/-- All of them. -/
def all : List SystemError :=
  [.notFound, .permissionDenied, .notDirectory, .isDirectory, .nameTooLong]

/-- The number that the system gives to the error. -/
def number : SystemError → Nat
  | .notFound => 2
  | .permissionDenied => 13
  | .notDirectory => 20
  | .isDirectory => 21
  | .nameTooLong => 36

/-- The error with a given number. -/
def ofNumber? (number : Nat) : Option SystemError :=
  all.find? fun error => error.number == number

/-- The word for the kind of error. -/
def kind : SystemError → String
  | .notFound => "NotFound"
  | .permissionDenied => "PermissionDenied"
  | .notDirectory => "NotADirectory"
  | .isDirectory => "IsADirectory"
  | .nameTooLong => "InvalidFilename"

/-- The text of the system for the error. -/
def text : SystemError → String
  | .notFound => "No such file or directory"
  | .permissionDenied => "Permission denied"
  | .notDirectory => "Not a directory"
  | .isDirectory => "Is a directory"
  | .nameTooLong => "File name too long"

end SystemError

/-- Why a file could not be read. -/
inductive FileFault
  /-- An error of the operating system. -/
  | system (error : SystemError)
  /-- Any other failure, known by its text alone. -/
  | other (text : String)
  deriving DecidableEq

namespace FileFault

/-- The text shown to a user. -/
def message : FileFault → String
  | .system error =>
    error.text ++ " (os error " ++ String.ofList (Numeral.decimal error.number) ++ ")"
  | .other text => text

/-- The cause written out as a record. A failure known by its text alone is that text. -/
def record : FileFault → String
  | .system error =>
    "Os \x7b code: " ++ String.ofList (Numeral.decimal error.number) ++ ", kind: " ++
      error.kind ++ ", message: \"" ++ error.text ++ "\" \x7d"
  | .other text => text

end FileFault

/-- The cause of a failure. -/
inductive Fault
  /-- A program of `size` bytes was to go where only `capacity` bytes are free. -/
  | programTooLarge (size capacity : Nat)
  /-- The word at `address` is no instruction. -/
  | unknownInstruction (address word : UInt16)
  /-- Memory was accessed at `address`, which lies outside of it. -/
  | outOfBounds (address : Nat)
  /-- A call was made with the call stack full. -/
  | stackOverflow
  /-- A return was made with the call stack empty. -/
  | stackUnderflow
  /-- The machine had stopped before and has not been loaded since. -/
  | halted
  /-- A file could not be read. -/
  | file (cause : FileFault)
  /-- A text could not be produced. -/
  | formatting
  deriving DecidableEq

namespace Fault

/-- Faults that leave nothing to go on with: the machine itself is in the way,
not the program text. -/
def isFatal : Fault → Bool
  | .outOfBounds _ | .stackOverflow | .stackUnderflow | .halted => true
  | .programTooLarge .. | .unknownInstruction .. | .file _ | .formatting => false

/-- Whether the fault is a word that is no instruction. -/
def isDecode : Fault → Bool
  | .unknownInstruction .. => true
  | _ => false

/-- The word for the kind of fault. -/
def kind : Fault → String
  | .programTooLarge .. => "LargeProgram"
  | .unknownInstruction .. => "Decode"
  | .outOfBounds _ => "OutOfBounds"
  | .stackOverflow => "StackOverflow"
  | .stackUnderflow => "StackUnderflow"
  | .halted => "Halted"
  | .file _ => "Io"
  | .formatting => "Fmt"

/-- A number of a text, in decimal. -/
def decimalText (n : Nat) : String :=
  String.ofList (Numeral.decimal n)

/-- A number of a text, in hexadecimal with at least so many digits. -/
def hexText (width n : Nat) : String :=
  String.ofList (Numeral.hexPadded width n)

/-- What a word that is no instruction is called where its address is not known. -/
def unknownWordMessage (word : UInt16) : String :=
  "unknown opcode " ++ hexText 4 word.toNat

/-- The fault in one line, for a user. -/
def message : Fault → String
  | .programTooLarge size capacity =>
    "program too large for VM memory: " ++ decimalText size ++ " bytes, " ++
      decimalText capacity ++ " available"
  | .unknownInstruction address word =>
    unknownWordMessage word ++ " at address 0x" ++ hexText 3 address.toNat
  | .outOfBounds address => "memory access out of bounds: 0x" ++ hexText 4 address
  | .stackOverflow => "call stack overflow"
  | .stackUnderflow => "call stack underflow"
  | .halted => "interpreter is halted"
  | .file cause => cause.message
  | .formatting => "an error occurred when formatting an argument"

/-- The text of the fault underneath this one, if there is one. -/
def source : Fault → Option String
  | .file cause => some cause.message
  | .formatting => some (message .formatting)
  | _ => none

/-- The fault written out as a record: its kind, and its fields by name if it has any. -/
def record (fault : Fault) : String :=
  match fault with
  | .programTooLarge size capacity =>
    fault.kind ++ " \x7b size: " ++ decimalText size ++ ", capacity: " ++
      decimalText capacity ++ " \x7d"
  | .unknownInstruction address word =>
    fault.kind ++ " \x7b address: " ++ decimalText address.toNat ++ ", opcode: " ++
      decimalText word.toNat ++ " \x7d"
  | .outOfBounds address => fault.kind ++ " \x7b address: " ++ decimalText address ++ " \x7d"
  | .file cause => fault.kind ++ "(" ++ cause.record ++ ")"
  | .formatting => fault.kind ++ "(Error)"
  | .stackOverflow | .stackUnderflow | .halted => fault.kind

end Fault

end ChipEight
