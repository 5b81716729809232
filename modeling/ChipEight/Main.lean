/-
# The program

The command line on a real host: arguments, files, the monotonic clock and the
system's random numbers. Everything that is decided is decided elsewhere; this
module only reads what the host offers and writes what the report says.
-/

import ChipEight.Command.Perform

namespace ChipEight

/-- The error of the system that a code stands for. Some calls give the number
of the error and some its negative. -/
def SystemError.ofCode? (code : UInt32) : Option SystemError :=
  ofNumber? code.toNat <|> ofNumber? (-code).toNat

/-- What the system says about a file that could not be read. -/
def FileFault.ofError (error : IO.Error) : FileFault :=
  match error with
  | .noFileOrDirectory _ code _ | .permissionDenied _ code _
  | .inappropriateType _ code _ | .invalidArgument _ code _ =>
    match SystemError.ofCode? code with
    | some known => .system known
    | none => .other (toString error)
  | _ => .other (toString error)

/-- The host that the program runs on. -/
def systemHost : Host IO where
  contents name := do
    try
      let bytes ← IO.FS.readBinFile name
      return .ok bytes.toList
    catch error => return .error (.ofError error)
  now := IO.monoNanosNow
  entropy := do
    let bytes ← IO.getRandomBytes 32
    return Vector.ofFn fun word : Fin 8 =>
      (List.range 4).foldr (fun i acc => acc * 256 + (bytes.get! (4 * word.val + i)).toUInt32) 0

end ChipEight

/-- Answer the arguments, write what the report says and end with its code. -/
def main (arguments : List String) : IO UInt32 := do
  let report ← ChipEight.Command.answer ChipEight.systemHost arguments
  IO.print report.output
  IO.eprint report.errors
  return UInt32.ofNat report.exitCode
