/-
# The host of a command

What a command needs from outside: files, the time and entropy. They come through
a monad, so that the same commands serve a terminal and a host that is given in
advance.

What happens during a command is also told to a log. The host decides whether there
is one and how its records look, and they share standard output with what the
program has to say. So the output of a command is first a list of pieces, of which
some are records, and the host makes one text of them.
-/

import ChipEight.Emulator.Clock
import ChipEight.Fault
import ChipEight.Random.ChaCha

namespace ChipEight

/-- How much a record of the log matters. -/
inductive LogLevel
  | error
  | warning
  | info
  | debug
  deriving DecidableEq

/-- A record for the log. -/
structure LogRecord where
  /-- How much it matters. -/
  level : LogLevel
  /-- What it says. -/
  message : String
  deriving DecidableEq

/-- A piece of what goes to standard output. -/
inductive Printed
  /-- A text that the program has to say. -/
  | text (said : String)
  /-- A record, to be seen in a log only. -/
  | log (record : LogRecord)
  deriving DecidableEq

/-- What a command needs from outside. -/
structure Host (m : Type → Type) where
  /-- The contents of the file with a given name. -/
  contents : String → m (Except FileFault (List UInt8))
  /-- A reading of the time. -/
  now : m Nanos
  /-- A key that cannot be foreseen. -/
  entropy : m ChaCha.Key
  /-- How a record of the log looks, if logging is on. More than the record can be
  seen there, such as the time. -/
  logger : Option (LogRecord → m String) := none

namespace Host

variable {m : Type → Type} [Monad m] (host : Host m)

/-- Readings of the time, one after the other. -/
def readings : m Readings := do
  let first ← host.now
  let second ← host.now
  let third ← host.now
  let fourth ← host.now
  return ⟨first, second - first, third - second, fourth - third⟩

/-- How a piece of output looks. With logging off, there is nothing to see of a record. -/
def render : Printed → m String
  | .text said => pure said
  | .log record =>
    match host.logger with
    | none => pure ""
    | some write => write record

/-- How pieces of output look one behind the other. -/
def renderAll : List Printed → m String
  | [] => pure ""
  | piece :: rest => do
    let here ← host.render piece
    let behind ← renderAll rest
    return here ++ behind

end Host

end ChipEight
