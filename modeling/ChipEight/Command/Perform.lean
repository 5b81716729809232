/-
# Carrying out a command

From the words of a command line to what the program writes and the code it
ends with. A run has no keyboard and no screen: it counts what it would have
drawn and shows the display once at the end, also when the program failed.
-/

import ChipEight.Command.Arguments
import ChipEight.Command.Host
import ChipEight.Emulator.Dump
import ChipEight.Emulator.Run

namespace ChipEight

/-- What the program writes and how it ends. -/
structure Report where
  /-- The exit code. -/
  exitCode : Nat
  /-- What goes to standard output. -/
  output : String
  /-- What goes to standard error. -/
  errors : String
  deriving DecidableEq

/-- The version that the program reports. -/
def version : String := "0.4.0"

namespace Report

/-- How to use the program. -/
def usageText : String :=
  "Chip8 v" ++ version ++ "\n" ++
  "\nusage: chip8 CMD FILE [STEPS]\n" ++
  "\ncommands:\n" ++
  "    run     Run the target ROM file headless, then print the display\n" ++
  "    dis     Disassemble the the target ROM into readable assembly\n" ++
  "\nexamples:\n" ++
  "    chip8 run maze.rom\n" ++
  "    chip8 run maze.rom 2000\n" ++
  "    chip8 dis maze.rom\n" ++
  "\n"

/-- The answer to words that are no command: the usage, under the exit code
that stands for wrong usage. -/
def usage : Report :=
  ⟨64, usageText, ""⟩

/-- The report of a success. -/
def success (output : String) : Report :=
  ⟨0, output, ""⟩

/-- The report of a fault after some output. -/
def failure (output : String) (fault : Fault) : Report :=
  ⟨1, output, "Error: " ++ fault.record ++ "\n"⟩

/-- The report of a command that ends with a fault or without one. -/
def ending (output : String) : Option Fault → Report
  | none => .success output
  | some fault => .failure output fault

end Report

namespace Command

variable {m : Type → Type} [Monad m] (host : Host m)

/-- Write output, and end with a fault if there is one. -/
def finish (output : List Printed) (fault? : Option Fault) : m Report := do
  let shown ← host.renderAll output
  return .ending shown fault?

/-! ## Runs -/

/-- What a run writes before anything else. -/
def runBanner : String := "Running Bytecode Interpreter\n"

/-- What devices without a keyboard or a screen keep of a run. -/
structure Tally where
  /-- The number of displays that they were handed. -/
  draws : Nat
  /-- How the buzzer was switched, with the number of polls before it. -/
  switches : List (Nat × Bool)

namespace Tally

/-- Nothing has happened yet. -/
def zero : Tally :=
  ⟨0, []⟩

/-- Add a call that is made after so many polls. -/
def observe (tally : Tally) (polls : Nat) : DeviceCall → Tally
  | .draw _ => { tally with draws := tally.draws + 1 }
  | .buzz on => { tally with switches := tally.switches ++ [(polls, on)] }

/-- A record for each switch of the buzzer at the polls of this kind. -/
def switchRecords (tally : Tally) (kind : Nat → Bool) : List LogRecord :=
  (tally.switches.filter fun switch => kind switch.1).map fun switch =>
    ⟨.info, if switch.2 then "buzzer on" else "buzzer off"⟩

end Tally

/-- Devices without a keyboard or a screen. -/
def headless : Devices m Tally where
  poll _ := pure []
  now _ := host.readings
  observe := Tally.observe

/-- The record of a load. -/
def loadRecord (size : Nat) : LogRecord :=
  ⟨.debug, "loaded " ++ String.ofList (Numeral.decimal size) ++ " byte program at 0x" ++
    String.ofList (Numeral.hexPadded 3 Memory.programStart)⟩

/-- The record of what ends a run: that its devices stop it, or a fault. -/
def endRecord (done : RunEnd Tally) : LogRecord :=
  let address := "0x" ++ String.ofList (Numeral.hexPadded 3 done.emulator.machine.pc.toNat)
  match done.result with
  | .ok _ => ⟨.debug, "halt requested at " ++ address⟩
  | .error fault => ⟨.error, "halted at " ++ address ++ ": " ++ fault.message⟩

/-- The records of a run. It ends behind its last poll, and only then is the buzzer
switched for that poll. -/
def runRecords (done : RunEnd Tally) : List LogRecord :=
  [⟨.debug, "run loop started"⟩] ++ done.record.switchRecords (· != done.polls) ++
    [endRecord done] ++ done.record.switchRecords (· == done.polls) ++
    [⟨.debug, "run loop stopped"⟩]

/-- The record behind a run that has come to a word which is no instruction. -/
def dataRecords (fault? : Option Fault) : List LogRecord :=
  if fault?.any Fault.isDecode then
    [⟨.warning, "program stopped on data that is not an instruction"⟩]
  else []

/-- The fault that a run has ended with. -/
def runFault? (done : RunEnd Tally) : Option Fault :=
  match done.result with
  | .ok _ => none
  | .error fault => some fault

/-- What the run of a program writes, but for a line on how long it took. -/
def runOutput (program : List UInt8) (done : RunEnd Tally) : List Printed :=
  [.text runBanner, .log (loadRecord program.length)] ++ (runRecords done).map .log ++
    [.text ("draw calls: " ++ String.ofList (Numeral.decimal done.record.draws) ++ "\n"),
      .text (done.emulator.machine.dumpDisplay ++ "\n")] ++
    (dataRecords (runFault? done)).map .log

/-- Run a program for at most so many steps. -/
def runProgram (program : List UInt8) (steps : Nat) : m Report := do
  let entropy ← host.entropy
  let new ← host.readings
  let now ← host.readings
  match (Emulator.ofSettings .usual entropy new).load program now with
  | (.error fault, _) => finish host [.text runBanner] (some fault)
  | (.ok (), e) =>
    let done ← e.run (headless host) steps .zero
    finish host (runOutput program done) (runFault? done)

/-! ## Commands -/

/-- What the listing of a program writes. -/
def listOutput (program : List UInt8) : List Printed :=
  [.log ⟨.info, "disassembled " ++ String.ofList (Numeral.decimal program.length) ++ " bytes"⟩,
    .text (Listing.printed program)]

/-- Carry out a command. -/
def perform : Command → m Report
  | .run file steps => do
    match ← host.contents file with
    | .error cause => finish host [.text runBanner] (some (.file cause))
    | .ok program => runProgram host program steps
  | .list file => do
    match ← host.contents file with
    | .error cause => finish host [] (some (.file cause))
    | .ok program => finish host (listOutput program) none

/-- Answer the words of a command line. -/
def answer (arguments : List String) : m Report :=
  match ofArguments? arguments with
  | none => pure .usage
  | some command => perform host command

end Command

end ChipEight
