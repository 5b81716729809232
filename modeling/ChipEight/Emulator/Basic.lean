/-
# The emulator

A machine together with what drives it: a clock for the pace of instructions, a
clock for the timers, the switch of the buzzer and the interrupt. Each step of
the emulator waits for its turn, counts the timers down by the time that has
passed, and then makes one step of the machine. An interrupted emulator does
none of these, whatever it is asked, until a program is loaded.
-/

import ChipEight.Emulator.Clock
import ChipEight.Machine.Step

namespace ChipEight

/-- How an emulator is set up. -/
structure Settings where
  /-- The number of instructions per second. Without one, or with zero,
  instructions are made as fast as they can be. -/
  clockHz : Option Nat
  /-- The number of times per second that the timers count down. With zero they
  count down before every instruction. -/
  timerHz : Nat
  /-- The seed of the random source. Without one it is the host's choice. -/
  seed : Option UInt64
  deriving DecidableEq

namespace Settings

/-- The rate at which the timers count down unless told otherwise. -/
def timerRate : Nat := 60

/-- No set pace, timers at their usual rate, and a random source of the host's choice. -/
def usual : Settings :=
  ⟨none, timerRate, none⟩

end Settings

/-- A machine with what drives it. -/
structure Emulator where
  /-- The machine. -/
  machine : Machine
  /-- The clock for the pace of instructions. -/
  pace : Clock
  /-- The clock for the timers. -/
  timerClock : Clock
  /-- Whether the buzzer was last switched on. -/
  buzzing : Bool
  /-- Whether the emulator was told to stop. -/
  interrupted : Bool
  /-- How the emulator was set up. -/
  settings : Settings
  deriving DecidableEq

namespace Emulator

/-- A new emulator. The entropy is the key of the random source where the settings
give no seed. -/
def ofSettings (settings : Settings) (entropy : ChaCha.Key) (now : Readings) : Emulator where
  machine := .switchedOn (match settings.seed with
    | some seed => .ofSeed seed
    | none => .ofKey entropy)
  pace := ⟨cycleLength (settings.clockHz.getD 0), now.first⟩
  timerClock := ⟨cycleLength settings.timerHz, now.second⟩
  buzzing := false
  interrupted := false
  settings

/-- Start new cycles on both clocks, one after the other. -/
def restartClocks (e : Emulator) (now : Readings) : Emulator :=
  { e with pace := e.pace.restart now.first, timerClock := e.timerClock.restart now.second }

/-- Load a program and forget the interrupt, unless the machine refuses it. -/
def load (e : Emulator) (program : List UInt8) (now : Readings) :
    Except Fault Unit × Emulator :=
  match e.machine.load program with
  | (.error fault, machine) => (.error fault, { e with machine })
  | (.ok (), machine) =>
    (.ok (), { e with machine, interrupted := false, buzzing := false }.restartClocks now)

/-- Tell the emulator to stop before the next instruction. -/
def interrupt (e : Emulator) : Emulator :=
  { e with interrupted := true, machine := e.machine.halt }

/-- Put one key down or up. -/
def setKey (e : Emulator) (k : Key) (down : Bool) : Emulator :=
  { e with machine := e.machine.setKey k down }

/-- Put all keys up. -/
def releaseKeys (e : Emulator) : Emulator :=
  { e with machine := e.machine.releaseKeys }

/-- One step. Behind the readings for the wait, the third one counts the cycles of the
timers, and the fourth one starts their clock over if there are too many. -/
def step (e : Emulator) (now : Readings) : Except Fault Signal × Emulator :=
  if e.interrupted then (.ok .interrupt, e)
  else
    let (late, pace) := e.pace.wait now
    let (cycles, timerClock) := e.timerClock.tick late.third late.fourth
    let (outcome, machine) := (e.machine.tick cycles).step
    (outcome, { e with machine, pace, timerClock })

/-- Make up to `count` steps, of which the first has number `first`, and stop at
an interrupt or a fault. Step number `i` is made at the readings `now i`. -/
def stepsFrom (now : Nat → Readings) (first : Nat) :
    Nat → Emulator → Except Fault Signal × Emulator
  | 0, e => (.ok .proceed, e)
  | count + 1, e =>
    match e.step (now first) with
    | (.ok .interrupt, next) => (.ok .interrupt, next)
    | (.ok _, next) => stepsFrom now (first + 1) count next
    | (.error fault, next) => (.error fault, next)

/-- Start new cycles on both clocks, at the readings `now 0`, and make up to `count`
steps, which have numbers from one on. -/
def runSteps (e : Emulator) (now : Nat → Readings) (count : Nat) :
    Except Fault Signal × Emulator :=
  stepsFrom now 1 count (e.restartClocks (now 0))

/-! ## Interrupts -/

theorem step_of_interrupted {e : Emulator} (stopped : e.interrupted = true) (now : Readings) :
    e.step now = (.ok .interrupt, e) := by
  rw [step, if_pos stopped]

@[simp]
theorem interrupted_interrupt (e : Emulator) : e.interrupt.interrupted = true := rfl

@[simp]
theorem halted_machine_interrupt (e : Emulator) : e.interrupt.machine.halted = true := rfl

@[simp]
theorem machine_restartClocks (e : Emulator) (now : Readings) :
    (e.restartClocks now).machine = e.machine := rfl

end Emulator

end ChipEight
