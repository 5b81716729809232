/-
# Runs

A run connects an emulator to devices. It polls them for keys and for whether
to go on, makes a step, keeps the buzzer in line with the sound timer, hands
the display over after an instruction that drew, and starts again. It ends when
the devices stop or a step fails, and never leaves the buzzer on. The devices
go on for a number of polls given beforehand, so every run ends.

The devices are asked through a monad: a script answers in the identity, a
terminal in `IO`. What the devices are told is folded into a record of the
caller's choice, so that a run need not keep every frame it has drawn.
-/

import ChipEight.Emulator.Basic

namespace ChipEight

/-- A change of the keypad. -/
inductive KeyEdit
  /-- One key goes down or up. -/
  | set (key : Key) (down : Bool)
  /-- All keys go up. -/
  | releaseAll
  deriving DecidableEq

/-- What a run tells the devices. -/
inductive DeviceCall
  /-- Show this display. -/
  | draw (frame : Display)
  /-- Switch the buzzer. -/
  | buzz (on : Bool)
  deriving DecidableEq

/-- The devices of a run, which answer in the monad `m` and keep a record of type `σ`. -/
structure Devices (m : Type → Type) (σ : Type) where
  /-- The key changes that a poll makes, by the number of the poll. -/
  poll : Nat → m (List KeyEdit)
  /-- The readings of time: the first ones at the start of the run, and those
  numbered `k + 1` after poll `k`. -/
  now : Nat → m Readings
  /-- Add to the record a call that is made after so many polls. -/
  observe : σ → Nat → DeviceCall → σ

namespace Devices

/-- Add calls that are made after so many polls to the record, in order. -/
def observeAll {m : Type → Type} {σ : Type} (devices : Devices m σ) (polls : Nat)
    (calls : List DeviceCall) (s : σ) : σ :=
  calls.foldl (fun s call => devices.observe s polls call) s

end Devices

/-- How a run ended. -/
structure RunEnd (σ : Type) where
  /-- The emulator afterwards. -/
  emulator : Emulator
  /-- The signal or the fault that ended the run. -/
  result : Except Fault Signal
  /-- The number of polls made. -/
  polls : Nat
  /-- The record of the calls. -/
  record : σ

/-- What a single pass through the loop leads to. -/
structure Turn where
  /-- The emulator afterwards. -/
  emulator : Emulator
  /-- The calls to make, in order. -/
  calls : List DeviceCall
  /-- The fault or the signal that ends the run, if the run ends here. -/
  ending : Option (Except Fault Signal)

namespace Emulator

/-- Make one change of the keypad. -/
def editKey (e : Emulator) : KeyEdit → Emulator
  | .set key down => e.setKey key down
  | .releaseAll => e.releaseKeys

/-- Make changes of the keypad in order. -/
def editKeys (e : Emulator) (edits : List KeyEdit) : Emulator :=
  edits.foldl editKey e

/-- Switch the buzzer if the sound timer calls for it. -/
def followSound (e : Emulator) : Emulator × List DeviceCall :=
  let sounding := e.machine.timers.isSounding
  if sounding = e.buzzing then (e, [])
  else ({ e with buzzing := sounding }, [.buzz sounding])

/-- Make a step and serve the devices. -/
def turn (e : Emulator) (now : Readings) : Turn :=
  match e.step now with
  | (.error fault, next) => ⟨next, [], some (.error fault)⟩
  | (.ok signal, next) =>
    let (heard, calls) := next.followSound
    match signal with
    | .interrupt => ⟨heard, calls, some (.ok .interrupt)⟩
    | .draw => ⟨heard, calls ++ [.draw heard.machine.display], none⟩
    | _ => ⟨heard, calls, none⟩

/-- End a run: the buzzer goes off if it is on. -/
def endRun {m : Type → Type} {σ : Type} (e : Emulator) (devices : Devices m σ) (polls : Nat)
    (result : Except Fault Signal) (s : σ) : RunEnd σ :=
  if e.buzzing then ⟨{ e with buzzing := false }, result, polls, devices.observe s polls (.buzz false)⟩
  else ⟨e, result, polls, s⟩

/-- The loop of a run after `polls` polls, with `left` polls to come that go on
and one that stops. A poll that stops interrupts the emulator, which then makes
no step. -/
@[specialize]
def runLoop {m : Type → Type} [Monad m] {σ : Type} (devices : Devices m σ) :
    (left polls : Nat) → Emulator → σ → m (RunEnd σ)
  | 0, polls, e, s => do
    let edits ← devices.poll polls
    let (heard, calls) := (e.editKeys edits).interrupt.followSound
    return heard.endRun devices (polls + 1) (.ok .interrupt)
      (devices.observeAll (polls + 1) calls s)
  | left + 1, polls, e, s => do
    let edits ← devices.poll polls
    let now ← devices.now (polls + 1)
    let t := (e.editKeys edits).turn now
    let s := devices.observeAll (polls + 1) t.calls s
    match t.ending with
    | some result => return t.emulator.endRun devices (polls + 1) result s
    | none => runLoop devices left (polls + 1) t.emulator s

/-- Run with devices that go on for `left` polls and stop at the next one. -/
def run {m : Type → Type} [Monad m] {σ : Type} (e : Emulator) (devices : Devices m σ)
    (left : Nat) (s : σ) : m (RunEnd σ) := do
  let now ← devices.now 0
  runLoop devices left 0 (e.restartClocks now) s

end Emulator

end ChipEight
