/-
# Sessions of an emulator

A session is a list of requests that an emulator serves one after the other. A
request says what is asked and nothing about time: the readings of the host's
time come from a clock beside the session, so the same session can take place
at different times. What comes back is all that the caller is told, with the
calls to the devices of every run.

Two emulators are alike when their machines, their buzzers and their interrupts
agree and neither binds its timers to time. Nothing that a session can ask tells
them apart, whatever their paces are and whenever the sessions take place.
-/

import ChipEight.Proofs.RunLoop

namespace ChipEight

/-- What an emulator can be asked. -/
inductive Request
  | load (program : List UInt8)
  | step
  | runSteps (count : Nat)
  /-- A run with devices that change these keys at each poll and go on for so many polls. -/
  | run (script : Nat → List KeyEdit) (left : Nat)
  | setKey (key : Key) (down : Bool)
  | releaseKeys
  | interrupt

/-- What an emulator answers. -/
inductive Answer
  | loaded (result : Except Fault Unit)
  | stepped (result : Except Fault Signal)
  /-- How a run ended, after how many polls, and the calls to the devices, each
  with the number of polls before it. -/
  | ran (result : Except Fault Signal) (polls : Nat) (calls : List (Nat × DeviceCall))
  | done

namespace Devices

variable (script : Nat → List KeyEdit) (now : Nat → Readings)

/-- Devices that follow a script and keep every call. -/
def logging : Devices Id (List (Nat × DeviceCall)) where
  poll := script
  now := now
  observe calls polls call := calls ++ [(polls, call)]

@[simp]
theorem poll_logging (polls : Nat) : (logging script now).poll polls = script polls := rfl

@[simp]
theorem now_logging (reading : Nat) : (logging script now).now reading = now reading := rfl

@[simp]
theorem observe_logging (calls : List (Nat × DeviceCall)) (polls : Nat) (call : DeviceCall) :
    (logging script now).observe calls polls call = calls ++ [(polls, call)] := rfl

@[simp]
theorem observeAll_logging (polls : Nat) (told : List DeviceCall)
    (calls : List (Nat × DeviceCall)) :
    (logging script now).observeAll polls told calls =
      calls ++ told.map fun call => (polls, call) := by
  rw [observeAll]
  induction told generalizing calls with
  | nil => rw [List.foldl_nil, List.map_nil, List.append_nil]
  | cons call rest ih =>
      rw [List.foldl_cons, ih, observe_logging, List.append_assoc]
      rfl

end Devices

namespace Emulator

/-- Serve a request at readings of the host's time. -/
def serve (e : Emulator) (now : Nat → Readings) : Request → Answer × Emulator
  | .load program =>
    let (result, next) := e.load program (now 0)
    (.loaded result, next)
  | .step =>
    let (result, next) := e.step (now 0)
    (.stepped result, next)
  | .runSteps count =>
    let (result, next) := e.runSteps now count
    (.stepped result, next)
  | .run script left =>
    let finished := Id.run (e.run (.logging script now) left [])
    (.ran finished.result finished.polls finished.record, finished.emulator)
  | .setKey key down => (.done, e.setKey key down)
  | .releaseKeys => (.done, e.releaseKeys)
  | .interrupt => (.done, e.interrupt)

/-- Serve requests in order, the request with number `k` at the readings `clock k`. -/
def session (e : Emulator) (clock : Nat → Nat → Readings) : List Request → List Answer × Emulator
  | [] => ([], e)
  | request :: rest =>
    let (answer, next) := e.serve (clock 0) request
    let (answers, last) := next.session (fun k => clock (k + 1)) rest
    (answer :: answers, last)

/-- What every step keeps is kept by any number of steps. -/
theorem stepsFrom_induction {motive : Emulator → Prop}
    (keep : ∀ e now, motive e → motive (e.step now).2) (now : Nat → Readings) (first count : Nat)
    {e : Emulator} (start : motive e) : motive (stepsFrom now first count e).2 := by
  induction count generalizing first e with
  | zero => exact start
  | succ count ih =>
      have later := keep e (now first) start
      rw [stepsFrom]
      cases made : e.step (now first) with
      | mk result next =>
          rw [made] at later
          cases result with
          | error fault => exact later
          | ok signal =>
              cases signal with
              | interrupt => exact later
              | _ => exact ih (first + 1) later

/-- What holds at first and is kept by every request holds after every session. -/
theorem session_induction {motive : Emulator → Prop}
    (keep : ∀ e now request, motive e → motive (e.serve now request).2)
    (clock : Nat → Nat → Readings) (requests : List Request) {e : Emulator} (first : motive e) :
    motive (e.session clock requests).2 := by
  induction requests generalizing e clock with
  | nil => exact first
  | cons request rest ih => exact ih (fun k => clock (k + 1)) (keep e (clock 0) request first)

/-- The emulators agree on all that a session shows, and count their timers down
once for every step. -/
structure Alike (e e' : Emulator) : Prop where
  machine : e.machine = e'.machine
  buzzing : e.buzzing = e'.buzzing
  interrupted : e.interrupted = e'.interrupted
  free : e.timerClock.interval = 0
  free' : e'.timerClock.interval = 0

variable {e e' : Emulator}

/-- The same change of both machines leaves the emulators alike. -/
theorem Alike.withMachine (alike : e.Alike e') (change : Machine → Machine) :
    Alike { e with machine := change e.machine } { e' with machine := change e'.machine } :=
  ⟨congrArg change alike.machine, alike.buzzing, alike.interrupted, alike.free, alike.free'⟩

/-! ## Steps -/

theorem Alike.step (alike : e.Alike e') (now now' : Readings) :
    (e.step now).1 = (e'.step now').1 ∧ (e.step now).2.Alike (e'.step now').2 := by
  cases stopped : e.interrupted with
  | true =>
      rw [step_of_interrupted stopped, step_of_interrupted (alike.interrupted.symm.trans stopped)]
      exact ⟨rfl, alike⟩
  | false =>
      have running' := alike.interrupted.symm.trans stopped
      obtain ⟨cycles, pace, timerClock, counted, made⟩ := step_of_running stopped now
      obtain ⟨cycles', pace', timerClock', counted', made'⟩ := step_of_running running' now'
      obtain ⟨rfl, rfl⟩ := counted alike.free
      obtain ⟨rfl, rfl⟩ := counted' alike.free'
      rw [made, made', alike.machine]
      exact ⟨rfl, rfl, alike.buzzing, alike.interrupted, alike.free, alike.free'⟩

theorem Alike.restartClocks (alike : e.Alike e') (now now' : Readings) :
    (e.restartClocks now).Alike (e'.restartClocks now') :=
  ⟨alike.machine, alike.buzzing, alike.interrupted, alike.free, alike.free'⟩

theorem Alike.stepsFrom (alike : e.Alike e') (now now' : Nat → Readings)
    (first first' count : Nat) :
    (stepsFrom now first count e).1 = (stepsFrom now' first' count e').1 ∧
      (stepsFrom now first count e).2.Alike (stepsFrom now' first' count e').2 := by
  induction count generalizing first first' e e' with
  | zero => exact ⟨rfl, alike⟩
  | succ count ih =>
      obtain ⟨outcome, later⟩ := alike.step (now first) (now' first')
      rw [Emulator.stepsFrom, Emulator.stepsFrom]
      cases made : e.step (now first) with
      | mk result next =>
          cases made' : e'.step (now' first') with
          | mk result' next' =>
              rw [made, made'] at outcome later
              obtain rfl : result = result' := outcome
              cases result with
              | error fault => exact ⟨rfl, later⟩
              | ok signal =>
                  cases signal with
                  | interrupt => exact ⟨rfl, later⟩
                  | _ => exact ih later (first + 1) (first' + 1)

/-! ## Runs -/

theorem Alike.editKeys (alike : e.Alike e') (edits : List KeyEdit) :
    (e.editKeys edits).Alike (e'.editKeys edits) := by
  rw [editKeys_eq, editKeys_eq]
  exact alike.withMachine fun m => m.editKeys edits

theorem Alike.interrupt (alike : e.Alike e') : e.interrupt.Alike e'.interrupt :=
  ⟨congrArg Machine.halt alike.machine, alike.buzzing, rfl, alike.free, alike.free'⟩

theorem Alike.followSound (alike : e.Alike e') :
    e.followSound.2 = e'.followSound.2 ∧ e.followSound.1.Alike e'.followSound.1 := by
  constructor
  · rw [Emulator.followSound, Emulator.followSound, alike.machine, alike.buzzing]
    split <;> rfl
  · rw [fst_followSound, fst_followSound, alike.machine]
    exact ⟨rfl, rfl, alike.interrupted, alike.free, alike.free'⟩

/-- A pass makes the same calls and ends the run in the same way. -/
theorem Alike.turn (alike : e.Alike e') (now now' : Readings) :
    (e.turn now).calls = (e'.turn now').calls ∧ (e.turn now).ending = (e'.turn now').ending ∧
      (e.turn now).emulator.Alike (e'.turn now').emulator := by
  obtain ⟨outcome, later⟩ := alike.step now now'
  obtain ⟨calls, heard⟩ := later.followSound
  rw [Emulator.turn, Emulator.turn]
  cases made : e.step now with
  | mk result next =>
      cases made' : e'.step now' with
      | mk result' next' =>
          rw [made, made'] at outcome later calls heard
          dsimp only at outcome later calls heard
          subst outcome
          cases result with
          | error fault => exact ⟨rfl, rfl, later⟩
          | ok signal =>
              cases signal with
              | draw =>
                  refine ⟨?_, rfl, heard⟩
                  dsimp only
                  rw [calls, heard.machine]
              | _ => exact ⟨calls, rfl, heard⟩

end Emulator

/-- Two runs that ended alike, as far as the devices and the caller can tell. -/
structure RunEnd.Alike {σ : Type} (done done' : RunEnd σ) : Prop where
  emulator : done.emulator.Alike done'.emulator
  result : done.result = done'.result
  polls : done.polls = done'.polls
  record : done.record = done'.record

namespace Emulator

variable {e e' : Emulator}

theorem Alike.endRun (alike : e.Alike e') (script : Nat → List KeyEdit) (now now' : Nat → Readings)
    (polls : Nat) (result : Except Fault Signal) (calls : List (Nat × DeviceCall)) :
    (e.endRun (.logging script now) polls result calls).Alike
      (e'.endRun (.logging script now') polls result calls) := by
  rw [Emulator.endRun, Emulator.endRun, alike.buzzing]
  split
  · exact ⟨⟨alike.machine, rfl, alike.interrupted, alike.free, alike.free'⟩, rfl, rfl, rfl⟩
  · exact ⟨alike, rfl, rfl, rfl⟩

theorem Alike.runLoop (alike : e.Alike e') (script : Nat → List KeyEdit) (now now' : Nat → Readings)
    (left polls : Nat) (calls : List (Nat × DeviceCall)) :
    (Id.run (runLoop (.logging script now) left polls e calls)).Alike
      (Id.run (runLoop (.logging script now') left polls e' calls)) := by
  induction left generalizing polls e e' calls with
  | zero =>
      obtain ⟨told, -, stopped⟩ := (alike.editKeys (script polls)).interrupt.turn 0 0
      rw [(runLoop_zero _ polls e calls 0).2, (runLoop_zero _ polls e' calls 0).2]
      simp only [Devices.poll_logging, Devices.observeAll_logging, told]
      exact stopped.endRun script now now' _ _ _
  | succ left ih =>
      obtain ⟨told, ending, later⟩ :=
        (alike.editKeys (script polls)).turn (now (polls + 1)) (now' (polls + 1))
      rw [runLoop_succ, runLoop_succ]
      simp only [Devices.poll_logging, Devices.now_logging, Devices.observeAll_logging, told,
        ending]
      split
      · exact later.endRun script now now' _ _ _
      · exact ih later _ _

/-! ## Sessions -/

theorem Alike.load (alike : e.Alike e') (program : List UInt8) (now now' : Readings) :
    (e.load program now).1 = (e'.load program now').1 ∧
      (e.load program now).2.Alike (e'.load program now').2 := by
  rw [Emulator.load, Emulator.load, alike.machine]
  cases e'.machine.load program with
  | mk result machine =>
      cases result with
      | error fault => exact ⟨rfl, alike.withMachine fun _ => machine⟩
      | ok => exact ⟨rfl, rfl, rfl, rfl, alike.free, alike.free'⟩

/-- A request has the same answer, and leaves the emulators alike. -/
theorem Alike.serve (alike : e.Alike e') (now now' : Nat → Readings) (request : Request) :
    (e.serve now request).1 = (e'.serve now' request).1 ∧
      (e.serve now request).2.Alike (e'.serve now' request).2 := by
  cases request with
  | load program =>
      obtain ⟨result, later⟩ := alike.load program (now 0) (now' 0)
      exact ⟨congrArg Answer.loaded result, later⟩
  | step =>
      obtain ⟨result, later⟩ := alike.step (now 0) (now' 0)
      exact ⟨congrArg Answer.stepped result, later⟩
  | runSteps count =>
      obtain ⟨result, later⟩ :=
        (alike.restartClocks (now 0) (now' 0)).stepsFrom now now' 1 1 count
      exact ⟨congrArg Answer.stepped result, later⟩
  | run script left =>
      have ended := (alike.restartClocks (now 0) (now' 0)).runLoop script now now' left 0 []
      exact ⟨(Answer.ran.injEq ..).mpr ⟨ended.result, ended.polls, ended.record⟩, ended.emulator⟩
  | setKey key down => exact ⟨rfl, alike.withMachine fun m => m.setKey key down⟩
  | releaseKeys => exact ⟨rfl, alike.withMachine Machine.releaseKeys⟩
  | interrupt => exact ⟨rfl, alike.interrupt⟩

/-- Alike emulators cannot be told apart by a session, nor by two that differ in
when they take place. -/
theorem Alike.session (alike : e.Alike e') (clock clock' : Nat → Nat → Readings)
    (requests : List Request) :
    (e.session clock requests).1 = (e'.session clock' requests).1 ∧
      (e.session clock requests).2.Alike (e'.session clock' requests).2 := by
  induction requests generalizing e e' clock clock' with
  | nil => exact ⟨rfl, alike⟩
  | cons request rest ih =>
      obtain ⟨answer, next⟩ := alike.serve (clock 0) (clock' 0) request
      obtain ⟨answers, last⟩ := ih next (fun k => clock (k + 1)) fun k => clock' (k + 1)
      exact ⟨List.cons_eq_cons.mpr ⟨answer, answers⟩, last⟩

end Emulator

end ChipEight
