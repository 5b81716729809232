/-
# The run loop carries out the plain loop

Between two polls a run makes one round: the key changes of the poll, a count of
the timers and a step. Stripped of clocks, buzzer and display this is a loop over
the machine alone, `afterRounds`, which knows nothing of polls that stop. When
the timers are not bound to time a run is this loop, cut off by the first round
that fails or by the first poll that stops, whichever comes first.
-/

import ChipEight.Emulator.Run
import ChipEight.Proofs.Footprint

namespace ChipEight

namespace Machine

/-- Make one change of the keypad. -/
def editKey (m : Machine) : KeyEdit → Machine
  | .set key down => m.setKey key down
  | .releaseAll => m.releaseKeys

/-- Make changes of the keypad in order. -/
def editKeys (m : Machine) (edits : List KeyEdit) : Machine :=
  edits.foldl editKey m

/-- One round: the key changes, one count of both timers and one step. -/
def round (m : Machine) (edits : List KeyEdit) : Except Fault Signal × Machine :=
  ((m.editKeys edits).tick 1).step

/-- The machine after so many rounds, in which the script says what keys change. -/
def afterRounds (script : Nat → List KeyEdit) (m : Machine) : Nat → Machine
  | 0 => m
  | k + 1 => ((m.afterRounds script k).round (script k)).2

/-- The signal or the fault of the round with number `k`. -/
def roundOutcome (script : Nat → List KeyEdit) (m : Machine) (k : Nat) : Except Fault Signal :=
  ((m.afterRounds script k).round (script k)).1

theorem editKeys_eq (m : Machine) (edits : List KeyEdit) :
    m.editKeys edits = { m with keypad := (m.editKeys edits).keypad } := by
  rw [editKeys]
  induction edits generalizing m with
  | nil => rfl
  | cons edit rest ih =>
      rw [List.foldl_cons, ih]
      cases edit <;> rfl

theorem halted_editKeys (m : Machine) (edits : List KeyEdit) :
    (m.editKeys edits).halted = m.halted := by
  rw [editKeys_eq]

/-- Counting the timers down does nothing else. -/
theorem tick_eq (m : Machine) (count : Nat) :
    m.tick count = { m with timers := (m.tick count).timers } := by
  induction count generalizing m with
  | zero => rfl
  | succ count ih => rw [tick_succ, ih]

theorem halted_tick (m : Machine) (count : Nat) : (m.tick count).halted = m.halted := by
  rw [tick_eq]

end Machine

/-- What a run leaves behind, the record of the devices apart. -/
structure RunEnd.Leaves {σ : Type} (done : RunEnd σ) (result : Except Fault Signal) (polls : Nat)
    (machine : Machine) (interrupted : Bool) : Prop where
  result : done.result = result
  polls : done.polls = polls
  machine : done.emulator.machine = machine
  interrupted : done.emulator.interrupted = interrupted

namespace Emulator

variable {e : Emulator} {next : Machine} {signal : Signal} {fault : Fault}

/-! ## The parts of a pass -/

theorem editKeys_eq (e : Emulator) (edits : List KeyEdit) :
    e.editKeys edits = { e with machine := e.machine.editKeys edits } := by
  rw [editKeys, Machine.editKeys]
  induction edits generalizing e with
  | nil => rfl
  | cons edit rest ih =>
      rw [List.foldl_cons, List.foldl_cons, ih]
      cases edit <;> rfl

theorem machine_editKeys (e : Emulator) (edits : List KeyEdit) :
    (e.editKeys edits).machine = e.machine.editKeys edits := by
  rw [editKeys_eq]

theorem interrupted_editKeys (e : Emulator) (edits : List KeyEdit) :
    (e.editKeys edits).interrupted = e.interrupted := by
  rw [editKeys_eq]

/-- Following the sound timer only switches the buzzer. -/
theorem fst_followSound (e : Emulator) :
    e.followSound.1 = { e with buzzing := e.machine.timers.isSounding } := by
  rw [followSound]
  split
  · next same => rw [same]
  · rfl

/-- While nothing interrupts it, a step of the emulator is some counts of the
timers, just one if they are not bound to time, and a step of the machine. -/
theorem step_of_running (running : e.interrupted = false) (now : Readings) :
    ∃ cycles pace timerClock, (e.timerClock.interval = 0 → cycles = 1 ∧ timerClock = e.timerClock) ∧
      e.step now =
        ((e.machine.tick cycles).step.1,
          { e with machine := (e.machine.tick cycles).step.2, pace, timerClock }) := by
  have going : ¬ e.interrupted = true := by simp [running]
  let late := (e.pace.wait now).1
  refine ⟨(e.timerClock.tick late.third late.fourth).1, (e.pace.wait now).2,
    (e.timerClock.tick late.third late.fourth).2, fun free => ?_, ?_⟩
  · rw [Clock.tick_of_unbound free]
    exact ⟨rfl, rfl⟩
  · rw [step, if_neg going]

theorem turn_of_interrupted (stopped : e.interrupted = true) (now : Readings) :
    e.turn now = ⟨e.followSound.1, e.followSound.2, some (.ok .interrupt)⟩ := by
  rw [turn, step_of_interrupted stopped]

theorem turn_of_error {after : Emulator} {now : Readings}
    (failed : e.step now = (.error fault, after)) :
    e.turn now = ⟨after, [], some (.error fault)⟩ := by
  rw [turn, failed]

theorem turn_of_ok {after : Emulator} {now : Readings} (made : e.step now = (.ok signal, after))
    (going : signal ≠ .interrupt) :
    (e.turn now).ending = none ∧ (e.turn now).emulator = after.followSound.1 := by
  rw [turn, made]
  cases signal with
  | interrupt => exact absurd rfl going
  | _ => exact ⟨rfl, rfl⟩

/-- No pass ends a run with another signal than the interrupt. -/
theorem ending_turn {now : Readings} (ended : (e.turn now).ending = some (.ok signal)) :
    signal = .interrupt := by
  cases made : e.step now with
  | mk outcome after =>
      cases outcome with
      | error fault =>
          rw [turn_of_error made] at ended
          cases ended
      | ok sent =>
          by_cases going : sent = .interrupt
          · rw [turn, made, going] at ended
            cases ended
            rfl
          · rw [(turn_of_ok made going).1] at ended
            cases ended

/-- A halted machine fails to step, after the timers have been counted. -/
theorem turn_of_halted (running : e.interrupted = false) (stopped : e.machine.halted = true)
    (now : Readings) :
    (e.turn now).ending = some (.error .halted) ∧ (e.turn now).emulator.interrupted = false ∧
      ∃ cycles, (e.turn now).emulator.machine = e.machine.tick cycles := by
  obtain ⟨cycles, pace, timerClock, -, made⟩ := step_of_running running now
  have still : (e.machine.tick cycles).halted = true := by
    rw [Machine.halted_tick, stopped]
  rw [Machine.step_of_halted still] at made
  rw [turn_of_error made]
  exact ⟨rfl, running, cycles, rfl⟩

/-! ## One round of a run -/

/-- The emulator has this machine, was not interrupted, and counts the timers
down once for every step. -/
structure Drives (e : Emulator) (m : Machine) : Prop where
  machine : e.machine = m
  running : e.interrupted = false
  free : e.timerClock.interval = 0

variable {m : Machine}

theorem Drives.editKeys (drives : e.Drives m) (edits : List KeyEdit) :
    (e.editKeys edits).Drives (m.editKeys edits) := by
  rw [editKeys_eq, drives.machine]
  exact ⟨rfl, drives.running, drives.free⟩

theorem Drives.step (drives : e.Drives m) (now : Readings) :
    (e.step now).1 = (m.tick 1).step.1 ∧ (e.step now).2.Drives (m.tick 1).step.2 := by
  obtain ⟨cycles, pace, timerClock, counted, made⟩ := step_of_running drives.running now
  obtain ⟨rfl, rfl⟩ := counted drives.free
  rw [made, drives.machine]
  exact ⟨rfl, rfl, drives.running, drives.free⟩

theorem Drives.followSound (drives : e.Drives m) : e.followSound.1.Drives m := by
  rw [fst_followSound]
  exact ⟨drives.machine, drives.running, drives.free⟩

/-- A pass follows the machine, and ends the run exactly if the step fails. -/
theorem Drives.turn (drives : e.Drives m) (now : Readings) :
    (e.turn now).emulator.Drives (m.tick 1).step.2 ∧
      (e.turn now).ending =
        match (m.tick 1).step.1 with
        | .error fault => some (.error fault)
        | .ok _ => none := by
  obtain ⟨outcome_eq, later⟩ := drives.step now
  cases made : e.step now with
  | mk outcome after =>
      rw [made] at outcome_eq later
      rw [← outcome_eq]
      cases outcome with
      | error fault =>
          rw [turn_of_error made]
          exact ⟨later, rfl⟩
      | ok signal =>
          have going : signal ≠ .interrupt := by
            rintro rfl
            exact Machine.step_ne_interrupt (Prod.ext outcome_eq.symm rfl)
          obtain ⟨ending, emulator⟩ := turn_of_ok made going
          rw [ending, emulator]
          exact ⟨later.followSound, rfl⟩

/-! ## The loop -/

variable {σ : Type} (devices : Devices Id σ) {result : Except Fault Signal}

theorem leaves_endRun (e : Emulator) (polls : Nat) (result : Except Fault Signal) (s : σ) :
    (e.endRun devices polls result s).Leaves result polls e.machine e.interrupted := by
  rw [endRun]
  split <;> exact ⟨rfl, rfl, rfl, rfl⟩

/-- A poll that stops interrupts, and the pass behind it is a pass like any other:
it finds the interrupt and ends the run. -/
theorem runLoop_zero (polls : Nat) (e : Emulator) (s : σ) (now : Readings) :
    let t := (e.editKeys (devices.poll polls)).interrupt.turn now
    t.ending = some (.ok .interrupt) ∧
      runLoop devices 0 polls e s =
        t.emulator.endRun devices (polls + 1) (.ok .interrupt)
          (devices.observeAll (polls + 1) t.calls s) := by
  rw [turn_of_interrupted (interrupted_interrupt _)]
  exact ⟨rfl, rfl⟩

theorem leaves_runLoop_zero (polls : Nat) (e : Emulator) (s : σ) :
    (Id.run (runLoop devices 0 polls e s)).Leaves (.ok .interrupt) (polls + 1)
      (e.machine.editKeys (devices.poll polls)).halt true := by
  let stopped := (e.editKeys (devices.poll polls)).interrupt
  have emulator : (stopped.turn 0).emulator = stopped.followSound.1 := by
    rw [turn_of_interrupted (interrupted_interrupt _)]
  rw [fst_followSound] at emulator
  have ended := leaves_endRun devices (stopped.turn 0).emulator (polls + 1) (.ok .interrupt)
    (devices.observeAll (polls + 1) (stopped.turn 0).calls s)
  rw [emulator] at ended
  rw [(runLoop_zero devices polls e s 0).2, ← machine_editKeys, emulator]
  exact ended

/-- A poll that goes on is followed by one pass, which may end the run. -/
theorem runLoop_succ (left polls : Nat) (e : Emulator) (s : σ) :
    let t := (e.editKeys (devices.poll polls)).turn (devices.now (polls + 1))
    let later := devices.observeAll (polls + 1) t.calls s
    runLoop devices (left + 1) polls e s =
      match t.ending with
      | some result => t.emulator.endRun devices (polls + 1) result later
      | none => runLoop devices left (polls + 1) t.emulator later := rfl

theorem leaves_of_ending {polls : Nat} (left : Nat) (s : σ)
    (ended : ((e.editKeys (devices.poll polls)).turn (devices.now (polls + 1))).ending =
      some result) :
    let t := (e.editKeys (devices.poll polls)).turn (devices.now (polls + 1))
    (Id.run (runLoop devices (left + 1) polls e s)).Leaves result (polls + 1) t.emulator.machine
      t.emulator.interrupted := by
  rw [runLoop_succ]
  simp only [ended]
  exact leaves_endRun devices _ _ _ _

/-- However the passes end, a run makes at most one poll more than go on, and
ends in a fault or an interrupt. -/
theorem bounded_runLoop (left polls : Nat) (e : Emulator) (s : σ) :
    (Id.run (runLoop devices left polls e s)).polls ≤ polls + left + 1 ∧
      ∀ signal, (Id.run (runLoop devices left polls e s)).result = .ok signal →
        signal = .interrupt := by
  induction left generalizing polls e s with
  | zero =>
      have ended := leaves_runLoop_zero devices polls e s
      rw [ended.polls, ended.result]
      refine ⟨Nat.le_refl _, fun signal same => ?_⟩
      cases same
      rfl
  | succ left ih =>
      cases ending : ((e.editKeys (devices.poll polls)).turn (devices.now (polls + 1))).ending with
      | some result =>
          have ended := leaves_of_ending devices left s ending
          rw [ended.polls, ended.result]
          refine ⟨by omega, ?_⟩
          rintro signal rfl
          exact ending_turn ending
      | none =>
          rw [runLoop_succ]
          simp only [ending]
          obtain ⟨few, only⟩ := ih (polls + 1) _ _
          exact ⟨by omega, only⟩

/-- A round that fails ends the run with its fault. -/
theorem leaves_of_failed_round (drives : e.Drives m) {polls : Nat} (left : Nat) (s : σ)
    (failed : (m.round (devices.poll polls)).1 = .error fault) :
    (Id.run (runLoop devices (left + 1) polls e s)).Leaves (.error fault) (polls + 1)
      (m.round (devices.poll polls)).2 false := by
  obtain ⟨after, ending⟩ :=
    (drives.editKeys (devices.poll polls)).turn (devices.now (polls + 1))
  rw [Machine.round] at failed
  rw [failed] at ending
  have ended := leaves_of_ending devices left s ending
  exact ⟨ended.result, ended.polls, ended.machine.trans after.machine,
    ended.interrupted.trans after.running⟩

/-- A round that succeeds is a round of the run. -/
theorem runLoop_of_round (drives : e.Drives m) {polls : Nat} (left : Nat) (s : σ)
    (made : (m.round (devices.poll polls)).1 = .ok signal) :
    ∃ (later : Emulator) (s' : σ),
      later.Drives (m.round (devices.poll polls)).2 ∧
        runLoop devices (left + 1) polls e s = runLoop devices left (polls + 1) later s' := by
  obtain ⟨after, ending⟩ :=
    (drives.editKeys (devices.poll polls)).turn (devices.now (polls + 1))
  rw [Machine.round] at made
  rw [made] at ending
  have unfolded := runLoop_succ devices left polls e s
  simp only [ending] at unfolded
  exact ⟨_, _, after, unfolded⟩

/-- As long as the rounds succeed, the run has made just these rounds. -/
theorem runLoop_of_rounds (drives : e.Drives m) (k left : Nat) (s : σ)
    (made : ∀ i < k, ∃ signal, m.roundOutcome devices.poll i = .ok signal) :
    ∃ (later : Emulator) (s' : σ),
      later.Drives (m.afterRounds devices.poll k) ∧
        runLoop devices (left + k) 0 e s = runLoop devices left k later s' := by
  induction k generalizing left with
  | zero => exact ⟨e, s, drives, rfl⟩
  | succ k ih =>
      obtain ⟨before, s', drives_before, reached⟩ :=
        ih (left + 1) fun i earlier => made i (Nat.lt_succ_of_lt earlier)
      obtain ⟨signal, last⟩ := made k (Nat.lt_succ_self k)
      obtain ⟨later, s'', drives_later, passed⟩ :=
        runLoop_of_round devices drives_before left s' last
      refine ⟨later, s'', drives_later, ?_⟩
      rw [← passed, ← reached, Nat.add_assoc left 1 k, Nat.add_comm 1 k]

/-! ## Runs -/

theorem run_eq (e : Emulator) (stop : Nat) (s : σ) :
    e.run devices stop s = runLoop devices stop 0 (e.restartClocks (devices.now 0)) s := rfl

/-- An interrupted emulator polls once and does nothing else. -/
theorem leaves_run_of_interrupted (stopped : e.interrupted = true) (stop : Nat) (s : σ) :
    (Id.run (e.run devices stop s)).Leaves (.ok .interrupt) 1
      (if stop = 0 then (e.machine.editKeys (devices.poll 0)).halt
        else e.machine.editKeys (devices.poll 0)) true := by
  rw [run_eq]
  cases stop with
  | zero => exact leaves_runLoop_zero devices 0 _ s
  | succ left =>
      let edited := (e.restartClocks (devices.now 0)).editKeys (devices.poll 0)
      have machine : edited.machine = e.machine.editKeys (devices.poll 0) := machine_editKeys _ _
      have still : edited.interrupted = true := (interrupted_editKeys _ _).trans stopped
      have turned := turn_of_interrupted still (devices.now 1)
      have ended := leaves_of_ending devices left s (congrArg Turn.ending turned)
      rw [turned, fst_followSound] at ended
      exact ⟨ended.result, ended.polls, ended.machine.trans machine, ended.interrupted.trans still⟩

/-- An emulator with a halted machine polls once, counts the timers and fails. -/
theorem leaves_run_of_halted (running : e.interrupted = false) (stopped : e.machine.halted = true)
    (stop : Nat) (s : σ) :
    ∃ cycles, (Id.run (e.run devices stop s)).Leaves
      (if stop = 0 then .ok .interrupt else .error .halted) 1
      ((e.machine.editKeys (devices.poll 0)).tick cycles) (decide (stop = 0)) := by
  rw [run_eq]
  have still : (e.machine.editKeys (devices.poll 0)).halted = true := by
    rw [Machine.halted_editKeys, stopped]
  cases stop with
  | zero =>
      have ended := leaves_runLoop_zero devices 0 (e.restartClocks (devices.now 0)) s
      rw [machine_restartClocks, Machine.halt_of_halted still] at ended
      exact ⟨0, ended⟩
  | succ left =>
      let edited := (e.restartClocks (devices.now 0)).editKeys (devices.poll 0)
      have machine : edited.machine = e.machine.editKeys (devices.poll 0) := machine_editKeys _ _
      have going : edited.interrupted = false := (interrupted_editKeys _ _).trans running
      obtain ⟨ending, still_going, cycles, counted⟩ :=
        turn_of_halted going (by rw [machine, still]) (devices.now 1)
      have ended := leaves_of_ending devices left s ending
      rw [machine] at counted
      exact ⟨cycles, ended.result, ended.polls, ended.machine.trans counted,
        ended.interrupted.trans still_going⟩

/-- A run from any emulator, with devices that stop at the poll numbered `stop`.

It makes at most `stop + 1` polls and ends in a fault or an interrupt. If the
emulator was interrupted, or its machine halted, it makes one poll and no
instruction. Otherwise, with timers that are not bound to time, the plain loop
tells what it does: with `stop` good rounds it makes them all, changes keys once
more and is interrupted; with a first bad round it ends there in the same fault. -/
theorem run_follows_plain_loop (e : Emulator) (stop : Nat) (s : σ) :
    let done := Id.run (e.run devices stop s)
    let m := e.machine
    let script := devices.poll
    (done.polls ≤ stop + 1 ∧ ∀ signal, done.result = .ok signal → signal = .interrupt) ∧
      (e.interrupted = true →
        done.Leaves (.ok .interrupt) 1
          (if stop = 0 then (m.editKeys (script 0)).halt else m.editKeys (script 0)) true) ∧
      (e.interrupted = false → m.halted = true →
        ∃ cycles, done.Leaves (if stop = 0 then .ok .interrupt else .error .halted) 1
          ((m.editKeys (script 0)).tick cycles) (decide (stop = 0))) ∧
      (e.interrupted = false → e.timerClock.interval = 0 →
        ((∀ k < stop, ∃ signal, m.roundOutcome script k = .ok signal) →
          done.Leaves (.ok .interrupt) (stop + 1)
            ((m.afterRounds script stop).editKeys (script stop)).halt true) ∧
          ∀ k < stop, ∀ fault, (∀ i < k, ∃ signal, m.roundOutcome script i = .ok signal) →
            m.roundOutcome script k = .error fault →
              done.Leaves (.error fault) (k + 1) (m.afterRounds script (k + 1)) false) := by
  intro done m script
  refine ⟨?_, fun stopped => leaves_run_of_interrupted devices stopped stop s,
    fun running stopped => leaves_run_of_halted devices running stopped stop s,
    fun running free => ?_⟩
  · have bounded := bounded_runLoop devices stop 0 (e.restartClocks (devices.now 0)) s
    rw [Nat.zero_add] at bounded
    exact bounded
  have drives : (e.restartClocks (devices.now 0)).Drives m := ⟨rfl, running, free⟩
  constructor
  · intro made
    obtain ⟨later, s', drives_later, reached⟩ := runLoop_of_rounds devices drives stop 0 s made
    have ended := leaves_runLoop_zero devices stop later s'
    rw [← reached, Nat.zero_add, drives_later.machine] at ended
    exact ended
  · intro k inside fault made failed
    obtain ⟨left, rfl⟩ := Nat.exists_eq_add_of_lt inside
    obtain ⟨later, s', drives_later, reached⟩ :=
      runLoop_of_rounds devices drives k (left + 1) s made
    have ended := leaves_of_failed_round devices drives_later left s' failed
    rw [← reached, Nat.add_comm (left + 1) k] at ended
    exact ended

/-- One good round and a return with no call pending: the run ends at the second
poll, although the devices would go on for five. -/
theorem run_follows_plain_loop_underflow :
    let m := (Machine.powerOn 0).loaded [0x60, 0x05, 0x00, 0xEE]
    let e := { ofSettings ⟨none, 2000000000, some 0⟩ (.replicate 8 0) 0 with machine := m }
    let devices : Devices Id Unit :=
      ⟨fun k => if k = 0 then [.set 3 true] else [], Readings.atOnce, fun s _ _ => s⟩
    (Id.run (e.run devices 5 ())).Leaves (.error .stackUnderflow) 2
      (m.afterRounds devices.poll 2) false := by
  intro m e devices
  have free : cycleLength 2000000000 = 0 := cycleLength_eq_zero_iff.mpr (.inr (by decide))
  have good : ∀ i < 1, ∃ signal, m.roundOutcome devices.poll i = .ok signal := by
    intro i first
    rw [Nat.lt_one_iff.mp first]
    have standing : ((m.editKeys (devices.poll 0)).tick 1).instruction? = some (.setByte 0 5) := by
      decide +kernel
    exact ⟨.proceed, congrArg Prod.fst (Machine.step_eq_ok_iff.mpr ⟨rfl, _, standing, rfl⟩)⟩
  have bad : m.roundOutcome devices.poll 1 = .error .stackUnderflow := by
    let second := ((m.afterRounds devices.poll 1).editKeys (devices.poll 1)).tick 1
    obtain ⟨running, standing, empty⟩ : second.halted = false ∧
        second.instruction? = some .ret ∧ second.refusal .ret = some .stackUnderflow := by
      decide +kernel
    exact congrArg Prod.fst (Machine.step_of_refusal running standing empty)
  obtain ⟨-, -, -, loop⟩ := run_follows_plain_loop devices e 5 ()
  exact (loop rfl free).2 1 (by decide) _ good bad

end Emulator

end ChipEight
