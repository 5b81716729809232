/-
# Steps in parts and steps in runs

Steps can be asked for all at once, in several requests one after the other, or as a
run whose devices stop it. Requests and runs are loops of their own: one ends when its
steps are made, the other when a poll says so, and either ends early where a step fails
or finds an interrupt. With timers that are not bound to time they still come to the
same, since nothing of a step depends on when it is made or on how many there were.

What is left of time in an emulator is where its clocks are in their cycles. Every
request for steps starts new cycles, so emulators are compared without that.
-/

import ChipEight.Proofs.Buzzer

namespace ChipEight

namespace Emulator

variable {e f next : Emulator} {m : Machine} {now : Nat → Readings} {first count : Nat}
  {signal : Signal} {fault : Fault}

/-- The emulator without the instants at which the cycles of its clocks started. -/
def timeless (e : Emulator) : Emulator :=
  e.restartClocks 0

/-- How the emulator was set up, and the lengths of the cycles that follow from it. -/
def setup (e : Emulator) : Settings × Nanos × Nanos :=
  (e.settings, e.pace.interval, e.timerClock.interval)

/-- Nothing that an emulator is asked changes its setup. -/
theorem keptByParts_setup (setup : Settings × Nanos × Nanos) :
    KeptByParts fun e => e.setup = setup where
  step e now same := by
    rw [← same, step]
    split
    · rfl
    · simp only [Emulator.setup, Clock.interval_wait, Clock.interval_tick]
  editKey e edit same := by
    cases edit <;> exact same
  interrupt e same := same
  restartClocks e now same := same
  buzzing e on same := same

theorem timeless_eq (machine : e.machine = f.machine) (buzzing : e.buzzing = f.buzzing)
    (interrupted : e.interrupted = f.interrupted) (setup : e.setup = f.setup) :
    e.timeless = f.timeless := by
  obtain ⟨settings, lengths⟩ := Prod.mk.inj setup
  obtain ⟨pace, timerClock⟩ := Prod.mk.inj lengths
  simp only [timeless, restartClocks, Clock.restart, machine, buzzing, interrupted, settings,
    pace, timerClock]

theorem Alike.timeless_eq (alike : e.Alike f) (setup : e.setup = f.setup) :
    e.timeless = f.timeless :=
  Emulator.timeless_eq alike.machine alike.buzzing alike.interrupted setup

/-! ## One more step -/

/-- A step finds an interrupt, or it fails, or it sends another signal. -/
theorem step_cases (e : Emulator) (now : Readings) :
    e.interrupted = true ∨ e.interrupted = false ∧
      ((∃ fault next, e.step now = (.error fault, next)) ∨
        ∃ signal next, signal ≠ .interrupt ∧ next.interrupted = false ∧
          e.step now = (.ok signal, next)) := by
  cases stopped : e.interrupted with
  | true => exact .inl rfl
  | false =>
      refine .inr ⟨rfl, ?_⟩
      cases made : e.step now with
      | mk outcome next =>
          cases outcome with
          | error fault => exact .inl ⟨fault, next, rfl⟩
          | ok signal =>
              refine .inr ⟨signal, next, ?_, ?_, rfl⟩
              · rintro rfl
                have found := step_eq_interrupt_iff.mp (congrArg Prod.fst made)
                exact Bool.false_ne_true (stopped.symm.trans found)
              · rw [← stopped, ← interrupted_step e now, made]

theorem stepsFrom_of_error (failed : e.step (now first) = (.error fault, next)) :
    stepsFrom now first (count + 1) e = (.error fault, next) := by
  rw [stepsFrom, failed]

theorem stepsFrom_of_interrupted (stopped : e.interrupted = true) :
    stepsFrom now first (count + 1) e = (.ok .interrupt, e) := by
  rw [stepsFrom, step_of_interrupted stopped]

theorem stepsFrom_of_ok (made : e.step (now first) = (.ok signal, next))
    (going : signal ≠ .interrupt) :
    stepsFrom now first (count + 1) e = stepsFrom now (first + 1) count next := by
  rw [stepsFrom, made]
  cases signal with
  | interrupt => exact absurd rfl going
  | _ => rfl

/-- Steps are answered with the interrupt exactly if one was there before the first. -/
theorem stepsFrom_eq_interrupt_iff :
    (stepsFrom now first count e).1 = .ok .interrupt ↔ e.interrupted = true ∧ 0 < count := by
  induction count generalizing first e with
  | zero => exact iff_of_false nofun fun asked => Nat.lt_irrefl 0 asked.2
  | succ count ih =>
      rcases e.step_cases (now first) with stopped | ⟨running, ⟨fault, next, failed⟩ |
        ⟨signal, next, going, still, made⟩⟩
      · rw [stepsFrom_of_interrupted stopped]
        exact iff_of_true rfl ⟨stopped, Nat.succ_pos count⟩
      · rw [stepsFrom_of_error failed, running]
        exact iff_of_false nofun (nomatch ·.1)
      · rw [stepsFrom_of_ok made going, ih, still, running]
        exact iff_of_false (nomatch ·.1) (nomatch ·.1)

/-! ## Steps in parts -/

/-- Where the first steps are all made, the others go on from there. -/
theorem stepsFrom_add_of_done {a : Nat} (done : stepsFrom now first a e = (.ok .proceed, next))
    (b : Nat) : stepsFrom now first (a + b) e = stepsFrom now (first + a) b next := by
  induction a generalizing first e with
  | zero =>
      cases done
      rw [Nat.zero_add, Nat.add_zero]
  | succ a ih =>
      rw [Nat.add_right_comm a 1 b]
      rcases e.step_cases (now first) with stopped | ⟨-, ⟨fault, after, failed⟩ |
        ⟨signal, after, going, -, made⟩⟩
      · rw [stepsFrom_of_interrupted stopped] at done
        cases done
      · rw [stepsFrom_of_error failed] at done
        cases done
      · rw [stepsFrom_of_ok made going] at done ⊢
        rw [ih done, Nat.add_assoc, Nat.add_comm 1 a]

/-- Where the first steps end early, so do all of them. -/
theorem stepsFrom_add_of_stopped {a : Nat} (ended : (stepsFrom now first a e).1 ≠ .ok .proceed)
    (b : Nat) : stepsFrom now first (a + b) e = stepsFrom now first a e := by
  induction a generalizing first e with
  | zero => exact absurd rfl ended
  | succ a ih =>
      rw [Nat.add_right_comm a 1 b]
      rcases e.step_cases (now first) with stopped | ⟨-, ⟨fault, after, failed⟩ |
        ⟨signal, after, going, -, made⟩⟩
      · rw [stepsFrom_of_interrupted stopped, stepsFrom_of_interrupted stopped]
      · rw [stepsFrom_of_error failed, stepsFrom_of_error failed]
      · rw [stepsFrom_of_ok made going] at ended
        rw [stepsFrom_of_ok made going, stepsFrom_of_ok made going, ih ended]

theorem setup_stepsFrom (now : Nat → Readings) (first count : Nat) (e : Emulator) :
    (stepsFrom now first count e).2.setup = e.setup :=
  stepsFrom_induction (motive := fun f => f.setup = e.setup) (keptByParts_setup e.setup).step
    now first count rfl

theorem setup_runSteps (now : Nat → Readings) (count : Nat) (e : Emulator) :
    (e.runSteps now count).2.setup = e.setup :=
  setup_stepsFrom now 1 count (e.restartClocks (now 0))

/-- Without a cycle of the timers, nothing of many steps depends on when they are made. -/
theorem runSteps_congr (alike : e.Alike f) (setup : e.setup = f.setup) (now now' : Nat → Readings)
    (first count : Nat) :
    (stepsFrom now first count e).1 = (f.runSteps now' count).1 ∧
      (stepsFrom now first count e).2.timeless = (f.runSteps now' count).2.timeless := by
  have restarted : e.Alike (f.restartClocks (now' 0)) :=
    ⟨alike.machine, alike.buzzing, alike.interrupted, alike.free, alike.free'⟩
  obtain ⟨result, later⟩ := restarted.stepsFrom now now' first 1 count
  refine ⟨result, later.timeless_eq ?_⟩
  rw [setup_stepsFrom, setup_stepsFrom, setup]
  rfl

/-! ## Steps in runs -/

section Run

variable {σ : Type} (devices : Devices Id σ)

theorem emulator_endRun (e : Emulator) (polls : Nat) (result : Except Fault Signal) (s : σ) :
    (e.endRun devices polls result s).emulator = { e with buzzing := false } := by
  rw [endRun]
  split
  · rfl
  · next off => rw [← Bool.eq_false_iff.mpr off]

/-- What every part of a pass keeps holds at the end of a run, just before the buzzer
goes off. -/
theorem KeptByParts.runLoop {motive : Emulator → Prop} (kept : KeptByParts motive)
    (left polls : Nat) (s : σ) (start : motive e) :
    ∃ last, motive last ∧
      (Id.run (runLoop devices left polls e s)).emulator = { last with buzzing := false } := by
  induction left generalizing polls e s with
  | zero =>
      rw [(runLoop_zero devices polls e s 0).2]
      refine ⟨_, ?_, emulator_endRun devices ..⟩
      exact kept.turn 0 (kept.interrupt _ (kept.editKeys _ start))
  | succ left ih =>
      have later := kept.turn (devices.now (polls + 1)) (kept.editKeys (devices.poll polls) start)
      rw [runLoop_succ]
      split
      · exact ⟨_, later, emulator_endRun devices ..⟩
      · exact ih (polls + 1) _ later

/-- A run with devices that leave the keys alone makes the steps that could be asked for
instead, by induction on the polls that go on. The emulators of the two have the same
machine all along, while the buzzer is looked after in the run only. -/
theorem leaves_runLoop_of_untouched (untouched : ∀ k, devices.poll k = [])
    (drives : e.Drives m) (asked : f.Drives m) (now : Nat → Readings) (first left polls : Nat)
    (s : σ) :
    ∃ last made,
      (stepsFrom now first left f = (.ok .proceed, last) ∧
        (Id.run (runLoop devices left polls e s)).Leaves (.ok .interrupt) made
          last.machine.halt true) ∨
      ∃ fault, stepsFrom now first left f = (.error fault, last) ∧
        (Id.run (runLoop devices left polls e s)).Leaves (.error fault) made
          last.machine false := by
  induction left generalizing e f m first polls s with
  | zero =>
      have ended := leaves_runLoop_zero devices polls e s
      rw [untouched, drives.machine, ← asked.machine] at ended
      exact ⟨f, polls + 1, .inl ⟨rfl, ended⟩⟩
  | succ left ih =>
      have round : m.round (devices.poll polls) = (m.tick 1).step := by
        rw [untouched]
        rfl
      obtain ⟨outcome, later⟩ := asked.step (now first)
      rw [← round] at outcome later
      rcases f.step_cases (now first) with stopped | ⟨-, ⟨fault, last, failed⟩ |
        ⟨signal, next, going, -, made⟩⟩
      · exact absurd stopped (Bool.eq_false_iff.mp asked.running)
      · rw [failed] at outcome later
        have ended := leaves_of_failed_round devices drives left s outcome.symm
        rw [← later.machine] at ended
        exact ⟨last, polls + 1, .inr ⟨fault, stepsFrom_of_error failed, ended⟩⟩
      · rw [made] at outcome later
        obtain ⟨behind, s', drives', passed⟩ :=
          runLoop_of_round devices drives left s outcome.symm
        rw [stepsFrom_of_ok made going, passed]
        exact ih drives' later (first + 1) (polls + 1) s'

/-- A run with devices that leave the keys alone ends like as many steps as it has polls
that go on, and is interrupted behind them if none of them fails. -/
theorem run_of_untouched (untouched : ∀ k, devices.poll k = []) (off : e.buzzing = false)
    (running : e.interrupted = false) (free : e.timerClock.interval = 0) (now : Nat → Readings)
    (stop : Nat) (s : σ) :
    let done := Id.run (e.run devices stop s)
    let asked := e.runSteps now stop
    (asked.1 = .ok .proceed ∧ done.result = .ok .interrupt ∧
        done.emulator.timeless = asked.2.interrupt.timeless) ∨
      ∃ fault, asked.1 = .error fault ∧ done.result = .error fault ∧
        done.emulator.timeless = asked.2.timeless := by
  intro done asked
  let parts := keptByParts_setup e.setup
  obtain ⟨before, setup, behind⟩ := parts.runLoop devices stop 0 s (parts.restartClocks e _ rfl)
  have quiet : asked.2.buzzing = false :=
    stepsFrom_induction (motive := fun f => f.buzzing = false)
      (fun f reading off => (buzzing_step f reading).trans off) now 1 stop off
  have still : asked.2.interrupted = false :=
    stepsFrom_induction (motive := fun f => f.interrupted = false)
      (fun f reading running => (interrupted_step f reading).trans running) now 1 stop running
  have same : done.emulator.setup = asked.2.setup :=
    (congrArg Emulator.setup behind).trans (setup.trans (setup_runSteps now stop e).symm)
  have ended : done.emulator.buzzing = false := congrArg Emulator.buzzing behind
  obtain ⟨last, made, outcome⟩ :=
    leaves_runLoop_of_untouched devices untouched (e := e.restartClocks (devices.now 0))
      (f := e.restartClocks (now 0)) ⟨rfl, running, free⟩ ⟨rfl, running, free⟩ now 1 stop 0 s
  rcases outcome with ⟨succeeded, leaves⟩ | ⟨fault, failed, leaves⟩
  · have answer : asked = (.ok .proceed, last) := succeeded
    rw [answer] at quiet same ⊢
    exact .inl ⟨rfl, leaves.result,
      timeless_eq leaves.machine (ended.trans quiet.symm) leaves.interrupted same⟩
  · have answer : asked = (.error fault, last) := failed
    rw [answer] at quiet still same ⊢
    exact .inr ⟨fault, rfl, leaves.result,
      timeless_eq leaves.machine (ended.trans quiet.symm) (leaves.interrupted.trans still.symm)
        same⟩

end Run

/-- Steps can be made in parts and in runs.

Take an emulator that serves requests from when it is new, and whose timers are not bound
to time. Many steps come to the same as the first few of them and then, if none of those
failed or found an interrupt, the others; otherwise the first few have the answer already.
Steps are answered with the interrupt exactly if it was there and any were asked for. If it
was not, a run with devices that leave the keys alone and stop at some poll leads to where
as many steps lead, interrupted behind them if all succeed, and with the same fault at the
same place if one does not. None of this depends on the readings of time. -/
theorem steps_come_to_the_same_in_parts_and_runs (settings : Settings) (entropy : ChaCha.Key)
    (start : Readings) (clock : Nat → Nat → Readings) (requests : List Request)
    (free : cycleLength settings.timerHz = 0) :
    let e := ((ofSettings settings entropy start).session clock requests).2
    (∀ (now now' now'' : Nat → Readings) (a b : Nat),
      let whole := e.runSteps now (a + b)
      let first := e.runSteps now' a
      let second := first.2.runSteps now'' b
      (first.1 = .ok .proceed →
        whole.1 = second.1 ∧ whole.2.timeless = second.2.timeless) ∧
      (first.1 ≠ .ok .proceed →
        whole.1 = first.1 ∧ whole.2.timeless = first.2.timeless)) ∧
    (∀ now count, (e.runSteps now count).1 = .ok .interrupt ↔
      e.interrupted = true ∧ 0 < count) ∧
    (e.interrupted = false →
      ∀ (σ : Type) (devices : Devices Id σ) (s : σ) (now : Nat → Readings) (stop : Nat),
        (∀ k, devices.poll k = []) →
          let done := Id.run (e.run devices stop s)
          let asked := e.runSteps now stop
          (asked.1 = .ok .proceed ∧ done.result = .ok .interrupt ∧
              done.emulator.timeless = asked.2.interrupt.timeless) ∨
            ∃ fault, asked.1 = .error fault ∧ done.result = .error fault ∧
              done.emulator.timeless = asked.2.timeless) := by
  intro e
  have new : (ofSettings settings entropy start).Alike (ofSettings settings entropy start) :=
    ⟨rfl, rfl, rfl, free, free⟩
  have alike : e.Alike e := (new.session clock clock requests).2
  have off : e.buzzing = false :=
    session_induction (motive := fun e => e.buzzing = false)
      (fun e now request off => buzzing_serve off now request) clock requests rfl
  refine ⟨fun now now' now'' a b => ?_, fun now count => stepsFrom_eq_interrupt_iff,
    fun running σ devices s now stop untouched =>
      run_of_untouched devices untouched off running alike.free now stop s⟩
  intro whole first second
  -- the first steps, made at the readings of all of them
  let early := stepsFrom now 1 a (e.restartClocks (now 0))
  obtain ⟨result, later⟩ : early.1 = first.1 ∧ early.2.Alike first.2 :=
    (alike.restartClocks (now 0) (now' 0)).stepsFrom now now' 1 1 a
  have setup : early.2.setup = first.2.setup :=
    (setup_runSteps now a e).trans (setup_runSteps now' a e).symm
  constructor
  · intro done
    have all : whole = stepsFrom now (1 + a) b early.2 :=
      stepsFrom_add_of_done (Prod.ext (result.trans done) rfl) b
    rw [all]
    exact runSteps_congr later setup now now'' (1 + a) b
  · intro ended
    have all : whole = early := stepsFrom_add_of_stopped (result ▸ ended) b
    rw [all]
    exact ⟨result, later.timeless_eq setup⟩

/-- A register is set, the sound timer is started with it, and then a return finds no call.
Six steps fail where the other four of them fail that are asked for behind the first two,
and a run that stops at its third poll, with the buzzer on, leaves the machine where two
steps leave it. -/
theorem steps_come_to_the_same_in_parts_and_runs_underflow :
    let settings : Settings := ⟨some 500, 2000000000, some 0⟩
    let program : List UInt8 := [0x60, 0x05, 0xF0, 0x18, 0x00, 0xEE]
    let e := ((ofSettings settings (.replicate 8 0) 0).session (fun _ => .atOnce) [.load program]).2
    let now : Nat → Readings := fun k => ⟨1000000 * k, 20, 3000, 400⟩
    let devices : Devices Id (List DeviceCall) :=
      ⟨fun _ => [], now, fun calls _ call => call :: calls⟩
    let first := e.runSteps now 2
    let done := Id.run (e.run devices 2 [])
    cycleLength settings.timerHz = 0 ∧ e.interrupted = false ∧ first.1 = .ok .proceed ∧
      (first.2.runSteps Readings.atOnce 4).1 = .error .stackUnderflow ∧
      (e.runSteps now 6).1 = .error .stackUnderflow ∧
      (e.runSteps now 6).2.timeless = (first.2.runSteps Readings.atOnce 4).2.timeless ∧
      done.record = [.buzz false, .buzz true] ∧
      done.emulator.timeless = first.2.interrupt.timeless := by
  intro settings program e now devices first done
  have free : cycleLength settings.timerHz = 0 := cycleLength_eq_zero_iff.mpr (.inr (by decide))
  obtain ⟨running, made, failed, record⟩ :
      e.interrupted = false ∧ first.1 = .ok .proceed ∧
        (first.2.runSteps Readings.atOnce 4).1 = .error .stackUnderflow ∧
        done.record = [.buzz false, .buzz true] := by
    decide +kernel
  obtain ⟨parts, -, runs⟩ :=
    steps_come_to_the_same_in_parts_and_runs settings (.replicate 8 0) 0 (fun _ => .atOnce)
      [.load program] free
  obtain ⟨result, same⟩ := (parts now now Readings.atOnce 2 4).1 made
  refine ⟨free, running, made, failed, result.trans failed, same, record, ?_⟩
  rcases runs running _ devices [] now 2 fun _ => rfl with ⟨-, -, ended⟩ | ⟨fault, refused, -⟩
  · exact ended
  · exact nomatch made.symm.trans refused

end Emulator

end ChipEight
