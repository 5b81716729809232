/-
# Runs pass by pass

A run is a chain of passes, one behind each poll. This module names what a run
is in the middle of: the emulator that a poll finds and the calls that were made
before it. The run itself is then its last pass, and what every pass keeps holds
at every poll of the run and at its end. Nothing is said about a poll that the
run does not come to; the number of polls of a run tells which it comes to.

Requests of every other kind are made of the same parts as a pass, so what each
part keeps is also kept by a whole session, as long as no load is accepted.
-/

import ChipEight.Proofs.Session
import Mathlib.Data.Nat.Find

namespace ChipEight

/-- The calls of a log that were made before poll number `k`. -/
def callsBefore (k : Nat) (log : List (Nat × DeviceCall)) : List (Nat × DeviceCall) :=
  log.filter fun call => decide (call.1 ≤ k)

namespace Emulator

/-! ## What a pass can do -/

variable {e : Emulator} {now : Readings}

theorem interrupted_step (e : Emulator) (now : Readings) :
    (e.step now).2.interrupted = e.interrupted := by
  rw [step]
  split <;> rfl

/-- Exactly an interrupted emulator answers a step with the interrupt. -/
theorem step_eq_interrupt_iff : (e.step now).1 = .ok .interrupt ↔ e.interrupted = true := by
  constructor
  · intro answered
    cases stopped : e.interrupted with
    | true => rfl
    | false =>
        obtain ⟨cycles, pace, timerClock, -, same⟩ := step_of_running stopped now
        rw [same] at answered
        have sent : (e.machine.tick cycles).step.1 = .ok .interrupt := answered
        exact (Machine.step_ne_interrupt (Prod.ext sent rfl)).elim
  · intro stopped
    rw [step_of_interrupted stopped]

/-- A pass fails and calls nothing, or finds an interrupt and ends the run, or
makes a step, follows the sound timer and then shows the display if the step
drew on it. -/
theorem turn_cases (e : Emulator) (now : Readings) :
    (∃ fault next, e.step now = (.error fault, next) ∧
        e.turn now = ⟨next, [], some (.error fault)⟩) ∨
      (e.interrupted = true ∧
        e.turn now = ⟨e.followSound.1, e.followSound.2, some (.ok .interrupt)⟩) ∨
      ∃ signal next, signal ≠ .interrupt ∧ e.step now = (.ok signal, next) ∧
        e.turn now =
          ⟨next.followSound.1,
            next.followSound.2 ++ if signal = .draw then [.draw next.machine.display] else [],
            none⟩ := by
  cases stopped : e.interrupted with
  | true => exact .inr (.inl ⟨rfl, turn_of_interrupted stopped now⟩)
  | false =>
      cases made : e.step now with
      | mk outcome next =>
          cases outcome with
          | error fault => exact .inl ⟨fault, next, rfl, turn_of_error made⟩
          | ok signal =>
              have going : signal ≠ .interrupt := by
                rintro rfl
                have found := step_eq_interrupt_iff.mp (congrArg Prod.fst made)
                exact Bool.false_ne_true (stopped.symm.trans found)
              refine .inr (.inr ⟨signal, next, going, rfl, ?_⟩)
              rw [turn, made]
              cases signal with
              | interrupt => exact absurd rfl going
              | draw =>
                  have display : next.followSound.1.machine.display = next.machine.display := by
                    rw [fst_followSound]
                  rw [← display]
                  rfl
              | _ => simp

/-! ## The state of a run at a poll -/

section AtPoll

variable (script : Nat → List KeyEdit) (now : Nat → Readings) (stop : Nat)

/-- The emulator behind poll number `k`: the keys have changed, and the poll that
stops has interrupted it. -/
def polled (e : Emulator) (k : Nat) : Emulator :=
  if k < stop then e.editKeys (script k) else (e.editKeys (script k)).interrupt

/-- The emulator that poll number `k` of a run finds, if the run comes to it. -/
def atPoll (e : Emulator) : Nat → Emulator
  | 0 => e.restartClocks (now 0)
  | k + 1 => (((e.atPoll k).polled script stop k).turn (now (k + 1))).emulator

/-- The step that a run makes behind poll number `k`. -/
def stepAt (e : Emulator) (k : Nat) : Except Fault Signal × Emulator :=
  ((e.atPoll script now stop k).polled script stop k).step (now (k + 1))

/-- The pass of a run behind poll number `k`. -/
def turnAt (e : Emulator) (k : Nat) : Turn :=
  ((e.atPoll script now stop k).polled script stop k).turn (now (k + 1))

/-- The calls of the first passes of a run, each with the number of polls before it. -/
def callsOf (e : Emulator) : Nat → List (Nat × DeviceCall)
  | 0 => []
  | k + 1 => e.callsOf k ++ (e.turnAt script now stop k).calls.map fun call => (k + 1, call)

theorem atPoll_succ (e : Emulator) (k : Nat) :
    e.atPoll script now stop (k + 1) = (e.turnAt script now stop k).emulator := rfl

theorem machine_polled (e : Emulator) (k : Nat) :
    ∃ halted, (e.polled script stop k).machine =
      { e.machine.editKeys (script k) with halted } := by
  rw [polled]
  split
  · exact ⟨(e.machine.editKeys (script k)).halted, machine_editKeys e (script k)⟩
  · exact ⟨true, congrArg Machine.halt (machine_editKeys e (script k))⟩

theorem buzzing_polled (e : Emulator) (k : Nat) :
    (e.polled script stop k).buzzing = e.buzzing := by
  rw [polled, editKeys_eq]
  split <;> rfl

/-! ## The passes make up the run -/

theorem turnAt_of_lt (e : Emulator) {k : Nat} (early : k < stop) :
    e.turnAt script now stop k =
      ((e.atPoll script now stop k).editKeys (script k)).turn (now (k + 1)) := by
  rw [turnAt, polled, if_pos early]

theorem turnAt_stop (e : Emulator) :
    e.turnAt script now stop stop =
      ((e.atPoll script now stop stop).editKeys (script stop)).interrupt.turn (now (stop + 1)) := by
  rw [turnAt, polled, if_neg (Nat.lt_irrefl stop)]

/-- The poll that stops is followed by the pass that ends the run. -/
theorem ending_turnAt_stop (e : Emulator) :
    (e.turnAt script now stop stop).ending = some (.ok .interrupt) := by
  rw [turnAt_stop, turn_of_interrupted (interrupted_interrupt _)]

/-- In the loop, a poll that goes on is followed by the pass behind it. -/
theorem runLoop_turnAt (e : Emulator) {k : Nat} (early : k < stop)
    (calls : List (Nat × DeviceCall)) :
    let t := e.turnAt script now stop k
    let later := calls ++ t.calls.map fun call => (k + 1, call)
    runLoop (.logging script now) (stop - k) k (e.atPoll script now stop k) calls =
      match t.ending with
      | some result => t.emulator.endRun (.logging script now) (k + 1) result later
      | none => runLoop (.logging script now) (stop - (k + 1)) (k + 1) t.emulator later := by
  have behind : stop - k = stop - (k + 1) + 1 := by omega
  have unfolded := runLoop_succ (.logging script now) (stop - (k + 1)) k
    (e.atPoll script now stop k) calls
  simp only [Devices.poll_logging, Devices.now_logging, Devices.observeAll_logging] at unfolded
  rw [turnAt_of_lt script now stop e early, behind]
  exact unfolded

/-- As long as no pass has ended it, a run is in its loop, with the emulator that
the next poll finds and the calls made so far. -/
theorem run_of_going (e : Emulator) {k : Nat} (early : k ≤ stop)
    (going : ∀ i < k, (e.turnAt script now stop i).ending = none) :
    e.run (.logging script now) stop [] =
      runLoop (.logging script now) (stop - k) k (e.atPoll script now stop k)
        (e.callsOf script now stop k) := by
  induction k with
  | zero => exact run_eq (.logging script now) e stop []
  | succ k ih =>
      have last := going k (Nat.lt_succ_self k)
      rw [ih (Nat.le_of_succ_le early) fun i earlier => going i (Nat.lt_succ_of_lt earlier),
        runLoop_turnAt script now stop e early, last]
      rfl

/-- A pass that ends the run is followed by nothing but the buzzer going off. -/
theorem run_of_ending (e : Emulator) {last : Nat} {result : Except Fault Signal}
    (early : last ≤ stop) (going : ∀ i < last, (e.turnAt script now stop i).ending = none)
    (ended : (e.turnAt script now stop last).ending = some result) :
    e.run (.logging script now) stop [] =
      (e.turnAt script now stop last).emulator.endRun (.logging script now) (last + 1) result
        (e.callsOf script now stop (last + 1)) := by
  rw [run_of_going script now stop e early going]
  rcases Nat.lt_or_eq_of_le early with earlier | rfl
  · rw [runLoop_turnAt script now stop e earlier, ended]
    rfl
  · have interrupted := ending_turnAt_stop script now last e
    obtain rfl : .ok .interrupt = result := Option.some.inj (interrupted.symm.trans ended)
    rw [Nat.sub_self, (runLoop_zero (.logging script now) last _ _ (now (last + 1))).2, callsOf,
      turnAt_stop]
    simp only [Devices.poll_logging, Devices.observeAll_logging]

/-- What a run has made of its passes when it ends behind poll number `last`. -/
structure EndsAt (e : Emulator) (done : RunEnd (List (Nat × DeviceCall))) (last : Nat) : Prop where
  le_stop : last ≤ stop
  polls : done.polls = last + 1
  going : ∀ k < last, (e.turnAt script now stop k).ending = none
  ending : (e.turnAt script now stop last).ending = some done.result
  emulator : done.emulator = { (e.turnAt script now stop last).emulator with buzzing := false }
  record : done.record =
    e.callsOf script now stop (last + 1) ++
      if (e.turnAt script now stop last).emulator.buzzing then [(last + 1, .buzz false)] else []

/-- Some pass is the first to end the run, at the latest the one behind the poll
that stops. -/
theorem exists_endsAt (e : Emulator) :
    ∃ last, EndsAt script now stop e (Id.run (e.run (.logging script now) stop [])) last := by
  have at_stop : (e.turnAt script now stop stop).ending.isSome = true := by
    rw [ending_turnAt_stop]
    rfl
  have ends : ∃ k, (e.turnAt script now stop k).ending.isSome = true := ⟨stop, at_stop⟩
  let last := Nat.find ends
  have early : last ≤ stop := Nat.find_min' ends at_stop
  have going : ∀ k < last, (e.turnAt script now stop k).ending = none := by
    intro k earlier
    exact Option.not_isSome_iff_eq_none.mp (Nat.find_min ends earlier)
  obtain ⟨result, ended⟩ := Option.isSome_iff_exists.mp (Nat.find_spec ends)
  refine ⟨last, ?_⟩
  rw [run_of_ending script now stop e early going ended, endRun]
  split
  · next on =>
      refine ⟨early, rfl, going, ended, rfl, ?_⟩
      rw [if_pos on]
      rfl
  · next off =>
      have same : (e.turnAt script now stop last).emulator.buzzing = false :=
        Bool.eq_false_iff.mpr off
      refine ⟨early, rfl, going, ended, ?_, ?_⟩
      · rw [← same]
        rfl
      · rw [if_neg off, List.append_nil]
        rfl

/-- What holds where a run starts and is kept by every pass of it holds at every poll. -/
theorem atPoll_induction {motive : Emulator → Prop} {e : Emulator}
    (first : motive (e.restartClocks (now 0)))
    (keep : ∀ e k, motive e → motive ((e.polled script stop k).turn (now (k + 1))).emulator)
    (k : Nat) : motive (e.atPoll script now stop k) := by
  induction k with
  | zero => exact first
  | succ k ih => exact keep _ k ih

/-- What is kept by new cycles of the clocks, by every pass and by the buzzer going
off is kept by a run. -/
theorem run_induction {motive : Emulator → Prop} {e : Emulator}
    (restart : ∀ e now, motive e → motive (e.restartClocks now))
    (keep : ∀ e k, motive e → motive ((e.polled script stop k).turn (now (k + 1))).emulator)
    (quiet : ∀ e, motive e → motive { e with buzzing := false }) (start : motive e) :
    motive (Id.run (e.run (.logging script now) stop [])).emulator := by
  obtain ⟨last, ends⟩ := exists_endsAt script now stop e
  rw [ends.emulator]
  apply quiet
  exact atPoll_induction script now stop (restart e (now 0) start) keep (last + 1)

/-! ## The log of a run at a poll -/

variable {script now stop} {done : RunEnd (List (Nat × DeviceCall))} {last k : Nat}

theorem le_of_mem_callsOf {call : Nat × DeviceCall} (made : call ∈ e.callsOf script now stop k) :
    call.1 ≤ k := by
  induction k with
  | zero => cases made
  | succ k ih =>
      rcases List.mem_append.mp made with earlier | here
      · exact Nat.le_succ_of_le (ih earlier)
      · obtain ⟨told, -, rfl⟩ := List.mem_map.mp here
        exact Nat.le_refl (k + 1)

theorem callsBefore_append (k : Nat) (earlier later : List (Nat × DeviceCall)) :
    callsBefore k (earlier ++ later) = callsBefore k earlier ++ callsBefore k later :=
  List.filter_append earlier later

theorem callsBefore_of_later {calls : List (Nat × DeviceCall)}
    (later : ∀ call ∈ calls, k < call.1) : callsBefore k calls = [] := by
  apply List.filter_eq_nil_iff.mpr
  intro call made
  simpa using later call made

/-- The calls made before a poll are those of the passes before it, however the
run goes on. -/
theorem callsBefore_callsOf {j : Nat} (earlier : k ≤ j) :
    callsBefore k (e.callsOf script now stop j) = e.callsOf script now stop k := by
  induction j, earlier using Nat.le_induction with
  | base =>
      apply List.filter_eq_self.mpr
      intro call made
      exact decide_eq_true (le_of_mem_callsOf made)
  | succ j earlier ih =>
      have rest : ∀ call ∈ (e.turnAt script now stop j).calls.map fun call => (j + 1, call),
          k < call.1 := by
        intro call made
        obtain ⟨told, -, rfl⟩ := List.mem_map.mp made
        exact Nat.lt_succ_of_le earlier
      rw [callsOf, callsBefore_append, ih, callsBefore_of_later rest, List.append_nil]

theorem EndsAt.callsBefore_record (ends : EndsAt script now stop e done last) (made : k ≤ last) :
    callsBefore k done.record = e.callsOf script now stop k := by
  have rest : ∀ call ∈ (if (e.turnAt script now stop last).emulator.buzzing
      then [(last + 1, DeviceCall.buzz false)] else []), k < call.1 := by
    intro call told
    split at told
    · obtain rfl := List.mem_singleton.mp told
      exact Nat.lt_succ_of_le made
    · cases told
  rw [ends.record, callsBefore_append, callsBefore_callsOf (Nat.le_succ_of_le made),
    callsBefore_of_later rest, List.append_nil]

/-- At each poll that it comes to, a run is in its loop with the emulator and the
calls that this module gives for the poll. -/
theorem run_at_poll (e : Emulator) (script : Nat → List KeyEdit) (now : Nat → Readings)
    (stop : Nat) :
    let done := Id.run (e.run (.logging script now) stop [])
    ∀ k < done.polls,
      e.run (.logging script now) stop [] =
        runLoop (.logging script now) (stop - k) k (e.atPoll script now stop k)
          (callsBefore k done.record) := by
  intro done k made
  obtain ⟨last, ends⟩ := exists_endsAt script now stop e
  have early : k ≤ last := by
    rw [ends.polls] at made
    exact Nat.le_of_lt_succ made
  rw [ends.callsBefore_record early]
  apply run_of_going script now stop e (Nat.le_trans early ends.le_stop)
  intro i earlier
  exact ends.going i (Nat.lt_of_lt_of_le earlier early)

end AtPoll

/-! ## What every part of the work keeps -/

/-- A refused load is no event in the life of an emulator. -/
theorem load_of_error {program : List UInt8} {fault : Fault}
    (refused : (e.load program now).1 = .error fault) : (e.load program now).2 = e := by
  cases loaded : e.machine.load program with
  | mk result machine =>
      rw [load, loaded] at refused ⊢
      cases result with
      | error cause =>
          have same := Machine.load_of_error (congrArg Prod.fst loaded)
          rw [loaded] at same
          obtain rfl : machine = e.machine := same
          rfl
      | ok => cases refused

/-- The property is kept by all that requests are served with, but for the loads
that are accepted. -/
structure KeptByParts (motive : Emulator → Prop) : Prop where
  step : ∀ e now, motive e → motive (e.step now).2
  editKey : ∀ e edit, motive e → motive (e.editKey edit)
  interrupt : ∀ e, motive e → motive e.interrupt
  restartClocks : ∀ e now, motive e → motive (e.restartClocks now)
  buzzing : ∀ e on, motive e → motive { e with buzzing := on }

variable {motive : Emulator → Prop}

theorem KeptByParts.editKeys (kept : KeptByParts motive) (edits : List KeyEdit)
    (start : motive e) : motive (e.editKeys edits) := by
  rw [Emulator.editKeys]
  induction edits generalizing e with
  | nil => exact start
  | cons edit rest ih => exact ih (kept.editKey e edit start)

theorem KeptByParts.polled (kept : KeptByParts motive) (script : Nat → List KeyEdit)
    (stop k : Nat) (start : motive e) : motive (e.polled script stop k) := by
  rw [Emulator.polled]
  split
  · exact kept.editKeys (script k) start
  · exact kept.interrupt _ (kept.editKeys (script k) start)

theorem KeptByParts.followSound (kept : KeptByParts motive) (start : motive e) :
    motive e.followSound.1 := by
  rw [fst_followSound]
  exact kept.buzzing e _ start

theorem KeptByParts.turn (kept : KeptByParts motive) (now : Readings) (start : motive e) :
    motive (e.turn now).emulator := by
  have stepped := kept.step e now start
  rcases e.turn_cases now with ⟨fault, next, made, turned⟩ | ⟨-, turned⟩ |
    ⟨signal, next, -, made, turned⟩
  · rw [made] at stepped
    rw [turned]
    exact stepped
  · rw [turned]
    exact kept.followSound start
  · rw [made] at stepped
    rw [turned]
    exact kept.followSound stepped

theorem KeptByParts.serve (kept : KeptByParts motive) {now : Nat → Readings} {request : Request}
    (refused : (e.serve now request).1 ≠ .loaded (.ok ())) (start : motive e) :
    motive (e.serve now request).2 := by
  cases request with
  | load program =>
      show motive (e.load program (now 0)).2
      cases answered : (e.load program (now 0)).1 with
      | error fault =>
          rw [load_of_error answered]
          exact start
      | ok => exact absurd (congrArg Answer.loaded answered) refused
  | step => exact kept.step e (now 0) start
  | runSteps count =>
      exact stepsFrom_induction kept.step now 1 count (kept.restartClocks e (now 0) start)
  | run script left =>
      exact run_induction script now left kept.restartClocks
        (fun e k here => kept.turn (now (k + 1)) (kept.polled script left k here))
        (fun e => kept.buzzing e false) start
  | setKey key down => exact kept.editKey e (.set key down) start
  | releaseKeys => exact kept.editKey e .releaseAll start
  | interrupt => exact kept.interrupt e start

/-- What every part of the work keeps holds as long as no load is accepted. -/
theorem KeptByParts.session (kept : KeptByParts motive) (clock : Nat → Nat → Readings)
    {requests : List Request}
    (refused : ∀ answer ∈ (e.session clock requests).1, answer ≠ .loaded (.ok ()))
    (start : motive e) : motive (e.session clock requests).2 := by
  induction requests generalizing e clock with
  | nil => exact start
  | cons request rest ih =>
      obtain ⟨first, others⟩ := List.forall_mem_cons.mp refused
      exact ih (fun k => clock (k + 1)) others (kept.serve first start)

end Emulator

end ChipEight
