/-
# What stops an emulator and what starts it again

There are two ways to stand still. A machine is halted by a fault or from
outside, and then every step fails; an emulator is interrupted, by a request or
by devices that stop a run, and then every step answers that it is. Both last
until a program is accepted, the interrupt implies the halt, and a run always
leaves one of them behind. Which requests and answers there have been since the
last accepted program decides whether an emulator is interrupted.
-/

import ChipEight.Proofs.Passes

namespace ChipEight

/-- Whether a request that was answered in this way told the emulator to stop: an
interrupt does, and a run whose last poll was the one at which its devices stop. -/
def TellsToStop : Request → Answer → Prop
  | .interrupt, _ => True
  | .run _ left, .ran _ polls _ => polls = left + 1
  | _, _ => False

/-- The emulator was told to stop and has not accepted a program since. -/
def StoppedSinceLoad (log : List (Request × Answer)) : Prop :=
  ∃ earlier request answer later,
    log = earlier ++ (request, answer) :: later ∧ TellsToStop request answer ∧
      ∀ entry ∈ later, entry.2 ≠ .loaded (.ok ())

theorem not_stoppedSinceLoad_nil : ¬ StoppedSinceLoad [] := by
  rintro ⟨earlier, request, answer, later, split, -⟩
  exact List.append_ne_nil_of_right_ne_nil _ (List.cons_ne_nil _ _) split.symm

/-- The first request of a log is the stop that lasts, or a later one is. -/
theorem stoppedSinceLoad_cons {request : Request} {answer : Answer}
    {rest : List (Request × Answer)} :
    StoppedSinceLoad ((request, answer) :: rest) ↔
      (TellsToStop request answer ∧ ∀ entry ∈ rest, entry.2 ≠ .loaded (.ok ())) ∨
        StoppedSinceLoad rest := by
  constructor
  · rintro ⟨earlier, stop, told, later, split, stops, kept⟩
    cases earlier with
    | nil =>
        cases split
        exact .inl ⟨stops, kept⟩
    | cons first earlier =>
        cases split
        exact .inr ⟨earlier, stop, told, later, rfl, stops, kept⟩
  · rintro (⟨stops, kept⟩ | ⟨earlier, stop, told, later, rfl, stops, kept⟩)
    · exact ⟨[], request, answer, rest, rfl, stops, kept⟩
    · exact ⟨(request, answer) :: earlier, stop, told, later, rfl, stops, kept⟩

namespace Machine

variable {m next later : Machine}

/-- A machine is as another one was, the keys and the timers apart. -/
def StandsStill (m next : Machine) : Prop :=
  next = { m with keypad := next.keypad, timers := next.timers }

theorem StandsStill.refl (m : Machine) : m.StandsStill m := rfl

theorem StandsStill.trans (first : m.StandsStill next) (second : next.StandsStill later) :
    m.StandsStill later := by
  rw [StandsStill, second, first]

theorem StandsStill.halted_eq (still : m.StandsStill next) : next.halted = m.halted := by
  rw [still]

theorem standsStill_tick (m : Machine) (count : Nat) : m.StandsStill (m.tick count) := by
  rw [StandsStill, tick_eq]

end Machine

namespace Emulator

variable {e next : Emulator}

/-! ## The interrupt -/

theorem interrupted_turn (e : Emulator) (now : Readings) :
    (e.turn now).emulator.interrupted = e.interrupted := by
  rcases e.turn_cases now with ⟨fault, next, made, turned⟩ | ⟨-, turned⟩ |
    ⟨signal, next, -, made, turned⟩
  · rw [turned, ← interrupted_step e now, made]
  · rw [turned, fst_followSound]
  · rw [turned, fst_followSound, ← interrupted_step e now, made]

section Run

variable (script : Nat → List KeyEdit) (now : Nat → Readings) (stop : Nat)

theorem interrupted_atPoll (e : Emulator) {k : Nat} (early : k ≤ stop) :
    (e.atPoll script now stop k).interrupted = e.interrupted := by
  induction k with
  | zero => rfl
  | succ k ih =>
      rw [atPoll_succ, turnAt_of_lt script now stop e early, interrupted_turn,
        interrupted_editKeys, ih (Nat.le_of_succ_le early)]

/-- A run leaves an emulator interrupted exactly if it was before or if its last
poll was the one that stops. -/
theorem interrupted_run (e : Emulator) :
    let done := Id.run (e.run (.logging script now) stop [])
    done.emulator.interrupted = true ↔ done.polls = stop + 1 ∨ e.interrupted = true := by
  intro done
  obtain ⟨last, ends⟩ := exists_endsAt script now stop e
  have polls : done.polls = last + 1 := ends.polls
  have behind : done.emulator.interrupted = (e.turnAt script now stop last).emulator.interrupted :=
    (congrArg Emulator.interrupted ends.emulator).trans rfl
  rw [behind, polls]
  rcases Nat.lt_or_eq_of_le ends.le_stop with earlier | rfl
  · rw [turnAt_of_lt script now stop e earlier, interrupted_turn, interrupted_editKeys,
      interrupted_atPoll script now stop e ends.le_stop]
    have other : last + 1 ≠ stop + 1 := Nat.ne_of_lt (Nat.succ_lt_succ earlier)
    exact (or_iff_right other).symm
  · rw [turnAt_stop, interrupted_turn]
    exact iff_of_true rfl (.inl rfl)

end Run

/-- An accepted load ends the interrupt. -/
theorem interrupted_load_of_ok {program : List UInt8} {now : Readings}
    (accepted : (e.load program now).1 = .ok ()) :
    (e.load program now).2.interrupted = false := by
  rw [load] at accepted ⊢
  split at accepted
  · cases accepted
  · rfl

/-- What one request makes of the interrupt. -/
theorem interrupted_serve_iff {now : Nat → Readings} {request : Request} :
    (e.serve now request).2.interrupted = true ↔
      TellsToStop request (e.serve now request).1 ∨
        (e.interrupted = true ∧ (e.serve now request).1 ≠ .loaded (.ok ())) := by
  -- a request that is no load, does not tell to stop and leaves the interrupt as it is
  have plain (next : Emulator) (same : next.interrupted = e.interrupted) (answer : Answer)
      (noLoad : answer ≠ .loaded (.ok ())) :
      next.interrupted = true ↔
        False ∨ (e.interrupted = true ∧ answer ≠ .loaded (.ok ())) := by
    rw [same, false_or, and_iff_left noLoad]
  cases request with
  | load program =>
      show (e.load program (now 0)).2.interrupted = true ↔
        False ∨ (e.interrupted = true ∧ Answer.loaded (e.load program (now 0)).1 ≠ .loaded (.ok ()))
      cases answered : (e.load program (now 0)).1 with
      | error fault =>
          rw [load_of_error answered]
          exact plain e rfl _ nofun
      | ok =>
          simp [interrupted_load_of_ok answered]
  | step => exact plain _ (interrupted_step e (now 0)) _ nofun
  | runSteps count =>
      have kept (later : Emulator) (reading : Readings) (same : later.interrupted = e.interrupted) :
          (later.step reading).2.interrupted = e.interrupted :=
        (interrupted_step later reading).trans same
      have same : (e.runSteps now count).2.interrupted = e.interrupted :=
        stepsFrom_induction (motive := fun later => later.interrupted = e.interrupted)
          kept now 1 count rfl
      exact plain _ same (.stepped (e.runSteps now count).1) nofun
  | run script left =>
      refine (interrupted_run script now left e).trans ?_
      exact or_congr_right (and_iff_left nofun).symm
  | setKey key down => exact plain _ rfl _ nofun
  | releaseKeys => exact plain _ rfl _ nofun
  | interrupt => exact iff_of_true rfl (.inl trivial)

/-- An emulator is interrupted exactly if it was told to stop since the last
accepted load, or if it was so before and has not accepted any. -/
theorem interrupted_session_iff (e : Emulator) (clock : Nat → Nat → Readings)
    (requests : List Request) :
    (e.session clock requests).2.interrupted = true ↔
      StoppedSinceLoad (requests.zip (e.session clock requests).1) ∨
        (e.interrupted = true ∧
          ∀ entry ∈ requests.zip (e.session clock requests).1, entry.2 ≠ .loaded (.ok ())) := by
  induction requests generalizing e clock with
  | nil => simp [session, not_stoppedSinceLoad_nil]
  | cons request rest ih =>
      let served := e.serve (clock 0) request
      let answers := (served.2.session (fun k => clock (k + 1)) rest).1
      show (served.2.session (fun k => clock (k + 1)) rest).2.interrupted = true ↔
        StoppedSinceLoad ((request, served.1) :: rest.zip answers) ∨
          (e.interrupted = true ∧
            ∀ entry ∈ (request, served.1) :: rest.zip answers, entry.2 ≠ .loaded (.ok ()))
      rw [ih, interrupted_serve_iff, stoppedSinceLoad_cons, List.forall_mem_cons, or_and_right,
        and_assoc, or_left_comm, or_assoc]

/-! ## The halt -/

/-- An interrupted emulator has a halted machine. -/
def HaltsWithInterrupt (e : Emulator) : Prop :=
  e.interrupted = true → e.machine.halted = true

theorem keptByParts_haltsWithInterrupt : KeptByParts HaltsWithInterrupt where
  step e now halts stopped := by
    rw [interrupted_step] at stopped
    rw [step_of_interrupted stopped]
    exact halts stopped
  editKey e edit halts := by
    cases edit <;> exact halts
  interrupt e _ _ := rfl
  restartClocks e now halts := halts
  buzzing e on halts := halts

theorem HaltsWithInterrupt.serve (halts : e.HaltsWithInterrupt) (now : Nat → Readings)
    (request : Request) : (e.serve now request).2.HaltsWithInterrupt := by
  by_cases accepted : (e.serve now request).1 = .loaded (.ok ())
  · intro stopped
    rcases interrupted_serve_iff.mp stopped with told | ⟨-, refused⟩
    · rw [accepted] at told
      cases request with
      | interrupt => cases accepted
      | _ => exact False.elim told
    · exact absurd accepted refused
  · exact keptByParts_haltsWithInterrupt.serve accepted halts

/-- A step that fails leaves the machine halted. -/
theorem halted_of_step_error {now : Readings} {fault : Fault}
    (failed : e.step now = (.error fault, next)) : next.machine.halted = true := by
  cases stopped : e.interrupted with
  | true =>
      rw [step_of_interrupted stopped] at failed
      cases failed
  | false =>
      obtain ⟨cycles, pace, timerClock, -, same⟩ := step_of_running stopped now
      rw [same] at failed
      cases made : (e.machine.tick cycles).step with
      | mk outcome machine =>
          rw [made] at failed
          cases failed
          obtain ⟨rfl, -⟩ := Machine.step_eq_error_iff.mp made
          rfl

/-- The pass that ends a run leaves the machine halted. -/
theorem halted_of_ending {now : Readings} {result : Except Fault Signal}
    (halts : e.HaltsWithInterrupt) (ended : (e.turn now).ending = some result) :
    (e.turn now).emulator.machine.halted = true := by
  rcases e.turn_cases now with ⟨fault, next, made, turned⟩ | ⟨stopped, turned⟩ |
    ⟨signal, next, -, -, turned⟩
  · rw [turned]
    exact halted_of_step_error made
  · rw [turned, fst_followSound]
    exact halts stopped
  · rw [turned] at ended
    cases ended

theorem halted_run (halts : e.HaltsWithInterrupt) (script : Nat → List KeyEdit)
    (now : Nat → Readings) (stop : Nat) :
    (Id.run (e.run (.logging script now) stop [])).emulator.machine.halted = true := by
  obtain ⟨last, ends⟩ := exists_endsAt script now stop e
  have parts := keptByParts_haltsWithInterrupt
  have here : (e.atPoll script now stop last).HaltsWithInterrupt :=
    atPoll_induction script now stop (motive := HaltsWithInterrupt) halts
      (fun e k halts => parts.turn (now (k + 1)) (parts.polled script stop k halts)) last
  rw [ends.emulator]
  exact halted_of_ending (parts.polled script stop last here) ends.ending

/-! ## A halted machine stands still -/

/-- The emulator has a machine that is as a halted one was, the keys and the
timers apart. -/
structure Keeps (e : Emulator) (m : Machine) : Prop where
  still : m.StandsStill e.machine
  stopped : e.machine.halted = true

variable {m : Machine}

theorem Keeps.change (keeps : e.Keeps m) (still : e.machine.StandsStill next.machine) :
    next.Keeps m :=
  ⟨keeps.still.trans still, still.halted_eq.trans keeps.stopped⟩

theorem Keeps.step (keeps : e.Keeps m) (now : Readings) : (e.step now).2.Keeps m := by
  cases stopped : e.interrupted with
  | true =>
      rw [step_of_interrupted stopped]
      exact keeps
  | false =>
      obtain ⟨cycles, pace, timerClock, -, same⟩ := step_of_running stopped now
      have halted : (e.machine.tick cycles).halted = true := by
        rw [Machine.halted_tick, keeps.stopped]
      rw [same, Machine.step_of_halted halted]
      exact keeps.change (Machine.standsStill_tick e.machine cycles)

theorem keptByParts_keeps (m : Machine) : KeptByParts (Keeps · m) where
  step _ now keeps := keeps.step now
  editKey e edit keeps := by
    cases edit <;> exact keeps.change rfl
  interrupt e keeps := by
    rw [Emulator.interrupt, Machine.halt_of_halted keeps.stopped]
    exact ⟨keeps.still, keeps.stopped⟩
  restartClocks _ _ keeps := ⟨keeps.still, keeps.stopped⟩
  buzzing _ _ keeps := ⟨keeps.still, keeps.stopped⟩

/-! ## The two together -/

/-- Stops last until a program is accepted.

After any requests to a new emulator: if it is interrupted, its machine is halted.
A step answers with the interrupt exactly if, since the last accepted load, there
was an interrupt or a run that its devices stopped, and such a step changes
nothing. A run, however it ends, leaves the machine halted. Once the machine is
halted, further requests without an accepted load change its keys and its timers
only. A load that is refused changes nothing. -/
theorem stops_last_until_a_load (settings : Settings) (entropy : ChaCha.Key) (start : Readings)
    (clock : Nat → Nat → Readings) (requests : List Request) :
    let emulator := ofSettings settings entropy start
    let answers := (emulator.session clock requests).1
    let e := (emulator.session clock requests).2
    (e.interrupted = true → e.machine.halted = true) ∧
      (∀ now,
        ((e.step now).1 = .ok .interrupt ↔ StoppedSinceLoad (requests.zip answers)) ∧
          ((e.step now).1 = .ok .interrupt → (e.step now).2 = e)) ∧
      (∀ script left now, (e.serve now (.run script left)).2.machine.halted = true) ∧
      (e.machine.halted = true →
        ∀ (clock' : Nat → Nat → Readings) (later : List Request),
          (∀ answer ∈ (e.session clock' later).1, answer ≠ .loaded (.ok ())) →
            e.machine.StandsStill (e.session clock' later).2.machine) ∧
      ∀ program now fault, (e.load program now).1 = .error fault → (e.load program now).2 = e := by
  intro emulator answers e
  have halts : e.HaltsWithInterrupt :=
    session_induction (motive := HaltsWithInterrupt)
      (fun e now request halts => halts.serve now request) clock requests nofun
  have interrupted : e.interrupted = true ↔ StoppedSinceLoad (requests.zip answers) := by
    rw [interrupted_session_iff]
    exact or_iff_left fun before => nomatch before.1
  refine ⟨halts, fun now => ⟨step_eq_interrupt_iff.trans interrupted, fun answered => ?_⟩,
    fun script left now => halted_run halts script now left, ?_, fun _ _ _ => load_of_error⟩
  · rw [step_of_interrupted (step_eq_interrupt_iff.mp answered)]
  · intro stopped clock' later refused
    have keeps : e.Keeps e.machine := ⟨.refl e.machine, stopped⟩
    exact ((keptByParts_keeps e.machine).session clock' refused keeps).still

/-- Devices stop a run at their second poll and a program that is too large is
refused: the emulator is still interrupted, and what comes next changes the keys
only. -/
theorem stops_last_until_a_load_refused :
    let emulator := ofSettings .usual (.replicate 8 0) 0
    let clock : Nat → Nat → Readings :=
      fun request reading => .atOnce (20000000 * (request + reading))
    let requests : List Request :=
      [.load [0x12, 0x00], .run (fun _ => []) 1, .load (List.replicate 3585 0)]
    let answers := (emulator.session clock requests).1
    let e := (emulator.session clock requests).2
    let later : List Request := [.setKey 3 true, .step, .runSteps 5]
    e.interrupted = true ∧ e.machine.halted = true ∧
      (e.step 0).2 = e ∧ StoppedSinceLoad (requests.zip answers) ∧
      e.machine.StandsStill (e.session clock later).2.machine ∧
      (e.session clock later).2.machine.keypad ≠ e.machine.keypad := by
  intro emulator clock requests answers e later
  obtain ⟨stopped, pressed⟩ : e.interrupted = true ∧
      (e.session clock later).2.machine.keypad ≠ e.machine.keypad := by
    decide +kernel
  obtain ⟨halts, answered, -, still, -⟩ :=
    stops_last_until_a_load .usual (.replicate 8 0) 0 clock requests
  have here : ((ofSettings .usual (.replicate 8 0) 0).session clock requests).2 = e := rfl
  have there : ((ofSettings .usual (.replicate 8 0) 0).session clock requests).1 = answers := rfl
  rw [here] at halts still
  rw [here, there] at answered
  have answer : (e.step 0).1 = .ok .interrupt := step_eq_interrupt_iff.mpr stopped
  have refused (e : Emulator) :
      ∀ answer ∈ (e.session clock later).1, answer ≠ .loaded (.ok ()) := by
    intro answer member
    rcases member with _ | ⟨_, _ | ⟨_, _ | ⟨_, ⟨⟩⟩⟩⟩ <;> nofun
  exact ⟨stopped, halts stopped, (answered 0).2 answer, (answered 0).1.mp answer,
    still (halts stopped) clock later (refused e), pressed⟩

end Emulator

end ChipEight
