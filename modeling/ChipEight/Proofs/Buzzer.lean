/-
# The buzzer goes on and off in turn

The emulator remembers whether the buzzer is on and calls the devices only when
the sound timer says otherwise. What a run makes of the buzzer is therefore on,
off, on, off and so on, and it ends with off, since the end of a run, whatever
brought it about, switches off what is still on. Between runs the buzzer is off.
While a run goes on, the buzzer is where the sound timer wants it at every poll
but the first, which no step comes before.
-/

import ChipEight.Proofs.Passes

namespace ChipEight

/-- What a call switches the buzzer to, if it is a call to the buzzer. -/
def DeviceCall.switch? : DeviceCall → Option Bool
  | .buzz on => some on
  | .draw _ => none

/-- What the buzzer is switched to in a log, in order. -/
def switched (log : List (Nat × DeviceCall)) : List Bool :=
  log.filterMap fun call => call.2.switch?

/-- On and off in turn, from on: a number of times both, and at the end on once
more if the buzzer is left on. -/
def Alternates (switches : List Bool) (on : Bool) : Prop :=
  ∃ times, switches = (List.replicate times [true, false]).flatten ++ if on then [true] else []

namespace Alternates

variable {switches : List Bool} {on : Bool}

theorem nil : Alternates [] false :=
  ⟨0, rfl⟩

/-- A switch to the other side goes on in turn. -/
theorem concat_not (alternates : Alternates switches on) :
    Alternates (switches ++ [!on]) (!on) := by
  obtain ⟨times, rfl⟩ := alternates
  cases on with
  | false =>
      refine ⟨times, ?_⟩
      simp
  | true =>
      refine ⟨times + 1, ?_⟩
      rw [List.replicate_succ', List.flatten_append, List.flatten_singleton]
      simp

/-- The last switch tells where the buzzer is, which is off without any switch. -/
theorem getLast?_getD (alternates : Alternates switches on) :
    switches.getLast?.getD false = on := by
  obtain ⟨times, rfl⟩ := alternates
  cases on with
  | true =>
      rw [if_pos rfl, List.getLast?_concat]
      rfl
  | false =>
      rw [if_neg Bool.false_ne_true, List.append_nil]
      cases times with
      | zero => rfl
      | succ times =>
          rw [List.replicate_succ', List.flatten_append, List.flatten_singleton,
            List.getLast?_append]
          rfl

end Alternates

theorem switched_append (earlier later : List (Nat × DeviceCall)) :
    switched (earlier ++ later) = switched earlier ++ switched later :=
  List.filterMap_append

theorem switched_numbered (polls : Nat) (calls : List DeviceCall) :
    switched (calls.map fun call => (polls, call)) = calls.filterMap DeviceCall.switch? := by
  rw [switched, List.filterMap_map]
  rfl

theorem Timers.isSounding_eq (t : Timers) : t.isSounding = decide (0 < t.sound.toNat) := by
  have silent : t.sound = 0 ↔ t.sound.toNat = 0 := UInt8.toNat_inj.symm
  rw [Timers.isSounding, Bool.eq_iff_iff, bne_iff_ne, decide_eq_true_iff, Nat.pos_iff_ne_zero]
  exact not_congr silent

namespace Emulator

/-! ## One pass -/

theorem buzzing_step (e : Emulator) (now : Readings) : (e.step now).2.buzzing = e.buzzing := by
  rw [step]
  split <;> rfl

/-- Following the sound timer goes on in turn, and puts the buzzer where the sound
timer wants it. -/
theorem alternates_followSound {e : Emulator} {switches : List Bool}
    (alternates : Alternates switches e.buzzing) :
    Alternates (switches ++ e.followSound.2.filterMap DeviceCall.switch?)
      e.followSound.1.buzzing := by
  rw [followSound]
  split
  · rw [List.filterMap_nil, List.append_nil]
    exact alternates
  · next change =>
      have other : e.machine.timers.isSounding = !e.buzzing := Bool.eq_not_of_ne change
      simp only [other]
      exact alternates.concat_not

theorem alternates_turn {e : Emulator} {switches : List Bool}
    (alternates : Alternates switches e.buzzing) (now : Readings) :
    Alternates (switches ++ (e.turn now).calls.filterMap DeviceCall.switch?)
      (e.turn now).emulator.buzzing := by
  rcases e.turn_cases now with ⟨fault, next, made, turned⟩ | ⟨-, turned⟩ |
    ⟨signal, next, -, made, turned⟩
  · have same : next.buzzing = e.buzzing := by
      rw [← buzzing_step e now, made]
    rw [turned, List.filterMap_nil, List.append_nil, same]
    exact alternates
  · rw [turned]
    exact alternates_followSound alternates
  · have same : e.buzzing = next.buzzing := by
      rw [← buzzing_step e now, made]
    have shows : List.filterMap DeviceCall.switch?
        (if signal = .draw then [.draw next.machine.display] else []) = [] := by
      split <;> rfl
    rw [turned, List.filterMap_append, shows, List.append_nil]
    exact alternates_followSound (same ▸ alternates)

/-- A pass that goes on leaves the buzzer where the sound timer wants it. -/
theorem buzzing_turn_of_going {e : Emulator} {now : Readings} (going : (e.turn now).ending = none) :
    (e.turn now).emulator.buzzing = (e.turn now).emulator.machine.timers.isSounding := by
  rcases e.turn_cases now with ⟨fault, next, -, turned⟩ | ⟨-, turned⟩ | ⟨signal, next, -, -, turned⟩
  · rw [turned] at going
    cases going
  · rw [turned] at going
    cases going
  · rw [turned, fst_followSound]

/-! ## Runs and what comes between them -/

section Run

variable (script : Nat → List KeyEdit) (now : Nat → Readings) (stop : Nat)

theorem alternates_callsOf {e : Emulator} (off : e.buzzing = false) (k : Nat) :
    Alternates (switched (e.callsOf script now stop k)) (e.atPoll script now stop k).buzzing := by
  induction k with
  | zero =>
      have start : (e.atPoll script now stop 0).buzzing = false := off
      rw [start]
      exact .nil
  | succ k ih =>
      rw [← buzzing_polled script stop (e.atPoll script now stop k) k] at ih
      rw [callsOf, switched_append, switched_numbered, atPoll_succ]
      exact alternates_turn ih (now (k + 1))

/-- The end of a run leaves the buzzer off. -/
theorem alternates_record {e : Emulator} {done : RunEnd (List (Nat × DeviceCall))} {last : Nat}
    (off : e.buzzing = false) (ends : EndsAt script now stop e done last) :
    Alternates (switched done.record) false := by
  have whole := alternates_callsOf script now stop off (last + 1)
  rw [atPoll_succ] at whole
  rw [ends.record, switched_append]
  split
  · next on =>
      rw [on] at whole
      exact whole.concat_not
  · next quiet =>
      rw [Bool.eq_false_iff.mpr quiet] at whole
      rw [switched, switched, List.filterMap_nil, List.append_nil]
      exact whole

end Run

/-- Whatever an emulator is asked while the buzzer is off, it is off afterwards. -/
theorem buzzing_serve {e : Emulator} (off : e.buzzing = false) (now : Nat → Readings)
    (request : Request) : (e.serve now request).2.buzzing = false := by
  cases request with
  | load program =>
      show (e.load program (now 0)).2.buzzing = false
      rw [load]
      split
      · exact off
      · rfl
  | step => exact (buzzing_step e (now 0)).trans off
  | runSteps count =>
      have kept (e : Emulator) (reading : Readings) (off : e.buzzing = false) :
          (e.step reading).2.buzzing = false := (buzzing_step e reading).trans off
      exact stepsFrom_induction (motive := fun e => e.buzzing = false) kept now 1 count off
  | run script left =>
      obtain ⟨last, ends⟩ := exists_endsAt script now left e
      exact congrArg Emulator.buzzing ends.emulator
  | setKey key down => exact off
  | releaseKeys => exact off
  | interrupt => exact off

/-- The buzzer goes on and off in turn.

After any requests to a new emulator the buzzer is off. A run that follows them,
with whatever program, keys and readings of time, switches it on and off in turn,
as often off as on, and leaves it off however the run ends. At every poll that the
run comes to, the first one apart, the last switch of this run says whether the
sound timer is above zero, where no switch so far says that it is not. -/
theorem buzzer_goes_on_and_off_in_turn (settings : Settings) (entropy : ChaCha.Key)
    (start : Readings) (clock : Nat → Nat → Readings) (requests : List Request)
    (script : Nat → List KeyEdit) (now : Nat → Readings) (stop : Nat) :
    let e := ((ofSettings settings entropy start).session clock requests).2
    let devices := Devices.logging script now
    let done := Id.run (e.run devices stop [])
    e.buzzing = false ∧
      (∃ times, switched done.record = (List.replicate times [true, false]).flatten) ∧
      done.emulator.buzzing = false ∧
      ∀ k < done.polls,
        e.run devices stop [] =
            runLoop devices (stop - k) k (e.atPoll script now stop k)
              (callsBefore k done.record) ∧
          (0 < k → (switched (callsBefore k done.record)).getLast?.getD false =
            decide (0 < (e.atPoll script now stop k).machine.timers.sound.toNat)) := by
  intro e devices done
  have off : e.buzzing = false :=
    session_induction (motive := fun e => e.buzzing = false)
      (fun e now request off => buzzing_serve off now request) clock requests rfl
  obtain ⟨last, ends⟩ := exists_endsAt script now stop e
  refine ⟨off, ?_, congrArg Emulator.buzzing ends.emulator, ?_⟩
  · obtain ⟨times, whole⟩ := alternates_record script now stop off ends
    exact ⟨times, whole.trans (List.append_nil _)⟩
  · intro k made
    refine ⟨run_at_poll e script now stop k made, ?_⟩
    intro later
    rw [ends.polls] at made
    obtain ⟨k, rfl⟩ := Nat.exists_eq_succ_of_ne_zero (Nat.ne_of_gt later)
    have follows : (e.atPoll script now stop (k + 1)).buzzing =
        (e.atPoll script now stop (k + 1)).machine.timers.isSounding :=
      buzzing_turn_of_going (ends.going k (Nat.lt_of_succ_lt_succ made))
    rw [ends.callsBefore_record (Nat.le_of_lt_succ made),
      (alternates_callsOf script now stop off (k + 1)).getLast?_getD, follows,
      Timers.isSounding_eq]

/-- The sound timer is started behind the second poll, and the third one stops the
run: the buzzer was on at this poll and is off at the end. -/
theorem buzzer_goes_on_and_off_in_turn_stopped :
    let program : List UInt8 := [0x60, 0x02, 0xF0, 0x18, 0x12, 0x04]
    let new := ofSettings ⟨none, 0, some 0⟩ (.replicate 8 0) 0
    let e := (new.session (fun _ => .atOnce) [.load program]).2
    let script : Nat → List KeyEdit := fun _ => []
    let now : Nat → Readings := Readings.atOnce
    let done := Id.run (e.run (.logging script now) 2 [])
    e.buzzing = false ∧ done.polls = 3 ∧ (switched done.record).length = 2 ∧
      (∃ times, switched done.record = (List.replicate times [true, false]).flatten) ∧
      (switched (callsBefore 2 done.record)).getLast?.getD false = true ∧
      done.emulator.buzzing = false := by
  intro program new e script now done
  obtain ⟨polls, twice⟩ : done.polls = 3 ∧ (switched done.record).length = 2 := by
    decide +kernel
  obtain ⟨before, inTurn, behind, atPoll⟩ :=
    buzzer_goes_on_and_off_in_turn ⟨none, 0, some 0⟩ (.replicate 8 0) 0 (fun _ => .atOnce)
      [.load program] script now 2
  have sounding : (switched (callsBefore 2 done.record)).getLast?.getD false = true := by
    rw [(atPoll 2 (by rw [polls]; decide)).2 (by decide)]
    decide +kernel
  exact ⟨before, polls, twice, inTurn, sounding, behind⟩

end Emulator

end ChipEight
