/-
# Failed steps change nothing, and a halted machine stays halted

A step that fails leaves the machine as it found it and halts it. From then on
the outside can still press keys and let time pass, and that is all that shows:
every step fails in the same way and no other part of the machine ever moves,
until a load is accepted.
-/

import ChipEight.Proofs.History

namespace ChipEight

/-- The keypad after the key events of a history. -/
def Keypad.following (p : Keypad) : List Action → Keypad
  | [] => p
  | .setKey key down :: rest => (p.setKey key down).following rest
  | _ :: rest => p.following rest

/-- The timers after the ticks of a history. -/
def Timers.following (t : Timers) : List Action → Timers
  | [] => t
  | .tick :: rest => t.tick.following rest
  | _ :: rest => t.following rest

namespace Machine

variable {m : Machine}

theorem act_step_of_halted (stopped : m.halted = true) : m.act .step = m := by
  rw [act, step_of_halted stopped]

/-- No action but an accepted load makes a halted machine run again. -/
theorem halted_act (stopped : m.halted = true) {a : Action} (kept : m.Keeps a) :
    (m.act a).halted = true := by
  cases a with
  | load program => rw [act_of_refused_load kept, stopped]
  | step => rw [act_step_of_halted stopped, stopped]
  | setKey key down => exact stopped
  | tick => exact stopped
  | halt => rfl

theorem executed?_of_halted (stopped : m.halted = true) (a : Action) : m.executed? a = none := by
  cases a with
  | step => exact executed?_step_of_error (step_of_halted stopped)
  | _ => rfl

theorem executions_of_halted (stopped : m.halted = true) {history : List Action}
    (kept : m.Continues history) : m.executions history = [] := by
  induction history generalizing m with
  | nil => rfl
  | cons a rest ih =>
      rw [executions, executed?_of_halted stopped, ih (halted_act stopped kept.1) kept.2]
      rfl

theorem outcomes_of_halted (stopped : m.halted = true) {history : List Action}
    (kept : m.Continues history) : ∀ outcome ∈ m.outcomes history, outcome = .error .halted := by
  induction history generalizing m with
  | nil => nofun
  | cons a rest ih =>
      have later := ih (halted_act stopped kept.1) kept.2
      cases a with
      | step =>
          intro outcome member
          rcases List.mem_cons.mp member with rfl | member
          · rw [step_of_halted stopped]
          · exact later outcome member
      | _ => exact later

/-- The keys and the time that a halted machine still sees are all that a
history does to it. -/
theorem after_of_halted (stopped : m.halted = true) {history : List Action}
    (kept : m.Continues history) :
    m.after history =
      { m with
        keypad := m.keypad.following history
        timers := m.timers.following history } := by
  induction history generalizing m with
  | nil => rfl
  | cons a rest ih =>
      have later := ih (halted_act stopped kept.1) kept.2
      rw [after_cons, later]
      cases a with
      | load program => rw [act_of_refused_load kept.1]; rfl
      | step => rw [act_step_of_halted stopped]; rfl
      | setKey key down => rfl
      | tick => rfl
      | halt => rw [act, halt_of_halted stopped]; rfl

/-- A step that fails has changed nothing and only halts the machine. A halted
machine answers every step with the same fault and carries nothing out, and
until a load is accepted only key events and ticks leave a mark on it. -/
theorem failure_changes_nothing_and_halting_lasts (m : Machine) :
    (∀ fault next, m.step = (.error fault, next) →
      fault.IsOfStep ∧ next = { m with halted := true }) ∧
      (m.halted = true → ∀ history, m.Continues history →
        (∀ outcome ∈ m.outcomes history, outcome = .error .halted) ∧
          m.executions history = [] ∧
          m.after history =
            { m with
              keypad := m.keypad.following history
              timers := m.timers.following history }) := by
  constructor
  · intro fault next failed
    exact ⟨isOfStep_of_step failed, (step_eq_error_iff.mp failed).1⟩
  · intro stopped history kept
    exact ⟨outcomes_of_halted stopped kept, executions_of_halted stopped kept,
      after_of_halted stopped kept⟩

/-- A return with no call pending fails and changes nothing; a key pressed later
shows on the keypad, and further steps fail again and change nothing again. -/
theorem failure_changes_nothing_and_halting_lasts_underflow :
    let m := (powerOn 0).loaded [0x00, 0xEE]
    let stopped := { m with halted := true }
    let history : List Action := [.setKey 3 true, .step, .tick, .halt, .step]
    m.step = (.error .stackUnderflow, stopped) ∧ stopped.Continues history ∧
      (∀ outcome ∈ stopped.outcomes history, outcome = .error .halted) ∧
      stopped.after history =
        { stopped with keypad := m.keypad.setKey 3 true, timers := m.timers.tick } := by
  intro m stopped history
  have standing : m.instruction? = some .ret := by decide +kernel
  have failed : m.step = (.error .stackUnderflow, m.halt) := step_of_refusal rfl standing rfl
  obtain ⟨-, same⟩ := (failure_changes_nothing_and_halting_lasts m).1 _ _ failed
  rw [same] at failed
  have kept : stopped.Continues history := ⟨trivial, trivial, trivial, trivial, trivial, trivial⟩
  obtain ⟨outcomes, -, after⟩ :=
    (failure_changes_nothing_and_halting_lasts stopped).2 rfl history kept
  exact ⟨failed, kept, outcomes, after⟩

end Machine

end ChipEight
