/-
# Input that is not read

Two parts of a machine are driven from outside while a program runs: the timers
by the passing of time and the keypad by its user. A program learns of either
only by an instruction that reads it. To say so, the part is blanked: an
instruction that does not read it does the same on the blank machine, and
whether a step fails can be told from the blank machine in any case. So
histories that differ only in what drives the part make the same steps, as long
as nothing in them reads it.
-/

import ChipEight.Proofs.Blanking

namespace ChipEight

/-- The parts of a machine that are driven from outside. -/
inductive Input
  | timers
  | keys

namespace Input

/-- Whether an action drives this part. -/
def isDrivenBy : Input → Action → Bool
  | .timers, .tick => true
  | .keys, .setKey _ _ => true
  | _, _ => false

/-- Whether an instruction reads this part. -/
def isReadBy : Input → Instruction → Bool
  | .timers, .readDelay _ => true
  | .keys, .skip (.keyDown _) => true
  | .keys, .skip (.keyUp _) => true
  | .keys, .awaitKey _ => true
  | _, _ => false

/-- A machine with this part blank. -/
def blank : Input → Machine → Machine
  | .timers, m => { m with timers := .zero }
  | .keys, m => { m with keypad := .released }

/-- What an attempt shows with this part blank. -/
def hide (input : Input) (attempt : Attempt) : Attempt :=
  (attempt.1, input.blank attempt.2)

variable {input : Input} {m : Machine} {i : Instruction} {a : Action}

theorem isMet_blank {condition : Condition} (m : Machine)
    (unread : input.isReadBy (.skip condition) = false) :
    condition.isMet (input.blank m) = condition.isMet m := by
  cases input with
  | timers => cases condition <;> rfl
  | keys =>
      cases condition with
      | keyDown | keyUp => cases unread
      | _ => rfl

/-- An instruction does the same on the blank machine, unless it reads what is
blanked. -/
theorem hide_execute (m : Machine) (unread : input.isReadBy i = false) :
    input.hide (m.execute i) = input.hide ((input.blank m).execute i) := by
  cases i with
  | ret | call | draw | storeDecimal | storeRegisters | loadRegisters =>
      cases input <;> exact through_orFault rfl fun _ => rfl
  | skip condition =>
      rw [Machine.execute, Machine.execute, isMet_blank m unread]
      split
      · cases input <;> rfl
      · cases input <;> rfl
  | readDelay x =>
      cases input with
      | timers => cases unread
      | keys => rfl
  | awaitKey x =>
      cases input with
      | timers =>
          -- both wait, or both take the same key
          rw [Machine.execute, Machine.execute, Machine.takeKey, Machine.takeKey]
          dsimp only [blank]
          split <;> rfl
      | keys => cases unread
  | _ => cases input <;> rfl

/-! ## One action -/

/-- Neither part has a say in what is fetched and whether it can be carried out. -/
theorem blanks (input : Input) : Blanks input.blank input.isReadBy where
  idem m := by cases input <;> rfl
  diagnosis m := by cases input <;> rfl
  instruction? m := by cases input <;> rfl
  pc m := by cases input <;> rfl
  halted m := by cases input <;> rfl
  halt m := by cases input <;> rfl
  advance m := by cases input <;> rfl
  execute m _ unread := hide_execute m unread

/-- What an action carries out can be told from the blank machine. -/
theorem executed?_blank (m : Machine) (a : Action) :
    (input.blank m).executed? a = m.executed? a := by
  cases a with
  | step => exact input.blanks.executed?_step m
  | _ => rfl

/-- An action that drives the blanked part does nothing else. -/
theorem blank_act_of_driven (m : Machine) (driven : input.isDrivenBy a = true) :
    input.blank (m.act a) = input.blank m := by
  cases input with
  | timers =>
      cases a with
      | tick => rfl
      | _ => cases driven
  | keys =>
      cases a with
      | setKey => rfl
      | _ => cases driven

/-- Any other action goes the same way from the blank machine, unless it carries
out an instruction that reads what is blanked. -/
theorem blank_act (m : Machine) (other : input.isDrivenBy a = false)
    (unread : ∀ e, m.executed? a = some e → input.isReadBy e.instruction = false) :
    input.blank (m.act a) = input.blank ((input.blank m).act a) := by
  cases a with
  | step => exact congrArg Prod.snd (input.blanks.step m unread)
  | load program =>
      rw [Machine.act, Machine.act]
      rcases Nat.lt_or_ge Memory.programCapacity program.length with large | fits
      · rw [Machine.load_of_large large, Machine.load_of_large large]
        cases input <;> rfl
      · rw [Machine.load_of_fits fits, Machine.load_of_fits fits]
        cases input <;> rfl
  | setKey =>
      cases input with
      | timers => rfl
      | keys => cases other
  | tick =>
      cases input with
      | timers => cases other
      | keys => rfl
  | halt => cases input <;> rfl

end Input

namespace Machine

variable {m m' : Machine} {a : Action} {input : Input}

/-- How the step went, if an action is one, and the machine after it. -/
def stepped? (m : Machine) : Action → Option Attempt
  | .step => some m.step
  | _ => none

/-- How the steps of a history went, in order, each with the machine after it. -/
def steps (m : Machine) : List Action → List Attempt
  | [] => []
  | a :: rest => (m.stepped? a).toList ++ (m.act a).steps rest

/-! ## Histories that differ in what drives an input -/

/-- What drives an input is no step. -/
theorem stepped?_of_driven (driven : input.isDrivenBy a = true) :
    m.stepped? a = none ∧ m.executed? a = none := by
  cases a with
  | step => cases input <;> cases driven
  | _ => exact ⟨rfl, rfl⟩

/-- An action that drives nothing goes the same way on machines that agree
without the input, unless it reads the input on one of them. -/
theorem act_congr (same : input.blank m = input.blank m') (other : input.isDrivenBy a = false)
    (unread : ∀ e, m.executed? a = some e → input.isReadBy e.instruction = false) :
    (m.stepped? a).map input.hide = (m'.stepped? a).map input.hide ∧
      m.executed? a = m'.executed? a ∧ input.blank (m.act a) = input.blank (m'.act a) := by
  have executed : m.executed? a = m'.executed? a := by
    rw [← Input.executed?_blank m, same, Input.executed?_blank]
  have unread' : ∀ e, m'.executed? a = some e → input.isReadBy e.instruction = false :=
    executed ▸ unread
  refine ⟨?_, executed, ?_⟩
  · cases a with
    | step =>
        have hidden : input.hide m.step = input.hide m'.step :=
          input.blanks.step_congr same unread
        exact congrArg some hidden
    | _ => rfl
  · rw [Input.blank_act m other unread, same, ← Input.blank_act m' other unread']

/-- Actions that only drive an input can be left out in front. -/
theorem steps_append_of_driven {driving : List Action} (rest : List Action)
    (driven : ∀ a ∈ driving, input.isDrivenBy a = true) :
    m.steps (driving ++ rest) = (m.after driving).steps rest ∧
      m.executions (driving ++ rest) = (m.after driving).executions rest ∧
      input.blank (m.after driving) = input.blank m := by
  induction driving generalizing m with
  | nil => exact ⟨rfl, rfl, rfl⟩
  | cons a driving ih =>
      have first := driven a List.mem_cons_self
      obtain ⟨noStep, nothing⟩ := stepped?_of_driven first (m := m)
      obtain ⟨steps, executions, blank⟩ :=
        ih (m := m.act a) fun b later => driven b (List.mem_cons_of_mem a later)
      rw [List.cons_append, Machine.steps, Machine.executions, noStep, nothing]
      exact ⟨steps, executions, blank.trans (Input.blank_act_of_driven m first)⟩

/-- Two such histories make the same steps and leave the machines in agreement, by
induction on the first one. -/
theorem history_congr (same : input.blank m = input.blank m') {history history' : List Action}
    (alike : (history.filter fun a => !input.isDrivenBy a) =
      history'.filter fun a => !input.isDrivenBy a)
    (unread : ∀ e ∈ m.executions history, input.isReadBy e.instruction = false) :
    (m.steps history).map input.hide = (m'.steps history').map input.hide ∧
      m.executions history = m'.executions history' ∧
      input.blank (m.after history) = input.blank (m'.after history') := by
  induction history generalizing m m' history' with
  | nil =>
      have driven : ∀ a ∈ history', input.isDrivenBy a = true := by
        simpa using List.filter_eq_nil_iff.mp alike.symm
      obtain ⟨steps, executions, blank⟩ := steps_append_of_driven [] driven (m := m')
      rw [List.append_nil] at steps executions
      rw [steps, executions]
      exact ⟨rfl, rfl, same.trans blank.symm⟩
  | cons a rest ih =>
      rw [executions] at unread
      cases driven : input.isDrivenBy a with
      | true =>
          obtain ⟨noStep, nothing⟩ := stepped?_of_driven driven (m := m)
          rw [List.filter_cons_of_neg (by simp [driven])] at alike
          rw [nothing] at unread
          rw [steps, executions, noStep, nothing]
          exact ih ((Input.blank_act_of_driven m driven).trans same) alike unread
      | false =>
          rw [List.filter_cons_of_pos (by simp [driven])] at alike
          -- the other history comes to the same action behind some that drive the input
          obtain ⟨driving, rest', rfl, driven', -, alike⟩ := List.filter_eq_cons_iff.mp alike.symm
          obtain ⟨steps', executions', blank⟩ :=
            steps_append_of_driven (a :: rest') (by simpa using driven') (m := m')
          obtain ⟨stepped, executed, later⟩ := act_congr (same.trans blank.symm) driven
            fun e here => unread e (List.mem_append_left _ (by simp [here]))
          obtain ⟨laterSteps, laterExecutions, last⟩ := ih later alike.symm
            fun e there => unread e (List.mem_append_right _ there)
          rw [steps', executions', after_append, steps, steps, executions, executions, executed,
            laterExecutions]
          refine ⟨?_, rfl, last⟩
          rw [List.map_append, List.map_append, laterSteps, ← Option.toList_map,
            ← Option.toList_map, stepped]

/-- What drives an input comes to nothing unless an instruction reads the input.

From any machine, take two histories that differ only in the actions that drive
one input: in where and how often the timers count down, or in which keys change
and when. If the first one carries out no instruction that reads this input,
neither does the second. Both make the same steps, with the same signals and
faults, and after each of these steps the machines agree on everything but the
input. -/
theorem unread_input_is_invisible (m : Machine) (input : Input) {history history' : List Action}
    (alike : (history.filter fun a => !input.isDrivenBy a) =
      history'.filter fun a => !input.isDrivenBy a)
    (unread : ∀ e ∈ m.executions history, input.isReadBy e.instruction = false) :
    (m.steps history).map (fun step => (step.1, input.blank step.2)) =
        (m.steps history').map (fun step => (step.1, input.blank step.2)) ∧
      m.executions history' = m.executions history ∧
      input.blank (m.after history') = input.blank (m.after history) := by
  obtain ⟨steps, executions, last⟩ := history_congr rfl alike unread
  exact ⟨steps, executions.symm, last.symm⟩

/-- Five is put into the delay timer and a random byte is taken: with two counts
of the timers in other places, or a key that goes down in between, the three
steps are the same, although the timers or the keys end up different. -/
theorem unread_input_is_invisible_countdown :
    let m := (powerOn 0).after [.load [0x60, 0x05, 0xF0, 0x15, 0xC1, 0xFF]]
    let plain : List Action := [.step, .step, .step]
    let counted : List Action := [.tick, .step, .step, .tick, .step]
    let keyed : List Action := [.step, .setKey 3 true, .step, .step]
    (m.steps plain).map (fun step => (step.1, Input.timers.blank step.2)) =
        (m.steps counted).map (fun step => (step.1, Input.timers.blank step.2)) ∧
      (m.after plain).timers ≠ (m.after counted).timers ∧
      (m.steps plain).map (fun step => (step.1, Input.keys.blank step.2)) =
        (m.steps keyed).map (fun step => (step.1, Input.keys.blank step.2)) ∧
      (m.after plain).keypad ≠ (m.after keyed).keypad := by
  intro m plain counted keyed
  obtain ⟨unread, timers_differ, keys_differ⟩ :
      (∀ e ∈ m.executions plain,
        Input.timers.isReadBy e.instruction = false ∧
          Input.keys.isReadBy e.instruction = false) ∧
        (m.after plain).timers ≠ (m.after counted).timers ∧
        (m.after plain).keypad ≠ (m.after keyed).keypad := by
    decide +kernel
  have counts : (plain.filter fun a => !Input.timers.isDrivenBy a) =
      counted.filter fun a => !Input.timers.isDrivenBy a := rfl
  have presses : (plain.filter fun a => !Input.keys.isDrivenBy a) =
      keyed.filter fun a => !Input.keys.isDrivenBy a := rfl
  have timers := unread_input_is_invisible m .timers counts fun e member => (unread e member).1
  have keys := unread_input_is_invisible m .keys presses fun e member => (unread e member).2
  exact ⟨timers.1, timers_differ, keys.1, keys_differ⟩

end Machine

end ChipEight
