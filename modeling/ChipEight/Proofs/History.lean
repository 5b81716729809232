/-
# Histories of a machine

A history is a list of the things that are done to a machine from outside, in
any order. Running it gives the machine afterwards, the outcomes of the steps in
it, and the instructions that were carried out with their addresses. A property
of all three that a single action keeps holds after every history, so later
proofs look at one action at a time.
-/

import ChipEight.Proofs.Execution
import ChipEight.Proofs.Loading

namespace ChipEight

/-- What can be done to a machine from outside. -/
inductive Action
  | load (program : List UInt8)
  | step
  | setKey (key : Key) (down : Bool)
  | tick
  | halt
  deriving DecidableEq

/-- An instruction that was carried out, and where it stood. -/
structure Execution where
  address : UInt16
  instruction : Instruction
  deriving DecidableEq

namespace Machine

variable {m next : Machine} {signal : Signal} {fault : Fault}

/-- The machine after one action. -/
def act (m : Machine) : Action → Machine
  | .load program => (m.load program).2
  | .step => m.step.2
  | .setKey key down => m.setKey key down
  | .tick => m.tick 1
  | .halt => m.halt

/-- The machine after a history. -/
def after (m : Machine) (history : List Action) : Machine :=
  history.foldl act m

/-- What an action carries out: only a step that succeeds does. -/
def executed? (m : Machine) : Action → Option Execution
  | .step =>
    match m.step.1 with
    | .ok _ => m.instruction?.map fun i => ⟨m.pc, i⟩
    | .error _ => none
  | _ => none

/-- The instructions carried out during a history, in order. -/
def executions (m : Machine) : List Action → List Execution
  | [] => []
  | a :: rest => (m.executed? a).toList ++ (m.act a).executions rest

/-- The outcomes of the steps of a history, in order. -/
def outcomes (m : Machine) : List Action → List (Except Fault Signal)
  | [] => []
  | .step :: rest => m.step.1 :: (m.act .step).outcomes rest
  | a :: rest => (m.act a).outcomes rest

/-- An action that leaves the program in place: anything but an accepted load. -/
def Keeps (m : Machine) : Action → Prop
  | .load program => ∃ fault, (m.load program).1 = .error fault
  | _ => True

/-- A history during which every load is refused. -/
def Continues (m : Machine) : List Action → Prop
  | [] => True
  | a :: rest => m.Keeps a ∧ (m.act a).Continues rest

/-! ## One action -/

theorem act_of_refused_load {program : List UInt8} (kept : m.Keeps (.load program)) :
    m.act (.load program) = m := by
  obtain ⟨fault, refused⟩ := kept
  exact load_of_error refused

theorem executed?_step_eq_some_iff {e : Execution} :
    m.executed? .step = some e ↔
      m.pc = e.address ∧ m.instruction? = some e.instruction ∧
        ∃ signal next, m.step = (.ok signal, next) := by
  obtain ⟨address, instruction⟩ := e
  cases made : m.step with
  | mk outcome next =>
      cases outcome with
      | ok signal =>
          simp only [executed?, made, Option.map_eq_some_iff, Execution.mk.injEq]
          constructor
          · rintro ⟨i, standing, here, rfl⟩
            exact ⟨here, standing, signal, next, rfl⟩
          · rintro ⟨here, standing, -⟩
            exact ⟨instruction, standing, here, rfl⟩
      | error fault => simp [executed?, made]

theorem executed?_step_of_ok {i : Instruction} (standing : m.instruction? = some i)
    (made : m.step = (.ok signal, next)) : m.executed? .step = some ⟨m.pc, i⟩ :=
  executed?_step_eq_some_iff.mpr ⟨rfl, standing, signal, next, made⟩

theorem executed?_step_of_error (failed : m.step = (.error fault, next)) :
    m.executed? .step = none := by
  simp only [executed?, failed]

/-- What a step carries out leads to the machine behind it. -/
theorem execute_of_executed? {e : Execution} (executed : m.executed? .step = some e) :
    ∃ signal, m.advance.execute e.instruction = (.ok signal, m.act .step) := by
  obtain ⟨-, standing, signal, next, made⟩ := executed?_step_eq_some_iff.mp executed
  obtain ⟨-, i, found, done⟩ := step_eq_ok_iff.mp made
  obtain rfl : e.instruction = i := Option.some.inj (standing.symm.trans found)
  rw [act, made]
  exact ⟨signal, done⟩

/-- A step that carries out nothing only halts the machine. -/
theorem act_step_of_executed?_eq_none (nothing : m.executed? .step = none) :
    m.act .step = m.halt := by
  cases made : m.step with
  | mk outcome next =>
      cases outcome with
      | error fault =>
          obtain ⟨rfl, -⟩ := step_eq_error_iff.mp made
          rw [act, made]
      | ok signal =>
          obtain ⟨-, i, standing, -⟩ := step_eq_ok_iff.mp made
          rw [executed?_step_of_ok standing made] at nothing
          cases nothing

/-- An action that leaves the program in place carries out the instruction at
the program counter, or it carries out nothing and changes at most the keypad,
the timers and whether the machine is halted. -/
theorem act_cases {a : Action} (kept : m.Keeps a) :
    (∃ i signal, m.instruction? = some i ∧ m.step = (.ok signal, m.act a) ∧
        m.advance.execute i = (.ok signal, m.act a) ∧ m.executed? a = some ⟨m.pc, i⟩) ∨
      (m.executed? a = none ∧
        m.act a =
          { m with
            keypad := (m.act a).keypad
            timers := (m.act a).timers
            halted := (m.act a).halted }) := by
  cases a with
  | step =>
      cases made : m.step with
      | mk outcome next =>
          have acted : m.act .step = next := by rw [act, made]
          rw [acted]
          cases outcome with
          | ok signal =>
              obtain ⟨-, i, standing, done⟩ := step_eq_ok_iff.mp made
              exact .inl ⟨i, signal, standing, rfl, done, executed?_step_of_ok standing made⟩
          | error fault =>
              obtain ⟨rfl, -⟩ := step_eq_error_iff.mp made
              exact .inr ⟨executed?_step_of_error made, rfl⟩
  | load program =>
      rw [act_of_refused_load kept]
      exact .inr ⟨rfl, rfl⟩
  | _ => exact .inr ⟨rfl, rfl⟩

/-- An action leaves the program in place, or it is the load of a program that fits. -/
theorem keeps_or_loads (m : Machine) (a : Action) :
    m.Keeps a ∨ ∃ program, a = .load program ∧ m.act a = m.loaded program := by
  cases a with
  | load program =>
      rcases Nat.lt_or_ge Memory.programCapacity program.length with large | fits
      · exact .inl ⟨_, congrArg Prod.fst (load_of_large large)⟩
      · exact .inr ⟨program, rfl, congrArg Prod.snd (load_of_fits fits)⟩
  | _ => exact .inl trivial

/-! ## Whole histories -/

theorem after_cons (m : Machine) (a : Action) (rest : List Action) :
    m.after (a :: rest) = (m.act a).after rest := rfl

theorem after_append (m : Machine) (earlier later : List Action) :
    m.after (earlier ++ later) = (m.after earlier).after later :=
  List.foldl_append

theorem continues_append {earlier later : List Action} :
    m.Continues (earlier ++ later) ↔ m.Continues earlier ∧ (m.after earlier).Continues later := by
  induction earlier generalizing m with
  | nil => exact ⟨fun kept => ⟨trivial, kept⟩, And.right⟩
  | cons a rest ih =>
      show m.Keeps a ∧ (m.act a).Continues (rest ++ later) ↔
        (m.Keeps a ∧ (m.act a).Continues rest) ∧ ((m.act a).after rest).Continues later
      rw [ih, and_assoc]

/-- What holds at first and is kept by every action holds after every history. -/
theorem after_induction {motive : Machine → Prop} (keep : ∀ m a, motive m → motive (m.act a))
    (history : List Action) (first : motive m) : motive (m.after history) := by
  induction history generalizing m with
  | nil => exact first
  | cons a rest ih => exact ih (keep m a first)

/-- What holds at first and is kept by every action that leaves the program in
place holds after every history that does, of the machine and of what was
carried out so far. -/
theorem continues_induction {motive : Machine → List Execution → Prop}
    (keep : ∀ m es a, motive m es → m.Keeps a →
      motive (m.act a) (es ++ (m.executed? a).toList))
    (history : List Action) (kept : m.Continues history) (first : motive m []) :
    motive (m.after history) (m.executions history) := by
  have general (es : List Execution) (here : motive m es) :
      motive (m.after history) (es ++ m.executions history) := by
    clear first
    induction history generalizing m es with
    | nil =>
        rw [executions, List.append_nil]
        exact here
    | cons a rest ih =>
        have later := ih kept.2 (es ++ (m.executed? a).toList) (keep m es a here kept.1)
        rw [executions, ← List.append_assoc]
        exact later
  exact general [] first

end Machine

end ChipEight
