/-
# Countdowns

A timer only ever shows what is left of its last start: the value of the register that
it was started with, less one for every tick since, and nothing below zero. Between
two starts every action leaves a timer alone or counts it down, which is the step of
the induction, and the last start of a history is where the countdown begins. Steps
that fail, halts, key events and refused loads do not matter to it.

An emulator whose timers are not bound to time ticks once at the start of every step
that is not interrupted, whatever comes of the step, and not otherwise. So what
sessions do to a machine is what a history does in which every step has a tick of its
own in front of it, and the same countdowns show.
-/

import ChipEight.Proofs.Stopping

namespace ChipEight

/-- One of the two timers. -/
inductive Timer
  | delay
  | sound
  deriving DecidableEq

namespace Timer

/-- What is left of the countdown. -/
def read : Timer → Timers → UInt8
  | .delay, timers => timers.delay
  | .sound, timers => timers.sound

/-- The instruction that starts the timer at the value of a register: Fx15 or Fx18. -/
def starter : Timer → Register → Instruction
  | .delay, x => .setDelay x
  | .sound, x => .setSound x

/-- The instruction starts the timer. -/
def IsStartedBy (timer : Timer) (i : Instruction) : Prop :=
  ∃ x, i = timer.starter x

instance (timer : Timer) (i : Instruction) : Decidable (timer.IsStartedBy i) :=
  inferInstanceAs (Decidable (∃ _, _))

/-- Whether a footprint takes in the timer. -/
def isIn : Timer → Footprint → Bool
  | .delay, part => part.delay
  | .sound, part => part.sound

/-- No instruction changes a timer but those that start it. -/
theorem isIn_footprint (timer : Timer) {i : Instruction} (other : ¬ timer.IsStartedBy i) :
    timer.isIn i.footprint = false := by
  cases timer with
  | delay =>
      cases i with
      | setDelay x => exact absurd ⟨x, rfl⟩ other
      | _ => rfl
  | sound =>
      cases i with
      | setSound x => exact absurd ⟨x, rfl⟩ other
      | _ => rfl

theorem toNat_read_tick (timer : Timer) (timers : Timers) :
    (timer.read timers.tick).toNat = (timer.read timers).toNat - 1 := by
  cases timer <;> exact Timers.toNat_countDown _

end Timer

namespace Machine

variable {m : Machine} {timer : Timer} {x : Register} {address : UInt16} {i : Instruction}

/-! ## One action -/

theorem read_of_start (executed : m.executed? .step = some ⟨address, timer.starter x⟩) :
    timer.read (m.act .step).timers = m.v x := by
  obtain ⟨signal, done⟩ := execute_of_executed? executed
  rw [← (Prod.mk.inj done).2]
  cases timer <;> rfl

/-- What reads the delay timer gets what is left of it. -/
theorem v_of_readDelay (executed : m.executed? .step = some ⟨address, .readDelay x⟩) :
    (m.act .step).v x = Timer.delay.read m.timers := by
  obtain ⟨signal, done⟩ := execute_of_executed? executed
  rw [← (Prod.mk.inj done).2]
  exact Registers.get_set_self ..

theorem read_of_changesOnly {next : Machine} {part : Footprint} (changes : m.ChangesOnly next part)
    (outside : timer.isIn part = false) : timer.read next.timers = timer.read m.timers := by
  cases timer with
  | delay => exact changes.delay outside
  | sound => exact changes.sound outside

/-- A step that does not start a timer leaves it alone. -/
theorem read_act_step
    (other : ∀ e, m.executed? .step = some e → ¬ timer.IsStartedBy e.instruction) :
    timer.read (m.act .step).timers = timer.read m.timers := by
  cases executed : m.executed? .step with
  | some e =>
      obtain ⟨signal, done⟩ := execute_of_executed? executed
      exact read_of_changesOnly (m := m.advance) (changesOnly_of_execute done)
        (timer.isIn_footprint (other e executed))
  | none =>
      rw [act_step_of_executed?_eq_none executed]
      rfl

/-! ## The last start of a history -/

/-- No instruction that is carried out during a history starts the timer. -/
def NeverStarts (timer : Timer) (m : Machine) (history : List Action) : Prop :=
  ∀ e ∈ m.executions history, ¬ timer.IsStartedBy e.instruction

/-- The value that a timer was last started at during a history, with the number of
ticks since then. A timer that was never started counts from zero. -/
inductive LastStart (timer : Timer) (m : Machine) (history : List Action) : Nat → Nat → Prop
  | never : NeverStarts timer m history → LastStart timer m history 0 (history.count .tick)
  | started (earlier later : List Action) (address : UInt16) (x : Register) :
      history = earlier ++ .step :: later →
      (m.after earlier).executed? .step = some ⟨address, timer.starter x⟩ →
      NeverStarts timer ((m.after earlier).act .step) later →
      LastStart timer m history ((m.after earlier).v x).toNat (later.count .tick)

theorem neverStarts_cons {a : Action} {rest : List Action} :
    NeverStarts timer m (a :: rest) ↔
      (∀ e, m.executed? a = some e → ¬ timer.IsStartedBy e.instruction) ∧
        NeverStarts timer (m.act a) rest := by
  rw [NeverStarts, executions, List.forall_mem_append]
  simp only [Option.mem_toList]
  rfl

/-- Every history has a last start, or none at all. -/
theorem exists_lastStart (timer : Timer) (m : Machine) (history : List Action) :
    ∃ v t, LastStart timer m history v t := by
  induction history generalizing m with
  | nil => exact ⟨0, 0, .never nofun⟩
  | cons a rest ih =>
      obtain ⟨v, t, last⟩ := ih (m.act a)
      cases last with
      | started earlier later address x split executed silent =>
          exact ⟨_, _, .started (a :: earlier) later address x (congrArg _ split) executed silent⟩
      | never silent =>
          by_cases starts : ∃ e, m.executed? a = some e ∧ timer.IsStartedBy e.instruction
          · obtain ⟨⟨address, i⟩, executed, x, rfl⟩ := starts
            cases a with
            | step => exact ⟨_, _, .started [] rest address x rfl executed silent⟩
            | _ => cases executed
          · have plain : ∀ e, m.executed? a = some e → ¬ timer.IsStartedBy e.instruction :=
              fun e executed started => starts ⟨e, executed, started⟩
            exact ⟨_, _, .never (neverStarts_cons.mpr ⟨plain, silent⟩)⟩

/-- Without a start, a timer is counted down by every tick and by nothing else. -/
theorem toNat_read_after {history : List Action} (kept : m.Continues history)
    (silent : NeverStarts timer m history) :
    (timer.read (m.after history).timers).toNat =
      (timer.read m.timers).toNat - history.count .tick := by
  induction history generalizing m with
  | nil => rfl
  | cons a rest ih =>
      obtain ⟨plain, silent⟩ := neverStarts_cons.mp silent
      rw [after_cons, ih kept.2 silent]
      cases a with
      | tick =>
          have counted := timer.toNat_read_tick m.timers
          rw [List.count_cons_self, Nat.add_comm, ← Nat.sub_sub, ← counted]
          rfl
      | step =>
          rw [read_act_step plain]
          rfl
      | load program =>
          rw [act_of_refused_load kept.1]
          rfl
      | setKey key down => rfl
      | halt => rfl

/-- From timers at zero on, a timer shows what is left of its last start. -/
theorem toNat_read_of_lastStart {history : List Action} {v t : Nat} (zero : m.timers = .zero)
    (kept : m.Continues history) (last : LastStart timer m history v t) :
    (timer.read (m.after history).timers).toNat = v - t := by
  cases last with
  | never silent =>
      rw [toNat_read_after kept silent, zero]
      cases timer <;> rfl
  | started earlier later address x split executed silent =>
      subst split
      obtain ⟨-, -, kept⟩ := continues_append.mp kept
      rw [after_append, after_cons, toNat_read_after kept silent, read_of_start executed]

/-! ## Key events -/

/-- Putting some keys up, one after the other, changes the keypad only, and puts no key
down. -/
theorem after_releases (m : Machine) (keys : List Key) :
    ∃ keypad : Keypad,
      m.after (keys.map fun key => .setKey key false) = { m with keypad } ∧
        ∀ key : Key, key ∈ keys ∨ m.keypad.isDown key.val = false →
          keypad.isDown key.val = false := by
  induction keys generalizing m with
  | nil => exact ⟨m.keypad, rfl, fun _ up => up.resolve_left List.not_mem_nil⟩
  | cons first rest ih =>
      obtain ⟨keypad, after, up⟩ := ih (m.setKey first false)
      refine ⟨keypad, after, fun key released => up key ?_⟩
      rcases released with member | before
      · rcases List.mem_cons.mp member with rfl | later
        · exact .inr ((Keypad.isDown_setKey ..).trans (if_pos rfl))
        · exact .inl later
      · refine .inr ((Keypad.isDown_setKey ..).trans ?_)
        rw [before, ite_self]

/-- Putting all keys up at once is the same as putting up one after the other. -/
theorem releaseKeys_eq_after (m : Machine) :
    m.releaseKeys = m.after (Key.all.map fun key => .setKey key false) := by
  obtain ⟨keypad, after, up⟩ := m.after_releases Key.all
  have released : keypad = .released := Keypad.ext_isDown fun key => by
    rw [up key (.inl (List.mem_finRange key)), Keypad.isDown_released]
  rw [after, released]
  rfl

/-! ## Histories that an emulator makes -/

/-- Every step has a tick of its own right in front of it, there are no other ticks,
and nothing is loaded. -/
inductive Paced : List Action → Prop
  | nil : Paced []
  | step {rest : List Action} : Paced rest → Paced (.tick :: .step :: rest)
  | setKey (key : Key) (down : Bool) {rest : List Action} : Paced rest →
      Paced (.setKey key down :: rest)
  | halt {rest : List Action} : Paced rest → Paced (.halt :: rest)

theorem Paced.append {history later : List Action} (paced : Paced history) (more : Paced later) :
    Paced (history ++ later) := by
  induction paced with
  | nil => exact more
  | step _ ih => exact ih.step
  | setKey key down _ ih => exact ih.setKey key down
  | halt _ ih => exact ih.halt

theorem Paced.setKeys (keys : List Key) (down : Bool) :
    Paced (keys.map fun key => .setKey key down) := by
  induction keys with
  | nil => exact .nil
  | cons key rest ih => exact ih.setKey key down

theorem Paced.continues {history : List Action} (paced : Paced history) (m : Machine) :
    m.Continues history := by
  induction paced generalizing m with
  | nil => trivial
  | step _ ih => exact ⟨trivial, trivial, ih _⟩
  | setKey key down _ ih => exact ⟨trivial, ih _⟩
  | halt _ ih => exact ⟨trivial, ih _⟩

end Machine

namespace Emulator

open Machine (Paced LastStart)

variable {e next : Emulator} {m : Machine}

/-- Without a cycle of the timers, a step that is not interrupted is a tick and then
a step of the machine, whatever comes of it. -/
theorem machine_step_of_running (free : e.timerClock.interval = 0)
    (running : e.interrupted = false) (now : Readings) :
    e.machine.outcomes [.tick, .step] = [(e.step now).1] ∧
      (e.step now).2.machine = e.machine.after [.tick, .step] ∧
      (e.step now).2.timerClock = e.timerClock := by
  obtain ⟨cycles, pace, timerClock, once, same⟩ := step_of_running running now
  obtain ⟨rfl, rfl⟩ := once free
  rw [same]
  exact ⟨rfl, rfl, rfl⟩

/-- The emulator does not bind its timers to time, and a paced history has led its
machine to where it is. -/
structure Paces (m : Machine) (e : Emulator) : Prop where
  free : e.timerClock.interval = 0
  course : ∃ history, Paced history ∧ e.machine = m.after history

theorem Paces.extend (paces : Paces m e) {more : List Action} (paced : Paced more)
    (free : next.timerClock.interval = 0) (machine : next.machine = e.machine.after more) :
    Paces m next := by
  obtain ⟨history, earlier, here⟩ := paces.course
  refine ⟨free, history ++ more, earlier.append paced, ?_⟩
  rw [machine, here, Machine.after_append]

theorem keptByParts_paces (m : Machine) : KeptByParts (Paces m) where
  step e now paces := by
    cases stopped : e.interrupted with
    | true =>
        rw [step_of_interrupted stopped]
        exact paces
    | false =>
        obtain ⟨-, machine, clock⟩ := machine_step_of_running paces.free stopped now
        exact paces.extend (.step .nil) (clock ▸ paces.free) machine
  editKey e edit paces := by
    cases edit with
    | set key down => exact paces.extend (.setKey key down .nil) paces.free rfl
    | releaseAll =>
        exact paces.extend (.setKeys Key.all false) paces.free e.machine.releaseKeys_eq_after
  interrupt e paces := paces.extend (.halt .nil) paces.free rfl
  restartClocks e now paces := ⟨paces.free, paces.course⟩
  buzzing e on paces := ⟨paces.free, paces.course⟩

/-- The emulator behind an accepted load is at the start of such a history. -/
theorem Paces.of_load {start : Machine} {program : List UInt8}
    (accepted : start.load program = (.ok (), m)) (free : e.timerClock.interval = 0)
    (here : e.machine = start) (now : Readings) : Paces m (e.load program now).2 := by
  rw [load, here, accepted]
  exact ⟨free, [], .nil, rfl⟩

/-- From an accepted load on, whatever steps, ticks, key events, halts and refused loads
there are: a timer shows the value that it was last started at less the ticks since
then, or zero where that would be less or where it was never started, and what reads the
delay timer gets just that. Where the timers of an emulator have no cycle, a step that is
not interrupted makes a tick and then a step of the machine, whatever comes of it, and an
interrupted step makes neither. So behind a load, and whatever requests there are until
the next load is accepted, the machine is where a history of this kind leads, in which
every step has one tick in front of it and there are no other ticks. -/
theorem timers_show_what_is_left_of_their_last_start {start : Machine} {program : List UInt8}
    (accepted : start.load program = (.ok (), m)) :
    (∀ history, m.Continues history →
      let now := m.after history
      ∀ timer, (∃ v t, LastStart timer m history v t) ∧
        ∀ v t, LastStart timer m history v t →
          (timer.read now.timers).toNat = v - t ∧
            ∀ address x, timer = .delay → now.executed? .step = some ⟨address, .readDelay x⟩ →
              ((now.act .step).v x).toNat = v - t) ∧
      ∀ e : Emulator, e.timerClock.interval = 0 →
        (∀ now, e.interrupted = false →
          e.machine.outcomes [.tick, .step] = [(e.step now).1] ∧
            (e.step now).2.machine = e.machine.after [.tick, .step]) ∧
          (∀ now, e.interrupted = true → e.step now = (.ok .interrupt, e)) ∧
          (e.machine = start → ∀ now clock requests,
            (∀ answer ∈ ((e.load program now).2.session clock requests).1,
              answer ≠ .loaded (.ok ())) →
            ∃ history, Paced history ∧ m.Continues history ∧
              ((e.load program now).2.session clock requests).2.machine = m.after history) := by
  constructor
  · intro history kept now timer
    refine ⟨Machine.exists_lastStart timer m history, fun v t last => ?_⟩
    obtain ⟨-, rfl⟩ := Machine.load_eq_ok_iff.mp accepted
    have left : (timer.read now.timers).toNat = v - t :=
      Machine.toNat_read_of_lastStart rfl kept last
    refine ⟨left, fun address x delay executed => ?_⟩
    subst delay
    rw [Machine.v_of_readDelay executed, left]
  · intro e free
    refine ⟨fun now running => ?_, fun now stopped => step_of_interrupted stopped now, ?_⟩
    · obtain ⟨outcome, machine, -⟩ := machine_step_of_running free running now
      exact ⟨outcome, machine⟩
    · intro here now clock requests refused
      have started := Paces.of_load accepted free here now
      obtain ⟨-, history, paced, machine⟩ := (keptByParts_paces m).session clock refused started
      exact ⟨history, paced, paced.continues m, machine⟩

/-- A timer that is started at five shows four to the instruction behind, three when the
return fails that comes then, and two when the halted machine was asked for one more
step. As many steps of an emulator without a timer cycle are a history of this kind. -/
theorem timers_show_what_is_left_of_their_last_start_failing :
    let program : List UInt8 := [0x60, 0x05, 0xF0, 0x15, 0xF1, 0x07, 0x00, 0xEE]
    let m := (Machine.powerOn 0).loaded program
    let begun : List Action := [.tick, .step, .tick, .step, .tick]
    let history := begun ++ [.step, .tick, .step, .tick, .step]
    let e := ofSettings ⟨none, 0, some 0⟩ (.replicate 8 0) 0
    let requests : List Request := [.step, .step, .step, .step, .step]
    e.timerClock.interval = 0 ∧ (m.after history).halted = true ∧
      LastStart .delay m begun 5 1 ∧ ((m.after begun).act .step).v 1 = 4 ∧
      LastStart .delay m history 5 3 ∧ (m.after history).timers.delay = 2 ∧
      ∃ course, Paced course ∧
        ((e.load program 0).2.session (fun _ _ => 0) requests).2.machine = m.after course := by
  intro program m begun history e requests
  have accepted : (Machine.powerOn 0).load program = (.ok (), m) :=
    Machine.load_of_fits (by decide)
  obtain ⟨laws, paces⟩ := timers_show_what_is_left_of_their_last_start accepted
  let first : List Action := [.tick, .step, .tick]
  obtain ⟨starting, five, quiet, reading, halted⟩ :
      (m.after first).executed? .step = some ⟨0x202, .setDelay 0⟩ ∧
        ((m.after first).v 0).toNat = 5 ∧
        ((m.after first).act .step).executions [.tick, .step, .tick, .step, .tick, .step] =
          [⟨0x204, .readDelay 1⟩] ∧
        (m.after begun).executed? .step = some ⟨0x204, .readDelay 1⟩ ∧
        (m.after history).halted = true := by
    decide +kernel
  have last (later : List Action)
      (others : ∀ x ∈ ((m.after first).act .step).executions later, x = ⟨0x204, .readDelay 1⟩) :
      LastStart .delay m (first ++ .step :: later) 5 (later.count .tick) := by
    rw [← five]
    refine .started first later 0x202 0 rfl starting fun x made => ?_
    rw [others x made]
    decide
  have beforeReading : LastStart .delay m begun 5 1 := last [.tick] nofun
  have atEnd : LastStart .delay m history 5 3 :=
    last [.tick, .step, .tick, .step, .tick, .step] fun x made => by
      rw [quiet] at made
      exact List.mem_singleton.mp made
  have kept : m.Continues begun := ⟨trivial, trivial, trivial, trivial, trivial, trivial⟩
  have keptOn : m.Continues history :=
    ⟨trivial, trivial, trivial, trivial, trivial, trivial, trivial, trivial, trivial, trivial,
      trivial⟩
  have four := ((laws begun kept .delay).2 5 1 beforeReading).2 0x204 1 rfl reading
  have two := ((laws history keptOn .delay).2 5 3 atEnd).1
  have refused (e : Emulator) :
      ∀ answer ∈ (e.session (fun _ _ => 0) requests).1, answer ≠ .loaded (.ok ()) := by
    intro answer member
    rcases member with _ | ⟨_, _ | ⟨_, _ | ⟨_, _ | ⟨_, _ | ⟨_, ⟨⟩⟩⟩⟩⟩⟩ <;> nofun
  obtain ⟨-, -, behindLoad⟩ := paces e rfl
  obtain ⟨course, paced, -, machine⟩ := behindLoad rfl 0 (fun _ _ => 0) requests (refused _)
  exact ⟨rfl, halted, beforeReading, UInt8.toNat_inj.mp four, atEnd, UInt8.toNat_inj.mp two,
    course, paced, machine⟩

end Emulator

end ChipEight
