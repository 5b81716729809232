/-
# Waiting for a key

A program waits by going back to the instruction that it has just left, and that must
leave no trace: a step that finds no key down reports the wait and changes nothing at
all. So through any number of such steps, with time passing and keys going down and up
between them, only the timers and the keypad show that something went on. The first
step that finds a key down ends the wait. It takes the least number of the keys that
are down then, and which these are is decided by the last event of each key.
-/

import ChipEight.Proofs.Footprint
import ChipEight.Proofs.Halting

namespace ChipEight

/-- Where the last event of a key in a history left it, if there was one. -/
def lastSet? (key : Key) (history : List Action) : Option Bool :=
  history.reverse.findSome? fun
    | .setKey k down => if k = key then some down else none
    | _ => none

theorem lastSet?_cons (key : Key) (a : Action) (rest : List Action) :
    lastSet? key (a :: rest) = (lastSet? key rest).or (lastSet? key [a]) := by
  rw [lastSet?, List.reverse_cons, List.findSome?_append]
  rfl

namespace Keypad

variable {p : Keypad} {first : Key}

/-! ## The keys that are down -/

/-- The key is down, and no key with a smaller number is. -/
structure IsLeastDown (p : Keypad) (first : Key) : Prop where
  down : p.isDown first.val = true
  least : ∀ key : Key, p.isDown key.val = true → first.val ≤ key.val

theorem isLeastDown_of_firstDown? (found : p.firstDown? = some first) : p.IsLeastDown first := by
  obtain ⟨down, before, behind, all, up⟩ := List.find?_eq_some_iff_append.mp found
  refine ⟨down, fun key pressed => ?_⟩
  have sorted : (before ++ first :: behind).Pairwise (· < ·) :=
    all ▸ List.pairwise_lt_finRange 16
  have listed : key ∈ before ++ first :: behind := all ▸ List.mem_finRange key
  rcases List.mem_append.mp listed with earlier | later
  · have released := up key earlier
    rw [pressed] at released
    cases released
  · rcases List.mem_cons.mp later with rfl | later
    · exact Nat.le_refl _
    · have ordered := (List.pairwise_append.mp sorted).2.1
      exact Nat.le_of_lt (List.rel_of_pairwise_cons ordered later)

theorem firstDown?_eq_some_iff : p.firstDown? = some first ↔ p.IsLeastDown first := by
  refine ⟨isLeastDown_of_firstDown?, fun least => ?_⟩
  cases found : p.firstDown? with
  | none =>
      have up := anyDown_eq_false_iff.mp (firstDown?_eq_none_iff.mp found) first
      exact absurd (up.symm.trans least.down) Bool.false_ne_true
  | some key =>
      have other := isLeastDown_of_firstDown? found
      have same : key.val = first.val :=
        Nat.le_antisymm (other.least first least.down) (least.least key other.down)
      rw [Fin.ext same]

/-- Where some key is down, there is a first one. -/
theorem exists_firstDown? (pressed : ∃ key : Key, p.isDown key.val = true) :
    ∃ first, p.firstDown? = some first := by
  obtain ⟨key, down⟩ := pressed
  cases found : p.firstDown? with
  | none =>
      have up := anyDown_eq_false_iff.mp (firstDown?_eq_none_iff.mp found) key
      exact absurd (up.symm.trans down) Bool.false_ne_true
  | some first => exact ⟨first, rfl⟩

/-- After a history, a key is where its last event left it, or else where it was. -/
theorem isDown_following (p : Keypad) (history : List Action) (key : Key) :
    (p.following history).isDown key.val =
      (lastSet? key history).getD (p.isDown key.val) := by
  induction history generalizing p with
  | nil => rfl
  | cons a rest ih =>
      rw [lastSet?_cons, Option.getD_or]
      cases a with
      | setKey k down =>
          have event : (lastSet? key [.setKey k down]).getD (p.isDown key.val) =
              (p.setKey k down).isDown key.val := by
            rw [isDown_setKey]
            by_cases same : k = key
            · simp [lastSet?, same]
            · simp [lastSet?, same, Fin.val_ne_of_ne (Ne.symm same)]
          rw [event]
          exact ih (p.setKey k down)
      | _ => exact ih p

/-- Nothing but steps, ticks and key events, with every key up at every step. -/
def UpAtSteps (p : Keypad) : List Action → Prop
  | [] => True
  | .step :: rest => (∀ key : Key, p.isDown key.val = false) ∧ p.UpAtSteps rest
  | .tick :: rest => p.UpAtSteps rest
  | .setKey key down :: rest => (p.setKey key down).UpAtSteps rest
  | .load _ :: _ | .halt :: _ => False

end Keypad

namespace Machine

variable {m : Machine} {x : Register}

/-! ## Steps of a waiting machine -/

/-- The machine runs and stands at the wait for a key that goes to this register. -/
structure AwaitsKey (m : Machine) (x : Register) : Prop where
  running : m.halted = false
  word : m.fetched? = some (.ofByte 0xF x 0x0A)

theorem rewind_advance (m : Machine) : m.advance.rewind = m :=
  congrArg (fun registers => { m with registers }) m.registers.rewind_advance

theorem AwaitsKey.step_eq_iff (waiting : m.AwaitsKey x) {signal : Signal} {next : Machine} :
    m.step = (.ok signal, next) ↔ m.advance.takeKey x = (.ok signal, next) := by
  have found : m.fetched? = some (Instruction.awaitKey x).toWord := waiting.word
  rw [step_eq_ok_iff_execute found, and_iff_right waiting.running]
  rfl

/-- While no key is down, the wait goes on and nothing has happened. -/
theorem AwaitsKey.step_of_up (waiting : m.AwaitsKey x)
    (up : ∀ key : Key, m.keypad.isDown key.val = false) : m.step = (.ok .keyWait, m) := by
  have none : m.advance.keypad.firstDown? = none :=
    Keypad.firstDown?_eq_none_iff.mpr (Keypad.anyDown_eq_false_iff.mpr up)
  rw [waiting.step_eq_iff, takeKey, none]
  exact congrArg (Prod.mk (Except.ok Signal.keyWait)) m.rewind_advance

/-- The least key that is down ends the wait. -/
theorem AwaitsKey.step_of_down (waiting : m.AwaitsKey x) {first : Key}
    (least : m.keypad.IsLeastDown first) :
    m.step = (.ok .proceed, (m.setPc (m.pc + 2)).setV x (UInt8.ofNat first.val)) := by
  have found : m.advance.keypad.firstDown? = some first := Keypad.firstDown?_eq_some_iff.mpr least
  rw [waiting.step_eq_iff, takeKey, found]
  rfl

/-! ## The whole wait -/

/-- While no step finds a key down, nothing but the keypad and the timers moves. -/
theorem AwaitsKey.after (waiting : m.AwaitsKey x) {history : List Action}
    (idle : m.keypad.UpAtSteps history) :
    m.after history =
      { m with
        keypad := m.keypad.following history
        timers := m.timers.following history } := by
  induction history generalizing m with
  | nil => rfl
  | cons a rest ih =>
      cases a with
      | step =>
          have stays : m.act .step = m := congrArg Prod.snd (waiting.step_of_up idle.1)
          rw [after_cons, stays]
          exact ih waiting idle.2
      | tick => exact ih (m := m.tick 1) ⟨waiting.running, waiting.word⟩ idle
      | setKey key down => exact ih (m := m.setKey key down) ⟨waiting.running, waiting.word⟩ idle
      | load | halt => cases idle

theorem AwaitsKey.outcomes (waiting : m.AwaitsKey x) {history : List Action}
    (idle : m.keypad.UpAtSteps history) :
    ∀ outcome ∈ m.outcomes history, outcome = .ok .keyWait := by
  induction history generalizing m with
  | nil => nofun
  | cons a rest ih =>
      cases a with
      | step =>
          have made := waiting.step_of_up idle.1
          have stays : m.act .step = m := congrArg Prod.snd made
          rw [Machine.outcomes, stays, List.forall_mem_cons]
          exact ⟨congrArg Prod.fst made, ih waiting idle.2⟩
      | tick => exact ih (m := m.tick 1) ⟨waiting.running, waiting.word⟩ idle
      | setKey key down => exact ih (m := m.setKey key down) ⟨waiting.running, waiting.word⟩ idle
      | load | halt => cases idle

/-- A machine that stands at a wait stays there through any steps, ticks and key events
that leave every key up at the steps: each of these steps reports the wait, and in the
end only the timers have moved and the keys are as their last events left them. Then a
step with all keys up changes nothing, and a step with any keys down puts the least of
them into the register and goes on to the next instruction, and changes nothing else. -/
theorem a_wait_ends_with_the_least_key_down (waiting : m.AwaitsKey x) (history : List Action)
    (idle : m.keypad.UpAtSteps history) :
    let now := m.after history
    (∀ outcome ∈ m.outcomes history, outcome = .ok .keyWait) ∧
      now = { m with keypad := now.keypad, timers := m.timers.following history } ∧
      (∀ key : Key, now.keypad.isDown key.val =
        (lastSet? key history).getD (m.keypad.isDown key.val)) ∧
      ((∀ key : Key, now.keypad.isDown key.val = false) → now.step = (.ok .keyWait, now)) ∧
      ((∃ key : Key, now.keypad.isDown key.val = true) →
        ∃ first next, now.keypad.IsLeastDown first ∧
          now.step = (.ok .proceed, next) ∧
          next = { now with
            registers := (now.registers.setPc (now.pc + 2)).set x (UInt8.ofNat first.val) } ∧
          (next.v x).toNat = first.val ∧ next.pc.toNat = m.pc.toNat + 2) := by
  intro now
  have after := waiting.after idle
  have keys : now.keypad = m.keypad.following history := congrArg Machine.keypad after
  have still : now.AwaitsKey x ∧ now.pc = m.pc := by
    rw [show now = _ from after]
    exact ⟨⟨waiting.running, waiting.word⟩, rfl⟩
  obtain ⟨still, counter⟩ := still
  refine ⟨waiting.outcomes idle, ?_, fun key => ?_, still.step_of_up, fun pressed => ?_⟩
  · rw [keys]
    exact after
  · rw [keys, Keypad.isDown_following]
  · obtain ⟨first, found⟩ := Keypad.exists_firstDown? pressed
    have least := Keypad.firstDown?_eq_some_iff.mp found
    refine ⟨first, _, least, still.step_of_down least, rfl, ?_, ?_⟩
    · have small : first.val < 2 ^ 8 := Nat.lt_trans first.isLt (by decide)
      exact (congrArg UInt8.toNat (Registers.get_set_self ..)).trans
        (UInt8.toNat_ofNat_of_lt' small)
    · have inside := (fetched?_eq_some_iff.mp waiting.word).1
      show (now.pc + 2).toNat = m.pc.toNat + 2
      rw [counter, Memory.toNat_add_two inside]

/-- A key that goes down and up again between two steps goes unnoticed. Of three keys
that then go down, one is up again at the next step, and the lesser of the others is
what the program gets. -/
theorem a_wait_ends_with_the_least_key_down_pressed :
    let m := (powerOn 0).loaded [0xF3, 0x0A]
    let history : List Action :=
      [.step, .tick, .setKey 1 true, .setKey 1 false, .step, .setKey 9 true, .setKey 2 true,
        .setKey 4 true, .tick, .setKey 2 false]
    m.AwaitsKey 3 ∧ m.keypad.UpAtSteps history ∧
      ∃ next, (m.after history).step = (.ok .proceed, next) ∧ next.v 3 = 4 ∧
        next.pc.toNat = 0x202 ∧ next.keypad.isDown 9 = true := by
  intro m history
  have waiting : m.AwaitsKey 3 := ⟨rfl, by decide +kernel⟩
  have up : ∀ key : Key, m.keypad.isDown key.val = false := by decide +kernel
  have upAgain : ∀ key : Key, ((m.keypad.setKey 1 true).setKey 1 false).isDown key.val = false := by
    decide +kernel
  have idle : m.keypad.UpAtSteps history := ⟨up, upAgain, trivial⟩
  obtain ⟨-, -, keys, -, taken⟩ := a_wait_ends_with_the_least_key_down waiting history idle
  have down (key : Key) (last : lastSet? key history = some true) :
      (m.after history).keypad.isDown key.val = true := by
    rw [keys, last]
    rfl
  obtain ⟨first, next, least, made, effect, value, pc⟩ := taken ⟨4, down 4 (by decide)⟩
  have four : first = 4 := by
    have found := Keypad.firstDown?_eq_some_iff.mpr least
    have computed : (m.after history).keypad.firstDown? = some 4 := by decide +kernel
    exact Option.some.inj (found.symm.trans computed)
  subst four
  refine ⟨waiting, idle, next, made, UInt8.toNat_inj.mp value, pc, ?_⟩
  rw [effect]
  exact down 9 (by decide)

end Machine

end ChipEight
