/-
# Calls and returns match like brackets

The call stack holds addresses and forgets the calls that left them. Here the
calls come back in: beside the machine runs the list of the executed calls that
are still pending, and the live entries of the stack are at every moment the
addresses behind them. The list is kept only for the proofs. The statements
speak of the executed instructions alone, between which a return belongs to the
most recent call that nothing has returned from.
-/

import ChipEight.Proofs.Footprint

namespace ChipEight

namespace Execution

/-- Executions in which every return has its call and every call its return. -/
inductive Balanced : List Execution → Prop
  | nil : Balanced []
  | plain (e : Execution) : e.instruction.isCall = false → e.instruction.isReturn = false →
      Balanced [e]
  | append {first second : List Execution} : Balanced first → Balanced second →
      Balanced (first ++ second)
  | nested {call ret : Execution} {inner : List Execution} : call.instruction.isCall = true →
      Balanced inner → ret.instruction.isReturn = true → Balanced (call :: (inner ++ [ret]))

/-- The most recent call among the executions that nothing has returned from:
what was executed after it is balanced. -/
def LastOpenCall (es : List Execution) (call : Execution) : Prop :=
  ∃ earlier between, es = earlier ++ call :: between ∧
    call.instruction.isCall = true ∧ Balanced between

/-- The number of executed calls. -/
def calls (es : List Execution) : Nat :=
  es.countP fun e => e.instruction.isCall

/-- The number of executed returns. -/
def returns (es : List Execution) : Nat :=
  es.countP fun e => e.instruction.isReturn

theorem calls_concat (es : List Execution) (e : Execution) :
    calls (es ++ [e]) = calls es + e.instruction.isCall.toNat := by
  rw [calls, List.countP_append, List.countP_singleton]
  cases e.instruction.isCall <;> rfl

theorem returns_concat (es : List Execution) (e : Execution) :
    returns (es ++ [e]) = returns es + e.instruction.isReturn.toNat := by
  rw [returns, List.countP_append, List.countP_singleton]
  cases e.instruction.isReturn <;> rfl

/-! ## The pending calls -/

/-- The calls that are pending after one more execution. -/
def follow (pending : List Execution) (e : Execution) : List Execution :=
  if e.instruction.isCall then e :: pending
  else if e.instruction.isReturn then pending.tail
  else pending

/-- The calls that are pending after executions, the most recent one first. -/
def pendingCalls (es : List Execution) : List Execution :=
  es.foldl follow []

theorem follow_of_call {e : Execution} (pending : List Execution)
    (call : e.instruction.isCall = true) : follow pending e = e :: pending :=
  if_pos call

theorem isCall_of_isReturn {i : Instruction} (ret : i.isReturn = true) : i.isCall = false := by
  cases i with
  | ret => rfl
  | _ => cases ret

theorem follow_of_return {e : Execution} (pending : List Execution)
    (ret : e.instruction.isReturn = true) : follow pending e = pending.tail := by
  rw [follow, if_neg (by simp [isCall_of_isReturn ret]), if_pos ret]

theorem follow_of_plain {e : Execution} (pending : List Execution)
    (noCall : e.instruction.isCall = false) (noReturn : e.instruction.isReturn = false) :
    follow pending e = pending := by
  rw [follow, if_neg (by simp [noCall]), if_neg (by simp [noReturn])]

theorem pendingCalls_concat (es : List Execution) (e : Execution) :
    pendingCalls (es ++ [e]) = follow (pendingCalls es) e := by
  rw [pendingCalls, List.foldl_append]
  rfl

/-- Balanced executions leave every pending call pending and add none. -/
theorem foldl_follow_of_balanced {es : List Execution} (balanced : Balanced es)
    (pending : List Execution) : es.foldl follow pending = pending := by
  induction balanced generalizing pending with
  | nil => rfl
  | plain e noCall noReturn => exact follow_of_plain pending noCall noReturn
  | append _ _ firstIH secondIH => rw [List.foldl_append, firstIH, secondIH]
  | nested call _ ret innerIH =>
      rw [List.foldl_cons, follow_of_call pending call, List.foldl_append, innerIH,
        List.foldl_cons, follow_of_return _ ret]
      rfl

/-- The call in front of the pending ones is one behind which everything is
balanced, and the others were pending already when it was made. -/
theorem exists_of_pendingCalls {es : List Execution} {call : Execution} {rest : List Execution}
    (pending : pendingCalls es = call :: rest) :
    ∃ earlier between, es = earlier ++ call :: between ∧ call.instruction.isCall = true ∧
      Balanced between ∧ pendingCalls earlier = rest := by
  -- a return makes a call reappear that may lie anywhere before, hence the length
  induction length : es.length using Nat.strongRecOn generalizing es call rest with
  | ind n ih =>
      rcases List.eq_nil_or_concat es with rfl | ⟨before, e, rfl⟩
      · cases pending
      rw [List.concat_eq_append] at pending length ⊢
      rw [List.length_append, List.length_singleton] at length
      rw [pendingCalls_concat] at pending
      cases isCall : e.instruction.isCall with
      | true =>
          rw [follow_of_call _ isCall] at pending
          cases pending
          exact ⟨before, [], rfl, isCall, .nil, rfl⟩
      | false =>
          cases isReturn : e.instruction.isReturn with
          | false =>
              rw [follow_of_plain _ isCall isReturn] at pending
              obtain ⟨earlier, between, rfl, called, balanced, left⟩ :=
                ih before.length (by omega) pending rfl
              refine ⟨earlier, between ++ [e], ?_, called, ?_, left⟩
              · rw [List.append_assoc, List.cons_append]
              · exact balanced.append (.plain e isCall isReturn)
          | true =>
              rw [follow_of_return _ isReturn] at pending
              cases waiting : pendingCalls before with
              | nil =>
                  rw [waiting] at pending
                  cases pending
              | cons inner others =>
                  rw [waiting, List.tail_cons] at pending
                  obtain ⟨middle, within, rfl, innerCall, innerBalanced, outer⟩ :=
                    ih before.length (by omega) waiting rfl
                  rw [List.length_append] at length
                  obtain ⟨earlier, between, rfl, called, balanced, left⟩ :=
                    ih middle.length (by omega) (outer.trans pending) rfl
                  refine ⟨earlier, between ++ (inner :: (within ++ [e])), ?_, called, ?_, left⟩
                  · simp only [List.append_assoc, List.cons_append]
                  · exact balanced.append (.nested innerCall innerBalanced isReturn)

theorem lastOpenCall_iff {es : List Execution} {call : Execution} :
    LastOpenCall es call ↔ ∃ rest, pendingCalls es = call :: rest := by
  constructor
  · rintro ⟨earlier, between, rfl, called, balanced⟩
    refine ⟨pendingCalls earlier, ?_⟩
    rw [pendingCalls, List.foldl_append, List.foldl_cons, follow_of_call _ called,
      foldl_follow_of_balanced balanced]
    rfl
  · rintro ⟨rest, pending⟩
    obtain ⟨earlier, between, split, called, balanced, -⟩ := exists_of_pendingCalls pending
    exact ⟨earlier, between, split, called, balanced⟩

end Execution

namespace Machine

open Execution

/-- The stack of a machine holds, for each pending call, the address behind it. -/
structure Tracks (m : Machine) (es : List Execution) : Prop where
  entries : m.stack.entries = (pendingCalls es).map fun call => call.address + 2
  /-- No return was made without a call to return from. -/
  count : (pendingCalls es).length + returns es = calls es
  /-- A call is fetched from inside the memory, so the address behind it does not wrap. -/
  inside : ∀ call ∈ pendingCalls es, call.address.toNat + 1 < Memory.size

variable {m next : Machine} {es : List Execution}

/-- What leaves the stack alone and carries out nothing keeps the stack in step. -/
theorem Tracks.of_stack_eq (held : m.Tracks es) (same : next.stack = m.stack) :
    next.Tracks es where
  entries := by rw [same, held.entries]
  count := held.count
  inside := held.inside

/-- One executed instruction keeps the stack in step with the pending calls. -/
theorem Tracks.of_execution {i : Instruction} {signal : Signal} (held : m.Tracks es)
    (standing : m.instruction? = some i) (done : m.advance.execute i = (.ok signal, next)) :
    next.Tracks (es ++ [⟨m.pc, i⟩]) := by
  have here := (instruction?_eq_some_iff.mp standing).1
  cases isCall : i.isCall with
  | true =>
      obtain ⟨target, rfl⟩ : ∃ target, i = .call target := by
        cases i with
        | call target => exact ⟨target, rfl⟩
        | _ => cases isCall
      obtain ⟨stack, pushed, -, rfl⟩ := execute_call_eq_ok_iff.mp done
      have pending : pendingCalls (es ++ [⟨m.pc, .call target⟩]) =
          ⟨m.pc, .call target⟩ :: pendingCalls es := by
        rw [pendingCalls_concat, follow_of_call _ rfl]
      refine ⟨?_, ?_, ?_⟩
      · have entries : stack.entries = (m.pc + 2) :: m.stack.entries :=
          CallStack.entries_of_push pushed
        rw [pending, List.map_cons, ← held.entries]
        exact entries
      · have count := held.count
        rw [pending, List.length_cons, calls_concat, returns_concat, ← count]
        exact Nat.add_right_comm _ 1 _
      · intro call member
        rw [pending] at member
        rcases List.mem_cons.mp member with rfl | earlier
        · exact here
        · exact held.inside call earlier
  | false =>
      cases isReturn : i.isReturn with
      | true =>
          obtain rfl : i = .ret := by
            cases i with
            | ret => rfl
            | _ => cases isReturn
          obtain ⟨pc, stack, popped, -, rfl⟩ := execute_ret_eq_ok_iff.mp done
          have entries : m.stack.entries = pc :: stack.entries := CallStack.entries_of_pop popped
          have pending : pendingCalls (es ++ [⟨m.pc, .ret⟩]) = (pendingCalls es).tail := by
            rw [pendingCalls_concat, follow_of_return _ rfl]
          cases waiting : pendingCalls es with
          | nil =>
              rw [held.entries, waiting] at entries
              cases entries
          | cons call rest =>
              rw [waiting, List.tail_cons] at pending
              refine ⟨?_, ?_, ?_⟩
              · rw [held.entries, waiting, List.map_cons, List.cons.injEq] at entries
                rw [pending]
                exact entries.2.symm
              · have count := held.count
                rw [waiting, List.length_cons] at count
                rw [pending, calls_concat, returns_concat, ← count]
                exact (Nat.add_right_comm _ 1 _).symm
              · intro other member
                rw [pending] at member
                exact held.inside other (waiting ▸ List.mem_cons_of_mem call member)
      | false =>
          have pending : pendingCalls (es ++ [⟨m.pc, i⟩]) = pendingCalls es := by
            rw [pendingCalls_concat, follow_of_plain _ isCall isReturn]
          refine ⟨?_, ?_, ?_⟩
          · rw [pending, ← held.entries, stack_of_execute isCall isReturn done]
            rfl
          · rw [pending, calls_concat, returns_concat, isCall, isReturn]
            exact held.count
          · rw [pending]
            exact held.inside

theorem Tracks.act {a : Action} (held : m.Tracks es) (kept : m.Keeps a) :
    (m.act a).Tracks (es ++ (m.executed? a).toList) := by
  rcases act_cases kept with ⟨i, signal, standing, -, done, executed⟩ | ⟨none, silent⟩
  · rw [executed]
    exact held.of_execution standing done
  · rw [none, Option.toList_none, List.append_nil]
    exact held.of_stack_eq (by rw [silent])

theorem tracks_of_load {start : Machine} {program : List UInt8}
    (accepted : start.load program = (.ok (), m)) : m.Tracks [] := by
  obtain ⟨-, rfl⟩ := load_eq_ok_iff.mp accepted
  exact ⟨rfl, rfl, nofun⟩

/-- From a load on, the depth of the call stack is the number of executed calls
less the number of executed returns, and a return goes on behind the call that
it belongs to. A call with the stack full and a return with none pending are not
executed and leave the stack as it was. -/
theorem calls_and_returns_match {start m : Machine} {program : List UInt8}
    {history : List Action} (accepted : start.load program = (.ok (), m))
    (kept : m.Continues history) :
    let es := m.executions history
    let now := m.after history
    ((now.stack.depth : Int) = calls es - returns es ∧ now.stack.depth ≤ 16) ∧
      (∀ signal next, now.instruction? = some .ret → now.step = (.ok signal, next) →
        (∃ call, LastOpenCall es call) ∧
          ∀ call, LastOpenCall es call → next.pc.toNat = call.address.toNat + 2) ∧
      (∀ target, now.halted = false → now.instruction? = some (.call target) →
        now.stack.depth = 16 →
          now.executed? .step = none ∧ now.step.1 = .error .stackOverflow ∧
            now.step.2.stack = now.stack) ∧
      (now.halted = false → now.instruction? = some .ret → now.stack.depth = 0 →
        now.executed? .step = none ∧ now.step.1 = .error .stackUnderflow ∧
          now.step.2.stack = now.stack) := by
  intro es now
  have held : now.Tracks es :=
    continues_induction (fun _ _ _ here kept => here.act kept) history kept
      (tracks_of_load accepted)
  have depth : now.stack.depth = (pendingCalls es).length := by
    rw [← CallStack.length_entries, held.entries, List.length_map]
  refine ⟨⟨?_, now.stack.depth_le⟩, ?_, ?_, ?_⟩
  · have count := held.count
    rw [← depth] at count
    omega
  · intro signal next standing made
    obtain ⟨-, i, standing', done⟩ := step_eq_ok_iff.mp made
    obtain rfl : i = .ret := Option.some.inj (standing'.symm.trans standing)
    obtain ⟨pc, stack, popped, -, rfl⟩ := execute_ret_eq_ok_iff.mp done
    have entries : now.stack.entries = pc :: stack.entries := CallStack.entries_of_pop popped
    cases waiting : pendingCalls es with
    | nil =>
        rw [held.entries, waiting] at entries
        cases entries
    | cons call rest =>
        refine ⟨⟨call, lastOpenCall_iff.mpr ⟨rest, waiting⟩⟩, ?_⟩
        intro other last
        obtain ⟨others, waiting'⟩ := lastOpenCall_iff.mp last
        obtain ⟨rfl, -⟩ := List.cons.inj (waiting.symm.trans waiting')
        have inside := held.inside call (waiting ▸ List.mem_cons_self)
        rw [held.entries, waiting, List.map_cons, List.cons.injEq] at entries
        calc pc.toNat = (call.address + 2).toNat := congrArg UInt16.toNat entries.1.symm
          _ = call.address.toNat + 2 := Memory.toNat_add_two inside
  · intro target running standing full
    have failed := step_of_refusal running standing (if_pos full)
    exact ⟨executed?_step_of_error failed, by rw [failed], by rw [failed]; rfl⟩
  · intro running standing empty
    have failed := step_of_refusal running standing (if_pos empty)
    exact ⟨executed?_step_of_error failed, by rw [failed], by rw [failed]; rfl⟩

/-- A call inside a call, the inner one returned from: the next return goes on
behind the outer one. -/
theorem calls_and_returns_match_nested :
    let program : List UInt8 := [0x22, 0x04, 0x00, 0xEE, 0x22, 0x08, 0x00, 0xEE, 0x00, 0xEE]
    let m := (powerOn 0).loaded program
    let history : List Action := [.step, .tick, .step, .load (.replicate 4000 0), .step]
    (powerOn 0).load program = (.ok (), m) ∧ m.Continues history ∧
      (m.after history).instruction? = some .ret ∧
      ∃ signal next, (m.after history).step = (.ok signal, next) ∧ next.pc.toNat = 0x202 := by
  intro program m history
  have large : Memory.programCapacity < (List.replicate 4000 (0 : UInt8)).length := by
    rw [List.length_replicate]
    decide
  have accepted : (powerOn 0).load program = (.ok (), m) := load_of_fits (by decide)
  have kept : m.Continues history :=
    ⟨trivial, trivial, trivial, ⟨_, congrArg Prod.fst (load_of_large large)⟩, trivial, trivial⟩
  have executed : m.executions history =
      [⟨0x200, .call 0x204⟩, ⟨0x204, .call 0x208⟩, ⟨0x208, .ret⟩] := by decide +kernel
  have returning : (m.after history).executed? .step = some ⟨0x206, .ret⟩ := by decide +kernel
  obtain ⟨-, standing, signal, next, made⟩ := executed?_step_eq_some_iff.mp returning
  have outer : LastOpenCall (m.executions history) ⟨0x200, .call 0x204⟩ := by
    rw [executed]
    exact ⟨[], _, rfl, rfl, .nested rfl .nil rfl⟩
  refine ⟨accepted, kept, standing, signal, next, made, ?_⟩
  exact ((calls_and_returns_match accepted kept).2.1 signal next standing made).2 _ outer

end Machine

end ChipEight
