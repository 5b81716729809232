/-
# The call stack

Calls leave the address to return to in one of sixteen slots, below a cursor
that counts the calls that are pending. Taking an address back moves the cursor
and leaves the slot as it is, so the slots from the cursor on hold what earlier
calls left there. The view of the stack is the list of its live entries, which
no such slot can show up in. A full stack refuses another entry and an empty one
has none to give back.
-/

import ChipEight.Fault

namespace ChipEight

/-- The slots for return addresses and the number of them that are in use. -/
structure CallStack where
  /-- The addresses left by calls, also those that were returned to since. -/
  slots : Vector UInt16 16
  /-- The number of calls that are pending. -/
  depth : Nat
  /-- At most sixteen calls are pending. -/
  depth_le : depth ≤ 16
  deriving DecidableEq

namespace CallStack

/-- The number of calls that can be pending. -/
def capacity : Nat := 16

/-- The stack with no call pending and every slot zero. -/
def empty : CallStack :=
  ⟨Vector.replicate 16 0, 0, Nat.zero_le 16⟩

/-- Whether no call is pending. -/
def isEmpty (s : CallStack) : Bool :=
  s.depth == 0

/-- The pending return addresses, the most recent one first. -/
def entries (s : CallStack) : List UInt16 :=
  (s.slots.toList.take s.depth).reverse

/-- Leave a return address in the slot at the cursor. -/
def push (s : CallStack) (address : UInt16) : Except Fault CallStack :=
  if room : s.depth < 16 then .ok ⟨s.slots.set s.depth address, s.depth + 1, room⟩
  else .error .stackOverflow

/-- Take the most recent return address. -/
def pop (s : CallStack) : Except Fault (UInt16 × CallStack) :=
  match s with
  | ⟨_, 0, _⟩ => .error .stackUnderflow
  | ⟨slots, depth + 1, bound⟩ => .ok (slots[depth], ⟨slots, depth, Nat.le_of_succ_le bound⟩)

/-! ## The live entries -/

@[simp]
theorem length_entries (s : CallStack) : s.entries.length = s.depth := by
  simp [entries, s.depth_le]

@[simp]
theorem entries_empty : empty.entries = [] := rfl

/-- A push puts the address in front of the live entries. -/
theorem entries_of_push {s t : CallStack} {address : UInt16}
    (pushed : s.push address = .ok t) : t.entries = address :: s.entries := by
  unfold push at pushed
  split at pushed
  · next room =>
      cases pushed
      have below : List.take s.depth (s.slots.toList.set s.depth address) =
          List.take s.depth s.slots.toList := List.take_set_of_le (Nat.le_refl _)
      simp [entries, List.take_add_one, Vector.toList_set, below, room]
  · cases pushed

/-- A pop takes the address in front and leaves the other live entries. -/
theorem entries_of_pop {s t : CallStack} {address : UInt16}
    (popped : s.pop = .ok (address, t)) : s.entries = address :: t.entries := by
  obtain ⟨slots, depth, bound⟩ := s
  cases depth with
  | zero => cases popped
  | succ depth =>
      cases popped
      have inside : depth < 16 := bound
      simp [entries, List.take_add_one, inside]

/-- Exactly a full stack refuses an address. -/
theorem push_eq_error_iff {s : CallStack} {address : UInt16} {fault : Fault} :
    s.push address = .error fault ↔ s.depth = capacity ∧ fault = .stackOverflow := by
  have bound := s.depth_le
  unfold push
  split
  · next room => simp [capacity, Nat.ne_of_lt room]
  · next full => simp [capacity, show s.depth = 16 by omega, eq_comm]

/-- Exactly an empty stack has no address to give back. -/
theorem pop_eq_error_iff {s : CallStack} {fault : Fault} :
    s.pop = .error fault ↔ s.depth = 0 ∧ fault = .stackUnderflow := by
  obtain ⟨slots, depth, bound⟩ := s
  cases depth <;> simp [pop, eq_comm]

end CallStack

end ChipEight
