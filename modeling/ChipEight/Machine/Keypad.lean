/-
# The keypad

Sixteen keys, each up or down. The state is a mask with one bit for a key, and
`isDown` is the view of it as a set of keys. Numbers that name no key are never
down, and a number from outside becomes a key only after a check.
-/

import ChipEight.Numeral

namespace ChipEight

/-- A key by its number. -/
abbrev Key := Fin 16

namespace Key

/-- The key with a given number, if there is one. -/
def ofNat? (n : Nat) : Option Key :=
  if inside : n < 16 then some ⟨n, inside⟩ else none

/-- What is said of a number that names no key. -/
def invalidMessage : String :=
  "keycode must be in range 0 <= keycode < 16"

/-- The name of a key: its number as one lower-case digit behind the letter k. -/
def name (k : Key) : List Char :=
  ['k', Numeral.lowerDigit k.val]

/-- All keys by number. -/
def all : List Key :=
  List.finRange 16

end Key

/-- Which keys are down. -/
structure Keypad where
  /-- The mask: bit `k` is set when key `k` is down. -/
  mask : BitVec 16
  deriving DecidableEq

namespace Keypad

/-- The keypad with every key up. -/
def released : Keypad := ⟨0⟩

/-- Put one key down or up. -/
def setKey (p : Keypad) (k : Key) (down : Bool) : Keypad :=
  if down then ⟨p.mask ||| BitVec.twoPow 16 k.val⟩
  else ⟨p.mask &&& ~~~BitVec.twoPow 16 k.val⟩

/-- Whether the key with the given number is down. -/
def isDown (p : Keypad) (n : Nat) : Bool :=
  p.mask.getLsbD n

/-- Whether some key is down. -/
def anyDown (p : Keypad) : Bool :=
  p.mask != 0

/-- The key with the smallest number of those that are down. -/
def firstDown? (p : Keypad) : Option Key :=
  Key.all.find? fun k => p.isDown k.val

/-- The keys that are down, by number. -/
def keysDown (p : Keypad) : List Key :=
  Key.all.filter fun k => p.isDown k.val

/-- The mask as a number. -/
def bits (p : Keypad) : Nat :=
  p.mask.toNat

/-! ## The set of keys that are down -/

@[simp]
theorem isDown_released (n : Nat) : released.isDown n = false := by
  simp [isDown, released]

/-- Setting a key decides about that key and leaves the others alone. -/
theorem isDown_setKey (p : Keypad) (k : Key) (down : Bool) (n : Nat) :
    (p.setKey k down).isDown n = if n = k.val then down else p.isDown n := by
  by_cases same : n = k.val
  · have inside : k.val < 16 := k.isLt
    cases down <;> simp [setKey, isDown, same]
  · rw [if_neg same]
    by_cases inside : n < 16
    · cases down <;> simp [setKey, isDown, inside, same]
    · cases down <;> simp [isDown, BitVec.getLsbD_of_ge _ n (Nat.le_of_not_lt inside)]

/-- No number past the keypad names a key that is down. -/
theorem isDown_of_le (p : Keypad) {n : Nat} (outside : 16 ≤ n) : p.isDown n = false :=
  BitVec.getLsbD_of_ge p.mask n outside

/-- Two keypads with the same keys down are equal. -/
theorem ext_isDown {p q : Keypad} (same : ∀ k : Key, p.isDown k.val = q.isDown k.val) : p = q := by
  obtain ⟨mask⟩ := p
  obtain ⟨mask'⟩ := q
  congr 1
  apply BitVec.eq_of_getLsbD_eq
  intro n inside
  exact same ⟨n, inside⟩

end Keypad

end ChipEight
