/-
# What toggles add up to

Drawing works through the set bits of a sprite one after the other, each toggling
the pixel that its coordinates wrap to. What comes out is told by counting: how many
set bits fall on a pixel decides how the pixel ends, and how many toggles meet a lit
pixel decides how many pixels are lit. The counts are taken over the rows and columns
of the sprite as it is given, so nothing of the order in which a drawing works, nor
of the grid behind it, is left in them. A sprite may be larger than the display and
wrap onto itself.
-/

import ChipEight.Machine.Display
import Mathlib.Algebra.BigOperators.Group.Finset.Piecewise
import Mathlib.Algebra.BigOperators.Group.Finset.Sigma

namespace ChipEight

namespace Display

/-- The set bits of a sprite, by row and column from its corner. The highest bit of a
row is in the leftmost column. -/
def setBits (rows : List UInt8) : Finset (Nat × Nat) :=
  (Finset.range rows.length ×ˢ Finset.range 8).filter fun bit =>
    (rows[bit.1]?.getD 0).toNat.testBit (7 - bit.2)

/-- The set bits that fall on a pixel when the corner of the sprite is at `(x, y)`. -/
def hits (x y : Nat) (rows : List UInt8) (a b : Nat) : Finset (Nat × Nat) :=
  (setBits rows).filter fun bit => (x + bit.2) % 64 = a ∧ (y + bit.1) % 32 = b

/-! ## The spots of a sprite are its set bits -/

theorem countP_range (p : Nat → Bool) (n : Nat) :
    (List.range n).countP p = ∑ c ∈ Finset.range n, if p c then 1 else 0 := by
  induction n with
  | zero => rfl
  | succ n ih => rw [List.range_succ, List.countP_append, List.countP_singleton, ih,
      Finset.sum_range_succ]

theorem countP_row (p : Nat × Nat → Bool) (x y : Nat) (row : UInt8) :
    ((rowColumns row).map fun c => (x + c, y)).countP p =
      ∑ c ∈ Finset.range 8, if row.toNat.testBit (7 - c) ∧ p (x + c, y) then 1 else 0 := by
  rw [List.countP_map, rowColumns, List.countP_filter, countP_range]
  simp [and_comm]

/-- Toggles with a property are set bits with this property. -/
theorem countP_spots (p : Nat × Nat → Bool) (x y : Nat) (rows : List UInt8) :
    (spots x y rows).countP p =
      ((setBits rows).filter fun bit => p (x + bit.2, y + bit.1)).card := by
  rw [setBits, Finset.filter_filter, Finset.card_filter, Finset.sum_product]
  induction rows generalizing y with
  | nil => rfl
  | cons row rows ih =>
      have below (r : Nat) : y + 1 + r = y + (r + 1) := Nat.add_right_comm y 1 r
      rw [spots, List.countP_append, countP_row, ih (y + 1), List.length_cons,
        Finset.sum_range_succ' _ rows.length, Nat.add_comm]
      simp only [below]
      rfl

/-- Whether coordinates are those of a pixel. -/
def names (a b : Nat) (spot : Nat × Nat) : Bool :=
  spot.1 % 64 = a ∧ spot.2 % 32 = b

theorem length_spots (x y : Nat) (rows : List UInt8) :
    (spots x y rows).length = (setBits rows).card := by
  rw [← List.countP_true, countP_spots]
  simp

theorem countP_names_spots (x y : Nat) (rows : List UInt8) (a b : Nat) :
    (spots x y rows).countP (names a b) = (hits x y rows a b).card := by
  rw [countP_spots]
  simp [names, hits]

/-! ## One toggle and many -/

variable {a b : Nat}

/-- A toggle switches the pixel that its coordinates name. -/
theorem lit_toggle_eq (d : Display) (spot : Nat × Nat) (ha : a < 64) (hb : b < 32) :
    (d.toggle spot.1 spot.2).lit a b = (d.lit a b ^^ names a b spot) := by
  rw [lit_toggle, Nat.mod_eq_of_lt ha, Nat.mod_eq_of_lt hb]
  by_cases named : spot.1 % 64 = a ∧ spot.2 % 32 = b <;> simp [names, named]

/-- A pixel ends as the parity of the toggles that name it, where having been lit at
first counts as one more. -/
theorem toNat_lit_toggleAll (collided : Bool) (d : Display) (toggled : List (Nat × Nat))
    (ha : a < 64) (hb : b < 32) :
    ((d.toggleAll collided toggled).2.lit a b).toNat =
      (toggled.countP (names a b) + (d.lit a b).toNat) % 2 := by
  induction toggled generalizing collided d with
  | nil => cases lit : d.lit a b <;> simp [toggleAll, lit]
  | cons spot rest ih =>
      rw [toggleAll, ih, lit_toggle_eq d spot ha hb, List.countP_cons]
      cases names a b spot <;> cases d.lit a b <;> simp [Nat.add_assoc]

/-- How a drawing leaves a pixel, in terms of the set bits that fall on it. -/
theorem toNat_lit_draw (d : Display) (x y : Nat) (rows : List UInt8) (ha : a < 64) (hb : b < 32) :
    ((d.draw x y rows).2.lit a b).toNat =
      ((hits x y rows a b).card + (d.lit a b).toNat) % 2 := by
  rw [draw, toNat_lit_toggleAll _ _ _ ha hb, countP_names_spots]

end Display

end ChipEight
