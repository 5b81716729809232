/-
# Pictures are parities

A display that starts dark shows, at any time, which pixels were hit an odd number
of times since it was last cleared. The count does not say when a pixel was hit, so
sprites may be drawn in any order, and it doubles when everything is drawn again,
which leaves the picture as it was. Nor does it say how far outside the display a
corner was given, as long as that is by whole widths and heights.
-/

import ChipEight.Proofs.Toggling
import Mathlib.Algebra.Ring.Parity

namespace ChipEight

/-- A sprite and the place of its corner. -/
structure Sprite where
  /-- The column of the corner, not yet wrapped. -/
  x : Nat
  /-- The row of the corner, not yet wrapped. -/
  y : Nat
  /-- The rows from the top. -/
  rows : List UInt8
  deriving DecidableEq

/-- What can be done to a display. -/
inductive DisplayEdit
  | clear
  | draw (sprite : Sprite)
  deriving DecidableEq

namespace DisplayEdit

/-- The sprites drawn since the last clearing, after one more edit. -/
def follow (sprites : List Sprite) : DisplayEdit → List Sprite
  | .clear => []
  | .draw sprite => sprites ++ [sprite]

/-- The sprites that were drawn since the display was last cleared, in order. -/
def sinceClear (edits : List DisplayEdit) : List Sprite :=
  edits.foldl follow []

end DisplayEdit

namespace Display

open DisplayEdit

variable {a b : Nat}

/-- The display after one edit. -/
def edit (d : Display) : DisplayEdit → Display
  | .clear => .dark
  | .draw sprite => (d.draw sprite.x sprite.y sprite.rows).2

/-- The display after edits. -/
def edited (d : Display) (edits : List DisplayEdit) : Display :=
  edits.foldl edit d

/-- The display after sprites were drawn on it. -/
def drawn (d : Display) (sprites : List Sprite) : Display :=
  d.edited (sprites.map .draw)

/-- How often sprites hit a pixel: the number of their set bits that fall on it. -/
def hitCount (sprites : List Sprite) (a b : Nat) : Nat :=
  (sprites.map fun s => (hits s.x s.y s.rows a b).card).sum

theorem edited_append (d : Display) (earlier later : List DisplayEdit) :
    d.edited (earlier ++ later) = (d.edited earlier).edited later :=
  List.foldl_append

theorem drawn_append (d : Display) (earlier later : List Sprite) :
    d.drawn (earlier ++ later) = (d.drawn earlier).drawn later := by
  rw [drawn, List.map_append, edited_append]
  rfl

/-- Edits of a display on which sprites were drawn since it was cleared leave the
display on which those were drawn that count then. -/
theorem edited_drawn (sprites : List Sprite) (edits : List DisplayEdit) :
    (dark.drawn sprites).edited edits = dark.drawn (edits.foldl follow sprites) := by
  induction edits generalizing sprites with
  | nil => rfl
  | cons e rest ih =>
      have one : (dark.drawn sprites).edit e = dark.drawn (follow sprites e) := by
        cases e with
        | clear => rfl
        | draw sprite => exact (drawn_append dark sprites [sprite]).symm
      rw [List.foldl_cons, ← ih, ← one]
      rfl

/-- Only what was drawn since the last clearing shows. -/
theorem edited_dark (edits : List DisplayEdit) :
    dark.edited edits = dark.drawn (sinceClear edits) :=
  edited_drawn [] edits

theorem hitCount_cons (s : Sprite) (sprites : List Sprite) (a b : Nat) :
    hitCount (s :: sprites) a b = (hits s.x s.y s.rows a b).card + hitCount sprites a b :=
  List.sum_cons

theorem hitCount_append (earlier later : List Sprite) (a b : Nat) :
    hitCount (earlier ++ later) a b = hitCount earlier a b + hitCount later a b := by
  rw [hitCount, List.map_append, List.sum_append]
  rfl

theorem hitCount_perm {sprites others : List Sprite} (same : sprites.Perm others) (a b : Nat) :
    hitCount sprites a b = hitCount others a b :=
  (same.map _).sum_eq

/-- Sprites leave a pixel as the parity of their hits, where having been lit at first
counts as one more. -/
theorem toNat_lit_drawn (d : Display) (sprites : List Sprite) (ha : a < 64) (hb : b < 32) :
    ((d.drawn sprites).lit a b).toNat = (hitCount sprites a b + (d.lit a b).toNat) % 2 := by
  induction sprites generalizing d with
  | nil => cases lit : d.lit a b <;> simp [drawn, edited, hitCount, lit]
  | cons s sprites ih =>
      calc ((d.drawn (s :: sprites)).lit a b).toNat
          = (hitCount sprites a b + ((d.draw s.x s.y s.rows).2.lit a b).toNat) % 2 := ih _
        _ = (hitCount (s :: sprites) a b + (d.lit a b).toNat) % 2 := by
            rw [toNat_lit_draw d s.x s.y s.rows ha hb, hitCount_cons]
            omega

/-- Sprites whose hits have the same parity everywhere draw the same picture. -/
theorem drawn_congr (d : Display) {sprites others : List Sprite}
    (same : ∀ a < 64, ∀ b < 32, hitCount sprites a b % 2 = hitCount others a b % 2) :
    d.drawn sprites = d.drawn others := by
  refine ext_lit fun a ha b hb => Bool.eq_iff_iff.mpr ?_
  rw [← Bool.toNat_eq_one, ← Bool.toNat_eq_one, toNat_lit_drawn d sprites ha hb,
    toNat_lit_drawn d others ha hb, Nat.add_mod, same a ha b hb, ← Nat.add_mod]

/-- Drawing everything once more takes it back. -/
theorem drawn_drawn (d : Display) (sprites : List Sprite) :
    (d.drawn sprites).drawn sprites = d := by
  rw [← drawn_append]
  -- everything is hit twice as often, so as evenly as if nothing were drawn
  show _ = d.drawn []
  refine d.drawn_congr fun a _ b _ => ?_
  rw [hitCount_append]
  show _ = 0
  omega

/-! ## Corners far outside -/

theorem place_shift (x y i j : Nat) : place (x + 64 * i) (y + 32 * j) = place x y :=
  place_eq_iff.mpr ⟨Nat.add_mul_mod_self_left .., Nat.add_mul_mod_self_left ..⟩

theorem spots_shift (x y i j : Nat) (rows : List UInt8) :
    spots (x + 64 * i) (y + 32 * j) rows =
      (spots x y rows).map fun spot => (spot.1 + 64 * i, spot.2 + 32 * j) := by
  induction rows generalizing y with
  | nil => rfl
  | cons row rows ih =>
      rw [spots, spots, List.map_append, List.map_map, Nat.add_right_comm y, ih (y + 1)]
      simp [Function.comp_def, Nat.add_right_comm x]

theorem toggleAll_shift (collided : Bool) (d : Display) (toggled : List (Nat × Nat)) (i j : Nat) :
    d.toggleAll collided (toggled.map fun spot => (spot.1 + 64 * i, spot.2 + 32 * j)) =
      d.toggleAll collided toggled := by
  induction toggled generalizing collided d with
  | nil => rfl
  | cons spot rest ih =>
      simp only [List.map_cons, toggleAll, toggle, lit, place_shift, ih]

/-- A sprite is drawn the same, and collides the same, when its corner is moved by whole
widths and heights. -/
theorem draw_shift (d : Display) (x y i j : Nat) (rows : List UInt8) :
    d.draw (x + 64 * i) (y + 32 * j) rows = d.draw x y rows := by
  rw [draw, spots_shift, toggleAll_shift, draw]

/-- After any edits of a dark display, a pixel is lit exactly if the sprites drawn since
the last clearing hit it an odd number of times. So sprites that are drawn one after
the other may change places, drawing some of them once more takes them back, and whole
widths and heights in the place of a corner make no difference. -/
theorem picture_shows_parities :
    (∀ edits, ∀ a < 64, ∀ b < 32,
      (dark.edited edits).lit a b = true ↔ Odd (hitCount (sinceClear edits) a b)) ∧
      (∀ earlier later (sprites others : List Sprite), sprites.Perm others →
        dark.edited (earlier ++ sprites.map .draw ++ later) =
          dark.edited (earlier ++ others.map .draw ++ later)) ∧
      (∀ d sprites, drawn (drawn d sprites) sprites = d) ∧
      ∀ d x y i j rows, draw d (x + 64 * i) (y + 32 * j) rows = draw d x y rows := by
  refine ⟨fun edits a ha b hb => ?_, fun earlier later sprites others same => ?_, drawn_drawn,
    draw_shift⟩
  · rw [← Bool.toNat_eq_one, edited_dark, toNat_lit_drawn _ _ ha hb, lit_dark, Nat.odd_iff]
    rfl
  · have between : (dark.edited earlier).drawn sprites = (dark.edited earlier).drawn others :=
      drawn_congr _ fun a _ b _ => congrArg (· % 2) (hitCount_perm same a b)
    simp only [edited_append]
    exact congrArg (edited · later) between

/-- A sprite over the corner and one of thirty-three rows, whose last row falls on its
first: where they meet, and where the tall one meets itself, the display stays dark. -/
theorem picture_shows_parities_wrapping :
    let wide : Sprite := ⟨60, 31, [0xFF, 0x81]⟩
    let tall : Sprite := ⟨0, 0, List.replicate 33 0x80⟩
    let picture := dark.edited [.draw tall, .clear, .draw wide, .draw tall]
    picture.lit 0 5 = true ∧ ¬ picture.lit 0 31 = true ∧ ¬ picture.lit 0 0 = true ∧
      picture = dark.edited [.draw tall, .clear, .draw tall, .draw wide] := by
  intro wide tall picture
  obtain ⟨parities, swapped, -⟩ := picture_shows_parities
  have lit := parities [.draw tall, .clear, .draw wide, .draw tall]
  refine ⟨(lit 0 (by decide) 5 (by decide)).mpr (by decide +kernel), ?_, ?_, ?_⟩
  · exact fun on => absurd ((lit 0 (by decide) 31 (by decide)).mp on) (by decide +kernel)
  · exact fun on => absurd ((lit 0 (by decide) 0 (by decide)).mp on) (by decide +kernel)
  · exact swapped [.draw tall, .clear] [] [wide, tall] [tall, wide] (.swap ..)

end Display

end ChipEight
