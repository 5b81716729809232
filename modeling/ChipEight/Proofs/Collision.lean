/-
# When a drawing collides

A toggle that meets a lit pixel turns it dark, so it takes one from the number of lit
pixels where it would have added one. The number of such toggles is therefore half of
what is missing at the end, and a drawing collides exactly if there is one. They can be
found without following the drawing: a pixel is turned dark at some time exactly if it
was lit at first and is hit, or is hit twice. A sprite that wraps onto itself collides
with itself.
-/

import ChipEight.Proofs.Toggling

namespace ChipEight

namespace Display

variable {a b : Nat}

/-- The number of toggles that turn a lit pixel dark, as the given coordinates are
toggled in turn. -/
def erased (d : Display) : List (Nat × Nat) → Nat
  | [] => 0
  | (x, y) :: rest => (d.lit x y).toNat + (d.toggle x y).erased rest

/-- A toggle adds a lit pixel, or takes one away where the pixel was lit. -/
theorem litCount_toggle (d : Display) (x y : Nat) :
    (d.toggle x y).litCount + 2 * (d.lit x y).toNat = d.litCount + 1 := by
  have counted : (d.toggle x y).litCount =
      (d.litCount - (if d.lit x y == true then 1 else 0)) +
        (if (!d.lit x y) == true then 1 else 0) := Vector.count_set _
  cases lit : d.lit x y with
  | false => simpa [lit] using counted
  | true =>
      have some : 1 ≤ d.litCount := by
        have member : d.lit x y ∈ d.pixels := Vector.getElem_mem _
        exact Vector.one_le_count_iff.mpr (lit ▸ member)
      simp only [lit] at counted
      simp at counted ⊢
      omega

theorem litCount_toggleAll (collided : Bool) (d : Display) (toggled : List (Nat × Nat)) :
    (d.toggleAll collided toggled).2.litCount + 2 * d.erased toggled =
      d.litCount + toggled.length := by
  induction toggled generalizing collided d with
  | nil => rfl
  | cons spot rest ih =>
      obtain ⟨x, y⟩ := spot
      have one := litCount_toggle d x y
      have others := ih (collided || d.lit x y) (d.toggle x y)
      rw [toggleAll, erased, List.length_cons]
      omega

theorem fst_toggleAll_iff (collided : Bool) (d : Display) (toggled : List (Nat × Nat)) :
    (d.toggleAll collided toggled).1 = true ↔ collided = true ∨ 0 < d.erased toggled := by
  induction toggled generalizing collided d with
  | nil => simp [toggleAll, erased]
  | cons spot rest ih =>
      obtain ⟨x, y⟩ := spot
      rw [toggleAll, ih, erased]
      cases d.lit x y with
      | false => simp
      | true => simp [Nat.add_comm 1]

theorem lit_mod (d : Display) (x y : Nat) : d.lit (x % 64) (y % 32) = d.lit x y := by
  have same : place (x % 64) (y % 32) = place x y :=
    place_eq_iff.mpr ⟨Nat.mod_mod .., Nat.mod_mod ..⟩
  simp only [lit, same]

theorem lit_of_names (d : Display) {spot : Nat × Nat} (named : names a b spot = true) :
    d.lit a b = d.lit spot.1 spot.2 := by
  obtain ⟨rfl, rfl⟩ := of_decide_eq_true named
  exact lit_mod d spot.1 spot.2

/-- Nothing is turned dark exactly if no pixel is named twice, where having been lit at
first counts as once. -/
theorem erased_eq_zero_iff (d : Display) (toggled : List (Nat × Nat)) :
    d.erased toggled = 0 ↔
      ∀ a < 64, ∀ b < 32, toggled.countP (names a b) + (d.lit a b).toNat ≤ 1 := by
  induction toggled generalizing d with
  | nil => simp [erased, Bool.toNat_le]
  | cons spot rest ih =>
      obtain ⟨x, y⟩ := spot
      rw [erased]
      cases lit : d.lit x y with
      | true =>
          have own : names (x % 64) (y % 32) (x, y) = true := decide_eq_true ⟨rfl, rfl⟩
          constructor
          · intro none
            simp at none
          · intro few
            have here := few (x % 64) (Nat.mod_lt _ (by decide)) (y % 32)
              (Nat.mod_lt _ (by decide))
            rw [List.countP_cons_of_pos own, lit_mod, lit] at here
            simp at here
      | false =>
          -- the pixel that is named now is lit for the rest, so it counts as often as before
          have moved (a : Nat) (ha : a < 64) (b : Nat) (hb : b < 32) :
              rest.countP (names a b) + ((d.toggle x y).lit a b).toNat =
                ((x, y) :: rest).countP (names a b) + (d.lit a b).toNat := by
            rw [lit_toggle_eq d (x, y) ha hb]
            cases named : names a b (x, y) with
            | true =>
                rw [List.countP_cons_of_pos named, lit_of_names d named, lit]
                rfl
            | false =>
                rw [List.countP_cons_of_neg (by simp [named]), Bool.xor_false]
          rw [Bool.toNat_false, Nat.zero_add, ih]
          constructor
          · intro few a ha b hb
            rw [← moved a ha b hb]
            exact few a ha b hb
          · intro few a ha b hb
            rw [moved a ha b hb]
            exact few a ha b hb

/-- A drawing leaves as many lit pixels as there were and as it has set bits, less two
for each pixel that it turns dark on the way. -/
theorem litCount_draw (d : Display) (x y : Nat) (rows : List UInt8) :
    (d.draw x y rows).2.litCount + 2 * d.erased (spots x y rows) =
      d.litCount + (setBits rows).card := by
  rw [← length_spots x y rows]
  exact litCount_toggleAll false d _

theorem fst_draw_iff (d : Display) (x y : Nat) (rows : List UInt8) :
    (d.draw x y rows).1 = true ↔ 0 < d.erased (spots x y rows) := by
  rw [draw, fst_toggleAll_iff]
  simp

/-- Some pixel is turned dark on the way exactly if one that was lit is hit, or one is
hit twice. -/
theorem erased_spots_pos_iff (d : Display) (x y : Nat) (rows : List UInt8) :
    0 < d.erased (spots x y rows) ↔
      ∃ a < 64, ∃ b < 32, 2 ≤ (hits x y rows a b).card + (d.lit a b).toNat := by
  rw [Nat.pos_iff_ne_zero, Ne, erased_eq_zero_iff]
  simp only [countP_names_spots, not_forall, Nat.not_le, exists_prop]
  rfl

/-- A drawing tells that it collided exactly if a pixel that was lit is hit, or one is
hit twice; equivalently, if fewer pixels are lit in the end than were before and were
added as set bits. Of these an even number is missing, so at least two if any. -/
theorem draw_collides_iff (d : Display) (x y : Nat) (rows : List UInt8) :
    let collided := (d.draw x y rows).1
    let after := (d.draw x y rows).2
    let most := d.litCount + (setBits rows).card
    (collided = true ↔
        ∃ a < 64, ∃ b < 32, 2 ≤ (hits x y rows a b).card + (d.lit a b).toNat) ∧
      (collided = false ↔ after.litCount = most) ∧
      (collided = true ↔ after.litCount + 2 ≤ most) ∧
      after.litCount ≤ most ∧ after.litCount % 2 = most % 2 := by
  intro collided after most
  have count : after.litCount + 2 * d.erased (spots x y rows) = most := litCount_draw d x y rows
  have flag : collided = true ↔ 0 < d.erased (spots x y rows) := fst_draw_iff d x y rows
  refine ⟨flag.trans (erased_spots_pos_iff d x y rows), ?_, ?_, ?_, ?_⟩
  · rw [← Bool.not_eq_true, flag]
    omega
  · rw [flag]
    omega
  · omega
  · omega

/-- The last of thirty-three rows falls on the first, so this sprite collides with itself. -/
example : (dark.draw 60 7 (List.replicate 33 0x80)).1 = true := by
  refine (fst_draw_iff ..).mpr ((erased_spots_pos_iff ..).mpr ⟨60, by decide, 7, by decide, ?_⟩)
  decide +kernel

end Display

end ChipEight
