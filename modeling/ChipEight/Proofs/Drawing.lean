/-
# Drawing, seen from the pixels

Drawing scatters the bits of a sprite over the display and wraps what would fall
outside. Here it is told from the other side: a pixel looks up, by its distance from
the corner, the one bit that can fall on it. A sprite that an instruction draws has
eight columns and fewer rows than the display, so it never meets itself behind an
edge, and a pixel is toggled exactly if its bit is set. The flag is about the pixels
that are toggled, and the corner is read before the flag is written.
-/

import ChipEight.Proofs.Collision
import ChipEight.Proofs.Footprint

namespace ChipEight

namespace Registers

theorem flag_setFlag_eq_one_iff (r : Registers) (raised : Bool) :
    (r.setFlag raised).get flagRegister = 1 ↔ raised = true := by
  rw [setFlag, get_set_self]
  cases raised <;> decide

theorem flag_setFlag_eq_zero_iff (r : Registers) (raised : Bool) :
    (r.setFlag raised).get flagRegister = 0 ↔ ¬ raised = true := by
  rw [setFlag, get_set_self]
  cases raised <;> decide

end Registers

namespace Display

variable {a b : Nat} {rows : List UInt8}

/-- How far a coordinate is behind that of a corner, going on at the other edge of a
display of this size. -/
def behind (size corner coordinate : Nat) : Nat :=
  (((coordinate : Int) - corner) % size).toNat

/-- From the corner on, the coordinate at this distance is the only one within the
size of the display that wraps to the given one. -/
theorem add_mod_eq_iff_behind {size corner coordinate distance : Nat}
    (inside : coordinate < size) (near : distance < size) :
    (corner + distance) % size = coordinate ↔ distance = behind size corner coordinate := by
  have positive : (size : Int) ≠ 0 := by omega
  have read : (behind size corner coordinate : Int) = ((coordinate : Int) - corner) % size :=
    Int.toNat_of_nonneg (Int.emod_nonneg _ positive)
  have here : (coordinate : Int) % size = coordinate := Int.emod_eq_of_lt (by omega) (by omega)
  have apart : (distance : Int) % size = distance := Int.emod_eq_of_lt (by omega) (by omega)
  rw [← Int.natCast_inj, ← Int.natCast_inj (n := behind _ _ _), read]
  constructor
  · intro reached
    rw [← reached]
    push_cast
    rw [Int.emod_sub_emod, add_sub_cancel_left, apart]
  · intro distant
    push_cast
    rw [distant, Int.add_emod_emod, add_sub_cancel, here]

theorem behind_mod (size corner coordinate : Nat) :
    behind size (corner % size) coordinate = behind size corner coordinate := by
  rw [behind, behind, Int.natCast_emod, Int.sub_emod_emod]

/-- Whether the bit of a sprite that can fall on a pixel is set. -/
def covers (x y : Nat) (rows : List UInt8) (a b : Nat) : Prop :=
  (behind height y b, behind width x a) ∈ setBits rows

instance (x y : Nat) (rows : List UInt8) (a b : Nat) : Decidable (covers x y rows a b) :=
  inferInstanceAs (Decidable (_ ∈ _))

/-- At most one bit of a sprite that is not higher than the display falls on a pixel. -/
theorem card_hits (x y : Nat) (low : rows.length ≤ height) (ha : a < width) (hb : b < height) :
    (hits x y rows a b).card = if covers x y rows a b then 1 else 0 := by
  have only : ∀ bit ∈ setBits rows,
      ((x + bit.2) % width = a ∧ (y + bit.1) % height = b ↔
        bit = (behind height y b, behind width x a)) := by
    intro bit member
    obtain ⟨row, column⟩ := bit
    obtain ⟨inside, -⟩ := Finset.mem_filter.mp member
    obtain ⟨above, left⟩ := Finset.mem_product.mp inside
    have rowNear : row < height := Nat.lt_of_lt_of_le (Finset.mem_range.mp above) low
    have columnNear : column < width := Nat.lt_trans (Finset.mem_range.mp left) (by decide)
    rw [add_mod_eq_iff_behind ha columnNear, add_mod_eq_iff_behind hb rowNear, Prod.mk.injEq,
      and_comm]
  have gathered : hits x y rows a b =
      (setBits rows).filter (· = (behind height y b, behind width x a)) :=
    Finset.filter_congr only
  rw [gathered, Finset.filter_eq', apply_ite Finset.card, Finset.card_singleton,
    Finset.card_empty]
  rfl

/-- A drawing toggles the pixels that the sprite covers. -/
theorem lit_draw_ne_iff (d : Display) (x y : Nat) (low : rows.length ≤ height) (ha : a < width)
    (hb : b < height) :
    (d.draw x y rows).2.lit a b ≠ d.lit a b ↔ covers x y rows a b := by
  have parity := toNat_lit_draw d x y rows ha hb
  rw [card_hits x y low ha hb] at parity
  generalize (d.draw x y rows).2.lit a b = after, d.lit a b = before at parity ⊢
  by_cases covered : covers x y rows a b <;> cases before <;> cases after <;> simp_all

/-- A drawing collides exactly if it covers a pixel that was lit. -/
theorem fst_draw_iff_covers (d : Display) (x y : Nat) (low : rows.length ≤ height) :
    (d.draw x y rows).1 = true ↔
      ∃ a < width, ∃ b < height, covers x y rows a b ∧ d.lit a b = true := by
  rw [fst_draw_iff, erased_spots_pos_iff]
  have here (a b : Nat) (ha : a < width) (hb : b < height) :
      2 ≤ (hits x y rows a b).card + (d.lit a b).toNat ↔
        covers x y rows a b ∧ d.lit a b = true := by
    rw [card_hits x y low ha hb]
    by_cases covered : covers x y rows a b <;> cases d.lit a b <;> simp [covered]
  constructor
  · rintro ⟨a, ha, b, hb, twice⟩
    exact ⟨a, ha, b, hb, (here a b ha hb).mp twice⟩
  · rintro ⟨a, ha, b, hb, met⟩
    exact ⟨a, ha, b, hb, (here a b ha hb).mpr met⟩

end Display

namespace Machine

open Display

variable {m next : Machine} {signal : Signal} {x y : Register} {rows : Nibble}

/-- Whether the sprite of so many rows at the index has a set bit for a pixel when its
corner is where two registers say. -/
def SpriteCovers (m : Machine) (x y : Register) (rows : Nibble) (a b : Nat) : Prop :=
  let r := behind 32 (m.v y).toNat b
  let c := behind 64 (m.v x).toNat a
  r < rows.val ∧ c < 8 ∧ (m.memory.byteAt (m.index.val + r)).toNat.testBit (7 - c) = true

instance (m : Machine) (x y : Register) (rows : Nibble) (a b : Nat) :
    Decidable (m.SpriteCovers x y rows a b) :=
  inferInstanceAs (Decidable (_ ∧ _ ∧ _))

theorem execute_draw_eq_ok_iff :
    m.execute (.draw x y rows) = (.ok signal, next) ↔
      let drawing := m.display.draw ((m.v x).toNat % width) ((m.v y).toNat % height)
        (m.memory.span m.index.val rows.val)
      m.index.val + rows.val ≤ Memory.size ∧ signal = .draw ∧
        next = { m with display := drawing.2, registers := m.registers.setFlag drawing.1 } := by
  rw [execute, drawSprite, orFault_eq_ok_iff]
  constructor
  · rintro ⟨sprite, found, done⟩
    obtain ⟨inside, rfl⟩ := Memory.readRange_eq_ok_iff.mp found
    cases done
    exact ⟨inside, rfl, rfl⟩
  · rintro ⟨inside, rfl, rfl⟩
    exact ⟨_, Memory.readRange_eq_ok_iff.mpr ⟨inside, rfl⟩, rfl⟩

theorem covers_span_iff (m : Machine) (x y : Register) (rows : Nibble) (a b : Nat) :
    covers ((m.v x).toNat % width) ((m.v y).toNat % height)
        (m.memory.span m.index.val rows.val) a b ↔
      m.SpriteCovers x y rows a b := by
  rw [covers, behind_mod, behind_mod, setBits, Finset.mem_filter, Finset.mem_product,
    Finset.mem_range, Finset.mem_range, Memory.length_span, and_assoc]
  refine and_congr_right fun inside => ?_
  rw [Memory.getElem?_span _ _ inside]
  rfl

/-- A step that draws toggles the pixels for which the sprite at the index has a set bit
when its corner is where the registers say, and no others. It leaves one in the flag if
a pixel that it toggles was lit and zero if none was, also if the flag register has given
a coordinate; it goes on behind the instruction and reports that it drew. -/
theorem drawing_toggles_what_the_sprite_covers (found : m.fetched? = some (.ofNibbles 0xD x y rows))
    (made : m.step = (.ok signal, next)) :
    (∀ a < 64, ∀ b < 32,
      next.display.lit a b ≠ m.display.lit a b ↔ m.SpriteCovers x y rows a b) ∧
      (next.v 0xF = 1 ↔
        ∃ a < 64, ∃ b < 32, m.SpriteCovers x y rows a b ∧ m.display.lit a b = true) ∧
      (next.v 0xF = 0 ↔
        ¬ ∃ a < 64, ∃ b < 32, m.SpriteCovers x y rows a b ∧ m.display.lit a b = true) ∧
      next.pc.toNat = m.pc.toNat + 2 ∧ signal = .draw := by
  have inside := (fetched?_eq_some_iff.mp found).1
  obtain ⟨-, done⟩ := (step_eq_ok_iff_execute (i := .draw x y rows) found).mp made
  obtain ⟨-, rfl, rfl⟩ := execute_draw_eq_ok_iff.mp done
  have low : (m.memory.span m.index.val rows.val).length ≤ height := by
    rw [Memory.length_span]
    exact Nat.le_trans (Nat.le_of_lt rows.isLt) (by decide)
  have collided :=
    fst_draw_iff_covers m.display ((m.v x).toNat % width) ((m.v y).toNat % height) low
  simp only [covers_span_iff] at collided
  refine ⟨fun a ha b hb => ?_, ?_, ?_, Memory.toNat_add_two inside, rfl⟩
  · exact (lit_draw_ne_iff m.display _ _ low ha hb).trans (covers_span_iff m x y rows a b)
  · exact (Registers.flag_setFlag_eq_one_iff ..).trans collided
  · exact (Registers.flag_setFlag_eq_zero_iff ..).trans (not_congr collided)

/-- The top of the font's picture of zero is drawn over the corner of the display and then
once more, with the flag register as both coordinates: the first drawing lights pixels
behind both edges and leaves zero in the flag, the second turns them dark and leaves one. -/
theorem drawing_toggles_what_the_sprite_covers_twice :
    let program : List UInt8 := [0x6F, 0x3F, 0xDF, 0xF2, 0x6F, 0x3F, 0xDF, 0xF2]
    let m := (powerOn 0).loaded program
    let first := m.after [.step]
    let second := m.after [.step, .step, .step]
    first.fetched? = some (.ofNibbles 0xD 0xF 0xF 2) ∧
      second.fetched? = some (.ofNibbles 0xD 0xF 0xF 2) ∧
      ∃ next last, first.step = (.ok .draw, next) ∧ second.step = (.ok .draw, last) ∧
        next.display.lit 2 0 = true ∧ next.v 0xF = 0 ∧
        last.display.lit 2 0 = false ∧ last.v 0xF = 1 := by
  intro program m first second
  have opening : m.step = (.ok .proceed, m.advance.setV 0xF 0x3F) :=
    (step_eq_ok_iff_execute (i := .setByte 0xF 0x3F) (by decide +kernel)).mpr ⟨rfl, rfl⟩
  have blank : first.display = .dark := congrArg (fun outcome => outcome.2.display) opening
  obtain ⟨drawing, covered⟩ : first.executed? .step = some ⟨0x202, .draw 0xF 0xF 2⟩ ∧
      first.SpriteCovers 0xF 0xF 2 2 0 := by decide +kernel
  obtain ⟨erasing, lit, again⟩ : second.executed? .step = some ⟨0x206, .draw 0xF 0xF 2⟩ ∧
      second.display.lit 2 0 = true ∧ second.SpriteCovers 0xF 0xF 2 2 0 := by decide +kernel
  obtain ⟨-, found, signal, next, made⟩ := fetched?_of_executed? drawing
  obtain ⟨-, refound, signal', last, remade⟩ := fetched?_of_executed? erasing
  obtain ⟨toggled, -, kept, -, rfl⟩ := drawing_toggles_what_the_sprite_covers found made
  obtain ⟨toggled', met, -, -, rfl⟩ := drawing_toggles_what_the_sprite_covers refound remade
  refine ⟨found, refound, next, last, made, remade, ?_, kept.mpr ?_, ?_, met.mpr ?_⟩
  · have changed := (toggled 2 (by decide) 0 (by decide)).mpr covered
    rw [blank, lit_dark] at changed
    exact Bool.eq_true_of_not_eq_false changed
  · rintro ⟨a, -, b, -, -, before⟩
    rw [blank, lit_dark] at before
    cases before
  · have changed := (toggled' 2 (by decide) 0 (by decide)).mpr again
    rw [lit] at changed
    exact Bool.eq_false_of_not_eq_true changed
  · exact ⟨2, by decide, 0, by decide, again, lit⟩

end Machine

end ChipEight
