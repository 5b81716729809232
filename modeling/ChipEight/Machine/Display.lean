/-
# The display

A grid of 64 by 32 pixels, each lit or dark, whose edges are joined: a
coordinate is always taken modulo the width or the height. A sprite is a list
of rows of eight pixels. Drawing one toggles a pixel for every set bit, so a
pixel's state is the parity of the toggles since the display was last dark;
a drawing collides when some toggle turns a lit pixel dark.
-/

import ChipEight.Instruction.Word

namespace ChipEight

/-- The state of every pixel. -/
structure Display where
  /-- The pixels row by row: pixel `(x, y)` stands at `x + 64 * y`. -/
  pixels : Vector Bool 2048
  deriving DecidableEq

namespace Display

/-- The number of pixels in a row. -/
def width : Nat := 64

/-- The number of rows. -/
def height : Nat := 32

/-- The number of pixels. -/
def pixelCount : Nat := width * height

/-- The display with every pixel dark. -/
def dark : Display :=
  ⟨Vector.replicate 2048 false⟩

/-- The place of a pixel in the grid, with both coordinates wrapped. -/
def place (x y : Nat) : Fin 2048 :=
  ⟨x % 64 + y % 32 * 64, by omega⟩

/-- Whether the pixel at the wrapped coordinates is lit. -/
def lit (d : Display) (x y : Nat) : Bool :=
  d.pixels[place x y]

/-- Switch the pixel at the wrapped coordinates. -/
def toggle (d : Display) (x y : Nat) : Display :=
  ⟨d.pixels.set (place x y) (!d.lit x y)⟩

/-- The number of lit pixels. -/
def litCount (d : Display) : Nat :=
  d.pixels.count true

/-! ## Sprites -/

/-- The columns of a sprite row that have a pixel, the highest bit leftmost. -/
def rowColumns (row : UInt8) : List Nat :=
  (List.range 8).filter fun c => row.toNat.testBit (7 - c)

/-- The coordinates that a sprite with its corner at `(x, y)` toggles, not yet
wrapped, once for every set bit. -/
def spots (x y : Nat) : List UInt8 → List (Nat × Nat)
  | [] => []
  | row :: rows => (rowColumns row).map (fun c => (x + c, y)) ++ spots x (y + 1) rows

/-- Toggle the given coordinates in turn, and tell whether a lit pixel among
them turned dark. -/
def toggleAll (collided : Bool) (d : Display) : List (Nat × Nat) → Bool × Display
  | [] => (collided, d)
  | (x, y) :: rest =>
    let wasLit := d.lit x y
    (d.toggle x y).toggleAll (collided || wasLit) rest

/-- Draw a sprite with its corner at `(x, y)`, and tell whether it collided
with a pixel that was lit. -/
def draw (d : Display) (x y : Nat) (rows : List UInt8) : Bool × Display :=
  d.toggleAll false (spots x y rows)

/-! ## The display as text -/

/-- The states of the pixels of one row, from left to right. -/
def row (d : Display) (y : Nat) : List Bool :=
  (List.range width).map fun x => d.lit x y

/-- The states of all pixels, row by row from the top. -/
def rows (d : Display) : List (List Bool) :=
  (List.range height).map d.row

/-- The character that stands for a pixel. -/
def pixelChar (lit : Bool) : Char :=
  if lit then '#' else '.'

/-- The picture as lines of text. -/
def picture (d : Display) : List Char :=
  d.rows.flatMap fun row => row.map pixelChar ++ ['\n']

/-! ## What toggling does to the view -/

@[simp]
theorem lit_dark (x y : Nat) : dark.lit x y = false := by
  simp [lit, dark]

/-- Coordinates name the same pixel exactly when they agree modulo the size. -/
theorem place_eq_iff {x y a b : Nat} :
    place x y = place a b ↔ x % 64 = a % 64 ∧ y % 32 = b % 32 := by
  simp only [place, Fin.mk.injEq]
  omega

/-- Toggling switches the named pixel and no other. -/
theorem lit_toggle (d : Display) (x y a b : Nat) :
    (d.toggle x y).lit a b =
      if x % 64 = a % 64 ∧ y % 32 = b % 32 then !d.lit a b else d.lit a b := by
  simp only [lit, toggle, Fin.getElem_fin, Vector.getElem_set]
  by_cases same : x % 64 = a % 64 ∧ y % 32 = b % 32
  · have places := place_eq_iff.mpr same
    simp [same, places]
  · rw [if_neg (fun h => same (place_eq_iff.mp (Fin.ext h))), if_neg same]

/-- Two displays on which every pixel agrees are equal. -/
theorem ext_lit {d e : Display} (same : ∀ x < 64, ∀ y < 32, d.lit x y = e.lit x y) : d = e := by
  obtain ⟨pixels⟩ := d
  obtain ⟨pixels'⟩ := e
  congr 1
  apply Vector.ext
  intro i inside
  have here := same (i % 64) (Nat.mod_lt _ (by decide)) (i / 64) (by omega)
  have there : (place (i % 64) (i / 64)).val = i := by
    simp only [place]
    omega
  simpa [lit, there] using here

end Display

end ChipEight
