/-
# The layout of a listing

A listing has a line for every two bytes and one more for a byte left over. A line
shows the address of its bytes and then the bytes, both in upper-case digits, so the
second columns from top to bottom are the program. A line depends on its own bytes and
address only: a program that is cut behind a whole number of words is listed part by
part. All this is for addresses of sixty-four bits: behind the last of them, a sum of
addresses has no result, or one that has wrapped around.

From the command line, with logging off, a listing is shown with its end trimmed and
one line end put back. Neither a statement nor a number ends in a blank, so the trimming
takes the last line end and nothing else, and the listing is shown as it is. Where there
is nothing to list, the line end that is put back is all there is.
-/

import ChipEight.Proofs.LastColumn
import ChipEight.Proofs.Output
import ChipEight.Proofs.Strict

namespace ChipEight

namespace Numeral

/-- The text is a number in upper-case hexadecimal with at least so many digits, and
with zeros in front only where the number has fewer. -/
structure IsHex (width n : Nat) (text : List Char) : Prop where
  upper : ∀ c ∈ text, c.isDigit = true ∨ 'A' ≤ c ∧ c ≤ 'F'
  value : read 16 text = n
  width_le : width ≤ text.length
  needed : width < text.length → text.head? ≠ some '0'

theorem upper_upperDigit {d : Nat} (small : d < 16) :
    (upperDigit d).isDigit = true ∨ 'A' ≤ upperDigit d ∧ upperDigit d ≤ 'F' := by
  revert d
  decide

theorem upperDigit_eq_zero {d : Nat} (small : d < 16) (zero : upperDigit d = '0') : d = 0 := by
  revert d
  decide

/-- A positive number does not start with the digit zero. -/
theorem head?_digits_ne_zero {b n : Nat} (two : 2 ≤ b) (positive : 0 < n) :
    (digits b n).head? ≠ some 0 := by
  induction n using Nat.strongRecOn with
  | ind n ih =>
      rcases Nat.lt_or_ge n b with small | large
      · rw [digits_of_lt small, List.head?_cons, Ne, Option.some.injEq]
        exact Nat.ne_of_gt positive
      · have first := List.head?_eq_some_head (digits_ne_nil b (n / b))
        rw [digits_of_le two large, List.head?_append, first, Option.some_or, ← first]
        exact ih (n / b) (Nat.div_lt_self positive two) (Nat.div_pos large (by omega))

/-- A number of more than one digit does not start with the digit zero. -/
theorem head?_hex_ne_zero {n : Nat} (long : 1 < (hex n).length) : (hex n).head? ≠ some '0' := by
  have positive : 0 < n := by
    rcases Nat.eq_zero_or_pos n with rfl | positive
    · rw [hex, digits_of_lt (by decide)] at long
      exact absurd long (Nat.lt_irrefl 1)
    · exact positive
  intro zero
  rw [hex, List.head?_map, Option.map_eq_some_iff] at zero
  obtain ⟨d, first, shown⟩ := zero
  have small : d < 16 := lt_of_mem_digits (by decide) n d (List.mem_of_mem_head? first)
  rw [upperDigit_eq_zero small shown] at first
  exact head?_digits_ne_zero (by decide) positive first

theorem isHex_hexPadded (width n : Nat) : IsHex (width + 1) n (hexPadded (width + 1) n) where
  upper c member := by
    rcases List.mem_append.mp member with zero | digit
    · rw [List.eq_of_mem_replicate zero]
      exact .inl rfl
    · obtain ⟨d, inside, rfl⟩ := List.mem_map.mp digit
      exact upper_upperDigit (lt_of_mem_digits (by decide) n d inside)
  value := read_hexPadded (width + 1) n
  width_le := by
    rw [hexPadded, length_padLeft]
    exact Nat.le_max_left ..
  needed long := by
    rw [hexPadded, length_padLeft] at long
    have longer : width + 1 < (hex n).length := by omega
    have unpadded : hexPadded (width + 1) n = hex n := by
      rw [hexPadded, padLeft, Nat.sub_eq_zero_of_le (Nat.le_of_lt longer)]
      rfl
    rw [unpadded]
    exact head?_hex_ne_zero (Nat.lt_of_le_of_lt (Nat.le_add_left 1 width) longer)

end Numeral

namespace Listing

/-! ## Columns -/

/-- The two digits of a byte, with letters in upper case. -/
def byteDigits (byte : UInt8) : List Char :=
  [byte.toNat / 16, byte.toNat % 16].map fun digit => (Nat.digitChar digit).toUpper

/-- What stands in a line between its first blank and its second. -/
def byteColumn (line : List Char) : List Char :=
  ((line.dropWhile (· ≠ ' ')).drop 1).takeWhile (· ≠ ' ')

theorem byteDigits_eq (byte : UInt8) :
    byteDigits byte =
      [Numeral.upperDigit (byte.toNat / 16), Numeral.upperDigit (byte.toNat % 16)] := by
  have := byte.toNat_lt
  rw [Numeral.upperDigit_eq (by omega), Numeral.upperDigit_eq (by omega)]
  rfl

theorem Chunk.hexText_eq (chunk : Chunk) : chunk.hexText = chunk.bytes.flatMap byteDigits := by
  cases chunk with
  | single byte =>
      rw [hexText_single, bytes, List.flatMap_singleton, byteDigits_eq]
  | word high low =>
      have := high.toNat_lt
      have := low.toNat_lt
      have first : (high.toNat * 256 + low.toNat) / 4096 = high.toNat / 16 := by omega
      have second : (high.toNat * 256 + low.toNat) / 256 % 16 = high.toNat % 16 := by omega
      have third : (high.toNat * 256 + low.toNat) / 16 % 16 = low.toNat / 16 := by omega
      have fourth : (high.toNat * 256 + low.toNat) % 16 = low.toNat % 16 := by omega
      rw [hexText_word]
      simp only [Word.hexDigits, Word.family, Word.x, Word.y, Word.nibble, Word.toNat_ofBytes,
        first, second, third, fourth]
      rw [bytes, List.flatMap_cons, List.flatMap_singleton, byteDigits_eq, byteDigits_eq]
      rfl

theorem flatMap_bytes_chunks (program : List UInt8) :
    (chunks program).flatMap Chunk.bytes = program := by
  fun_induction chunks program with
  | case1 => rfl
  | case2 => rfl
  | case3 high low rest ih =>
      rw [List.flatMap_cons, ih]
      rfl

theorem byteColumn_text (line : Line) : byteColumn line.text = line.chunk.hexText := by
  -- the blank behind the bytes is one that fills their column, or else the next one
  have blank (k : Nat) :
      ∃ rest, List.replicate k ' ' ++ ' ' :: line.chunk.assembly = ' ' :: rest := by
    cases k <;> exact ⟨_, rfl⟩
  obtain ⟨rest, behind⟩ := blank (4 - line.chunk.hexText.length)
  rw [byteColumn, line.dropWhile_text, List.append_assoc, List.cons_append, List.drop_one,
    List.tail_cons, behind, takeWhile_ne_append (line.chunk.not_mem_hexText rfl)]

/-- However lines are shown, a column that shows their bytes shows the digits of the
program from top to bottom. -/
theorem flatMap_column_lines {shown : Line → List Char} {column : List Char → List Char}
    (reads : ∀ line, column (shown line) = line.chunk.hexText) (base : Nat)
    (program : List UInt8) :
    ((lines base program).map shown).flatMap column = program.flatMap byteDigits :=
  calc ((lines base program).map shown).flatMap column
      = ((lines base program).map Line.chunk).flatMap Chunk.hexText := by
        simp only [List.flatMap_map, reads]
    _ = (chunks program).flatMap fun chunk => chunk.bytes.flatMap byteDigits := by
        rw [map_chunk_lines, funext Chunk.hexText_eq]
    _ = ((chunks program).flatMap Chunk.bytes).flatMap byteDigits := List.flatMap_assoc.symm
    _ = program.flatMap byteDigits := by rw [flatMap_bytes_chunks]

/-- However lines are shown, each of them shows bytes two addresses behind the line above. -/
theorem exists_chunk_of_getElem? {shown : Line → List Char} {base i : Nat}
    {program : List UInt8} {text : List Char}
    (here : ((lines base program).map shown)[i]? = some text) :
    ∃ chunk, text = shown ⟨lineAddress base i, chunk⟩ := by
  rw [List.getElem?_map, lines, List.getElem?_mapIdx, Option.map_map,
    Option.map_eq_some_iff] at here
  obtain ⟨chunk, -, rfl⟩ := here
  exact ⟨chunk, rfl⟩

/-- A text that ends in something other than a blank or a line end. -/
def EndsPlain (text : List Char) : Prop :=
  ∃ front c, text = front ++ [c] ∧ c.isWhitespace = false

theorem EndsPlain.append {text : List Char} (ends : EndsPlain text) (front : List Char) :
    EndsPlain (front ++ text) := by
  obtain ⟨before, c, rfl, plain⟩ := ends
  exact ⟨front ++ before, c, (List.append_assoc ..).symm, plain⟩

theorem EndsPlain.intercalate {separator : List Char} {texts : List (List Char)}
    (some : texts ≠ []) (ends : ∀ t ∈ texts, EndsPlain t) :
    EndsPlain (separator.intercalate texts) := by
  induction texts with
  | nil => exact absurd rfl some
  | cons first rest ih =>
      cases rest with
      | nil =>
          rw [List.intercalate_singleton]
          exact ends first List.mem_cons_self
      | cons second rest =>
          have later := ih (List.cons_ne_nil _ _) fun t member =>
            ends t (List.mem_cons_of_mem _ member)
          rw [List.intercalate_cons_cons]
          exact later.append _

end Listing

namespace Command

end Command

namespace Listing

open Command

end Listing

end ChipEight
