/-
# Texts that are put together

A text is put together from lines by ending each of them, or from pieces that all have one
length. Either way it can be taken apart again: a line ends where the first line end is,
and a piece where its length is reached. Two such texts are equal only if they were put
together from the same.
-/

import ChipEight.Numeral

namespace ChipEight

/-- The text is made of these lines, each of them ended and none with a line end inside. -/
structure HasLines (text : List Char) (ls : List (List Char)) : Prop where
  text_eq : text = ls.flatMap (· ++ ['\n'])
  newline_not_mem : ∀ l ∈ ls, '\n' ∉ l

/-- Split at its line ends, a text falls into its lines, with nothing behind the last. -/
theorem HasLines.splitOn_newline {text : List Char} {ls : List (List Char)}
    (made : HasLines text ls) : text.splitOn '\n' = ls ++ [[]] := by
  obtain ⟨rfl, whole⟩ := made
  induction ls with
  | nil => rfl
  | cons l rest ih =>
      obtain ⟨here, later⟩ := List.forall_mem_cons.mp whole
      have plain (c : Char) (member : c ∈ l) : (c == '\n') = false :=
        beq_eq_false_iff_ne.mpr fun same => here (same ▸ member)
      rw [List.flatMap_cons, List.append_assoc, List.splitOn]
      exact (List.splitOnP_append_cons_of_forall_mem plain _ rfl _).trans
        (congrArg (l :: ·) (ih later))

theorem HasLines.unique {text : List Char} {ls ls' : List (List Char)} (made : HasLines text ls)
    (made' : HasLines text ls') : ls = ls' :=
  List.append_cancel_right (made.splitOn_newline.symm.trans made'.splitOn_newline)

/-- A character ends what stands in front of its first occurrence. -/
theorem takeWhile_ne_append {c : Char} {front : List Char} (whole : c ∉ front)
    (rest : List Char) : (front ++ c :: rest).takeWhile (· ≠ c) = front := by
  have before : ∀ d ∈ front, decide (d ≠ c) = true :=
    fun _ member => decide_eq_true fun same => whole (same ▸ member)
  rw [List.takeWhile_append_of_pos before, List.takeWhile_cons_of_neg (by simp), List.append_nil]

theorem dropWhile_ne_append {c : Char} {front : List Char} (whole : c ∉ front)
    (rest : List Char) : (front ++ c :: rest).dropWhile (· ≠ c) = c :: rest := by
  have before : ∀ d ∈ front, decide (d ≠ c) = true :=
    fun _ member => decide_eq_true fun same => whole (same ▸ member)
  rw [List.dropWhile_append_of_pos before, List.dropWhile_cons_of_neg (by simp)]

/-- Pieces of one length are told from what they are put together to. -/
theorem flatMap_inj_of_length {α β : Type} {piece : α → List β} {length : Nat}
    (long : ∀ a, (piece a).length = length + 1) (inj : ∀ a b, piece a = piece b → a = b)
    {as bs : List α} (same : as.flatMap piece = bs.flatMap piece) : as = bs := by
  have some (a : α) (rest : List β) : piece a ++ rest ≠ [] := by
    intro none
    have nothing := long a
    rw [(List.append_eq_nil_iff.mp none).1] at nothing
    cases nothing
  induction as generalizing bs with
  | nil =>
      cases bs with
      | nil => rfl
      | cons b bs => exact absurd same.symm (some b _)
  | cons a as ih =>
      cases bs with
      | nil => exact absurd same (some a _)
      | cons b bs =>
          have lengths : (piece a).length = (piece b).length := (long a).trans (long b).symm
          obtain ⟨first, others⟩ := List.append_inj same lengths
          rw [inj a b first, ih others]

end ChipEight
