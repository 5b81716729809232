/-
# Listings as lines of text

A listing is one text. Its lines can be told apart because nothing inside of a line
is a line end, and the columns of a line because the first two have a fixed width:
a word is written with exactly one digit for each of its nibbles. The last column
shows by its first character what it is, for operations are named by letters and
numbers start with the digit zero.
-/

import ChipEight.Listing
import ChipEight.Proofs.TextLines

namespace ChipEight

namespace Numeral

theorem isAlphanum_upperDigit {d : Nat} (small : d < 16) : (upperDigit d).isAlphanum = true := by
  revert d
  decide

theorem isAlphanum_of_mem_digits {b n : Nat} {c : Char} (two : 2 ≤ b) (small : b ≤ 16)
    (member : c ∈ (digits b n).map upperDigit) : c.isAlphanum = true := by
  obtain ⟨d, inside, rfl⟩ := List.mem_map.mp member
  exact isAlphanum_upperDigit (Nat.lt_of_lt_of_le (lt_of_mem_digits two n d inside) small)

theorem isAlphanum_of_mem_hexPadded {width n : Nat} {c : Char} (member : c ∈ hexPadded width n) :
    c.isAlphanum = true := by
  rcases List.mem_append.mp member with zero | digit
  · rw [List.eq_of_mem_replicate zero]
    rfl
  · exact isAlphanum_of_mem_digits (by decide) (by decide) digit

theorem not_mem_hexPadded {c : Char} (other : c.isAlphanum = false) (width n : Nat) :
    c ∉ hexPadded width n :=
  fun member => absurd (isAlphanum_of_mem_hexPadded member) (Bool.eq_false_iff.mp other)

/-- A number of one digit is that digit behind the zeros. -/
theorem hexPadded_of_lt (width : Nat) {n : Nat} (small : n < 16) :
    hexPadded (width + 1) n = List.replicate width '0' ++ [upperDigit n] := by
  rw [hexPadded, hex, digits_of_lt small]
  rfl

/-- The last digit stands behind the other ones, which are padded as a number of their own. -/
theorem hexPadded_succ (width n : Nat) :
    hexPadded (width + 2) n = hexPadded (width + 1) (n / 16) ++ [upperDigit (n % 16)] := by
  rcases Nat.lt_or_ge n 16 with small | large
  · have high : n / 16 = 0 := Nat.div_eq_of_lt small
    have low : n % 16 = n := Nat.mod_eq_of_lt small
    rw [hexPadded_of_lt _ small, high, low, hexPadded_of_lt _ (by decide),
      List.replicate_succ']
    rfl
  · have split : hex n = hex (n / 16) ++ [upperDigit (n % 16)] := by
      rw [hex, digits_of_le (by decide) large, List.map_append]
      rfl
    have zeros : width + 2 - ((hex (n / 16)).length + 1) = width + 1 - (hex (n / 16)).length := by
      omega
    rw [hexPadded, split, padLeft, List.length_append, List.length_singleton, zeros,
      ← List.append_assoc]
    rfl

end Numeral

namespace Word

/-- The four digits of a word, one for each nibble. -/
def hexDigits (w : Word) : List Char :=
  [w.family, w.x, w.y, w.nibble].map fun nibble => Numeral.upperDigit nibble.val

theorem hexPadded_toNat (w : Word) : Numeral.hexPadded 4 w.toNat = hexDigits w := by
  have bound : w.toNat < 65536 := w.toNat_lt
  have small : w.toNat / 16 / 16 / 16 < 16 := by omega
  rw [Numeral.hexPadded_succ, Numeral.hexPadded_succ, Numeral.hexPadded_succ,
    Numeral.hexPadded_of_lt 0 small]
  simp only [Nat.div_div_eq_div_mul]
  rfl

end Word

namespace Operand

/-- The characters of an operand are letters, digits and brackets, so none of those that
separate operands, columns or lines. -/
theorem isAlphanum_or_bracket_of_mem_text {o : Operand} {c : Char} (member : c ∈ o.text) :
    c.isAlphanum = true ∨ c = '[' ∨ c = ']' := by
  have fixed {word : List Char}
      (checked : (word.all fun c => c.isAlphanum = true ∨ c = '[' ∨ c = ']') = true)
      (inside : c ∈ word) : c.isAlphanum = true ∨ c = '[' ∨ c = ']' :=
    of_decide_eq_true (List.all_eq_true.mp checked c inside)
  cases o with
  | register x =>
      rcases List.mem_cons.mp member with rfl | digit
      · exact .inl rfl
      · rw [List.mem_singleton.mp digit]
        exact .inl (Numeral.isAlphanum_upperDigit x.isLt)
  | number n => exact .inl (Numeral.isAlphanum_of_mem_digits (by decide) (by decide) member)
  | address a =>
      rcases List.mem_append.mp member with marker | digit
      · exact fixed rfl marker
      · exact .inl (Numeral.isAlphanum_of_mem_hexPadded digit)
  | _ => exact fixed rfl member

theorem newline_not_mem_text (o : Operand) : '\n' ∉ o.text :=
  fun member => absurd (isAlphanum_or_bracket_of_mem_text member) (by decide)

end Operand

namespace Statement

theorem newline_not_mem_intercalate {separator : List Char} {texts : List (List Char)}
    (between : '\n' ∉ separator) (inside : ∀ t ∈ texts, '\n' ∉ t) :
    '\n' ∉ separator.intercalate texts := by
  induction texts with
  | nil => simp
  | cons first rest ih =>
      have later := ih fun t member => inside t (List.mem_cons_of_mem _ member)
      have here := inside first List.mem_cons_self
      cases rest with
      | nil => simpa using here
      | cons second rest =>
          rw [List.intercalate_cons_cons]
          simp only [List.mem_append, not_or]
          exact ⟨⟨here, between⟩, later⟩

/-- A statement starts with its operation. -/
theorem exists_text_eq_append (s : Statement) : ∃ rest, s.text = s.operation.toList ++ rest := by
  unfold text
  split
  · exact ⟨[], (List.append_nil _).symm⟩
  · exact ⟨_, rfl⟩

theorem newline_not_mem_text {s : Statement} (plain : '\n' ∉ s.operation.toList) :
    '\n' ∉ s.text := by
  unfold text
  split
  · exact plain
  · have operands : '\n' ∉ ", ".toList.intercalate (s.operands.map Operand.text) := by
      refine newline_not_mem_intercalate (by decide) fun t member => ?_
      obtain ⟨o, -, rfl⟩ := List.mem_map.mp member
      exact o.newline_not_mem_text
    rw [List.mem_append, List.mem_cons, not_or, not_or]
    exact ⟨plain, by decide, operands⟩

end Statement

namespace Instruction

/-- The names of the operations. -/
def operations : List String :=
  ["CLS", "RET", "JP", "CALL", "SE", "SNE", "SKP", "SKNP", "LD", "OR", "AND", "XOR", "ADD",
    "SUB", "SHR", "SUBN", "SHL", "RND", "DRW"]

theorem operation_mem_operations (i : Instruction) : i.statement.operation ∈ operations := by
  cases i with
  | skip condition => cases condition <;> simp [statement, Condition.statement, operations]
  | arithmetic operation => cases operation <;> simp [statement, Arithmetic.statement, operations]
  | _ => simp [statement, operations]

/-- Operations are named by capital letters. -/
theorem isUpper_of_mem_operations :
    ∀ name ∈ operations, name.toList ≠ [] ∧ ∀ c ∈ name.toList, c.isUpper = true := by
  simp [operations]

theorem newline_not_mem_text (i : Instruction) : '\n' ∉ i.text :=
  Statement.newline_not_mem_text fun member =>
    absurd ((isUpper_of_mem_operations _ i.operation_mem_operations).2 _ member) (by decide)

/-- The text of an instruction starts with a capital letter. -/
theorem exists_text_eq_cons (i : Instruction) :
    ∃ c rest, c.isUpper = true ∧ i.text = c :: rest := by
  obtain ⟨some, capitals⟩ := isUpper_of_mem_operations _ i.operation_mem_operations
  obtain ⟨c, others, name⟩ := List.exists_cons_of_ne_nil some
  obtain ⟨rest, split⟩ := i.statement.exists_text_eq_append
  refine ⟨c, others ++ rest, capitals c (name ▸ List.mem_cons_self), ?_⟩
  rw [text, split, name, List.cons_append]

/-- No instruction is written like a number. -/
theorem not_hex_prefix_text (i : Instruction) : ¬ "0x".toList <+: i.text := by
  rintro ⟨rest, same⟩
  obtain ⟨c, others, capital, split⟩ := exists_text_eq_cons i
  rw [split] at same
  cases same
  cases capital

end Instruction

namespace Listing

theorem Chunk.not_mem_hexText {c : Char} (other : c.isAlphanum = false) (chunk : Chunk) :
    c ∉ chunk.hexText := by
  cases chunk <;> exact Numeral.not_mem_hexPadded other _ _

theorem Chunk.newline_not_mem_numberText (chunk : Chunk) : '\n' ∉ chunk.numberText := by
  have digits := chunk.not_mem_hexText (c := '\n') rfl
  simp [numberText, digits]

theorem Chunk.newline_not_mem_assembly (chunk : Chunk) : '\n' ∉ chunk.assembly := by
  unfold assembly
  split
  · split
    · exact Instruction.newline_not_mem_text _
    · exact newline_not_mem_numberText _
  · exact newline_not_mem_numberText _

theorem Line.newline_not_mem_text (line : Line) : '\n' ∉ line.text := by
  have address := Numeral.not_mem_hexPadded (c := '\n') rfl 4 line.address
  have bytes := line.chunk.not_mem_hexText (c := '\n') rfl
  have assembly := line.chunk.newline_not_mem_assembly
  simp [text, addressText, address, bytes, assembly]

theorem hasLines_chars (base : Nat) (program : List UInt8) :
    HasLines (chars base program) ((lines base program).map Line.text) where
  text_eq := by
    rw [chars, List.flatMap_map]
  newline_not_mem l member := by
    obtain ⟨line, -, rfl⟩ := List.mem_map.mp member
    exact line.newline_not_mem_text

/-- Split at its line ends, a listing falls into its lines, with nothing behind the last. -/
theorem splitOn_newline_chars (base : Nat) (program : List UInt8) :
    (chars base program).splitOn '\n' = (lines base program).map Line.text ++ [[]] :=
  (hasLines_chars base program).splitOn_newline

/-- A whole word of a program is a chunk of its own. -/
theorem getElem?_chunks {program : List UInt8} {i : Nat} (whole : 2 * i + 1 < program.length) :
    (chunks program)[i]? = some (.word program[2 * i] program[2 * i + 1]) := by
  fun_induction chunks program generalizing i with
  | case1 => cases whole
  | case2 byte =>
      rw [List.length_singleton] at whole
      omega
  | case3 high low rest ih =>
      cases i with
      | zero => rfl
      | succ i =>
          have later : 2 * i + 1 < rest.length := by
            simp only [List.length_cons] at whole
            omega
          exact ih later

end Listing

end ChipEight
