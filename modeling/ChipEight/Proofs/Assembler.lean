/-
# Reading assembly

An assembler for the statements that a listing prints. A statement is cut at its
blanks into an operation and operands, and an operand shows by its characters what
it is: a register begins with a small letter, an address with a marker, a number is
nothing but decimal digits, and the rest are fixed words. The kinds of the operands
then leave a few operations to choose from.

Reading is written for what is printed, and gives it back. Only the second register
of a shift is not printed; it is read as register zero.
-/

import ChipEight.Instruction.Coding
import ChipEight.Proofs.ListingText

namespace ChipEight

namespace Numeral

/-- The value of a printed digit. Any other character counts as zero. -/
def digitValue (c : Char) : Nat :=
  if '0' ≤ c ∧ c ≤ '9' then c.toNat - 48
  else if 'A' ≤ c ∧ c ≤ 'F' then c.toNat - 55
  else 0

/-- The number that a text denotes in base `b`. -/
def read (b : Nat) (text : List Char) : Nat :=
  value b (text.map digitValue)

theorem digitValue_upperDigit {d : Nat} (small : d < 16) : digitValue (upperDigit d) = d := by
  revert d
  decide

theorem read_map_upperDigit (b : Nat) {ds : List Nat} (small : ∀ d ∈ ds, d < 16) :
    read b (ds.map upperDigit) = value b ds := by
  have values : (ds.map upperDigit).map digitValue = ds.map id := by
    rw [List.map_map]
    exact List.map_congr_left fun d member => digitValue_upperDigit (small d member)
  rw [read, values, List.map_id]

theorem read_digits {b : Nat} (two : 2 ≤ b) (small : b ≤ 16) (n : Nat) :
    read b ((digits b n).map upperDigit) = n := by
  have below (d : Nat) (member : d ∈ digits b n) : d < 16 :=
    Nat.lt_of_lt_of_le (lt_of_mem_digits two n d member) small
  rw [read_map_upperDigit b below, value_digits two]

theorem read_decimal (n : Nat) : read 10 (decimal n) = n :=
  read_digits (by decide) (by decide) n

/-- Zeros in front do not count. -/
theorem read_replicate_append (b k : Nat) (text : List Char) :
    read b (List.replicate k '0' ++ text) = read b text := by
  induction k with
  | zero => rfl
  | succ k ih =>
      rw [← ih, List.replicate_succ, List.cons_append, read, List.map_cons, value,
        List.foldl_cons, Nat.zero_mul]
      rfl

theorem read_hexPadded (width n : Nat) : read 16 (hexPadded width n) = n :=
  (read_replicate_append 16 _ _).trans (read_digits (by decide) (by decide) n)

theorem isDigit_of_mem_decimal {n : Nat} {c : Char} (member : c ∈ decimal n) :
    c.isDigit = true := by
  have digit : ∀ d < 10, (upperDigit d).isDigit = true := by decide
  obtain ⟨d, inside, rfl⟩ := List.mem_map.mp member
  exact digit d (lt_of_mem_digits (by decide) n d inside)

end Numeral

namespace Operand

/-- The operand that a text is printed for. -/
def read : List Char → Operand
  | ['I'] => .index
  | ['[', 'I', ']'] => .indexed
  | ['D', 'T'] => .delayTimer
  | ['S', 'T'] => .soundTimer
  | ['K'] => .key
  | ['F'] => .digitPicture
  | ['B'] => .decimalDigits
  | ['v', digit] => .register (Fin.ofNat 16 (Numeral.digitValue digit))
  | '0' :: 'x' :: digits => .address (Fin.ofNat 4096 (Numeral.read 16 digits))
  | digits => .number (Numeral.read 10 digits)

/-- No other operand is written in decimal digits alone. -/
theorem read_of_isDigit {text : List Char} (digits : ∀ c ∈ text, c.isDigit = true) :
    read text = .number (Numeral.read 10 text) := by
  unfold read
  split
  case h_10 => rfl
  all_goals simp at digits

/-- An operand is read back from its text. -/
theorem read_text (o : Operand) : read o.text = o := by
  cases o with
  | register x =>
      have digit : Fin.ofNat 16 (Numeral.digitValue (Numeral.upperDigit x.val)) = x := by
        rw [Numeral.digitValue_upperDigit x.isLt]
        exact Fin.ofNat_val_eq_self x
      exact congrArg register digit
  | number n =>
      have digits := read_of_isDigit fun c => Numeral.isDigit_of_mem_decimal (n := n) (c := c)
      exact digits.trans (congrArg number (Numeral.read_decimal n))
  | address a =>
      have digits : Fin.ofNat 4096 (Numeral.read 16 (Numeral.hexPadded 3 a.val)) = a := by
        rw [Numeral.read_hexPadded]
        exact Fin.ofNat_val_eq_self a
      exact congrArg address digits
  | _ => rfl

end Operand

namespace Statement

/-- The operation and the operands as words of their own. -/
def words (text : List Char) : List (List Char) :=
  (text.filter (· ≠ ',')).splitOn ' '

/-- The statement that a text is printed for. -/
def read (text : List Char) : Statement :=
  ⟨String.ofList ((words text).headD []), (words text).tail.map Operand.read⟩

theorem filter_comma_of_not_mem {t : List Char} (absent : ',' ∉ t) : t.filter (· ≠ ',') = t :=
  List.filter_eq_self.mpr fun _ member => decide_eq_true fun comma => absent (comma ▸ member)

theorem filter_comma_intercalate {texts : List (List Char)} (plain : ∀ t ∈ texts, ',' ∉ t) :
    (", ".toList.intercalate texts).filter (· ≠ ',') = [' '].intercalate texts := by
  induction texts with
  | nil => rfl
  | cons first rest ih =>
      have here := filter_comma_of_not_mem (plain first List.mem_cons_self)
      have later := ih fun t member => plain t (List.mem_cons_of_mem _ member)
      cases rest with
      | nil => rw [List.intercalate_singleton, List.intercalate_singleton, here]
      | cons second rest =>
          rw [List.intercalate_cons_cons, List.intercalate_cons_cons, List.filter_append,
            List.filter_append, here, later]
          rfl

/-- Without its commas a statement is its words with a blank between them. -/
theorem filter_comma_text {s : Statement}
    (letters : ∀ c ∈ s.operation.toList, c.isUpper = true) :
    s.text.filter (· ≠ ',') =
      [' '].intercalate (s.operation.toList :: s.operands.map Operand.text) := by
  have name : s.operation.toList.filter (· ≠ ',') = s.operation.toList :=
    filter_comma_of_not_mem fun comma => absurd (letters ',' comma) (by decide)
  unfold text
  split
  next none => rw [none, name, List.map_nil, List.intercalate_singleton]
  next operands nonempty =>
    have plain : ∀ t ∈ s.operands.map Operand.text, ',' ∉ t := by
      intro t member comma
      obtain ⟨o, -, rfl⟩ := List.mem_map.mp member
      exact absurd (Operand.isAlphanum_or_bracket_of_mem_text comma) (by decide)
    obtain ⟨first, rest, split⟩ := List.exists_cons_of_ne_nil nonempty
    rw [List.filter_append, name, List.filter_cons_of_pos (by decide),
      filter_comma_intercalate plain, split, List.map_cons, List.intercalate_cons_cons,
      List.append_assoc, List.singleton_append]

theorem words_text {s : Statement} (letters : ∀ c ∈ s.operation.toList, c.isUpper = true) :
    words s.text = s.operation.toList :: s.operands.map Operand.text := by
  rw [words, filter_comma_text letters]
  refine List.splitOn_intercalate ' ' (fun t member blank => ?_) (List.cons_ne_nil _ _)
  rcases List.mem_cons.mp member with rfl | operand
  · exact absurd (letters ' ' blank) (by decide)
  · obtain ⟨o, -, rfl⟩ := List.mem_map.mp operand
    exact absurd (Operand.isAlphanum_or_bracket_of_mem_text blank) (by decide)

theorem read_text {s : Statement} (letters : ∀ c ∈ s.operation.toList, c.isUpper = true) :
    read s.text = s := by
  have operands : (s.operands.map Operand.text).map Operand.read = s.operands.map id := by
    rw [List.map_map]
    exact List.map_congr_left fun o _ => o.read_text
  rw [read, words_text letters, List.headD_cons, List.tail_cons, operands, List.map_id,
    String.ofList_toList]

end Statement

namespace Instruction

/-- The instruction that a statement stands for, a shift being read with register zero
behind the one that is shifted. -/
def ofStatement? (s : Statement) : Option Instruction :=
  match s.operands with
  | [] => [("CLS", .clear), ("RET", .ret)].lookup s.operation
  | [.address a] => [("JP", .jump a), ("CALL", .call a)].lookup s.operation
  | [.register x] =>
    [("SKP", .skip (.keyDown x)), ("SKNP", .skip (.keyUp x)),
      ("SHR", .arithmetic .shiftRight x 0), ("SHL", .arithmetic .shiftLeft x 0)].lookup
        s.operation
  | [.register x, .number n] =>
    let byte := UInt8.ofNat n
    [("SE", .skip (.holds x byte)), ("SNE", .skip (.lacks x byte)), ("LD", .setByte x byte),
      ("ADD", .addByte x byte), ("RND", .random x byte)].lookup s.operation
  | [.register x, .register y] =>
    [("SE", .skip (.equal x y)), ("SNE", .skip (.differ x y)), ("LD", .arithmetic .copy x y),
      ("OR", .arithmetic .or x y), ("AND", .arithmetic .and x y), ("XOR", .arithmetic .xor x y),
      ("ADD", .arithmetic .add x y), ("SUB", .arithmetic .subtract x y),
      ("SUBN", .arithmetic .subtractFrom x y)].lookup s.operation
  | [.register x, .register y, .number n] =>
    [("DRW", .draw x y (Fin.ofNat 16 n))].lookup s.operation
  | [.register _, .address a] => [("JP", .jumpOffset a)].lookup s.operation
  | [.index, .address a] => [("LD", .setIndex a)].lookup s.operation
  | [.index, .register x] => [("ADD", .addIndex x)].lookup s.operation
  | [.register x, .delayTimer] => [("LD", .readDelay x)].lookup s.operation
  | [.register x, .key] => [("LD", .awaitKey x)].lookup s.operation
  | [.register x, .indexed] => [("LD", .loadRegisters x)].lookup s.operation
  | [.delayTimer, .register x] => [("LD", .setDelay x)].lookup s.operation
  | [.soundTimer, .register x] => [("LD", .setSound x)].lookup s.operation
  | [.digitPicture, .register x] => [("LD", .pointAtDigit x)].lookup s.operation
  | [.decimalDigits, .register x] => [("LD", .storeDecimal x)].lookup s.operation
  | [.indexed, .register x] => [("LD", .storeRegisters x)].lookup s.operation
  | _ => none

/-- The instruction that a text is printed for. -/
def read? (text : List Char) : Option Instruction :=
  ofStatement? (Statement.read text)

/-- The instruction with register zero for a register that its statement leaves out. -/
def plain : Instruction → Instruction
  | .arithmetic .shiftRight x _ => .arithmetic .shiftRight x 0
  | .arithmetic .shiftLeft x _ => .arithmetic .shiftLeft x 0
  | i => i

theorem statement_plain (i : Instruction) : i.plain.statement = i.statement := by
  unfold plain
  split <;> rfl

/-- The operation and the kinds of its operands name the instruction. -/
theorem ofStatement?_statement (i : Instruction) : ofStatement? i.statement = some i.plain := by
  cases i with
  | skip condition =>
      cases condition <;>
        simp [statement, Condition.statement, ofStatement?, plain, List.lookup_cons]
  | arithmetic operation =>
      cases operation <;>
        simp [statement, Arithmetic.statement, ofStatement?, plain, List.lookup_cons]
  | _ => simp [statement, ofStatement?, plain, List.lookup_cons]

/-- An instruction is read back from its text, but for the register of a shift that is
not printed. -/
theorem read?_text (i : Instruction) : read? i.text = some i.plain := by
  have letters := (isUpper_of_mem_operations _ i.operation_mem_operations).2
  rw [read?, text, Statement.read_text letters, ofStatement?_statement]

end Instruction

end ChipEight
