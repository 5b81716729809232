/-
# The last column of a listing

The assembly that a listing prints is enough to put the program together again. The
columns are cut out of the text, a number is told from an instruction by its marker,
a word from a single byte by the number of its digits, and an instruction is read
by the assembler. What comes out has the length of the program and differs from it
at most in the nibble that shifts do not use. So two programs are printed with the
same last columns exactly if they differ in nothing else.
-/

import ChipEight.Proofs.Assembler
import ChipEight.Proofs.ListedCode

namespace ChipEight

namespace Word

variable {v w : Word}

/-- Words that are equal, but perhaps for the third nibble of 8xy6 or of 8xyE. -/
def Alike (v w : Word) : Prop :=
  v = w ∨ ∃ x y z n, (n = 6 ∨ n = 0xE) ∧ v = ofNibbles 8 x y n ∧ w = ofNibbles 8 x z n

theorem Alike.symm (alike : Alike v w) : Alike w v := by
  rcases alike with same | ⟨x, y, z, n, shift, left, right⟩
  · exact .inl same.symm
  · exact .inr ⟨x, z, y, n, shift, right, left⟩

theorem Alike.trans {u : Word} (first : Alike u v) (second : Alike v w) : Alike u w := by
  rcases first with rfl | ⟨x, y, z, n, shift, rfl, middle⟩
  · exact second
  · rcases second with rfl | ⟨x', y', z', n', -, again, rfl⟩
    · exact .inr ⟨x, y, z, n, shift, rfl, middle⟩
    · have register : x = x' := by simpa using congrArg Word.x (middle.symm.trans again)
      have last : n = n' := by simpa using congrArg Word.nibble (middle.symm.trans again)
      subst register last
      exact .inr ⟨x, y, z', n, shift, rfl, rfl⟩

/-- The word that is read back from the assembly of a word. -/
def plain (w : Word) : Word :=
  match Instruction.ofWord? w with
  | some i => i.plain.toWord
  | none => w

theorem plain_of_some {i : Instruction} (read : Instruction.ofWord? w = some i) :
    w.plain = i.plain.toWord := by
  rw [plain, read]

theorem plain_of_none (unknown : Instruction.ofWord? w = none) : w.plain = w := by
  rw [plain, unknown]

theorem alike_plain (w : Word) : Alike w.plain w := by
  cases read : Instruction.ofWord? w with
  | none => exact .inl (plain_of_none read)
  | some i =>
      rw [plain_of_some read, ← Instruction.toWord_of_ofWord? read]
      unfold Instruction.plain
      split
      · next x y => exact .inr ⟨x, 0, y, 6, .inl rfl, rfl, rfl⟩
      · next x y => exact .inr ⟨x, 0, y, 0xE, .inr rfl, rfl, rfl⟩
      · exact .inl rfl

theorem plain_of_alike (alike : Alike v w) : v.plain = w.plain := by
  have shifted (operation : Arithmetic) (x y : Register) :
      (ofNibbles 8 x y operation.nibble).plain =
        (Instruction.arithmetic operation x y).plain.toWord :=
    plain_of_some (Instruction.ofWord?_toWord (.arithmetic operation x y))
  rcases alike with rfl | ⟨x, y, z, n, rfl | rfl, rfl, rfl⟩
  · rfl
  · exact (shifted .shiftRight x y).trans (shifted .shiftRight x z).symm
  · exact (shifted .shiftLeft x y).trans (shifted .shiftLeft x z).symm

theorem plain_eq_plain_iff : v.plain = w.plain ↔ Alike v w := by
  constructor
  · intro same
    exact (alike_plain v).symm.trans (same ▸ alike_plain w)
  · exact plain_of_alike

end Word

namespace Listing

namespace Chunk

/-- The chunk of a word. -/
def ofWord (w : Word) : Chunk :=
  .word w.highByte w.byte

theorem ofWord_inj {v w : Word} : ofWord v = ofWord w ↔ v = w := by
  constructor
  · intro same
    injection same with high low
    rw [← v.ofBytes_highByte_byte, high, low, w.ofBytes_highByte_byte]
  · exact congrArg ofWord

theorem ofWord_ofBytes (high low : UInt8) : ofWord (Word.ofBytes high low) = .word high low := by
  rw [ofWord, Word.highByte_ofBytes, Word.byte_ofBytes]

/-- The bytes of a chunk. -/
def bytes : Chunk → List UInt8
  | .word high low => [high, low]
  | .single byte => [byte]

/-- The chunk that is read back from the assembly of a chunk. -/
def plain : Chunk → Chunk
  | .word high low => ofWord (Word.ofBytes high low).plain
  | .single byte => .single byte

/-- The chunk that a text is printed for: a single byte for a number of two digits, a
word for a longer number, and the word of an instruction for anything else. -/
def read? : List Char → Option Chunk
  | ['0', 'x', high, low] => some (.single (UInt8.ofNat (Numeral.read 16 [high, low])))
  | '0' :: 'x' :: digits => some (ofWord (UInt16.ofNat (Numeral.read 16 digits)))
  | text => (Instruction.read? text).map fun i => ofWord i.toWord

theorem hexText_single (byte : UInt8) :
    (single byte).hexText =
      [Numeral.upperDigit (byte.toNat / 16), Numeral.upperDigit (byte.toNat % 16)] := by
  have bound := byte.toNat_lt
  have high : byte.toNat / 16 < 16 := by omega
  rw [hexText, Numeral.hexPadded_succ, Numeral.hexPadded_of_lt 0 high]
  rfl

theorem length_hexText_le (chunk : Chunk) : chunk.hexText.length ≤ 4 := by
  cases chunk with
  | word high low => exact Nat.le_of_eq (congrArg List.length (hexText_word high low))
  | single byte =>
      rw [hexText_single]
      exact Nat.le_of_ble_eq_true rfl

theorem read?_text (i : Instruction) : read? i.text = some (ofWord i.plain.toWord) := by
  have unmarked (rest : List Char) : i.text ≠ '0' :: 'x' :: rest :=
    fun same => i.not_hex_prefix_text ⟨rest, same.symm⟩
  unfold read?
  split
  case h_1 same => exact absurd same (unmarked _)
  case h_2 same => exact absurd same (unmarked _)
  case h_3 => rw [Instruction.read?_text, Option.map_some]

theorem read?_rawColumn (w : Word) : read? (rawColumn w) = some (ofWord w) := by
  have digits : Numeral.read 16 w.hexDigits = w.toNat := by
    rw [← Word.hexPadded_toNat, Numeral.read_hexPadded]
  have number : read? (rawColumn w) =
      some (ofWord (UInt16.ofNat (Numeral.read 16 w.hexDigits))) := rfl
  rw [number, digits, UInt16.ofNat_toNat]

theorem read?_numberText_single (byte : UInt8) :
    read? (single byte).numberText = some (single byte) := by
  have digits : Numeral.read 16 (single byte).hexText = byte.toNat :=
    Numeral.read_hexPadded 2 byte.toNat
  rw [hexText_single] at digits
  rw [numberText, hexText_single]
  exact congrArg (some <| single <| ·) ((congrArg UInt8.ofNat digits).trans UInt8.ofNat_toNat)

/-- A chunk is read back from its assembly, but for the nibble that is not printed. -/
theorem read?_assembly (chunk : Chunk) : read? chunk.assembly = some chunk.plain := by
  cases chunk with
  | word high low =>
      cases known : Instruction.ofWord? (Word.ofBytes high low) with
      | some i => rw [assembly_of_some known, read?_text, plain, Word.plain_of_some known]
      | none => rw [assembly_of_none known, read?_rawColumn, plain, Word.plain_of_none known]
  | single byte => exact read?_numberText_single byte

/-- The nibble that is read as zero is not printed either way. -/
theorem assembly_plain (chunk : Chunk) : chunk.plain.assembly = chunk.assembly := by
  cases chunk with
  | word high low =>
      rw [plain]
      cases known : Instruction.ofWord? (Word.ofBytes high low) with
      | some i =>
          have again := Instruction.ofWord?_toWord i.plain
          rw [← Word.ofBytes_highByte_byte i.plain.toWord] at again
          rw [Word.plain_of_some known, ofWord, assembly_of_some again, assembly_of_some known,
            Instruction.text, Instruction.statement_plain, Instruction.text]
      | none => rw [Word.plain_of_none known, ofWord_ofBytes]
  | single byte => rfl

end Chunk

/-! ## The column as text -/

/-- What stands in a line behind the address, which reaches to the first blank, and
behind the bytes, which are four characters with a blank on either side. -/
def lastColumn (line : List Char) : List Char :=
  (line.dropWhile (· ≠ ' ')).drop 6

/-- The last columns of a listing, line by line. -/
def lastColumns (listing : List Char) : List (List Char) :=
  (listing.splitOn '\n').dropLast.map lastColumn

/-- The program that is put together from last columns. -/
def assemble? (columns : List (List Char)) : Option (List UInt8) :=
  (columns.mapM Chunk.read?).map fun chunks => chunks.flatMap Chunk.bytes

/-- Behind the address stand a blank, the bytes four characters wide, a blank and the
assembly. -/
theorem Line.dropWhile_text (line : Line) :
    line.text.dropWhile (· ≠ ' ') =
      ' ' :: line.chunk.hexText ++ List.replicate (4 - line.chunk.hexText.length) ' ' ++
        ' ' :: line.chunk.assembly := by
  have digits := Numeral.not_mem_hexPadded (c := ' ') rfl 4 line.address
  have address : ' ' ∉ line.addressText := by
    simp [addressText, digits]
  rw [text, List.append_assoc, List.append_assoc, List.cons_append, dropWhile_ne_append address,
    ← List.append_assoc]
  rfl

theorem lastColumn_text (line : Line) : lastColumn line.text = line.chunk.assembly := by
  have wide := line.chunk.length_hexText_le
  let bytes := ' ' :: line.chunk.hexText ++
    List.replicate (4 - line.chunk.hexText.length) ' ' ++ [' ']
  have six : bytes.length = 6 := by
    simp only [bytes, List.length_append, List.length_cons, List.length_replicate,
      List.length_nil]
    omega
  have behind : line.text.dropWhile (· ≠ ' ') = bytes ++ line.chunk.assembly := by
    rw [line.dropWhile_text]
    simp [bytes]
  rw [lastColumn, behind, List.drop_left' six]

theorem map_chunk_lines (base : Nat) (program : List UInt8) :
    (lines base program).map Line.chunk = chunks program := by
  refine List.ext_getElem? fun i => ?_
  rw [lines, List.getElem?_map, List.getElem?_mapIdx, Option.map_map]
  exact Option.map_id_apply

theorem lastColumns_chars (base : Nat) (program : List UInt8) :
    lastColumns (chars base program) = (chunks program).map Chunk.assembly := by
  have columns : lastColumn ∘ Line.text = Chunk.assembly ∘ Line.chunk := funext lastColumn_text
  rw [lastColumns, splitOn_newline_chars, List.dropLast_concat, List.map_map, columns,
    ← List.map_map, map_chunk_lines]

/-! ## Programs with the same columns -/

/-- Programs of one length whose words are alike at every place, and whose last bytes are
equal where one is left over. -/
structure Alike (p q : List UInt8) : Prop where
  /-- The programs have the same number of bytes. -/
  length_eq : p.length = q.length
  /-- The words at every place are equal, but perhaps for what a shift does not use. -/
  words : ∀ i (_ : 2 * i + 1 < p.length) (_ : 2 * i + 1 < q.length),
    Word.Alike (Word.ofBytes p[2 * i] p[2 * i + 1]) (Word.ofBytes q[2 * i] q[2 * i + 1])
  /-- A byte left over at the end is the same in both. -/
  last : ∀ i, p.length = 2 * i + 1 → p[2 * i]? = q[2 * i]?

theorem alike_cons_cons_iff {a b c d : UInt8} {p q : List UInt8} :
    Alike (a :: b :: p) (c :: d :: q) ↔
      Word.Alike (Word.ofBytes a b) (Word.ofBytes c d) ∧ Alike p q := by
  constructor
  · intro alike
    refine ⟨alike.words 0 (by simp) (by simp), ⟨?_, fun i left right => ?_, fun i odd => ?_⟩⟩
    · simpa using alike.length_eq
    · exact alike.words (i + 1) (by simp only [List.length_cons]; omega)
        (by simp only [List.length_cons]; omega)
    · exact alike.last (i + 1) (by simp only [List.length_cons]; omega)
  · rintro ⟨first, rest⟩
    refine ⟨by simp [rest.length_eq], fun i left right => ?_, fun i odd => ?_⟩
    · simp only [List.length_cons] at left right
      cases i with
      | zero => exact first
      | succ i => exact rest.words i (by omega) (by omega)
    · simp only [List.length_cons] at odd
      cases i with
      | zero => omega
      | succ i => exact rest.last i (by omega)

theorem alike_nil : Alike [] [] :=
  ⟨rfl, fun _ inside => absurd inside (Nat.not_lt_zero _), fun _ _ => rfl⟩

theorem alike_singleton_iff {a b : UInt8} : Alike [a] [b] ↔ a = b := by
  constructor
  · intro alike
    exact Option.some.inj (alike.last 0 rfl)
  · rintro rfl
    exact ⟨rfl, fun i inside => absurd inside (by simp), fun _ _ => rfl⟩

theorem not_alike_of_length_ne {p q : List UInt8} (differ : p.length ≠ q.length) :
    ¬ Alike p q :=
  fun alike => differ alike.length_eq

/-- Programs are alike exactly if the same chunks are read back for both. -/
theorem alike_iff {p q : List UInt8} :
    Alike p q ↔ (chunks p).map Chunk.plain = (chunks q).map Chunk.plain := by
  -- programs of which only one goes on differ in length, and so do their chunks or the
  -- kinds of their last chunks
  fun_induction chunks p generalizing q with
  | case1 =>
      rcases q with _ | ⟨c, _ | ⟨d, q⟩⟩
      case nil => exact iff_of_true alike_nil rfl
      all_goals exact iff_of_false (not_alike_of_length_ne (by simp)) (by simp [chunks])
  | case2 byte =>
      rcases q with _ | ⟨c, _ | ⟨d, q⟩⟩
      case cons.nil => simp [alike_singleton_iff, chunks, Chunk.plain]
      all_goals
        refine iff_of_false (not_alike_of_length_ne (by simp)) ?_
        simp [chunks, Chunk.plain, Chunk.ofWord]
  | case3 high low rest ih =>
      rcases q with _ | ⟨c, _ | ⟨d, q⟩⟩
      case cons.cons =>
        rw [alike_cons_cons_iff, ih, chunks, List.map_cons, List.map_cons, List.cons.injEq,
          Chunk.plain, Chunk.plain, Chunk.ofWord_inj, Word.plain_eq_plain_iff]
      all_goals
        refine iff_of_false (not_alike_of_length_ne (by simp)) ?_
        simp [chunks, Chunk.plain, Chunk.ofWord]

/-- The program that is read back from the last columns of a program. -/
def plain (program : List UInt8) : List UInt8 :=
  ((chunks program).map Chunk.plain).flatMap Chunk.bytes

theorem alike_plain (program : List UInt8) : Alike (plain program) program := by
  unfold plain
  fun_induction chunks program with
  | case1 => exact alike_nil
  | case2 byte => exact alike_singleton_iff.mpr rfl
  | case3 high low rest ih =>
      refine alike_cons_cons_iff.mpr ⟨?_, ih⟩
      rw [Word.ofBytes_highByte_byte]
      exact Word.alike_plain _

theorem map_assembly_eq_iff {cs ds : List Chunk} :
    cs.map Chunk.assembly = ds.map Chunk.assembly ↔ cs.map Chunk.plain = ds.map Chunk.plain := by
  constructor
  · intro same
    have back : Chunk.read? ∘ Chunk.assembly = some ∘ Chunk.plain := funext Chunk.read?_assembly
    have read := congrArg (List.map Chunk.read?) same
    rw [List.map_map, List.map_map, back, ← List.map_map, ← List.map_map] at read
    exact (List.map_inj_right fun _ _ => Option.some.inj).mp read
  · intro same
    have again : Chunk.assembly ∘ Chunk.plain = Chunk.assembly := funext Chunk.assembly_plain
    have printed := congrArg (List.map Chunk.assembly) same
    rwa [List.map_map, List.map_map, again] at printed

theorem assemble?_map_assembly (program : List UInt8) :
    assemble? ((chunks program).map Chunk.assembly) = some (plain program) := by
  have read : Chunk.read? ∘ Chunk.assembly = fun chunk => pure chunk.plain :=
    funext Chunk.read?_assembly
  rw [assemble?, List.mapM_map, read, List.mapM_pure]
  rfl

/-- The last columns of a listing are the assembly of its words one by one. Two programs
have the same exactly if they have the same length and the same words, those of
shifts up to the nibble that shifts do not use, and the same byte left over at the end.
From the columns alone a program is put together that is the listed one up to that. -/
theorem last_columns_are_lossless :
    (∀ base program, lastColumns (chars base program) = (chunks program).map Chunk.assembly) ∧
      (∀ base base' p q,
        lastColumns (chars base p) = lastColumns (chars base' q) ↔ Alike p q) ∧
      ∀ base program, ∃ assembled,
        assemble? (lastColumns (chars base program)) = some assembled ∧
          Alike assembled program := by
  refine ⟨lastColumns_chars, fun base base' p q => ?_, fun base program => ?_⟩
  · rw [lastColumns_chars, lastColumns_chars, alike_iff, map_assembly_eq_iff]
  · refine ⟨plain program, ?_, alike_plain program⟩
    rw [lastColumns_chars, assemble?_map_assembly]

/-- A shift, a word that is none and a byte: only the register behind the shifted one is
lost. -/
example : assemble? (lastColumns (chars 0x200 [0x81, 0x26, 0x8A, 0xBF, 0x3C])) =
    some [0x81, 0x06, 0x8A, 0xBF, 0x3C] := by
  decide +kernel

end Listing

end ChipEight
