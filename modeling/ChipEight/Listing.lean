/-
# Listings

A program as a column of assembly: one line for every word, with the address
where it would be loaded, its bytes and its statement. Programs keep pictures
and other data among their code, so a word that is no instruction is listed as
the number it is, and so is a last byte that stands alone. Nothing is looked up
or executed: a line depends on its bytes and its address only. Addresses are
numbers of sixty-four bits and wrap around behind the last of them.
-/

import ChipEight.Numeral
import ChipEight.Machine.Memory
import ChipEight.Instruction.Statement

namespace ChipEight.Listing

/-- The bytes that one line of a listing stands for. -/
inductive Chunk
  /-- A whole word, as its two bytes. -/
  | word (high low : UInt8)
  /-- The last byte of a program of odd length. -/
  | single (byte : UInt8)
  deriving DecidableEq

/-- One line of a listing. -/
structure Line where
  /-- Where the bytes of the line would be loaded. -/
  address : Nat
  /-- The bytes of the line. -/
  chunk : Chunk
  deriving DecidableEq

namespace Chunk

/-- The bytes as hexadecimal digits. -/
def hexText : Chunk → List Char
  | .word high low => Numeral.hexPadded 4 (Word.ofBytes high low).toNat
  | .single byte => Numeral.hexPadded 2 byte.toNat

/-- The bytes as a number, marked as hexadecimal. -/
def numberText (chunk : Chunk) : List Char :=
  "0x".toList ++ chunk.hexText

/-- The bytes as a program text: the statement of an instruction, and a number
for anything else. -/
def assembly : Chunk → List Char
  | .word high low =>
    match Instruction.ofWord? (Word.ofBytes high low) with
    | some i => i.text
    | none => numberText (.word high low)
  | .single byte => numberText (.single byte)

end Chunk

namespace Line

/-- The address column. -/
def addressText (line : Line) : List Char :=
  "0x".toList ++ Numeral.hexPadded 4 line.address

/-- The line as text. The column of bytes is four characters wide, so that a
single byte leaves two of them blank. -/
def text (line : Line) : List Char :=
  let digits := line.chunk.hexText
  line.addressText ++ ' ' :: digits ++ List.replicate (4 - digits.length) ' ' ++
    ' ' :: line.chunk.assembly

end Line

/-- Bytes taken two at a time, with a single one left over at an odd end. -/
def chunks : List UInt8 → List Chunk
  | [] => []
  | [byte] => [.single byte]
  | high :: low :: rest => .word high low :: chunks rest

/-- The address of a line in a listing whose first byte is loaded at `base`. -/
def lineAddress (base i : Nat) : Nat :=
  (base + 2 * i) % UInt64.size

/-- The lines of a listing whose first byte is loaded at `base`. -/
def lines (base : Nat) (program : List UInt8) : List Line :=
  (chunks program).mapIdx fun i chunk => ⟨lineAddress base i, chunk⟩

/-- The listing as characters, every line ended. -/
def chars (base : Nat) (program : List UInt8) : List Char :=
  (lines base program).flatMap fun line => line.text ++ ['\n']

/-- The listing of a program loaded at `base`. -/
def text (base : Nat) (program : List UInt8) : String :=
  String.ofList (chars base program)

/-- A text without the blanks and line ends that it ends in. Listings hold
ASCII characters only, so these are all the blanks there are. -/
def trimEnd (text : List Char) : List Char :=
  (text.reverse.dropWhile Char.isWhitespace).reverse

/-- The listing of a program loaded where programs start, as it is shown: with
exactly one line end at its end. -/
def printed (program : List UInt8) : String :=
  String.ofList (trimEnd (chars Memory.programStart program) ++ ['\n'])

/-! ## Lines and bytes -/

/-- Two bytes make a line, and a byte that is left over makes another. -/
theorem length_chunks (program : List UInt8) :
    (chunks program).length = (program.length + 1) / 2 := by
  fun_induction chunks program with
  | case1 => rfl
  | case2 => simp
  | case3 high low rest ih =>
    simp only [List.length_cons, ih]
    omega

/-- Addresses are plain sums as long as they fit into sixty-four bits. -/
theorem lineAddress_of_lt {base i : Nat} (fits : base + 2 * i < UInt64.size) :
    lineAddress base i = base + 2 * i :=
  Nat.mod_eq_of_lt fits

@[simp]
theorem length_lines (base : Nat) (program : List UInt8) :
    (lines base program).length = (program.length + 1) / 2 := by
  rw [lines, List.length_mapIdx, length_chunks]

end ChipEight.Listing
