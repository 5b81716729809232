/-
# Listings and machines agree on what is code

A listing reads a program two bytes at a time and a machine fetches a word through
its memory. Both take the same bytes in the same order and read them by the same
table, so the line of an address shows the instruction that a step there attempts,
and shows a number exactly where a step finds no instruction. This needs the bytes
to be the loaded ones still: a program that has overwritten itself is not listed.
-/

import ChipEight.Instruction.Coding
import ChipEight.Proofs.History
import ChipEight.Proofs.ListingText
import ChipEight.Proofs.Mnemonics

namespace ChipEight

namespace Memory

/-- A program of the right size stands in memory byte by byte. -/
theorem byteAt_image {program : List UInt8} (fits : program.length ≤ programCapacity) {k : Nat}
    (inside : k < program.length) : (image program).byteAt (programStart + k) = program[k] := by
  have reached : programStart + k < size := by
    have capacity : programStart + programCapacity = size := rfl
    omega
  rw [image, byteAt_put, if_pos ⟨Nat.le_add_right .., Nat.add_lt_add_left inside _, reached⟩,
    Nat.add_sub_cancel_left, List.getElem?_eq_getElem inside]
  rfl

theorem wordAt_image {program : List UInt8} (fits : program.length ≤ programCapacity) {k : Nat}
    (whole : k + 1 < program.length) :
    (image program).wordAt (programStart + k) = Word.ofBytes program[k] program[k + 1] := by
  rw [wordAt, byteAt_image fits (Nat.lt_of_succ_lt whole), Nat.add_assoc, byteAt_image fits whole]

end Memory

namespace Listing

/-- A word written as a number. -/
def rawColumn (word : Word) : List Char :=
  "0x".toList ++ word.hexDigits

/-- A line for a word: its address, its digits and what stands in the last column. -/
def wordLine (address word : Word) (column : List Char) : List Char :=
  "0x".toList ++ address.hexDigits ++ ' ' :: word.hexDigits ++ ' ' :: column

theorem Chunk.hexText_word (high low : UInt8) :
    (Chunk.word high low).hexText = (Word.ofBytes high low).hexDigits :=
  Word.hexPadded_toNat _

theorem Chunk.assembly_of_some {high low : UInt8} {i : Instruction}
    (read : Instruction.ofWord? (Word.ofBytes high low) = some i) :
    (Chunk.word high low).assembly = i.text := by
  simp only [assembly, read]

theorem Chunk.assembly_of_none {high low : UInt8}
    (unknown : Instruction.ofWord? (Word.ofBytes high low) = none) :
    (Chunk.word high low).assembly = rawColumn (Word.ofBytes high low) := by
  simp only [assembly, unknown, numberText, hexText_word, rawColumn]

theorem Line.text_word (address : Word) (high low : UInt8) :
    Line.text ⟨address.toNat, .word high low⟩ =
      wordLine address (Word.ofBytes high low) (Chunk.word high low).assembly := by
  have digits := Chunk.hexText_word high low
  have four : (Word.ofBytes high low).hexDigits.length = 4 := rfl
  simp only [text, addressText, digits, four, Word.hexPadded_toNat, wordLine, Nat.sub_self,
    List.replicate_zero, List.append_nil]

/-- The line of a whole word of a program, found by counting the line ends of the listing. -/
theorem getElem?_splitOn_chars {program : List UInt8} {base i : Nat} {address : Word}
    (whole : 2 * i + 1 < program.length) (here : address.toNat = base + 2 * i) :
    ((chars base program).splitOn '\n')[i]? =
      some (wordLine address (Word.ofBytes program[2 * i] program[2 * i + 1])
        (Chunk.word program[2 * i] program[2 * i + 1]).assembly) := by
  have line : (lines base program)[i]? =
      some ⟨address.toNat, .word program[2 * i] program[2 * i + 1]⟩ := by
    have fits : base + 2 * i < UInt64.size :=
      here ▸ Nat.lt_trans address.toNat_lt (by decide)
    rw [lines, List.getElem?_mapIdx, getElem?_chunks whole, here, ← lineAddress_of_lt fits]
    rfl
  have listed : i < ((lines base program).map Line.text).length := by
    rw [List.length_map, length_lines]
    omega
  rw [splitOn_newline_chars, List.getElem?_append_left listed, List.getElem?_map, line,
    Option.map_some, Line.text_word]

end Listing

namespace Machine

open Listing

variable {m : Machine} {i : Instruction} {word : Word} {fault : Fault}

/-- No instruction is refused for being none. -/
theorem isDecode_of_refusal (refused : m.refusal i = some fault) : fault.isDecode = false := by
  unfold refusal dataFault at refused
  repeat' split at refused
  all_goals cases refused <;> rfl

/-- A step on a word inside the memory ends in its being no instruction exactly if it
is none. -/
theorem step_eq_unknownInstruction_iff (running : m.halted = false)
    (found : m.fetched? = some word) :
    m.step.1 = .error (.unknownInstruction m.pc word) ↔ Instruction.ofWord? word = none := by
  obtain ⟨inside, rfl⟩ := fetched?_eq_some_iff.mp found
  constructor
  · intro failed
    obtain ⟨-, ⟨halted, -⟩ | ⟨-, tried⟩⟩ := step_eq_error_iff.mp (Prod.ext failed rfl)
    · cases halted.symm.trans running
    · cases read : Instruction.ofWord? (m.memory.wordAt m.pc.toNat) with
      | none => rfl
      | some i =>
          have standing := instruction?_eq_some_iff.mpr ⟨inside, read⟩
          rw [attempt_of_instruction? standing] at tried
          have refused := (execute_eq_error_iff.mp (Prod.ext tried rfl)).1
          cases isDecode_of_refusal refused
  · intro unknown
    refine congrArg Prod.fst (step_eq_error_iff.mpr ⟨rfl, .inr ⟨running, ?_⟩⟩)
    rw [attempt_of_unknown inside unknown]

/-- What stands in the last column of the line of a word, and what a step on that word
attempts: a number and nothing, or an instruction and this instruction. -/
theorem assembly_of_fetched? {high low : UInt8} (running : m.halted = false)
    (found : m.fetched? = some (Word.ofBytes high low)) :
    let word := Word.ofBytes high low
    let column := (Chunk.word high low).assembly
    (column = rawColumn word ↔ m.step.1 = .error (.unknownInstruction m.pc word)) ∧
      (m.step.1 ≠ .error (.unknownInstruction m.pc word) →
        ∃ instruction, m.attempt = m.advance.execute instruction ∧
          instruction.toWord = word ∧ column = instruction.assembly.toList ∧
          ¬ "0x".toList <+: column) := by
  intro word column
  rw [Ne, step_eq_unknownInstruction_iff running found]
  cases read : Instruction.ofWord? word with
  | none =>
      have raw : column = rawColumn word := Chunk.assembly_of_none read
      exact ⟨⟨fun _ => rfl, fun _ => raw⟩, fun known => absurd rfl known⟩
  | some i =>
      have mnemonic : column = i.text := Chunk.assembly_of_some read
      have unlike : ¬ "0x".toList <+: column := mnemonic ▸ i.not_hex_prefix_text
      have standing : m.instruction? = some i := by
        rw [instruction?, found]
        exact read
      refine ⟨⟨fun raw => ?_, fun none => ?_⟩, fun _ => ⟨i, ?_, ?_, ?_, unlike⟩⟩
      · exact absurd ⟨word.hexDigits, raw.symm⟩ unlike
      · exact absurd none (Option.some_ne_none i)
      · exact attempt_of_instruction? standing
      · exact Instruction.toWord_of_ofWord? read
      · exact mnemonic.trans i.text_eq_assembly

/-- A machine at a word of its program that is as it was loaded fetches this word. -/
theorem fetched?_of_image {program : List UInt8} {k : Nat}
    (fits : program.length ≤ Memory.programCapacity) (whole : k + 1 < program.length)
    (here : m.pc.toNat = Memory.programStart + k)
    (unchanged : m.memory.wordAt m.pc.toNat = (Memory.image program).wordAt m.pc.toNat) :
    m.fetched? = some (Word.ofBytes program[k] program[k + 1]) := by
  have inside : m.pc.toNat + 1 < Memory.size := by
    have capacity : Memory.programStart + Memory.programCapacity = Memory.size := rfl
    omega
  have placed : (Memory.image program).wordAt m.pc.toNat =
      Word.ofBytes program[k] program[k + 1] := by
    rw [here, Memory.wordAt_image fits whole]
  exact fetched?_eq_some_iff.mpr ⟨inside, unchanged.trans placed⟩

/-- From a load on, wherever a machine that runs comes to a word of the program that
still stands as it was loaded, the line of the listing with that address shows that
word, and behind it a number exactly if the step fails for want of an instruction, and
otherwise the assembly of the instruction that the step attempts, which cannot be taken
for a number. -/
theorem listing_shows_what_is_attempted {start m : Machine} {program : List UInt8}
    {history : List Action} {i : Nat} (accepted : start.load program = (.ok (), m))
    (whole : 2 * i + 1 < program.length) (running : (m.after history).halted = false)
    (here : (m.after history).pc.toNat = Memory.programStart + 2 * i)
    (unchanged : (m.after history).memory.wordAt (m.after history).pc.toNat =
      m.memory.wordAt (m.after history).pc.toNat) :
    let now := m.after history
    let word := Word.ofBytes program[2 * i] program[2 * i + 1]
    ∃ column,
      ((chars Memory.programStart program).splitOn '\n')[i]? =
          some (wordLine now.pc word column) ∧
        (column = rawColumn word ↔ now.step.1 = .error (.unknownInstruction now.pc word)) ∧
        (now.step.1 ≠ .error (.unknownInstruction now.pc word) →
          ∃ instruction, now.attempt = now.advance.execute instruction ∧
            instruction.toWord = word ∧ column = instruction.assembly.toList ∧
            ¬ "0x".toList <+: column) := by
  intro now word
  obtain ⟨fits, rfl⟩ := load_eq_ok_iff.mp accepted
  have found : now.fetched? = some word := fetched?_of_image fits whole here unchanged
  exact ⟨_, getElem?_splitOn_chars whole here, assembly_of_fetched? running found⟩

/-- An instruction with a word behind it that is none: the line of the first shows its
assembly, and the step there attempts it. The line of the second shows the word as a
number, and the step on it fails. -/
theorem listing_shows_what_is_attempted_number :
    let program : List UInt8 := [0x6A, 0x2A, 0x8A, 0xBF]
    let m := (powerOn 0).loaded program
    let now := m.after [.step, .tick]
    (powerOn 0).load program = (.ok (), m) ∧
      ((chars 0x200 program).splitOn '\n')[0]? = some "0x0200 6A2A LD vA, 42".toList ∧
      m.attempt = m.advance.execute (.setByte 0xA 42) ∧
      now.halted = false ∧ now.pc.toNat = 0x202 ∧
      ((chars 0x200 program).splitOn '\n')[1]? = some "0x0202 8ABF 0x8ABF".toList ∧
      now.step.1 = .error (.unknownInstruction 0x202 0x8ABF) := by
  intro program m now
  have accepted : (powerOn 0).load program = (.ok (), m) := load_of_fits (by decide)
  obtain ⟨standing, running, here, unchanged, found⟩ : m.fetched? = some 0x6A2A ∧
      now.halted = false ∧ now.pc = 0x202 ∧
      now.memory.wordAt now.pc.toNat = m.memory.wordAt now.pc.toNat ∧
      now.fetched? = some 0x8ABF := by decide +kernel
  have at_word : now.pc.toNat = 0x202 := congrArg UInt16.toNat here
  obtain ⟨mnemonic, above, -, known⟩ :=
    listing_shows_what_is_attempted (i := 0) accepted (by decide)
      (rfl : (m.after []).halted = false) rfl rfl
  obtain ⟨number, below, raw, -⟩ :=
    listing_shows_what_is_attempted (i := 1) accepted (by decide) running at_word unchanged
  obtain ⟨first, second⟩ : Word.ofBytes program[2 * 0] program[2 * 0 + 1] = 0x6A2A ∧
      Word.ofBytes program[2 * 1] program[2 * 1 + 1] = 0x8ABF := by decide
  rw [first] at above known
  rw [second] at below raw
  -- the first word is an instruction, and the second one is none
  have attempted : (m.after []).step.1 ≠ .error (.unknownInstruction (m.after []).pc 0x6A2A) :=
    fun failed => absurd ((step_eq_unknownInstruction_iff rfl standing).mp failed) (by decide)
  have failed := (step_eq_unknownInstruction_iff running found).mpr (by decide)
  obtain ⟨i, attempt, coded, shown, -⟩ := known attempted
  obtain rfl : i = .setByte 0xA 42 := Instruction.toWord_inj.mp (coded.trans (by decide))
  rw [shown] at above
  rw [raw.mpr failed, show (m.after [.step, .tick]).pc = 0x202 from here] at below
  exact ⟨accepted, above.trans (by decide), attempt, running, at_word,
    below.trans (by decide), here ▸ failed⟩

end Machine

end ChipEight
