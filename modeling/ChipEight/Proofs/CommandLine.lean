/-
# What the words of a command line ask for

A number of steps is spelled in decimal digits, with at most one plus sign in front, and
has to fit into sixty-four bits; that is all the reader of numbers accepts, however long
the text is. With it the words that ask for nothing are told from those that ask for
something. The former are answered with the usage under a code of its own and without a
look at the host. The latter are carried out, which ends with one of two other codes, and
words that a command does not use make no difference.
-/

import ChipEight.Proofs.Assembler
import ChipEight.Proofs.Headless

namespace ChipEight

namespace Numeral

/-- The text is made of one or more decimal digits, which denote the number. Zeros may stand
in front. -/
structure IsDecimal (text : List Char) (n : Nat) : Prop where
  nonempty : text ≠ []
  digit : ∀ c ∈ text, c.isDigit = true
  value : read 10 text = n

theorem isDigit_iff {c : Char} : c.isDigit = true ↔ '0' ≤ c ∧ c ≤ '9' := by
  simp only [Char.isDigit, Bool.and_eq_true, decide_eq_true_eq, Char.le_def]

end Numeral

/-- The report is that of a success or that of a failure. -/
def Report.IsOutcome (report : Report) : Prop :=
  report.exitCode = 0 ∨ report.exitCode = 1

namespace Command

/-! ## Numbers of steps -/

/-- The text spells a number of steps. -/
def SpellsSteps (text : String) (n : Nat) : Prop :=
  ∃ digits, (text.toList = digits ∨ text.toList = '+' :: digits) ∧
    Numeral.IsDecimal digits n ∧ n < UInt64.size

theorem digitValue?_of_isDigit {c : Char} (digit : c.isDigit = true) :
    digitValue? c = some (Numeral.digitValue c) := by
  have range := Numeral.isDigit_iff.mp digit
  rw [digitValue?, if_pos range, Numeral.digitValue, if_pos range]

theorem digitValue?_of_not_isDigit {c : Char} (other : ¬ c.isDigit = true) :
    digitValue? c = none := by
  rw [digitValue?, if_neg fun range => other (Numeral.isDigit_iff.mpr range)]

/-- Digits continue the number that was read in front of them, and nothing else does. -/
theorem digitsValue?_eq_some_iff {soFar n : Nat} {text : List Char} :
    digitsValue? soFar text = some n ↔
      (∀ c ∈ text, c.isDigit = true) ∧
        (text.map Numeral.digitValue).foldl (fun acc d => acc * 10 + d) soFar = n := by
  induction text generalizing soFar with
  | nil => simp [digitsValue?]
  | cons c rest ih =>
      rw [digitsValue?, List.forall_mem_cons, List.map_cons, List.foldl_cons]
      by_cases digit : c.isDigit = true
      · rw [digitValue?_of_isDigit digit]
        exact ih.trans (by rw [and_iff_right digit])
      · rw [digitValue?_of_not_isDigit digit]
        simp [digit]

theorem unsigned?_eq_some_iff {text : List Char} {n : Nat} :
    unsigned? text = some n ↔ Numeral.IsDecimal text n ∧ n < UInt64.size := by
  constructor
  · intro read
    rw [unsigned?] at read
    split at read
    · cases read
    · next given =>
        obtain ⟨value, small⟩ := Option.filter_eq_some_iff.mp read
        obtain ⟨digits, denoted⟩ := digitsValue?_eq_some_iff.mp value
        exact ⟨⟨fun none => given (List.isEmpty_iff.mpr none), digits, denoted⟩,
          of_decide_eq_true small⟩
  · rintro ⟨⟨nonempty, digits, denoted⟩, small⟩
    have value : digitsValue? 0 text = some n :=
      digitsValue?_eq_some_iff.mpr ⟨digits, denoted⟩
    rw [unsigned?, if_neg fun none => nonempty (List.isEmpty_iff.mp none), value]
    exact if_pos (decide_eq_true small)

/-- A text is read as a number of steps exactly if it spells it. -/
theorem steps?_eq_some_iff {text : String} {n : Nat} :
    steps? text = some n ↔ SpellsSteps text n := by
  unfold steps?
  split
  · next signed split =>
      rw [unsigned?_eq_some_iff]
      constructor
      · exact fun number => ⟨signed, .inr split, number⟩
      · rintro ⟨digits, same | same, number⟩
        · -- no digit is a plus sign
          have plus := number.1.digit '+' (by rw [← same, split]; exact List.mem_cons_self)
          cases plus
        · rw [split] at same
          exact (List.cons.inj same).2 ▸ number
  · next unsigned =>
      rw [unsigned?_eq_some_iff]
      constructor
      · exact fun number => ⟨text.toList, .inl rfl, number⟩
      · rintro ⟨digits, same | same, number⟩
        · exact same ▸ number
        · exact absurd same (unsigned digits)

theorem steps?_eq_none_iff {text : String} : steps? text = none ↔ ∀ n, ¬ SpellsSteps text n := by
  simp only [Option.eq_none_iff_forall_ne_some, Ne, steps?_eq_some_iff]

/-! ## Words that ask for nothing -/

/-- The words that are no command. -/
inductive Misused : List String → Prop
  /-- There are no words. -/
  | nothing : Misused []
  /-- The first word names no command. -/
  | noCommand {first : String} (rest : List String) (other : first ≠ "run")
      (another : first ≠ "dis") : Misused (first :: rest)
  /-- No file is given. -/
  | noFile (first : String) : Misused [first]
  /-- A run is asked for, but not for a number of steps. -/
  | noSteps (file : String) {text : String} (rest : List String)
      (unread : ∀ n, ¬ SpellsSteps text n) : Misused ("run" :: file :: text :: rest)

theorem ofArguments?_run (file text : String) (rest : List String) :
    ofArguments? ("run" :: file :: text :: rest) = (steps? text).map (.run file) :=
  rfl

theorem ofArguments?_of_ne {first : String} (other : first ≠ "run") (another : first ≠ "dis")
    (rest : List String) : ofArguments? (first :: rest) = none := by
  unfold ofArguments?
  split
  · next same => exact absurd (List.cons.inj same).1 other
  · next same => exact absurd (List.cons.inj same).1 another
  · rfl

theorem ofArguments?_singleton (first : String) : ofArguments? [first] = none := by
  unfold ofArguments?
  split
  · next same => cases (List.cons.inj same).2
  · next same => cases (List.cons.inj same).2
  · rfl

/-- The words ask for nothing exactly if they are no command. -/
theorem ofArguments?_eq_none_iff {words : List String} :
    ofArguments? words = none ↔ Misused words := by
  constructor
  · intro none
    match words with
    | [] => exact .nothing
    | [first] => exact .noFile first
    | first :: file :: rest =>
        by_cases run : first = "run"
        · subst run
          cases rest with
          | nil => cases none
          | cons text rest =>
              rw [ofArguments?_run, Option.map_eq_none_iff, steps?_eq_none_iff] at none
              exact .noSteps file rest none
        · by_cases list : first = "dis"
          · subst list
            cases none
          · exact .noCommand (file :: rest) run list
  · intro misused
    cases misused with
    | nothing => rfl
    | noCommand rest other another => exact ofArguments?_of_ne other another rest
    | noFile first => exact ofArguments?_singleton first
    | noSteps file rest unread =>
        rw [ofArguments?_run, steps?_eq_none_iff.mpr unread, Option.map_none]

/-! ## Answers -/

section

variable {m : Type → Type} [Monad m] (host : Host m)

theorem answer_of_misused {words : List String} (misused : Misused words) :
    answer host words = pure .usage := by
  rw [answer, ofArguments?_eq_none_iff.mpr misused]

theorem answer_run {text : String} {n : Nat} (spelled : SpellsSteps text n) (file : String)
    (rest : List String) :
    answer host ("run" :: file :: text :: rest) = perform host (.run file n) := by
  rw [answer, ofArguments?_run, steps?_eq_some_iff.mpr spelled, Option.map_some]

end

section

variable {σ : Type} (host : Host (StateM σ))

theorem isOutcome_finish (output : List Printed) (fault? : Option Fault) (world : σ) :
    ((finish host output fault?).run world).1.IsOutcome := by
  rw [Report.IsOutcome, (ends_finish host output fault? world).exitCode]
  cases fault? with
  | none => exact .inl rfl
  | some fault => exact .inr rfl

theorem isOutcome_runProgram (program : List UInt8) (steps : Nat) (world : σ) :
    ((runProgram host program steps).run world).1.IsOutcome := by
  obtain ⟨entropy, new, now, later, same⟩ := exists_load_run host program steps world
  rw [same]
  split <;> exact isOutcome_finish host _ _ _

/-- A command succeeds or fails. -/
theorem isOutcome_perform (command : Command) (world : σ) :
    ((perform host command).run world).1.IsOutcome := by
  cases command with
  | run file steps =>
      rw [perform, StateT.run_bind]
      generalize (host.contents file).run world = read
      obtain ⟨_ | program, later⟩ := read
      · exact isOutcome_finish host _ _ later
      · exact isOutcome_runProgram host program steps later
  | list file =>
      rw [perform, StateT.run_bind]
      generalize (host.contents file).run world = read
      obtain ⟨_ | program, later⟩ := read <;> exact isOutcome_finish host _ _ later

theorem isOutcome_answer_of_not_misused {words : List String} (used : ¬ Misused words)
    (world : σ) : ((answer host words).run world).1.IsOutcome := by
  obtain ⟨command, asked⟩ :=
    Option.ne_none_iff_exists'.mp fun none => used (ofArguments?_eq_none_iff.mp none)
  rw [answer, asked]
  exact isOutcome_perform host command world

end

/-- Words that are no command are answered with the version and the usage on standard output
under the exit code 64, and nothing is asked of the host, so no file is touched. No other words
end with this code: they are carried out and end with 0 or 1.

A program is run for as many steps as the third word spells in decimal digits, behind a plus
sign or not, and for the usual number if there is no third word. The words behind the steps of
a run, or behind the file to be listed, are not looked at. -/
theorem misused_words_are_answered_by_usage :
    (∀ words, Misused words → ∀ {m : Type → Type} [Monad m] (host : Host m),
      answer host words = pure ⟨64,
        "Chip8 v0.4.0\n\nusage: chip8 CMD FILE [STEPS]\n\ncommands:\n" ++
          "    run     Run the target ROM file headless, then print the display\n" ++
          "    dis     Disassemble the the target ROM into readable assembly\n\n" ++
          "examples:\n    chip8 run maze.rom\n    chip8 run maze.rom 2000\n" ++
          "    chip8 dis maze.rom\n\n", ""⟩) ∧
    (∀ words {σ : Type} (host : Host (StateM σ)) (world : σ),
      let report := ((answer host words).run world).1
      (report.exitCode = 64 ↔ Misused words) ∧
        (¬ Misused words → report.exitCode = 0 ∨ report.exitCode = 1)) ∧
    ∀ {m : Type → Type} [Monad m] (host : Host m) (file : String) (rest : List String),
      (∀ text n, SpellsSteps text n →
        answer host ("run" :: file :: text :: rest) = perform host (.run file n)) ∧
      answer host ["run", file] = perform host (.run file 10000) ∧
      answer host ("dis" :: file :: rest) = perform host (.list file) := by
  refine ⟨?_, ?_, ?_⟩
  · intro words misused m _ host
    rw [answer_of_misused host misused]
    refine congrArg pure ?_
    decide +kernel
  · intro words σ host world report
    have carriedOut (used : ¬ Misused words) : report.IsOutcome :=
      isOutcome_answer_of_not_misused host used world
    refine ⟨⟨fun code => ?_, fun misused => ?_⟩, carriedOut⟩
    · by_contra used
      rcases carriedOut used with zero | one
      · cases code.symm.trans zero
      · cases code.symm.trans one
    · show (((answer host words).run world).1).exitCode = 64
      rw [answer_of_misused host misused]
      rfl
  · exact fun host file rest => ⟨fun text n spelled => answer_run host spelled file rest, rfl, rfl⟩

/-- On a host that counts how often it is asked for a file: a plus sign alone and a number of
sixty-five bits are no steps, and zeros in front of a number do not count. -/
theorem misused_words_are_answered_by_usage_signed :
    let host : Host (StateM Nat) :=
      ⟨fun _ => do modify (· + 1); return .ok [0x12, 0x00], pure 0, pure (.replicate 8 0), none⟩
    let usage : Report := ⟨64,
      "Chip8 v0.4.0\n\nusage: chip8 CMD FILE [STEPS]\n\ncommands:\n" ++
        "    run     Run the target ROM file headless, then print the display\n" ++
        "    dis     Disassemble the the target ROM into readable assembly\n\n" ++
        "examples:\n    chip8 run maze.rom\n    chip8 run maze.rom 2000\n" ++
        "    chip8 dis maze.rom\n\n", ""⟩
    (answer host ["run", "a.rom", "+"]).run 0 = (usage, 0) ∧
      (answer host ["run", "a.rom", "18446744073709551616"]).run 0 = (usage, 0) ∧
      answer host ["run", "a.rom", "+007", "-"] = perform host (.run "a.rom" 7) ∧
      ((answer host ["run", "a.rom", "+007", "-"]).run 0).1.exitCode ≠ 64 := by
  intro host usage
  obtain ⟨misuse, codes, commands⟩ := misused_words_are_answered_by_usage
  have sign : Misused ["run", "a.rom", "+"] :=
    .noSteps "a.rom" [] (steps?_eq_none_iff.mp (by decide))
  have large : Misused ["run", "a.rom", "18446744073709551616"] :=
    .noSteps "a.rom" [] (steps?_eq_none_iff.mp (by decide))
  have spelled : SpellsSteps "+007" 7 := steps?_eq_some_iff.mp (by decide)
  have command : ¬ Misused ["run", "a.rom", "+007", "-"] := fun misused => by
    cases ofArguments?_eq_none_iff.mpr misused
  refine ⟨?_, ?_, (commands host "a.rom" ["-"]).1 "+007" 7 spelled, ?_⟩
  · rw [misuse _ sign host]
    rfl
  · rw [misuse _ large host]
    rfl
  · exact fun code => command ((codes _ host 0).1.mp code)

end Command

end ChipEight
