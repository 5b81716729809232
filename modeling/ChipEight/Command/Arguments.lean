/-
# The command line

What the words behind the name of the program ask for: to run a file for a
number of steps, or to list it. Anything else is answered with the usage text.
A number of steps is written in decimal digits, with at most one plus sign in
front, and has to fit into sixty-four bits. Words that a command does not use
are not looked at.
-/

import ChipEight.Numeral

namespace ChipEight

/-- What the program is asked to do. -/
inductive Command
  /-- Run the program in a file for at most so many steps. -/
  | run (file : String) (steps : Nat)
  /-- List the program in a file. -/
  | list (file : String)
  deriving DecidableEq

namespace Command

/-- The number of steps that a run makes unless told otherwise. -/
def usualSteps : Nat := 10000

/-- The value of a decimal digit. -/
def digitValue? (c : Char) : Option Nat :=
  if '0' ≤ c ∧ c ≤ '9' then some (c.toNat - 48) else none

/-- The number that decimal digits denote when they continue one already read. -/
def digitsValue? (soFar : Nat) : List Char → Option Nat
  | [] => some soFar
  | c :: rest => do
    let d ← digitValue? c
    digitsValue? (soFar * 10 + d) rest

/-- A number of one or more decimal digits that fits into sixty-four bits. -/
def unsigned? (text : List Char) : Option Nat :=
  if text.isEmpty then none
  else (digitsValue? 0 text).filter fun n => decide (n < UInt64.size)

/-- A number of steps as it is written. -/
def steps? (text : String) : Option Nat :=
  match text.toList with
  | '+' :: digits => unsigned? digits
  | digits => unsigned? digits

/-- The command that the words ask for, if they ask for one. -/
def ofArguments? : List String → Option Command
  | "run" :: file :: rest =>
    match rest with
    | [] => some (.run file usualSteps)
    | steps :: _ => (steps? steps).map fun n => .run file n
  | "dis" :: file :: _ => some (.list file)
  | _ => none

/-! ## Numbers are read as they are written -/

theorem digitsValue?_map_upperDigit {digits : List Nat} (small : ∀ d ∈ digits, d < 10)
    (soFar : Nat) :
    digitsValue? soFar (digits.map Numeral.upperDigit) =
      some (digits.foldl (fun acc d => acc * 10 + d) soFar) := by
  have here : ∀ d < 10, digitValue? (Numeral.upperDigit d) = some d := by decide
  induction digits generalizing soFar with
  | nil => rfl
  | cons d rest ih =>
      rw [List.map_cons, digitsValue?, here d (small d List.mem_cons_self)]
      exact ih (fun d later => small d (List.mem_cons_of_mem _ later)) _

/-- The digits of a number are read as the number, if it fits into sixty-four bits. -/
theorem unsigned?_decimal {n : Nat} (fits : n < UInt64.size) :
    unsigned? (Numeral.decimal n) = some n := by
  have some_digit : (Numeral.decimal n).isEmpty = false := by
    simp [Numeral.decimal, Numeral.digits_ne_nil]
  have value : digitsValue? 0 (Numeral.decimal n) = some n := by
    rw [Numeral.decimal, digitsValue?_map_upperDigit (Numeral.lt_of_mem_digits (by decide) n)]
    exact congrArg some (Numeral.value_digits (by decide) n)
  rw [unsigned?, some_digit, value]
  exact if_pos (decide_eq_true fits)

theorem steps?_decimal {n : Nat} (fits : n < UInt64.size) :
    steps? (String.ofList (Numeral.decimal n)) = some n := by
  have read := unsigned?_decimal fits
  rw [steps?, String.toList_ofList]
  split
  · next digits signed =>
      -- no digit is a plus sign
      rw [signed] at read
      cases read
  · exact read

end Command

end ChipEight
