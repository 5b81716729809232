/-
# Numerals

Every number the machine prints is written in base ten or sixteen, sometimes
padded with zeros to a least width. A numeral is a list of digit values, most
significant first and never empty; the text is the numeral with each digit
replaced by its character. Padding only lengthens: a number wider than the
asked width keeps all of its digits.
-/

namespace ChipEight.Numeral

/-- The digits of `n` in base `b`, most significant first. Zero has one digit.
A base below two has no positional notation; there the number is its own digit. -/
def digits (b n : Nat) : List Nat :=
  if n < b ∨ b < 2 then [n] else digits b (n / b) ++ [n % b]
termination_by n
decreasing_by exact Nat.div_lt_self (by omega) (by omega)

/-- The number that a list of digits denotes in base `b`. -/
def value (b : Nat) (ds : List Nat) : Nat :=
  ds.foldl (fun acc d => acc * b + d) 0

/-- The character of a digit below sixteen, letters in upper case. -/
def upperDigit (d : Nat) : Char :=
  if d < 10 then Char.ofNat (48 + d) else Char.ofNat (55 + d)

/-- The character of a digit below sixteen, letters in lower case. -/
def lowerDigit (d : Nat) : Char :=
  if d < 10 then Char.ofNat (48 + d) else Char.ofNat (87 + d)

/-- A number in base ten. -/
def decimal (n : Nat) : List Char :=
  (digits 10 n).map upperDigit

/-- A number in base sixteen with upper-case letters and no padding. -/
def hex (n : Nat) : List Char :=
  (digits 16 n).map upperDigit

/-- A text lengthened on the left with zeros to at least `width` characters. -/
def padLeft (width : Nat) (text : List Char) : List Char :=
  List.replicate (width - text.length) '0' ++ text

/-- A number in base sixteen with at least `width` digits. -/
def hexPadded (width n : Nat) : List Char :=
  padLeft width (hex n)

/-! ## The digits denote the number -/

theorem digits_of_lt {b n : Nat} (small : n < b) : digits b n = [n] := by
  rw [digits, if_pos (Or.inl small)]

theorem digits_of_le {b n : Nat} (two : 2 ≤ b) (large : b ≤ n) :
    digits b n = digits b (n / b) ++ [n % b] := by
  rw [digits, if_neg (by omega)]

theorem digits_ne_nil (b n : Nat) : digits b n ≠ [] := by
  rw [digits]
  split <;> simp

/-- Every digit is below the base. -/
theorem lt_of_mem_digits {b : Nat} (two : 2 ≤ b) (n : Nat) :
    ∀ d ∈ digits b n, d < b := by
  induction n using Nat.strongRecOn with
  | _ n ih =>
    intro d mem
    by_cases small : n < b
    · rw [digits_of_lt small, List.mem_singleton] at mem
      omega
    · rw [digits_of_le two (by omega), List.mem_append, List.mem_singleton] at mem
      cases mem with
      | inl high => exact ih (n / b) (Nat.div_lt_self (by omega) two) d high
      | inr low => exact low ▸ Nat.mod_lt n (by omega)

theorem value_append_singleton (b : Nat) (ds : List Nat) (d : Nat) :
    value b (ds ++ [d]) = value b ds * b + d := by
  simp [value]

/-- Reading the digits of a number back gives the number. -/
theorem value_digits {b : Nat} (two : 2 ≤ b) (n : Nat) : value b (digits b n) = n := by
  induction n using Nat.strongRecOn with
  | _ n ih =>
    by_cases small : n < b
    · simp [digits_of_lt small, value]
    · rw [digits_of_le two (by omega), value_append_singleton,
        ih (n / b) (Nat.div_lt_self (by omega) two)]
      exact Nat.div_add_mod' n b

theorem length_padLeft (width : Nat) (text : List Char) :
    (padLeft width text).length = max width text.length := by
  simp only [padLeft, List.length_append, List.length_replicate]
  omega

end ChipEight.Numeral
