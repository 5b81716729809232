/-
# Numerals as the library writes them

A number is written with the digits that the library gives it: in decimal as it prints
every natural number, and in hexadecimal with its letters in upper case and, up to a
width, with zeros in front. So texts with numbers in them can be stated word by word,
without a printer of this project on the other side.
-/

import ChipEight.Numeral

namespace ChipEight

/-- A number in upper-case hexadecimal, with zeros in front to make up a width. -/
def upperHex (width n : Nat) : String :=
  String.ofList (((Nat.toDigits 16 n).map Char.toUpper).leftpad width '0')

namespace Numeral

theorem upperDigit_eq {d : Nat} (small : d < 16) : upperDigit d = (Nat.digitChar d).toUpper := by
  revert d
  decide

theorem toUpper_digitChar {d : Nat} (small : d < 10) :
    (Nat.digitChar d).toUpper = Nat.digitChar d := by
  revert d
  decide

theorem map_upperDigit_digits {b : Nat} (two : 2 ≤ b) (small : b ≤ 16) (n : Nat) :
    (digits b n).map upperDigit = (Nat.toDigits b n).map Char.toUpper := by
  induction n using Nat.strongRecOn with
  | ind n ih =>
      rw [Nat.toDigits_eq_if (Nat.lt_of_succ_le two)]
      split
      · next below =>
          rw [digits_of_lt below, List.map_singleton, List.map_singleton,
            upperDigit_eq (Nat.lt_of_lt_of_le below small)]
      · next above =>
          have large := Nat.le_of_not_lt above
          have last : n % b < 16 :=
            Nat.lt_of_lt_of_le (Nat.mod_lt n (Nat.lt_of_succ_lt two)) small
          have fewer : n / b < n :=
            Nat.div_lt_self (Nat.lt_of_lt_of_le (Nat.lt_of_succ_lt two) large) two
          rw [digits_of_le two large, List.map_append, List.map_append, ih _ fewer,
            List.map_singleton, List.map_singleton, upperDigit_eq last]

/-- Decimal digits have no upper case. -/
theorem map_toUpper_toDigits (n : Nat) :
    (Nat.toDigits 10 n).map Char.toUpper = Nat.toDigits 10 n := by
  induction n using Nat.strongRecOn with
  | ind n ih =>
      rw [Nat.toDigits_eq_if (by decide)]
      split
      · next below => rw [List.map_singleton, toUpper_digitChar below]
      · next above =>
          have last : n % 10 < 10 := Nat.mod_lt n (by decide)
          rw [List.map_append, ih (n / 10) (by omega), List.map_singleton,
            toUpper_digitChar last]

theorem decimal_eq (n : Nat) : decimal n = Nat.toDigits 10 n := by
  rw [decimal, map_upperDigit_digits (by decide) (by decide), map_toUpper_toDigits]

/-- A number in base ten is printed as the library prints it. -/
theorem ofList_decimal (n : Nat) : String.ofList (decimal n) = toString n := by
  rw [decimal_eq, Nat.toString_eq_ofList_toDigits]

theorem ofList_hexPadded (width n : Nat) :
    String.ofList (hexPadded width n) = upperHex width n := by
  rw [hexPadded, hex, map_upperDigit_digits (by decide) (by decide)]
  rfl

end Numeral

end ChipEight
