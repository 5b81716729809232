/-
# Bounded numbers

Registers, keys and nibbles are numbers below sixteen, addresses are numbers
below the size of the memory. Such numbers are written as plain literals, which
needs the bound not to be zero. It is said once, here, for everything else.
-/

namespace ChipEight

-- the zero is the one that the literals of `Fin` ask for, whatever else is imported
instance neZero_sixteen : @NeZero Nat Zero.ofOfNat0 16 :=
  Nat.instNeZeroSucc

instance neZero_memorySize : @NeZero Nat Zero.ofOfNat0 4096 :=
  Nat.instNeZeroSucc

end ChipEight
