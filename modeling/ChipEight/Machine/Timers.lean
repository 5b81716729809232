/-
# The timers

Two bytes count down to zero and stay there: the delay timer, which programs
read, and the sound timer, during whose countdown the buzzer is on. Counting is
driven from outside the machine and takes no part in executing instructions.
-/

namespace ChipEight

/-- The two countdowns. -/
structure Timers where
  /-- The countdown that programs read. -/
  delay : UInt8
  /-- The countdown during which the buzzer is on. -/
  sound : UInt8
  deriving DecidableEq

namespace Timers

/-- Both timers at zero. -/
def zero : Timers := ⟨0, 0⟩

/-- One less, and zero from zero. -/
def countDown (t : UInt8) : UInt8 :=
  if t = 0 then 0 else t - 1

/-- Count the delay timer down once. -/
def tickDelay (t : Timers) : Timers :=
  { t with delay := countDown t.delay }

/-- Count the sound timer down once. -/
def tickSound (t : Timers) : Timers :=
  { t with sound := countDown t.sound }

/-- Count both timers down once. -/
def tick (t : Timers) : Timers :=
  t.tickDelay.tickSound

/-- Whether the buzzer should be on. -/
def isSounding (t : Timers) : Bool :=
  t.sound != 0

/-- Counting down subtracts one as far as there is anything to subtract. -/
theorem toNat_countDown (t : UInt8) : (countDown t).toNat = t.toNat - 1 := by
  unfold countDown
  split
  · next zero => simp [zero]
  · next positive =>
    have one : 1 ≤ t := by
      rw [UInt8.le_iff_toNat_le]
      have : t.toNat ≠ 0 := fun h => positive (UInt8.toNat_inj.mp h)
      simpa using Nat.one_le_iff_ne_zero.mpr this
    rw [UInt8.toNat_sub_of_le _ _ one]
    rfl

end Timers

end ChipEight
