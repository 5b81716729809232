/-
# Clocks

A clock turns readings of the host's time, in nanoseconds, into whole cycles of
a fixed length. It remembers the instant at which its current cycle started. A
count of cycles moves that instant on by exactly the cycles counted, so the
fraction of a cycle that is left carries over to the next count. A backlog of
more cycles than an eight-bit timer can use is dropped instead of replayed.
Readings are arguments throughout: nothing here looks at a real clock. Every
place that reads the time has a reading of its own, since time goes on between
any two of them.
-/

namespace ChipEight

/-- A number of nanoseconds, or an instant counted in them from a fixed origin. -/
abbrev Nanos := Nat

/-- The number of nanoseconds in a second. -/
def nanosPerSecond : Nanos := 1000000000

/-- Readings of the host's time that are made one after the other. Each one but
the first is given by how long after the one before it is made, so that none of
them goes back behind another. -/
structure Readings where
  /-- The first reading. -/
  first : Nanos
  /-- The time from the first reading to the second. -/
  toSecond : Nanos
  /-- The time from the second reading to the third. -/
  toThird : Nanos
  /-- The time from the third reading to the fourth. -/
  toFourth : Nanos
  deriving DecidableEq

namespace Readings

/-- Readings that are all made at the same instant. -/
def atOnce (now : Nanos) : Readings :=
  ⟨now, 0, 0, 0⟩

instance (now : Nat) : OfNat Readings now :=
  ⟨atOnce now⟩

instance : Coe Nat Readings :=
  ⟨atOnce⟩

/-- The second reading. -/
def second (r : Readings) : Nanos :=
  r.first + r.toSecond

/-- The third reading. -/
def third (r : Readings) : Nanos :=
  r.second + r.toThird

/-- The fourth reading. -/
def fourth (r : Readings) : Nanos :=
  r.third + r.toFourth

/-- The readings of someone who waits for an instant before making the first one. -/
def notBefore (r : Readings) (instant : Nanos) : Readings :=
  { r with first := max r.first instant }

end Readings

/-- The length of a cycle at a rate in cycles per second, rounded down. A rate
of zero has cycles of no length. -/
def cycleLength (hz : Nat) : Nanos :=
  if hz = 0 then 0 else nanosPerSecond / hz

/-- Cycles have no length at a rate of zero, and at rates with more than one
cycle in a nanosecond. -/
theorem cycleLength_eq_zero_iff {hz : Nat} :
    cycleLength hz = 0 ↔ hz = 0 ∨ nanosPerSecond < hz := by
  rw [cycleLength]
  split
  · next zero => exact iff_of_true rfl (.inl zero)
  · rw [Nat.div_eq_zero_iff]

/-- A clock in the middle of a cycle. -/
structure Clock where
  /-- The length of a cycle. A clock with cycles of no length is not bound to time. -/
  interval : Nanos
  /-- The instant at which the current cycle started. -/
  start : Nanos
  deriving DecidableEq

namespace Clock

/-- The most cycles that are counted at once: enough to run a timer down. -/
def maxCycles : Nat := 255

/-- Start a new cycle now. -/
def restart (c : Clock) (now : Nanos) : Clock :=
  { c with start := now }

/-- Count the whole cycles since the last count. When there are too many, the
clock counts the most it can and starts over at the later of its two readings.
A clock that is not bound to time counts one cycle whenever it is asked. -/
def tick (c : Clock) (now later : Nanos) : Nat × Clock :=
  if c.interval = 0 then (1, c)
  else
    let cycles := (now - c.start) / c.interval
    if maxCycles < cycles then (maxCycles, c.restart later)
    else (cycles, { c with start := c.start + c.interval * cycles })

/-- Wait for the end of the current cycle and start a new one: the readings as
the wait puts them off, and the clock from then on. The first reading ends the
wait and the second one starts the new cycle. A cycle that is over already is
not waited for, however long ago it ended, and a clock that is not bound to time
never waits. -/
def wait (c : Clock) (readings : Readings) : Readings × Clock :=
  if c.interval = 0 then (readings, c)
  else
    let late := readings.notBefore (c.start + c.interval)
    (late, c.restart late.second)

@[simp]
theorem interval_restart (c : Clock) (now : Nanos) : (c.restart now).interval = c.interval := rfl

/-- Counting cycles does not change how long they are. -/
@[simp]
theorem interval_tick (c : Clock) (now later : Nanos) :
    (c.tick now later).2.interval = c.interval := by
  unfold tick
  split
  · rfl
  · dsimp only
    split <;> rfl

/-- Waiting does not change how long the cycles are. -/
@[simp]
theorem interval_wait (c : Clock) (readings : Readings) :
    (c.wait readings).2.interval = c.interval := by
  unfold wait
  split <;> rfl

/-- Without a cycle length, every call counts one cycle and nothing else happens. -/
theorem tick_of_unbound {c : Clock} (unbound : c.interval = 0) (now later : Nanos) :
    c.tick now later = (1, c) := by
  rw [tick, if_pos unbound]

/-- No call counts more than the most there is to count. -/
theorem fst_tick_le (c : Clock) (now later : Nanos) : (c.tick now later).1 ≤ maxCycles := by
  unfold tick
  split
  · exact (by decide : 1 ≤ maxCycles)
  · dsimp only
    split
    · exact Nat.le_refl _
    · next few => exact Nat.le_of_not_lt few

end Clock

end ChipEight
