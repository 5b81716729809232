/-
# Counting cycles

A count moves the start of a clock on by just the cycles that it counts, and leaves the
reading inside the cycle that starts there. The first of these makes the counts add up:
after any number of them the start is as many cycles past the first one as were counted
in all. With the second, the total is the number of whole cycles between the first start
and the last reading, however unevenly the readings came. No fraction of a cycle is lost
on the way, and none is counted twice.

All this needs every count to come in time. One that finds a backlog counts the most
there is to count and gives up the rest, which cannot be told by the timers: a byte is at
zero after that many ticks whatever it was.
-/

import Mathlib.Algebra.BigOperators.Group.Finset.Basic
import ChipEight.Proofs.Countdown

namespace ChipEight

/-- Timers that show the same are equal. -/
theorem Timers.ext_read {s t : Timers} (same : ∀ timer : Timer, timer.read s = timer.read t) :
    s = t :=
  congrArg₂ Timers.mk (same .delay) (same .sound)

namespace Machine

/-- Ticks count a timer down one by one, and stop at zero. -/
theorem toNat_read_ticks (m : Machine) (timer : Timer) (count : Nat) :
    (timer.read (m.tick count).timers).toNat = (timer.read m.timers).toNat - count := by
  induction count generalizing m with
  | zero => rfl
  | succ count ih =>
      rw [tick_succ, ih, Timer.toNat_read_tick]
      omega

/-- The most cycles that are counted at once run both timers down. -/
theorem tick_maxCycles (m : Machine) : m.tick Clock.maxCycles = { m with timers := .zero } := by
  have down : (m.tick Clock.maxCycles).timers = .zero := Timers.ext_read fun timer => by
    have byte := (timer.read m.timers).toNat_lt
    have zero : timer.read .zero = 0 := by cases timer <;> rfl
    rw [zero, ← UInt8.toNat_inj, toNat_read_ticks, Clock.maxCycles, UInt8.toNat_zero]
    omega
  rw [tick_eq, down]

end Machine

namespace Clock

variable {c : Clock} {reading : Nanos} {now later : Nat → Nanos} {k : Nat}

/-! ## One count -/

/-- More than 255 whole cycles have ended since the last count. -/
def HasBacklog (c : Clock) (reading : Nanos) : Prop :=
  c.start + 256 * c.interval ≤ reading

instance (c : Clock) (reading : Nanos) : Decidable (c.HasBacklog reading) :=
  inferInstanceAs (Decidable (_ ≤ _))

/-- The reading falls into the current cycle. -/
structure InCycle (c : Clock) (reading : Nanos) : Prop where
  begun : c.start ≤ reading
  unfinished : reading < c.start + c.interval

theorem hasBacklog_iff (bound : 0 < c.interval) :
    c.HasBacklog reading ↔ maxCycles < (reading - c.start) / c.interval := by
  rw [HasBacklog, ← Nat.succ_le_iff, Nat.le_div_iff_mul_le bound, maxCycles]
  constructor
  · exact Nat.le_sub_of_add_le'
  · intro many
    -- a difference cut off at zero is no backlog, as a cycle has some length
    have passed : 0 < reading - c.start := Nat.lt_of_lt_of_le (Nat.mul_pos (by decide) bound) many
    have begun : c.start ≤ reading := Nat.le_of_lt (Nat.lt_of_sub_pos passed)
    exact (Nat.le_sub_iff_add_le' begun).mp many

theorem tick_of_hasBacklog (bound : 0 < c.interval) (backlog : c.HasBacklog reading)
    (later : Nanos) : c.tick reading later = (maxCycles, c.restart later) := by
  rw [tick, if_neg bound.ne']
  exact if_pos ((hasBacklog_iff bound).mp backlog)

/-- A count in time counts the whole cycles since the start, and the start moves on by
just these. -/
theorem tick_of_not_hasBacklog (bound : 0 < c.interval) (inTime : ¬ c.HasBacklog reading)
    (later : Nanos) :
    let cycles := (reading - c.start) / c.interval
    c.tick reading later = (cycles, { c with start := c.start + c.interval * cycles }) := by
  rw [tick, if_neg bound.ne']
  exact if_neg (mt (hasBacklog_iff bound).mpr inTime)

theorem snd_tick_of_not_hasBacklog (bound : 0 < c.interval) (inTime : ¬ c.HasBacklog reading)
    (later : Nanos) :
    (c.tick reading later).2 =
      { c with start := c.start + c.interval * (c.tick reading later).1 } := by
  rw [tick_of_not_hasBacklog bound inTime]

/-- What is left over behind a count in time is less than a cycle. -/
theorem inCycle_tick (bound : 0 < c.interval) (begun : c.start ≤ reading)
    (inTime : ¬ c.HasBacklog reading) (later : Nanos) :
    (c.tick reading later).2.InCycle reading := by
  have behind : c.start + (reading - c.start) = reading := Nat.add_sub_of_le begun
  rw [tick_of_not_hasBacklog bound inTime]
  constructor
  · calc
      c.start + c.interval * ((reading - c.start) / c.interval)
        ≤ c.start + (reading - c.start) := Nat.add_le_add_left (Nat.mul_div_le _ _) _
      _ = reading := behind
  · calc
      reading = c.start + (reading - c.start) := behind.symm
      _ < c.start + c.interval * ((reading - c.start) / c.interval + 1) :=
        Nat.add_lt_add_left (Nat.lt_mul_div_succ _ bound) _
      _ = c.start + c.interval * ((reading - c.start) / c.interval) + c.interval := by
        rw [Nat.mul_add_one, Nat.add_assoc]

/-! ## Count after count -/

/-- The clock after so many counts. The count with number `i` is made at the reading
`now i`, and with a backlog it starts over at the reading `later i`. -/
def afterCounts (now later : Nat → Nanos) (c : Clock) : Nat → Clock
  | 0 => c
  | k + 1 => ((c.afterCounts now later k).tick (now k) (later k)).2

/-- The number of cycles that the count with number `k` comes to. -/
def counted (now later : Nat → Nanos) (c : Clock) (k : Nat) : Nat :=
  ((c.afterCounts now later k).tick (now k) (later k)).1

/-- The number of cycles that the first `k` counts come to. -/
def countedBefore (now later : Nat → Nanos) (c : Clock) (k : Nat) : Nat :=
  ∑ i ∈ Finset.range k, c.counted now later i

theorem interval_afterCounts (now later : Nat → Nanos) (c : Clock) (k : Nat) :
    (c.afterCounts now later k).interval = c.interval := by
  induction k with
  | zero => rfl
  | succ k ih => rw [afterCounts, interval_tick, ih]

theorem interval_afterCounts_pos (bound : 0 < c.interval) :
    0 < (c.afterCounts now later k).interval := by
  rw [interval_afterCounts]
  exact bound

/-- Counts in time move the start on by the cycles counted, and do nothing else. -/
theorem afterCounts_eq (bound : 0 < c.interval)
    (inTime : ∀ i < k, ¬ (c.afterCounts now later i).HasBacklog (now i)) :
    c.afterCounts now later k =
      { c with start := c.start + c.interval * c.countedBefore now later k } := by
  induction k with
  | zero => rfl
  | succ k ih =>
      have earlier := ih fun i below => inTime i (Nat.lt_succ_of_lt below)
      have last := inTime k (Nat.lt_succ_self k)
      rw [afterCounts, snd_tick_of_not_hasBacklog (interval_afterCounts_pos bound) last,
        ← counted, earlier, countedBefore, countedBefore, Finset.sum_range_succ, Nat.mul_add,
        Nat.add_assoc]

/-- Behind counts in time, no reading comes before the start of the current cycle. -/
theorem start_afterCounts_le (bound : 0 < c.interval) (begun : c.start ≤ now 0)
    (ordered : ∀ i < k, now i ≤ now (i + 1))
    (inTime : ∀ i < k, ¬ (c.afterCounts now later i).HasBacklog (now i)) :
    (c.afterCounts now later k).start ≤ now k := by
  induction k with
  | zero => exact begun
  | succ k ih =>
      have before := ih (fun i below => ordered i (Nat.lt_succ_of_lt below))
        fun i below => inTime i (Nat.lt_succ_of_lt below)
      have here := inCycle_tick (interval_afterCounts_pos bound) before
        (inTime k (Nat.lt_succ_self k)) (later k)
      exact Nat.le_trans here.begun (ordered k (Nat.lt_succ_self k))

/-- Behind counts in time, the last reading falls into the current cycle. -/
theorem inCycle_afterCounts (bound : 0 < c.interval) (begun : c.start ≤ now 0)
    (ordered : ∀ i < k, now i ≤ now (i + 1))
    (inTime : ∀ i ≤ k, ¬ (c.afterCounts now later i).HasBacklog (now i)) :
    (c.afterCounts now later (k + 1)).InCycle (now k) := by
  have before := start_afterCounts_le bound begun ordered
    fun i below => inTime i (Nat.le_of_lt below)
  exact inCycle_tick (interval_afterCounts_pos bound) before (inTime k (Nat.le_refl k)) (later k)

/-- Counts in time add up to the whole cycles between the first start and the last reading. -/
theorem countedBefore_eq_div (bound : 0 < c.interval) (begun : c.start ≤ now 0)
    (ordered : ∀ i < k, now i ≤ now (i + 1))
    (inTime : ∀ i ≤ k, ¬ (c.afterCounts now later i).HasBacklog (now i)) :
    c.countedBefore now later (k + 1) = (now k - c.start) / c.interval := by
  have here := inCycle_afterCounts bound begun ordered inTime
  rw [afterCounts_eq bound fun i below => inTime i (Nat.le_of_lt_succ below)] at here
  refine (Nat.div_eq_of_lt_le ?_ ?_).symm
  · rw [Nat.mul_comm]
    exact Nat.le_sub_of_add_le' here.begun
  · refine Nat.sub_lt_left_of_lt_add ?_ ?_
    · exact Nat.le_trans (Nat.le_add_right _ _) here.begun
    · rw [Nat.mul_comm, Nat.mul_add_one, ← Nat.add_assoc]
      exact here.unfinished

end Clock

namespace Emulator

variable {e : Emulator} {now : Readings}

/-- A step that finds a backlog of timer cycles is made with both timers at zero, and the
timers' clock starts over at the last of the step's readings. -/
theorem step_of_hasBacklog (running : e.interrupted = false) (bound : 0 < e.timerClock.interval)
    (backlog : e.timerClock.HasBacklog (e.pace.wait now).1.third) :
    let (late, pace) := e.pace.wait now
    let (outcome, machine) := { e.machine with timers := .zero }.step
    e.step now =
      (outcome, { e with machine, pace, timerClock := e.timerClock.restart late.fourth }) := by
  have going : ¬ e.interrupted = true := by simp [running]
  have counted := Clock.tick_of_hasBacklog bound backlog (e.pace.wait now).1.fourth
  rw [step, if_neg going]
  simp only [counted, Machine.tick_maxCycles]

end Emulator

namespace Clock

/-- Without a cycle length every count is one. With one, take any readings that do not
decrease, from the start of the clock on, such that no count finds more than 255 whole
cycles: the counts add up to the whole cycles between the start and the last reading, and
the start has moved on by just these, to less than a cycle before that reading. A count
that finds more is 255 and moves the start to the reading made after it, and the timers
of any machine are at zero behind so many ticks; so a step of an emulator that comes that
late is a step of its machine with the timers at zero. The step makes four readings, two
for its pace, one for the count and one behind it. No count is ever more than 255. -/
theorem counts_lose_no_cycles (c : Clock) :
    (c.interval = 0 → ∀ reading later, c.tick reading later = (1, c)) ∧
      (0 < c.interval →
        (∀ now later k, c.start ≤ now 0 → (∀ i < k, now i ≤ now (i + 1)) →
          (∀ i ≤ k, ¬ (c.afterCounts now later i).HasBacklog (now i)) →
          let next := c.afterCounts now later (k + 1)
          ∑ i ∈ Finset.range (k + 1), c.counted now later i = (now k - c.start) / c.interval ∧
            next.start = c.start + c.interval * ((now k - c.start) / c.interval) ∧
            next.start ≤ now k ∧ now k - next.start < c.interval) ∧
        (∀ reading later, c.HasBacklog reading →
          c.tick reading later = (255, { c with start := later }) ∧
            ∀ m : Machine, m.tick (c.tick reading later).1 = { m with timers := .zero }) ∧
        (∀ reading later, (c.tick reading later).1 ≤ 255) ∧
        ∀ (e : Emulator) now, e.timerClock = c → e.interrupted = false →
          let late := (e.pace.wait now).1
          c.HasBacklog late.third →
            let m := { e.machine with timers := .zero }
            (e.step now).1 = m.step.1 ∧ (e.step now).2.machine = m.step.2 ∧
              (e.step now).2.timerClock = { c with start := late.fourth }) := by
  refine ⟨tick_of_unbound, fun bound => ⟨fun now later k begun ordered inTime => ?_,
    fun reading later backlog => ?_, c.fst_tick_le, ?_⟩⟩
  · have total := countedBefore_eq_div bound begun ordered inTime
    have moved := afterCounts_eq bound fun i below => inTime i (Nat.le_of_lt_succ below)
    have here := inCycle_afterCounts bound begun ordered inTime
    refine ⟨total, ?_, here.begun, ?_⟩
    · rw [moved, total]
    · refine Nat.sub_lt_left_of_lt_add here.begun ?_
      rw [← interval_afterCounts now later c (k + 1)]
      exact here.unfinished
  · have counted := tick_of_hasBacklog bound backlog later
    refine ⟨counted, fun m => ?_⟩
    rw [counted, m.tick_maxCycles]
  · intro e now clock running late backlog
    subst clock
    have made := Emulator.step_of_hasBacklog running bound backlog
    rw [made]
    exact ⟨rfl, rfl, rfl⟩

/-- Cycles of 100 from 50 on, read in the middle of the first one, twice at once, and as
late as 255 cycles allow: the counts come to what is between the start and the last
reading. Then 256 cycles and more are counted as 255, and the clock starts over. So does
the one of an emulator whose timers are at 255 and 7 when it makes a step that late. -/
theorem counts_lose_no_cycles_at_limit :
    let c : Clock := ⟨100, 50⟩
    let now : Nat → Nanos := fun i => [149, 310, 310, 25849].getD i 0
    let later : Nat → Nanos := fun _ => 0
    let next : Clock := ⟨100, 25750⟩
    let e : Emulator :=
      { Emulator.ofSettings ⟨none, 0, some 0⟩ (.replicate 8 0) 0 with
        machine := { Machine.powerOn 0 with timers := ⟨255, 7⟩ }
        timerClock := next }
    (List.range 4).map (c.counted now later) = [0, 2, 0, 255] ∧
      (c.afterCounts now later 4).start = next.start ∧
      ∑ i ∈ Finset.range 4, c.counted now later i = 257 ∧
      next.tick 51365 51370 = (255, ⟨100, 51370⟩) ∧
      (e.step ⟨51340, 5, 5, 5⟩).2.timerClock = ⟨100, 51355⟩ ∧
      (e.step ⟨51340, 5, 5, 5⟩).2.machine.timers = .zero ∧
      (⟨0, 50⟩ : Clock).tick 60 70 = (1, ⟨0, 50⟩) := by
  intro c now later next e
  obtain ⟨-, laws⟩ := counts_lose_no_cycles c
  obtain ⟨total, moved, -, -⟩ :=
    (laws (by decide)).1 now later 3 (by decide) (by decide) (by decide)
  obtain ⟨-, late, -, steps⟩ := (counts_lose_no_cycles next).2 (by decide)
  obtain ⟨-, machine, clock⟩ := steps e ⟨51340, 5, 5, 5⟩ rfl rfl (by decide)
  refine ⟨by decide, moved.trans (by decide), total.trans (by decide),
    (late 51365 51370 (by decide)).1, clock, ?_, (counts_lose_no_cycles ⟨0, 50⟩).1 rfl 60 70⟩
  rw [machine]
  decide +kernel

end Clock

end ChipEight
