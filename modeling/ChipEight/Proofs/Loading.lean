/-
# What a load leaves

A load depends on the machine only through its random source. Whether it is
accepted depends on the size of the program alone: neither the font nor a
program that passed the size check can fail to fit. A refused load is no event
in the life of a machine, since it happens before the first change.
-/

import ChipEight.Machine.State

namespace ChipEight

namespace Memory

/-- The memory with the font and a program in it and every other byte zero. -/
def image (program : List UInt8) : Memory :=
  (zero.put Font.start Font.bytes).put programStart program

theorem load_of_fits {m : Memory} {bs : List UInt8} {start : Nat}
    (fits : start + bs.length ≤ size) : m.load bs start = .ok (m.put start bs) := by
  rw [load, if_neg (by omega), if_neg (by omega)]

end Memory

namespace Machine

/-- The machine that a load of an accepted program leaves. -/
def loaded (m : Machine) (program : List UInt8) : Machine :=
  { m.clear with
    memory := .image program
    registers := Registers.zero.setPc (UInt16.ofNat Memory.programStart)
    halted := false }

theorem load_of_large {m : Machine} {program : List UInt8}
    (large : Memory.programCapacity < program.length) :
    m.load program = (.error (.programTooLarge program.length Memory.programCapacity), m) := by
  rw [load, if_pos large]

theorem load_of_fits {m : Machine} {program : List UInt8}
    (fits : program.length ≤ Memory.programCapacity) :
    m.load program = (.ok (), m.loaded program) := by
  have font : m.clear.memory.load Font.bytes Font.start =
      .ok (Memory.zero.put Font.start Font.bytes) := Memory.load_of_fits (by decide)
  have inside : Memory.programStart + program.length ≤ Memory.size := by
    have capacity : Memory.programStart + Memory.programCapacity = Memory.size := rfl
    omega
  have placed : (Memory.zero.put Font.start Font.bytes).loadProgram program =
      .ok (.image program) := Memory.load_of_fits inside
  rw [load, if_neg (Nat.not_lt.mpr fits)]
  simp only [font, placed]
  rfl

theorem load_eq_ok_iff {m next : Machine} {program : List UInt8} :
    m.load program = (.ok (), next) ↔
      program.length ≤ Memory.programCapacity ∧ next = m.loaded program := by
  rcases Nat.lt_or_ge Memory.programCapacity program.length with large | fits
  · simp [load_of_large large, Nat.not_le.mpr large]
  · simp [load_of_fits fits, fits, eq_comm]

/-- A load that fails has changed nothing. -/
theorem load_of_error {m : Machine} {program : List UInt8} {fault : Fault}
    (refused : (m.load program).1 = .error fault) : (m.load program).2 = m := by
  rcases Nat.lt_or_ge Memory.programCapacity program.length with large | fits
  · rw [load_of_large large]
  · rw [load_of_fits fits] at refused
    cases refused

end Machine

end ChipEight
