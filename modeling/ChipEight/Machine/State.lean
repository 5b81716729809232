/-
# The machine

Everything that a program can see or change, the source of random bytes, and
whether the machine has stopped. Operations that can fail change the machine in
place: they give their outcome together with the machine as it is then, so what
a failing operation leaves behind is part of its result. Loading a program
starts from cleared components, so nothing of an earlier program is left in it;
only the random source goes on where it was. A program that does not fit is
refused before anything is cleared.
-/

import ChipEight.Machine.CallStack
import ChipEight.Machine.Display
import ChipEight.Machine.Font
import ChipEight.Machine.Keypad
import ChipEight.Machine.Memory
import ChipEight.Machine.Registers
import ChipEight.Machine.Timers
import ChipEight.Random.Source

namespace ChipEight

/-- The complete state of a machine. -/
structure Machine where
  /-- The byte registers, the index and the program counter. -/
  registers : Registers
  /-- The delay timer and the sound timer. -/
  timers : Timers
  /-- The bytes of memory. -/
  memory : Memory
  /-- The addresses that pending calls return to. -/
  stack : CallStack
  /-- The pixels. -/
  display : Display
  /-- The keys that are down. -/
  keypad : Keypad
  /-- Where random bytes come from. -/
  random : RandomSource
  /-- Whether the machine has stopped for good, until a program is loaded. -/
  halted : Bool
  deriving DecidableEq

namespace Machine

/-- The machine as it is switched on with a random source, and with no program. -/
def switchedOn (random : RandomSource) : Machine where
  registers := Registers.zero.setPc (UInt16.ofNat Memory.programStart)
  timers := .zero
  memory := .zero
  stack := .empty
  display := .dark
  keypad := .released
  random
  halted := false

/-- The machine as it is switched on with the random source of a seed. -/
def powerOn (seed : UInt64) : Machine :=
  switchedOn (.ofSeed seed)

/-- The machine with every component a program can see put back to zero. -/
def clear (m : Machine) : Machine :=
  { m with
    registers := .zero
    timers := .zero
    memory := .zero
    stack := .empty
    display := .dark
    keypad := .released }

/-- Start over with a program: clear everything, put the font and the program
in their places and point the program counter at the program. The size is
checked first; a fault behind that check leaves the machine cleared. -/
def load (m : Machine) (program : List UInt8) : Except Fault Unit × Machine :=
  if Memory.programCapacity < program.length then
    (.error (.programTooLarge program.length Memory.programCapacity), m)
  else
    let blank := m.clear
    match blank.memory.load Font.bytes Font.start with
    | .error fault => (.error fault, blank)
    | .ok withFont =>
      match withFont.loadProgram program with
      | .error fault => (.error fault, { blank with memory := withFont })
      | .ok memory =>
        (.ok (), { blank with
          memory
          registers := blank.registers.setPc (UInt16.ofNat Memory.programStart)
          halted := false })

/-- The value of a byte register. -/
def v (m : Machine) (x : Register) : UInt8 :=
  m.registers.get x

/-- The program counter. -/
def pc (m : Machine) : UInt16 :=
  m.registers.pc

/-- The index register. -/
def index (m : Machine) : Address :=
  m.registers.index

/-- Stop the machine. -/
def halt (m : Machine) : Machine :=
  { m with halted := true }

/-- Put one key down or up. -/
def setKey (m : Machine) (k : Key) (down : Bool) : Machine :=
  { m with keypad := m.keypad.setKey k down }

/-- Put all keys up. -/
def releaseKeys (m : Machine) : Machine :=
  { m with keypad := .released }

/-- Count both timers down the given number of times. -/
def tick (m : Machine) : Nat → Machine
  | 0 => m
  | n + 1 => { m with timers := m.timers.tick }.tick n

@[simp]
theorem pc_powerOn (seed : UInt64) : (powerOn seed).pc = 0x200 := rfl

@[simp]
theorem random_clear (m : Machine) : m.clear.random = m.random := rfl

@[simp]
theorem halted_clear (m : Machine) : m.clear.halted = m.halted := rfl

@[simp]
theorem tick_zero (m : Machine) : m.tick 0 = m := rfl

theorem tick_succ (m : Machine) (n : Nat) :
    m.tick (n + 1) = { m with timers := m.timers.tick }.tick n := rfl

end Machine

end ChipEight
