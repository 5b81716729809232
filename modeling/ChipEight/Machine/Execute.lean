/-
# Executing one instruction

The effect of each instruction on a machine whose program counter already
points behind the instruction. The machine is changed in place: an instruction
that cannot be carried out ends in a fault and in the machine as it was changed
up to there. The signal says what the effect means for whoever drives the
machine: pixels to show, a sound to start, a key to wait for.
-/

import ChipEight.Instruction.Basic
import ChipEight.Machine.State

namespace ChipEight

/-- What a step reports to whoever drives the machine. -/
inductive Signal
  /-- Nothing in particular happened. -/
  | proceed
  /-- The machine was told from outside to stop and did nothing. -/
  | interrupt
  /-- The program went on at another place. -/
  | jump
  /-- The display may have changed. -/
  | draw
  /-- The sound timer was started. -/
  | sound
  /-- The program is waiting for a key. -/
  | keyWait
  deriving DecidableEq

namespace Arithmetic

/-- The value an operation computes from the values of x and y, and the flag it
reports, if it reports one. -/
def compute (operation : Arithmetic) (a b : UInt8) : UInt8 × Option Bool :=
  match operation with
  | .copy => (b, none)
  | .or => (a ||| b, none)
  | .and => (a &&& b, none)
  | .xor => (a ^^^ b, none)
  | .add => (a + b, some (decide (256 ≤ a.toNat + b.toNat)))
  | .subtract => (a - b, some (decide (b ≤ a)))
  | .shiftRight => (a / 2, some (a % 2 == 1))
  | .subtractFrom => (b - a, some (decide (a ≤ b)))
  | .shiftLeft => (2 * a, some (decide (128 ≤ a)))

end Arithmetic

namespace Registers

/-- Put a value into a register and then the flag, if there is one, into the
flag register. When both go to the flag register, the flag stays. -/
def setResult (r : Registers) (x : Register) (result : UInt8 × Option Bool) : Registers :=
  match result with
  | (value, none) => r.set x value
  | (value, some flag) => (r.set x value).setFlag flag

end Registers

namespace Condition

/-- Whether a condition holds of a machine. -/
def isMet (condition : Condition) (m : Machine) : Bool :=
  match condition with
  | .holds x value => m.v x == value
  | .lacks x value => m.v x != value
  | .equal x y => m.v x == m.v y
  | .differ x y => m.v x != m.v y
  | .keyDown x => m.keypad.isDown (lowNibble (m.v x)).val
  | .keyUp x => !m.keypad.isDown (lowNibble (m.v x)).val

end Condition

/-- The three decimal digits of a byte, hundreds first. -/
def decimalDigits (b : UInt8) : List UInt8 :=
  [b / 100 % 10, b / 10 % 10, b % 10]

/-- How an attempt at something ends: its signal or its fault, and the machine
as the attempt leaves it. -/
abbrev Attempt := Except Fault Signal × Machine

namespace Machine

/-- Go on with what a component gave, or end with the fault it ended in. The
machine is the one at this point, with every change made to it so far. -/
def orFault {α : Type} (m : Machine) (found : Except Fault α) (go : α → Attempt) : Attempt :=
  match found with
  | .ok value => go value
  | .error fault => (.error fault, m)

/-- Replace a byte register and nothing else. -/
def setV (m : Machine) (x : Register) (value : UInt8) : Machine :=
  { m with registers := m.registers.set x value }

/-- Put a number into the index register. -/
def setIndex (m : Machine) (value : Nat) : Machine :=
  { m with registers := m.registers.setIndex value }

/-- Put an address into the program counter. -/
def setPc (m : Machine) (pc : UInt16) : Machine :=
  { m with registers := m.registers.setPc pc }

/-- Move the program counter past one instruction. -/
def advance (m : Machine) : Machine :=
  { m with registers := m.registers.advance }

/-- Move the program counter back by one instruction. -/
def rewind (m : Machine) : Machine :=
  { m with registers := m.registers.rewind }

/-- Return from the most recent call. -/
def returnFromCall (m : Machine) : Attempt :=
  m.orFault m.stack.pop fun (pc, stack) => (.ok .jump, { m with stack }.setPc pc)

/-- Call the subroutine at an address. The program counter already points
behind the call, which is where the return goes. -/
def callTo (m : Machine) (target : Address) : Attempt :=
  m.orFault (m.stack.push m.pc) fun stack =>
    (.ok .jump, { m with stack }.setPc (UInt16.ofNat target.val))

/-- Draw the sprite of so many rows at the index, with its corner at `(x, y)`,
and leave in the flag whether it collided. -/
def drawSprite (m : Machine) (x y : UInt8) (rows : Nibble) : Attempt :=
  m.orFault (m.memory.readRange m.index.val rows.val) fun sprite =>
    let (collided, display) :=
      m.display.draw (x.toNat % Display.width) (y.toNat % Display.height) sprite
    (.ok .draw, { m with display, registers := m.registers.setFlag collided })

/-- Put the number of the first key that is down into a register, or go back to
the waiting instruction while there is none. -/
def takeKey (m : Machine) (x : Register) : Attempt :=
  match m.keypad.firstDown? with
  | some k => (.ok .proceed, m.setV x (UInt8.ofNat k.val))
  | none => (.ok .keyWait, m.rewind)

/-- Write bytes to the index and behind it. -/
def storeAtIndex (m : Machine) (bs : List UInt8) : Attempt :=
  m.orFault (m.memory.writeRange m.index.val bs) fun memory => (.ok .proceed, { m with memory })

/-- Read the first `count` byte registers from the index and behind it. -/
def loadAtIndex (m : Machine) (count : Nat) : Attempt :=
  m.orFault (m.memory.readRange m.index.val count) fun values =>
    (.ok .proceed, { m with registers := m.registers.setFirst values })

/-- Put a random byte, with only the bits of a mask, into a register. -/
def takeRandom (m : Machine) (x : Register) (mask : UInt8) : Machine :=
  let (byte, random) := m.random.nextByte
  { m with random }.setV x (byte &&& mask)

/-- Carry out an instruction on a machine whose program counter points behind it. -/
def execute (m : Machine) : Instruction → Attempt
  | .clear => (.ok .draw, { m with display := .dark })
  | .ret => m.returnFromCall
  | .jump target => (.ok .jump, m.setPc (UInt16.ofNat target.val))
  | .call target => m.callTo target
  | .skip condition => (.ok .proceed, if condition.isMet m then m.advance else m)
  | .setByte x value => (.ok .proceed, m.setV x value)
  | .addByte x value => (.ok .proceed, m.setV x (m.v x + value))
  | .arithmetic operation x y =>
    (.ok .proceed,
      { m with registers := m.registers.setResult x (operation.compute (m.v x) (m.v y)) })
  | .setIndex address => (.ok .proceed, m.setIndex address.val)
  | .jumpOffset base => (.ok .jump, m.setPc (UInt16.ofNat (base.val + (m.v 0).toNat)))
  | .random x mask => (.ok .proceed, m.takeRandom x mask)
  | .draw x y rows => m.drawSprite (m.v x) (m.v y) rows
  | .readDelay x => (.ok .proceed, m.setV x m.timers.delay)
  | .awaitKey x => m.takeKey x
  | .setDelay x => (.ok .proceed, { m with timers := { m.timers with delay := m.v x } })
  | .setSound x => (.ok .sound, { m with timers := { m.timers with sound := m.v x } })
  | .addIndex x => (.ok .proceed, m.setIndex (m.index.val + (m.v x).toNat))
  | .pointAtDigit x => (.ok .proceed, m.setIndex (Font.address (lowNibble (m.v x)).val))
  | .storeDecimal x => m.storeAtIndex (decimalDigits (m.v x))
  | .storeRegisters last => m.storeAtIndex (m.registers.firstValues (last.val + 1))
  | .loadRegisters last => m.loadAtIndex (last.val + 1)

end Machine

end ChipEight
