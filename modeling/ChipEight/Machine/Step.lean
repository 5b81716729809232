/-
# Steps of the machine

One step fetches the word at the program counter, moves the counter past it and
carries out the instruction that it stands for. When any of these fails, the
step puts the program counter back on the instruction and the machine stops; a
stopped machine fails every further step in the same way until a program is
loaded.
-/

import ChipEight.Machine.Execute

namespace ChipEight

namespace Machine

/-- Fetch and carry out one instruction, whether or not the machine has stopped.
The counter has moved on by the time the word turns out to be no instruction. -/
def attempt (m : Machine) : Attempt :=
  m.orFault (m.memory.readWord m.pc.toNat) fun word =>
    let moved := m.advance
    match Instruction.ofWord? word with
    | none => (.error (.unknownInstruction m.pc word), moved)
    | some i => moved.execute i

/-- One step: the signal or the fault, and the machine afterwards. -/
def step (m : Machine) : Attempt :=
  if m.halted then (.error .halted, m)
  else
    match m.attempt with
    | (.ok signal, next) => (.ok signal, next)
    | (.error fault, next) => (.error fault, (next.setPc m.pc).halt)

end Machine

end ChipEight
