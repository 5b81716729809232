/-
# Dumps

Texts that show what a machine holds: the memory from where programs start, the
display, and the keys that are down. Each is a faithful picture of the part it
shows. The lines of memory are cut and addressed like those of a listing.
-/

import ChipEight.Listing
import ChipEight.Machine.State

namespace ChipEight

namespace Machine

/-- The bytes that a dump of `count` bytes covers, as far as the memory reaches. -/
def dumpedBytes (m : Machine) (count : Nat) : List UInt8 :=
  m.memory.span Memory.programStart (min count Memory.programCapacity)

/-- A line of a memory dump: the address and the bytes behind a colon. -/
def dumpLine (line : Listing.Line) : List Char :=
  Numeral.hexPadded 4 line.address ++ ": ".toList ++ line.chunk.hexText ++ ['\n']

/-- The memory from the start of programs on, in lines of two bytes. -/
def dumpMemory (m : Machine) (count : Nat) : String :=
  String.ofList ((Listing.lines Memory.programStart (m.dumpedBytes count)).flatMap dumpLine)

/-- The display as lines of text. -/
def dumpDisplay (m : Machine) : String :=
  String.ofList m.display.picture

/-- The names of the keys that are down, one behind the other, and nothing at
all if there are none. -/
def dumpKeys (m : Machine) : String :=
  match m.keypad.keysDown with
  | [] => ""
  | keys => String.ofList ("keys: ".toList ++ keys.flatMap Key.name)

end Machine

end ChipEight
