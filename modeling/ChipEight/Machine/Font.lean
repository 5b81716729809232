/-
# The built-in font

Pictures of the sixteen hexadecimal digits, five rows of eight pixels each, of
which the left four are used. They stand at the bottom of memory in the order
of the digits, so the picture of a digit starts at five times its value.
-/

namespace ChipEight.Font

/-- The address of the first picture. -/
def start : Nat := 0

/-- The number of rows, and so of bytes, of a picture. -/
def height : Nat := 5

/-- The rows of the sixteen pictures. -/
def bytes : List UInt8 :=
  [0xF0, 0x90, 0x90, 0x90, 0xF0,
    0x20, 0x60, 0x20, 0x20, 0x70,
    0xF0, 0x10, 0xF0, 0x80, 0xF0,
    0xF0, 0x10, 0xF0, 0x10, 0xF0,
    0x90, 0x90, 0xF0, 0x10, 0x10,
    0xF0, 0x80, 0xF0, 0x10, 0xF0,
    0xF0, 0x80, 0xF0, 0x90, 0xF0,
    0xF0, 0x10, 0x20, 0x40, 0x40,
    0xF0, 0x90, 0xF0, 0x90, 0xF0,
    0xF0, 0x90, 0xF0, 0x10, 0xF0,
    0xF0, 0x90, 0xF0, 0x90, 0x90,
    0xE0, 0x90, 0xE0, 0x90, 0xE0,
    0xF0, 0x80, 0x80, 0x80, 0xF0,
    0xE0, 0x90, 0x90, 0x90, 0xE0,
    0xF0, 0x80, 0xF0, 0x80, 0xF0,
    0xF0, 0x80, 0xF0, 0x80, 0x80]

/-- The address of the picture of a digit. -/
def address (digit : Nat) : Nat :=
  start + digit * height

/-- Every digit has its picture. -/
theorem length_bytes : bytes.length = 16 * height := rfl

end ChipEight.Font
