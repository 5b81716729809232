/-
# The ChaCha block function

The random words come from the ChaCha stream cipher with twelve rounds. A block
of sixteen words is computed from a key of eight words and a block number: the
state made of four constants, the key and the number is mixed by six double
rounds and added to what it was before. Nothing here depends on an earlier
block, so the words of a key are a function of their position.
-/

import ChipEight.Bounded

namespace ChipEight.ChaCha

/-- A key of eight words. -/
abbrev Key := Vector UInt32 8

/-- The sixteen words that the rounds mix, and also those that a block yields. -/
abbrev Block := Vector UInt32 16

/-- The bits of a word moved up by `n` places, those that leave coming back below. -/
def rotateLeft (w n : UInt32) : UInt32 :=
  (w <<< n) ||| (w >>> (32 - n))

/-- Mix four words of the state, each into the next in turn. -/
def quarterRound (s : Block) (a b c d : Fin 16) : Block :=
  let s := s.set a (s[a] + s[b])
  let s := s.set d (rotateLeft (s[d] ^^^ s[a]) 16)
  let s := s.set c (s[c] + s[d])
  let s := s.set b (rotateLeft (s[b] ^^^ s[c]) 12)
  let s := s.set a (s[a] + s[b])
  let s := s.set d (rotateLeft (s[d] ^^^ s[a]) 8)
  let s := s.set c (s[c] + s[d])
  s.set b (rotateLeft (s[b] ^^^ s[c]) 7)

/-- Two rounds: one over the columns of the state as a square, one over its diagonals. -/
def doubleRound (s : Block) : Block :=
  let s := quarterRound s 0 4 8 12
  let s := quarterRound s 1 5 9 13
  let s := quarterRound s 2 6 10 14
  let s := quarterRound s 3 7 11 15
  let s := quarterRound s 0 5 10 15
  let s := quarterRound s 1 6 11 12
  let s := quarterRound s 2 7 8 13
  quarterRound s 3 4 9 14

/-- The state before the rounds: the constants, the key, the block number as
two words with the low one first, and two zero words. -/
def initial (key : Key) (number : Nat) : Block :=
  #v[0x61707865, 0x3320646e, 0x79622d32, 0x6b206574,
    key[0], key[1], key[2], key[3], key[4], key[5], key[6], key[7],
    UInt32.ofNat number, UInt32.ofNat (number / 4294967296), 0, 0]

/-- The state after the twelve rounds. -/
def mixed (s : Block) : Block :=
  doubleRound (doubleRound (doubleRound (doubleRound (doubleRound (doubleRound s)))))

/-- The sixteen words of one block. -/
def block (key : Key) (number : Nat) : Block :=
  let start := initial key number
  Vector.zipWith (· + ·) start (mixed start)

/-- The word at a position of the stream of a key, counted across blocks. -/
def word (key : Key) (position : Nat) : UInt32 :=
  (block key (position / 16))[Fin.ofNat 16 position]

end ChipEight.ChaCha
