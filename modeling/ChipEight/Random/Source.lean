/-
# The source of random bytes

A source hands out the words of the stream of a ChaCha key one after the other.
The key is any key, or the one that a small congruential generator fills from a
number that seeds the source. A whole block is computed at a time and the words
not yet handed out are kept; which word comes next depends only on how many were
taken.
-/

import ChipEight.Random.ChaCha

namespace ChipEight

/-- A generator of random words in the middle of its stream. -/
structure RandomSource where
  /-- The key whose stream is handed out. -/
  key : ChaCha.Key
  /-- The number of the block to compute when no word is left. -/
  nextBlock : Nat
  /-- The words computed and not yet handed out. -/
  pending : List UInt32
  deriving DecidableEq

namespace RandomSource

/-- The next state of the generator that fills the key. -/
def seedStep (s : UInt64) : UInt64 :=
  s * 6364136223846793005 + 11634580027462260723

/-- The key word that a state of that generator yields: the high bits folded
over the low ones and rotated by the topmost five. -/
def seedWord (s : UInt64) : UInt32 :=
  let folded := (((s >>> 18) ^^^ s) >>> 27).toUInt32
  let turn := (s >>> 59).toUInt32
  (folded >>> turn) ||| (folded <<< (32 - turn))

/-- The state of that generator after `n` steps from a seed. -/
def seedState (seed : UInt64) : Nat → UInt64
  | 0 => seed
  | n + 1 => seedStep (seedState seed n)

/-- The key that a seed stands for: one word for each of the first eight steps. -/
def seedKey (seed : UInt64) : ChaCha.Key :=
  Vector.ofFn fun i => seedWord (seedState seed (i.val + 1))

/-- The source at the start of the stream of a key. -/
def ofKey (key : ChaCha.Key) : RandomSource :=
  ⟨key, 0, []⟩

/-- The source at the start of the stream of a seed. -/
def ofSeed (seed : UInt64) : RandomSource :=
  ofKey (seedKey seed)

/-- Take the next word of the stream. -/
def nextWord (s : RandomSource) : UInt32 × RandomSource :=
  match s.pending with
  | w :: rest => (w, { s with pending := rest })
  | [] =>
    let words := ChaCha.block s.key s.nextBlock
    (words[0], ⟨s.key, s.nextBlock + 1, words.toList.tail⟩)

/-- Take the next word of the stream and keep its low eight bits. -/
def nextByte (s : RandomSource) : UInt8 × RandomSource :=
  let (w, rest) := s.nextWord
  (w.toUInt8, rest)

end RandomSource

end ChipEight
