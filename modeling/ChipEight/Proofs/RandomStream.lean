/-
# Random bytes come from one stream

A seed fixes an endless stream of words. A machine takes them in order, one for
each random instruction that it carries out, and for nothing else: neither a load
nor a step that fails moves the source. So the place in the stream is the number
of random instructions carried out since the machine was switched on, and the
bytes that they store can be read off the stream. That the source computes its
words in blocks of sixteen and keeps those that are left does not show.
-/

import ChipEight.Proofs.Footprint

namespace ChipEight

namespace Instruction

/-- The mask of an instruction that takes a random byte. -/
def mask? : Instruction → Option UInt8
  | .random _ mask => some mask
  | _ => none

theorem random_footprint (i : Instruction) : i.footprint.random = i.mask?.isSome := by
  cases i <;> rfl

end Instruction

namespace Execution

/-- The masks of the random instructions among executions, in order. -/
def masks (es : List Execution) : List UInt8 :=
  es.filterMap fun e => e.instruction.mask?

end Execution

namespace RandomSource

variable {s : RandomSource} {key : ChaCha.Key} {n : Nat}

/-- The word that a source hands out after so many others. -/
def upcoming (s : RandomSource) : Nat → UInt32
  | 0 => s.nextWord.1
  | k + 1 => s.nextWord.2.upcoming k

/-- A source has handed out the first `n` words of the stream of a key. -/
structure StandsAt (s : RandomSource) (key : ChaCha.Key) (n : Nat) : Prop where
  key_eq : s.key = key
  /-- The words that are left end where the next block begins. -/
  position : n + s.pending.length = 16 * s.nextBlock
  pending : ∀ i (left : i < s.pending.length), s.pending[i] = ChaCha.word key (n + i)

/-- The words of a block are those of the stream from sixteen times its number on. -/
theorem word_of_block (key : ChaCha.Key) (number : Nat) {i : Nat} (inside : i < 16) :
    ChaCha.word key (16 * number + i) = (ChaCha.block key number)[i] := by
  have block : (16 * number + i) / 16 = number := by omega
  have place : (16 * number + i) % 16 = i := by omega
  simp only [ChaCha.word, block, Fin.getElem_fin, Fin.val_ofNat, place]

theorem standsAt_ofSeed (seed : UInt64) : (ofSeed seed).StandsAt (seedKey seed) 0 where
  key_eq := rfl
  position := rfl
  pending := nofun

theorem nextWord_of_left {w : UInt32} {rest : List UInt32} (left : s.pending = w :: rest) :
    s.nextWord = (w, { s with pending := rest }) := by
  simp only [nextWord, left]

theorem nextWord_of_none_left (empty : s.pending = []) :
    s.nextWord = (ChaCha.word s.key (16 * s.nextBlock),
      ⟨s.key, s.nextBlock + 1, (ChaCha.block s.key s.nextBlock).toList.tail⟩) := by
  have first := word_of_block s.key s.nextBlock (i := 0) (by decide)
  rw [Nat.add_zero] at first
  simp only [nextWord, empty, first]

/-- Taking a word gives the one at the position of the source and moves it on by
one, also where the word is the first of a new block. -/
theorem StandsAt.nextWord (held : s.StandsAt key n) :
    s.nextWord.1 = ChaCha.word key n ∧ s.nextWord.2.StandsAt key (n + 1) := by
  obtain ⟨rfl, position, words⟩ := held
  cases left : s.pending with
  | nil =>
      obtain rfl : n = 16 * s.nextBlock := by simpa [left] using position
      have rest : (ChaCha.block s.key s.nextBlock).toList.tail.length = 15 := by
        rw [List.length_tail, Vector.length_toList]
      rw [nextWord_of_none_left left]
      refine ⟨rfl, rfl, ?_, fun i inside => ?_⟩
      · show 16 * s.nextBlock + 1 + _ = 16 * (s.nextBlock + 1)
        rw [rest]
        omega
      · rw [rest] at inside
        rw [Nat.add_assoc, Nat.add_comm 1 i, word_of_block s.key s.nextBlock (by omega)]
        simp only [List.getElem_tail, Vector.getElem_toList]
  | cons w rest =>
      simp only [left, List.length_cons] at position words
      rw [nextWord_of_left left]
      refine ⟨words 0 (Nat.zero_lt_succ _), rfl, ?_, fun i inside => ?_⟩
      · show n + 1 + rest.length = 16 * s.nextBlock
        omega
      · rw [Nat.add_assoc, Nat.add_comm 1 i]
        exact words (i + 1) (Nat.succ_lt_succ inside)

/-- What a source will hand out is the stream from its position on. -/
theorem StandsAt.upcoming_eq (held : s.StandsAt key n) (k : Nat) :
    s.upcoming k = ChaCha.word key (n + k) := by
  induction k generalizing s n with
  | zero => exact held.nextWord.1
  | succ k ih =>
      rw [upcoming, ih held.nextWord.2, Nat.add_assoc, Nat.add_comm 1 k]

end RandomSource

namespace Machine

open Execution

variable {m : Machine} {a : Action} {key : ChaCha.Key} {n : Nat} {mask : UInt8}

/-- The mask of the random instruction that an action carries out, if it carries
one out. -/
def maskTaken? (m : Machine) (a : Action) : Option UInt8 :=
  (m.executed? a).bind fun e => e.instruction.mask?

/-- The byte that an action stores if it carries out a random instruction: what
the register of the instruction holds afterwards. -/
def drawn? (m : Machine) (a : Action) : Option UInt8 :=
  match m.executed? a with
  | some ⟨_, .random x _⟩ => some ((m.act a).v x)
  | _ => none

/-- The bytes that random instructions stored during a history, in order. -/
def drawn (m : Machine) : List Action → List UInt8
  | [] => []
  | a :: rest => (m.drawn? a).toList ++ (m.act a).drawn rest

/-- The bytes that random instructions with the given masks store, from a position
of the stream of a key on. -/
def streamBytes (key : ChaCha.Key) (n : Nat) (masks : List UInt8) : List UInt8 :=
  masks.mapIdx fun j mask => (ChaCha.word key (n + j)).toUInt8 &&& mask

theorem streamBytes_append (key : ChaCha.Key) (n : Nat) (earlier later : List UInt8) :
    streamBytes key n (earlier ++ later) =
      streamBytes key n earlier ++ streamBytes key (n + earlier.length) later := by
  simp only [streamBytes, List.mapIdx_append, Nat.add_assoc, Nat.add_comm earlier.length]

theorem masks_executions_cons (m : Machine) (a : Action) (rest : List Action) :
    masks (m.executions (a :: rest)) =
      (m.maskTaken? a).toList ++ masks ((m.act a).executions rest) := by
  rw [executions, masks, List.filterMap_append, maskTaken?]
  cases m.executed? a with
  | none => rfl
  | some e => cases random : e.instruction.mask? <;> simp [masks, random]

/-- An action that carries out no random instruction stores no random byte and leaves
the source alone: a load, a failed step, a key event, a tick and a halt as much as
any other instruction. -/
theorem act_of_maskTaken?_eq_none (other : m.maskTaken? a = none) :
    m.drawn? a = none ∧ (m.act a).random = m.random := by
  rw [maskTaken?, Option.bind_eq_none_iff] at other
  constructor
  · unfold drawn?
    split
    · next executed => cases other _ executed
    · rfl
  · rcases keeps_or_loads m a with kept | ⟨program, -, loads⟩
    · rcases act_cases kept with ⟨i, signal, -, -, done, executed⟩ | ⟨-, silent⟩
      · have untouched : i.footprint.random = false := by
          rw [Instruction.random_footprint, other _ executed]
          rfl
        exact (changesOnly_of_execute done).random untouched
      · rw [silent]
    · rw [loads]
      rfl

/-- An action that carries out a random instruction stores the next byte of the
source, masked, and moves the source on by one word. -/
theorem act_of_maskTaken?_eq_some (taken : m.maskTaken? a = some mask) :
    m.drawn? a = some (m.random.nextWord.1.toUInt8 &&& mask) ∧
      (m.act a).random = m.random.nextWord.2 := by
  obtain ⟨⟨address, i⟩, executed, random⟩ := Option.bind_eq_some_iff.mp taken
  cases a with
  | step =>
      obtain ⟨signal, done⟩ := execute_of_executed? executed
      cases i with
      | random x mask' =>
          cases random
          have acted : m.advance.takeRandom x mask = m.act .step := congrArg Prod.snd done
          rw [drawn?, executed, ← acted]
          exact ⟨congrArg some (Registers.get_set_self ..), rfl⟩
      | _ => cases random
  | _ => cases executed

/-- An action that takes a word stores the one at the position of the source, and one
that takes none leaves the source where it is. -/
theorem standsAt_act (held : m.random.StandsAt key n) (a : Action) :
    (m.drawn? a).toList = streamBytes key n (m.maskTaken? a).toList ∧
      (m.act a).random.StandsAt key (n + (m.maskTaken? a).toList.length) := by
  cases taken : m.maskTaken? a with
  | none =>
      obtain ⟨none, untouched⟩ := act_of_maskTaken?_eq_none taken
      rw [none, untouched]
      exact ⟨rfl, held⟩
  | some mask =>
      obtain ⟨drawn, moved⟩ := act_of_maskTaken?_eq_some taken
      obtain ⟨word, after⟩ := held.nextWord
      rw [drawn, moved, word]
      exact ⟨rfl, after⟩

/-- Along a history the random instructions store the bytes of the stream, from the
position of the source on, and the source moves on by as many words. -/
theorem standsAt_after (held : m.random.StandsAt key n) (history : List Action) :
    m.drawn history = streamBytes key n (masks (m.executions history)) ∧
      (m.after history).random.StandsAt key (n + (masks (m.executions history)).length) := by
  induction history generalizing m n with
  | nil => exact ⟨rfl, held⟩
  | cons a rest ih =>
      obtain ⟨first, moved⟩ := standsAt_act held a
      obtain ⟨others, later⟩ := ih moved
      rw [masks_executions_cons, drawn, first, others, after_cons, List.length_append,
        ← Nat.add_assoc, streamBytes_append]
      exact ⟨rfl, later⟩

/-- From the moment a machine is switched on, the random instructions that it carries
out store the bytes of the stream of its seed, masked: the first of them takes the
first word, the next the second, whatever happens between them. What the source will
hand out is at every moment the rest of the stream, and an action that carries out no
random instruction leaves it as it is. -/
theorem random_bytes_follow_the_stream (seed : UInt64) (history : List Action) :
    let m := powerOn seed
    let word := ChaCha.word (RandomSource.seedKey seed)
    let masks := masks (m.executions history)
    let now := m.after history
    m.drawn history = masks.mapIdx (fun j mask => (word j).toUInt8 &&& mask) ∧
      (∀ k, now.random.upcoming k = word (masks.length + k)) ∧
      ∀ a, now.maskTaken? a = none → (now.act a).random = now.random := by
  intro m word masks now
  obtain ⟨bytes, position⟩ :=
    standsAt_after (m := m) (RandomSource.standsAt_ofSeed seed) history
  simp only [Nat.zero_add] at position
  refine ⟨?_, position.upcoming_eq, fun a other => (act_of_maskTaken?_eq_none other).2⟩
  rw [bytes]
  simp only [streamBytes, Nat.zero_add]
  rfl

/-- Eleven draws, a load, and six more: the sixteenth draw takes the last word of the
first block and the seventeenth the first word of the second. The step behind them
fails and takes none. -/
theorem random_bytes_follow_the_stream_across_blocks :
    let m := powerOn 7
    let key := RandomSource.seedKey 7
    let program : List UInt8 := (List.replicate 11 [0xC5, 0x3C]).flatten
    let history := .load program :: List.replicate 11 .step ++ .load program ::
      List.replicate 6 .step ++ [.halt]
    let now := m.after history
    let masked := fun w : UInt32 => w.toUInt8 &&& 0x3C
    (m.drawn history)[15]? = (ChaCha.block key 0)[15]?.map masked ∧
      (m.drawn history)[16]? = (ChaCha.block key 1)[0]?.map masked ∧
      now.maskTaken? .step = none ∧ (now.act .step).random = now.random := by
  intro m key program history now masked
  obtain ⟨bytes, -, kept⟩ := random_bytes_follow_the_stream 7 history
  obtain ⟨masks, failing⟩ : masks (m.executions history) = List.replicate 17 0x3C ∧
      now.maskTaken? .step = none := by decide +kernel
  rw [masks] at bytes
  refine ⟨?_, ?_, failing, kept .step failing⟩
  · rw [bytes]
    rfl
  · rw [bytes]
    rfl

end Machine

end ChipEight
