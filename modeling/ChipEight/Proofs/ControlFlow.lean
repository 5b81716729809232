/-
# Where a step leads

The fetch moves the program counter on, and in the same step a skip may move it once
more, a jump may replace it and a wait may put it back. What comes out of a step is a
law about the word that stood at the counter. A few words send the program to an
address of their own; any other leads one instruction on, or two if it is a skip
whose condition holds. The six skips are three pairs that look at the same and decide
the opposite way, so that with the other word of its pair in its place, whatever the
state is, a skip passes over the next instruction exactly if it did not before.
-/

import ChipEight.Proofs.Reachable

namespace ChipEight

namespace Memory

/-- A word that is put into the memory is read there. -/
theorem wordAt_put (memory : Memory) (word : Word) {a : Nat} (inside : a + 1 < size) :
    (memory.put a [word.highByte, word.byte]).wordAt a = word := by
  have high : (memory.put a [word.highByte, word.byte]).byteAt a = word.highByte := by
    rw [byteAt_put, if_pos ⟨by omega, by simp, by omega⟩]
    simp
  have low : (memory.put a [word.highByte, word.byte]).byteAt (a + 1) = word.byte := by
    rw [byteAt_put, if_pos ⟨by omega, by simp, inside⟩]
    simp
  rw [wordAt, high, low, Word.ofBytes_highByte_byte]

end Memory

namespace Word

/-- Two words that skip on opposite conditions. -/
inductive Opposite : Word → Word → Prop
  | byte (x : Register) (value : UInt8) : Opposite (.ofByte 0x3 x value) (.ofByte 0x4 x value)
  | registers (x y : Register) : Opposite (.ofNibbles 0x5 x y 0x0) (.ofNibbles 0x9 x y 0x0)
  | key (x : Register) : Opposite (.ofByte 0xE x 0x9E) (.ofByte 0xE x 0xA1)

theorem Opposite.conditions {w w' : Word} (opposite : Opposite w w') :
    ∃ c c' : Condition, w = (Instruction.skip c).toWord ∧ w' = (Instruction.skip c').toWord ∧
      ∀ m, c'.isMet m = !c.isMet m := by
  cases opposite with
  | byte x value => exact ⟨.holds x value, .lacks x value, rfl, rfl, fun _ => rfl⟩
  | registers x y => exact ⟨.equal x y, .differ x y, rfl, rfl, fun _ => rfl⟩
  | key x => exact ⟨.keyDown x, .keyUp x, rfl, rfl, fun _ => rfl⟩

end Word

namespace Machine

variable {m next : Machine} {i : Instruction} {signal : Signal}

/-- The words that send a machine to an address of their own, with this address. -/
inductive Redirects (m : Machine) : Word → Nat → Prop
  | jump (target : Address) : m.Redirects (.ofAddress 0x1 target) target.val
  | call (target : Address) : m.Redirects (.ofAddress 0x2 target) target.val
  | jumpOffset (base : Address) :
      m.Redirects (.ofAddress 0xB base) (base.val + (m.v 0).toNat)
  /-- The address is the most recent entry of the call stack. -/
  | ret (address : UInt16) (rest : List UInt16) :
      m.stack.entries = address :: rest → m.Redirects 0x00EE address.toNat
  /-- While no key is down, the wait is at the same address again. -/
  | awaitKey (x : Register) : (∀ k : Key, m.keypad.isDown k.val = false) →
      m.Redirects (.ofByte 0xF x 0x0A) m.pc.toNat

/-- The words that make a machine pass over the next instruction. -/
inductive Skips (m : Machine) : Word → Prop
  | holds (x : Register) (value : UInt8) : m.v x = value → m.Skips (.ofByte 0x3 x value)
  | lacks (x : Register) (value : UInt8) : m.v x ≠ value → m.Skips (.ofByte 0x4 x value)
  | equal (x y : Register) : m.v x = m.v y → m.Skips (.ofNibbles 0x5 x y 0x0)
  | differ (x y : Register) : m.v x ≠ m.v y → m.Skips (.ofNibbles 0x9 x y 0x0)
  | keyDown (x : Register) : m.keypad.isDown ((m.v x).toNat % 16) = true →
      m.Skips (.ofByte 0xE x 0x9E)
  | keyUp (x : Register) : m.keypad.isDown ((m.v x).toNat % 16) = false →
      m.Skips (.ofByte 0xE x 0xA1)

/-- The words that skip are those of the skips whose condition is met. -/
theorem skips_toWord_iff :
    m.Skips i.toWord ↔ ∃ condition, i = .skip condition ∧ condition.isMet m = true := by
  constructor
  · intro skips
    generalize same : i.toWord = word at skips
    have read (condition : Condition) (word : i.toWord = (Instruction.skip condition).toWord)
        (met : condition.isMet m = true) :
        ∃ condition, i = .skip condition ∧ condition.isMet m = true :=
      ⟨condition, Instruction.toWord_inj.mp word, met⟩
    cases skips with
    | holds x value met => exact read (.holds x value) same (beq_iff_eq.mpr met)
    | lacks x value met => exact read (.lacks x value) same (bne_iff_ne.mpr met)
    | equal x y met => exact read (.equal x y) same (beq_iff_eq.mpr met)
    | differ x y met => exact read (.differ x y) same (bne_iff_ne.mpr met)
    | keyDown x down => exact read (.keyDown x) same down
    | keyUp x up => exact read (.keyUp x) same ((Bool.not_eq_true' _).mpr up)
  · rintro ⟨condition, rfl, met⟩
    cases condition with
    | holds x value => exact .holds x value (beq_iff_eq.mp met)
    | lacks x value => exact .lacks x value (bne_iff_ne.mp met)
    | equal x y => exact .equal x y (beq_iff_eq.mp met)
    | differ x y => exact .differ x y (bne_iff_ne.mp met)
    | keyDown x => exact .keyDown x met
    | keyUp x => exact .keyUp x ((Bool.not_eq_true' _).mp met)

/-- A word that redirects is the word of an instruction with this address as its
destination. -/
theorem toNat_destination_of_redirects {target : Nat} (redirected : m.Redirects i.toWord target) :
    (m.destination i).toNat = target := by
  generalize word : i.toWord = w at redirected
  have small {n : Nat} (near : n < 2 ^ 16) : (UInt16.ofNat n).toNat = n :=
    UInt16.toNat_ofNat_of_lt' near
  cases redirected with
  | jump target =>
      obtain rfl : i = .jump target := Instruction.toWord_inj.mp word
      exact small (by omega)
  | call target =>
      obtain rfl : i = .call target := Instruction.toWord_inj.mp word
      exact small (by omega)
  | jumpOffset base =>
      obtain rfl : i = .jumpOffset base := Instruction.toWord_inj.mp word
      have offset := (m.v 0).toNat_lt
      exact small (by omega)
  | ret address rest entries =>
      obtain rfl : i = .ret := Instruction.toWord_inj.mp word
      rw [destination, entries]
      rfl
  | awaitKey x up =>
      obtain rfl : i = .awaitKey x := Instruction.toWord_inj.mp word
      rw [destination, Keypad.anyDown_eq_false_iff.mpr up]
      rfl

theorem toNat_destination_skip (inside : m.pc.toNat + 1 < Memory.size) (condition : Condition) :
    (m.destination (.skip condition)).toNat =
      if condition.isMet m then m.pc.toNat + 4 else m.pc.toNat + 2 := by
  have behind : (m.pc + 2).toNat = m.pc.toNat + 2 := Memory.toNat_add_two inside
  rw [destination]
  split
  · have room : m.pc.toNat + 2 + 2 < 2 ^ 16 := by
      simp only [Memory.size] at inside
      omega
    rw [UInt16.toNat_add, behind]
    exact Nat.mod_eq_of_lt room
  · exact behind

theorem toNat_destination_of_skips (inside : m.pc.toNat + 1 < Memory.size)
    (skips : m.Skips i.toWord) : (m.destination i).toNat = m.pc.toNat + 4 := by
  obtain ⟨condition, rfl, met⟩ := skips_toWord_iff.mp skips
  rw [toNat_destination_skip inside, if_pos met]

/-- An instruction that is carried out and neither redirects nor skips leads one
instruction on. -/
theorem toNat_destination_of_neither (inside : m.pc.toNat + 1 < Memory.size)
    (done : m.advance.execute i = (.ok signal, next))
    (onward : ∀ target, ¬ m.Redirects i.toWord target) (stays : ¬ m.Skips i.toWord) :
    (m.destination i).toNat = m.pc.toNat + 2 := by
  have behind : (m.pc + 2).toNat = m.pc.toNat + 2 := Memory.toNat_add_two inside
  cases i with
  | jump target => exact absurd (.jump target) (onward _)
  | call target => exact absurd (.call target) (onward _)
  | jumpOffset base => exact absurd (.jumpOffset base) (onward _)
  | ret =>
      -- a return that is carried out has found an entry to go back to
      obtain ⟨address, stack, popped, -⟩ := execute_ret_eq_ok_iff.mp done
      exact absurd (.ret address stack.entries (CallStack.entries_of_pop popped)) (onward _)
  | skip condition =>
      have unmet : ¬ condition.isMet m = true := fun met =>
        stays (skips_toWord_iff.mpr ⟨condition, rfl, met⟩)
      rw [toNat_destination_skip inside, if_neg unmet]
  | awaitKey x =>
      cases keys : m.keypad.anyDown with
      | false => exact absurd (.awaitKey x (Keypad.anyDown_eq_false_iff.mp keys)) (onward _)
      | true =>
          rw [destination, keys]
          exact behind
  | _ => exact behind

/-! ## Exchanging a skip for its opposite -/

/-- A machine with another word at its program counter. -/
def withWord (m : Machine) (word : Word) : Machine :=
  { m with memory := m.memory.put m.pc.toNat [word.highByte, word.byte] }

theorem fetched?_withWord (inside : m.pc.toNat + 1 < Memory.size) (word : Word) :
    (m.withWord word).fetched? = some word :=
  fetched?_eq_some_iff.mpr ⟨inside, Memory.wordAt_put m.memory word inside⟩

theorem isMet_withWord (condition : Condition) (m : Machine) (word : Word) :
    condition.isMet (m.withWord word) = condition.isMet m := by
  cases condition <;> rfl

/-- A skip always succeeds. -/
theorem exists_step_skip {condition : Condition} (running : m.halted = false)
    (found : m.fetched? = some (Instruction.skip condition).toWord) :
    ∃ next, m.step = (.ok .proceed, next) ∧
      next.pc.toNat = if condition.isMet m then m.pc.toNat + 4 else m.pc.toNat + 2 := by
  have inside := (fetched?_eq_some_iff.mp found).1
  have done : m.advance.execute (.skip condition) = (.ok .proceed, _) := rfl
  refine ⟨_, (step_eq_ok_iff_execute found).mpr ⟨running, done⟩, ?_⟩
  rw [pc_of_execute done, toNat_destination_skip inside]

/-- Behind a step that succeeds, the program goes on where the word at the program
counter sends it, or else two instructions on if this word skips and one if it does
not. A skip succeeds on every running machine, and with the opposite word in its place
it does too, and exactly one of the two passes over the next instruction. -/
theorem control_goes_where_the_word_says (m : Machine) :
    (∀ signal next, m.step = (.ok signal, next) →
      (∀ target, m.Redirects (m.memory.wordAt m.pc.toNat) target → next.pc.toNat = target) ∧
        (m.Skips (m.memory.wordAt m.pc.toNat) → next.pc.toNat = m.pc.toNat + 4) ∧
        ((∀ target, ¬ m.Redirects (m.memory.wordAt m.pc.toNat) target) →
          ¬ m.Skips (m.memory.wordAt m.pc.toNat) → next.pc.toNat = m.pc.toNat + 2)) ∧
      ∀ word opposite, m.halted = false → m.fetched? = some word → Word.Opposite word opposite →
        ∃ next next', m.step = (.ok .proceed, next) ∧
          (m.withWord opposite).step = (.ok .proceed, next') ∧
          ((next.pc.toNat = m.pc.toNat + 4 ∧ next'.pc.toNat = m.pc.toNat + 2) ∨
            (next.pc.toNat = m.pc.toNat + 2 ∧ next'.pc.toNat = m.pc.toNat + 4)) := by
  constructor
  · intro signal next made
    obtain ⟨-, i, standing, done⟩ := step_eq_ok_iff.mp made
    obtain ⟨inside, read⟩ := instruction?_eq_some_iff.mp standing
    rw [← Instruction.toWord_of_ofWord? read, pc_of_execute done]
    exact ⟨fun _ => toNat_destination_of_redirects, toNat_destination_of_skips inside,
      toNat_destination_of_neither inside done⟩
  · intro word opposite running found pair
    have inside := (fetched?_eq_some_iff.mp found).1
    obtain ⟨condition, negated, rfl, rfl, negates⟩ := pair.conditions
    obtain ⟨next, made, pc⟩ := exists_step_skip running found
    have replaced := fetched?_withWord inside (Instruction.skip negated).toWord
    obtain ⟨next', made', pc'⟩ := exists_step_skip (m := m.withWord _) running replaced
    refine ⟨next, next', made, made', ?_⟩
    rw [isMet_withWord, negates] at pc'
    cases met : condition.isMet m with
    | true =>
        rw [met] at pc pc'
        exact .inl ⟨pc, pc'⟩
    | false =>
        rw [met] at pc pc'
        exact .inr ⟨pc, pc'⟩

/-- A program stores a skip on two equal registers in the last two bytes of memory and
jumps there: the skip passes over an instruction that is not there any more, and with
the opposite word in its place the program goes on right behind the memory. -/
theorem control_goes_where_the_word_says_last :
    let program : List UInt8 := [0xAF, 0xFE, 0x60, 0x5A, 0x61, 0xA0, 0xF1, 0x55, 0x1F, 0xFE]
    let m := ((powerOn 0).loaded program).after (List.replicate 5 .step)
    let opposite := Word.ofNibbles 0x9 0xA 0xA 0x0
    m.pc = 0xFFE ∧ m.memory.wordAt m.pc.toNat = 0x5AA0 ∧ opposite = 0x9AA0 ∧
      (∃ next, m.step = (.ok .proceed, next) ∧ next.pc.toNat = 0x1002) ∧
        ∃ next, (m.withWord opposite).step = (.ok .proceed, next) ∧ next.pc.toNat = 0x1000 := by
  intro program m opposite
  obtain ⟨here, running, found, word⟩ :
      m.pc = 0xFFE ∧ m.halted = false ∧ m.fetched? = some (.ofNibbles 0x5 0xA 0xA 0x0) ∧
        Word.ofNibbles 0x5 0xA 0xA 0x0 = 0x5AA0 := by decide +kernel
  obtain ⟨-, at_pc⟩ := fetched?_eq_some_iff.mp found
  obtain ⟨law, exchange⟩ := control_goes_where_the_word_says m
  obtain ⟨next, next', made, made', pcs⟩ := exchange _ opposite running found (.registers 0xA 0xA)
  obtain ⟨-, skipping, -⟩ := law _ _ made
  have pc := skipping (at_pc ▸ .equal 0xA 0xA rfl)
  rw [here] at pc pcs
  obtain ⟨-, pc'⟩ | ⟨other, -⟩ := pcs
  · exact ⟨here, at_pc.trans word, by decide, ⟨next, made, pc⟩, next', made', pc'⟩
  · exact absurd (pc.symm.trans other) (by decide)

end Machine

end ChipEight
