/-
# Memory shows what was written last

However memory is changed, a change that would leave it is refused as a whole, and any
other one is a store of some bytes from an address on, or clears everything. So a memory
is told by a list of stores: those that ended inside, since the last clear. A byte is what
the last of them to reach it left there, and zero where none did.

Which changes end inside is a matter of sums of natural numbers. The machine that this
runs on has addresses of sixty-four bits, so a sum could leave their range; the one sum
that is made for any address, that of the second byte of a word, is made only when the
first byte was found.
-/

import ChipEight.Proofs.Strict

namespace ChipEight

/-- What can be done to the bytes of a memory from outside. -/
inductive MemoryChange
  | load (bs : List UInt8) (start : Nat)
  | loadProgram (bs : List UInt8)
  | write (a : Nat) (b : UInt8)
  | fill (start length : Nat) (b : UInt8)
  | writeRange (start : Nat) (bs : List UInt8)
  | clear
  deriving DecidableEq

namespace MemoryChange

/-- The bytes that a change is to write. A clear is no store. -/
def store? : MemoryChange → Option Store
  | .load bs start => some ⟨start, bs⟩
  | .loadProgram bs => some ⟨0x200, bs⟩
  | .write a b => some ⟨a, [b]⟩
  | .fill start length b => some ⟨start, List.replicate length b⟩
  | .writeRange start bs => some ⟨start, bs⟩
  | .clear => none

/-- The stores since the last clear when one more change is made: a store counts if it
ends inside the memory. -/
def addTo (stores : List Store) (change : MemoryChange) : List Store :=
  match change.store? with
  | none => []
  | some s => if s.start + s.bytes.length ≤ Memory.size then stores ++ [s] else stores

end MemoryChange

/-- The byte that was written last at an address, by changes of a memory that was zero at
first: that of the last store to reach it since the last clear, and zero without one. -/
def lastByte (changes : List MemoryChange) (a : Nat) : UInt8 :=
  (Machine.lastStored? (changes.foldl MemoryChange.addTo []) a).getD 0

namespace Memory

variable {m : Memory} {change : MemoryChange} {s : Store}

/-- The memory that a change makes, unless it is refused. -/
def change? (m : Memory) : MemoryChange → Except Fault Memory
  | .load bs start => m.load bs start
  | .loadProgram bs => m.loadProgram bs
  | .write a b => m.write a b
  | .fill start length b => m.fill start length b
  | .writeRange start bs => m.writeRange start bs
  | .clear => .ok zero

/-- The memory behind a change, whether or not it is refused. -/
def changed (m : Memory) (change : MemoryChange) : Memory :=
  match m.change? change with
  | .ok next => next
  | .error _ => m

/-- The memory behind changes that are made in order. -/
def changedAll (m : Memory) (changes : List MemoryChange) : Memory :=
  changes.foldl changed m

theorem changed_of_ok {next : Memory} (made : m.change? change = .ok next) :
    m.changed change = next := by
  rw [changed, made]

theorem changed_of_error {fault : Fault} (refused : m.change? change = .error fault) :
    m.changed change = m := by
  rw [changed, refused]

/-- What is not refused makes the memory behind it. -/
theorem change?_eq_changed (m : Memory) (change : MemoryChange) {inside : Prop}
    [Decidable inside] {next : Memory} {fault : Fault}
    (made : m.change? change = if inside then .ok next else .error fault) :
    m.change? change = if inside then .ok (m.changed change) else .error fault := by
  rw [changed, made]
  split <;> rfl

/-! ## One change -/

theorem load_eq (m : Memory) (bs : List UInt8) (start : Nat) :
    m.load bs start =
      if start + bs.length ≤ size then .ok (m.put start bs)
      else .error (if size < start then .outOfBounds start
        else .programTooLarge bs.length (size - start)) := by
  rw [load]
  by_cases beyond : size < start
  · rw [if_pos beyond, if_neg (by omega), if_pos beyond]
  · rw [if_neg beyond, if_neg beyond]
    by_cases fits : start + bs.length ≤ size
    · rw [if_neg (by omega), if_pos fits]
    · rw [if_pos (by omega), if_neg fits]

theorem fill_eq_writeRange (m : Memory) (start length : Nat) (b : UInt8) :
    m.fill start length b = m.writeRange start (List.replicate length b) := by
  rw [fill, writeRange, List.length_replicate]

theorem write_eq (m : Memory) (a : Nat) (b : UInt8) :
    m.write a b = if a + 1 ≤ size then .ok (m.put a [b]) else .error (.outOfBounds a) := rfl

/-- A change that is no clear puts its bytes in place if they end inside, and is refused
otherwise. -/
theorem exists_change?_eq (m : Memory) (writes : change.store? = some s) :
    ∃ fault, m.change? change =
      if s.start + s.bytes.length ≤ size then .ok (m.put s.start s.bytes)
      else .error fault := by
  cases change with
  | load bs start =>
      cases writes
      exact ⟨_, m.load_eq bs start⟩
  | loadProgram bs =>
      cases writes
      exact ⟨_, m.load_eq bs programStart⟩
  | write a b =>
      cases writes
      exact ⟨_, m.write_eq a b⟩
  | fill start length b =>
      cases writes
      exact ⟨_, (m.fill_eq_writeRange start length b).trans (m.writeRange_eq start _)⟩
  | writeRange start bs =>
      cases writes
      exact ⟨_, m.writeRange_eq start bs⟩
  | clear => cases writes

/-- A memory shows the stores, from zeros on. -/
def Shows (m : Memory) (stores : List Store) : Prop :=
  ∀ a < size, m.byteAt a = (Machine.lastStored? stores a).getD 0

theorem shows_zero : zero.Shows [] :=
  fun a _ => byteAt_zero a

/-- What a change adds to the stores, the memory shows. -/
theorem Shows.changed {stores : List Store} (shown : m.Shows stores) (change : MemoryChange) :
    (m.changed change).Shows (change.addTo stores) := by
  cases writes : change.store? with
  | none =>
      obtain rfl : change = .clear := by
        cases change with
        | clear => rfl
        | _ => cases writes
      exact shows_zero
  | some s =>
      obtain ⟨fault, made⟩ := m.exists_change?_eq writes
      rw [MemoryChange.addTo, writes]
      dsimp only
      split
      · next fits =>
          rw [if_pos fits] at made
          intro a inside
          rw [changed_of_ok made, byteAt_put_eq_getD _ _ _ inside, shown a inside,
            Machine.lastStored?_append, Option.getD_or]
          exact congrArg (Option.getD · _) List.findSome?_singleton.symm
      · next outside =>
          rw [if_neg outside] at made
          rw [changed_of_error made]
          exact shown

/-- From zeros on, a memory shows what was written last. -/
theorem shows_changedAll (changes : List MemoryChange) :
    (zero.changedAll changes).Shows (changes.foldl MemoryChange.addTo []) := by
  have general (stores : List Store) (m : Memory) (start : m.Shows stores) :
      (m.changedAll changes).Shows (changes.foldl MemoryChange.addTo stores) := by
    induction changes generalizing m stores with
    | nil => exact start
    | cons change rest ih => exact ih _ _ (start.changed change)
  exact general [] zero shows_zero

theorem byteAt_changedAll (changes : List MemoryChange) {a : Nat} (inside : a < size) :
    (zero.changedAll changes).byteAt a = lastByte changes a :=
  shows_changedAll changes a inside

/-! ## Sixty-four bits -/

/-- Read two bytes as a word. When the first one was found, the address of the second one
is worked out, and has to be a number of sixty-four bits. -/
def wideReadWord (m : Memory) (a : Nat) : Option (Except Fault Word) :=
  match m.read a with
  | .error fault => some (.error fault)
  | .ok high => do
    let second ← Strict.addWide a 1
    return (m.read second).map (Word.ofBytes high)

theorem wideReadWord_eq (m : Memory) (a : Nat) : m.wideReadWord a = some (m.readWord a) := by
  rw [wideReadWord, readWord]
  cases first : m.read a with
  | error fault => rfl
  | ok high =>
      have inside : a < size := by
        rw [read] at first
        split at first
        · assumption
        · cases first
      have fits : a + 1 < 0x10000000000000000 := by
        simp only [size] at inside
        omega
      rw [Strict.addWide_eq_some fits]
      show some ((m.read (a + 1)).map (Word.ofBytes high)) = _
      cases m.read (a + 1) <;> rfl

/-- Memory shows what was written last.

Take any changes of a memory that was zero, and any addresses. Bytes are loaded if they
end inside; otherwise the fault names a start behind the end, or else the size of what was
to be loaded and of what is free. Ranges are filled, written and read if they end inside,
and otherwise the fault names their first address outside. A byte is read or written
inside, and otherwise the fault names its address. A word is read if both bytes are
inside, and otherwise the fault names the first one outside; no sum that this takes needs
more than sixty-four bits. What is read are the bytes that were written last, or zero
where none was since the last clear, and a change that is refused has changed nothing. -/
theorem memory_shows_what_was_written_last (changes : List MemoryChange) :
    let m := zero.changedAll changes
    let shown := lastByte changes
    (∀ bs start, m.load bs start =
      if start + bs.length ≤ 4096 then .ok (m.changed (.load bs start))
      else if 4096 < start then .error (.outOfBounds start)
      else .error (.programTooLarge bs.length (4096 - start))) ∧
    (∀ bs, m.loadProgram bs = m.load bs 0x200) ∧
    (∀ a b, m.write a b =
      if a < 4096 then .ok (m.changed (.write a b)) else .error (.outOfBounds a)) ∧
    (∀ start length b, m.fill start length b =
      if start + length ≤ 4096 then .ok (m.changed (.fill start length b))
      else .error (.outOfBounds (max start 4096))) ∧
    (∀ start bs, m.writeRange start bs =
      if start + bs.length ≤ 4096 then .ok (m.changed (.writeRange start bs))
      else .error (.outOfBounds (max start 4096))) ∧
    (∀ a, m.read a = if a < 4096 then .ok (shown a) else .error (.outOfBounds a)) ∧
    (∀ a, m.readWord a =
      if a ≤ 4094 then .ok (Word.ofBytes (shown a) (shown (a + 1)))
      else .error (.outOfBounds (max a 4096))) ∧
    (∀ start length, m.readRange start length =
      if start + length ≤ 4096 then .ok ((List.range length).map fun i => shown (start + i))
      else .error (.outOfBounds (max start 4096))) ∧
    (∀ a, m.wideReadWord a = some (m.readWord a)) ∧
    (∀ change fault, m.change? change = .error fault → m.changed change = m) := by
  intro m shown
  have byte {a : Nat} (inside : a < size) : m.byteAt a = shown a :=
    byteAt_changedAll changes inside
  refine ⟨fun bs start => ?_, fun bs => rfl,
    fun a b => m.change?_eq_changed (.write a b) (m.write_eq a b),
    fun start length b => ?_,
    fun start bs => m.change?_eq_changed (.writeRange start bs) (m.writeRange_eq start bs),
    fun a => ?_, fun a => ?_, fun start length => ?_, m.wideReadWord_eq,
    fun change fault => changed_of_error⟩
  · rw [← apply_ite Except.error]
    exact m.change?_eq_changed (.load bs start) (m.load_eq bs start)
  · have filled := m.writeRange_eq start (List.replicate length b)
    rw [← fill_eq_writeRange, List.length_replicate] at filled
    exact m.change?_eq_changed (.fill start length b) filled
  · rw [read]
    exact ite_congr rfl (fun inside => congrArg Except.ok (byte inside)) fun _ => rfl
  · have both : a + 1 < size ↔ a ≤ 4094 := by
      simp only [size]
      omega
    rw [readWord_eq]
    refine ite_congr (propext both) (fun low => congrArg Except.ok ?_) fun _ => rfl
    have inside : a + 1 < size := both.mpr low
    rw [wordAt, byte (Nat.lt_of_succ_lt inside), byte inside]
  · rw [readRange_eq]
    refine ite_congr rfl (fun inside => congrArg Except.ok ?_) fun _ => rfl
    refine List.map_congr_left fun i member => byte ?_
    exact Nat.lt_of_lt_of_le (Nat.add_lt_add_left (List.mem_range.mp member) start) inside

/-- At the end of memory: two bytes too many are refused and so is a range that reaches
over the end, no bytes fit behind the last one, and what is read are the last byte
written and the fill in front of it. The word at the last address lacks its second byte,
and the one at the last address of sixty-four bits its first. -/
theorem memory_shows_what_was_written_last_at_end :
    let changes : List MemoryChange :=
      [.load [1, 2, 3] 4093, .fill 4093 2 9, .write 4095 7, .load [4, 5] 4095, .fill 4095 2 8,
        .load [] 4096]
    let m := zero.changedAll changes
    m.load [4, 5] 4095 = .error (.programTooLarge 2 1) ∧ m.changed (.load [4, 5] 4095) = m ∧
      m.load [] 4097 = .error (.outOfBounds 4097) ∧
      m.fill 4095 2 8 = .error (.outOfBounds 4096) ∧
      m.readRange 4092 4 = .ok [0, 9, 9, 7] ∧
      m.readWord 4094 = .ok 0x0907 ∧ m.readWord 4095 = .error (.outOfBounds 4096) ∧
      m.readWord 0xFFFFFFFFFFFFFFFF = .error (.outOfBounds 0xFFFFFFFFFFFFFFFF) := by
  intro changes m
  obtain ⟨load, -, -, fill, -, -, word, range, -, refused⟩ :=
    memory_shows_what_was_written_last changes
  have large : m.load [4, 5] 4095 = .error (.programTooLarge 2 1) := load [4, 5] 4095
  refine ⟨large, refused (.load [4, 5] 4095) _ large, load [] 4097, fill 4095 2 8, ?_, ?_,
    word 4095, word _⟩
  · exact (range 4092 4).trans (congrArg Except.ok (by decide +kernel))
  · exact (word 4094).trans (congrArg Except.ok (by decide +kernel))

end Memory

end ChipEight
