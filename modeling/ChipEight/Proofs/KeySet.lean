/-
# The keypad is a set of keys

A keypad is a mask with a bit for each key, and stands for the set of the keys that are
down. Which keys these are is decided for each key on its own, by the last edit that has
anything to say about it: one that sets this very key, or one that puts all keys up. So
edits of different keys may change places, as long as those that concern one key stay in
order. What a keypad is asked for is asked of the set: whether a number is in it, whether
it is empty, its least member, and the sum of the powers of two that makes up the mask.
-/

import Mathlib.Combinatorics.Colex
import ChipEight.Proofs.KeyWait
import ChipEight.Proofs.RunLoop

namespace ChipEight

/-- Whether an edit says anything about a key. -/
def KeyEdit.concerns (key : Key) : KeyEdit → Bool
  | .set k _ => k = key
  | .releaseAll => true

theorem KeyEdit.concerns_set_self (key : Key) (down : Bool) : (set key down).concerns key = true :=
  decide_eq_true rfl

/-- Of the edits that concern the key, the last one puts it down. -/
def LastPressed (key : Key) (edits : List KeyEdit) : Prop :=
  ∃ earlier later, edits = earlier ++ .set key true :: later ∧
    ∀ edit ∈ later, edit.concerns key = false

section LastPressed

variable {key : Key} {edit : KeyEdit} {edits : List KeyEdit}

theorem not_lastPressed_nil (key : Key) : ¬ LastPressed key [] := by
  rintro ⟨earlier, later, split, -⟩
  exact List.append_ne_nil_of_right_ne_nil earlier (List.cons_ne_nil _ later) split.symm

/-- One more edit decides, unless it does not concern the key. -/
theorem lastPressed_concat :
    LastPressed key (edits ++ [edit]) ↔
      edit = .set key true ∨ edit.concerns key = false ∧ LastPressed key edits := by
  constructor
  · rintro ⟨earlier, later, split, quiet⟩
    rcases List.eq_nil_or_concat later with rfl | ⟨between, last, rfl⟩
    · exact .inl (List.singleton_inj.mp (List.append_inj' split rfl).2)
    · have whole : edits ++ [edit] = (earlier ++ .set key true :: between) ++ [last] := by
        rw [split, List.concat_eq_append, List.append_assoc, List.cons_append]
      obtain ⟨before, same⟩ := List.append_inj' whole rfl
      obtain rfl := List.singleton_inj.mp same
      rw [List.concat_eq_append, List.forall_mem_append, List.forall_mem_singleton] at quiet
      exact .inr ⟨quiet.2, earlier, between, before, quiet.1⟩
  · rintro (rfl | ⟨other, earlier, later, rfl, quiet⟩)
    · exact ⟨edits, [], rfl, nofun⟩
    · refine ⟨earlier, later ++ [edit], ?_, ?_⟩
      · rw [List.append_assoc, List.cons_append]
      · rw [List.forall_mem_append, List.forall_mem_singleton]
        exact ⟨quiet, other⟩

end LastPressed

namespace Keypad

/-- Make one change of the keys. -/
def editKey (p : Keypad) : KeyEdit → Keypad
  | .set key down => p.setKey key down
  | .releaseAll => .released

/-- Make changes of the keys in order. -/
def editKeys (p : Keypad) (edits : List KeyEdit) : Keypad :=
  edits.foldl editKey p

/-- The keys that are down. -/
def held (p : Keypad) : Finset Key :=
  Finset.univ.filter fun key => p.isDown key.val

variable {p : Keypad} {key : Key} {edit : KeyEdit} {edits : List KeyEdit}

theorem editKeys_concat (p : Keypad) (edits : List KeyEdit) (edit : KeyEdit) :
    p.editKeys (edits ++ [edit]) = (p.editKeys edits).editKey edit :=
  List.foldl_concat ..

/-! ## Edits -/

/-- An edit that concerns a key puts it down if it sets it so, and up otherwise. -/
theorem isDown_editKey (p : Keypad) (edit : KeyEdit) (key : Key) :
    (p.editKey edit).isDown key.val =
      if edit.concerns key then decide (edit = .set key true) else p.isDown key.val := by
  cases edit with
  | set k down =>
      by_cases same : k = key
      · subst same
        simp [editKey, isDown_setKey, KeyEdit.concerns]
      · simp [editKey, isDown_setKey, KeyEdit.concerns, same, Fin.val_ne_of_ne (Ne.symm same)]
  | releaseAll => simp [editKey, KeyEdit.concerns]

/-- From a keypad with all keys up, the keys down are those last pressed. -/
theorem isDown_editKeys_released (edits : List KeyEdit) (key : Key) :
    (released.editKeys edits).isDown key.val = true ↔ LastPressed key edits := by
  induction edits using List.reverseRecOn with
  | nil =>
      refine iff_of_false ?_ (not_lastPressed_nil key)
      rw [editKeys, List.foldl_nil, isDown_released]
      exact Bool.false_ne_true
  | append_singleton edits edit ih =>
      rw [editKeys_concat, isDown_editKey, lastPressed_concat, ← ih]
      cases concerned : edit.concerns key with
      | true => simp
      | false =>
          have other : edit ≠ .set key true := by
            rintro rfl
            rw [KeyEdit.concerns_set_self] at concerned
            cases concerned
          simp [other]

/-- What becomes of a key is up to the edits that concern it. -/
theorem isDown_editKeys_filter (p : Keypad) (edits : List KeyEdit) (key : Key) :
    (p.editKeys (edits.filter (KeyEdit.concerns key))).isDown key.val =
      (p.editKeys edits).isDown key.val := by
  induction edits using List.reverseRecOn with
  | nil => rfl
  | append_singleton edits edit ih =>
      rw [List.filter_append, editKeys_concat, isDown_editKey]
      cases concerned : edit.concerns key with
      | true =>
          rw [List.filter_cons_of_pos concerned, List.filter_nil, editKeys_concat, isDown_editKey,
            concerned, if_pos rfl, if_pos rfl]
      | false =>
          have quiet : ¬ edit.concerns key = true := by simp [concerned]
          rw [List.filter_cons_of_neg quiet, List.filter_nil, List.append_nil, ih,
            if_neg Bool.false_ne_true]

/-- Edits make the same of a keypad when those that concern one key come in the same
order, for each key. -/
theorem editKeys_congr (p : Keypad) {edits' : List KeyEdit}
    (same : ∀ key, edits.filter (KeyEdit.concerns key) = edits'.filter (KeyEdit.concerns key)) :
    p.editKeys edits = p.editKeys edits' :=
  ext_isDown fun key => by
    rw [← isDown_editKeys_filter p edits key, same key, isDown_editKeys_filter p edits' key]

theorem isDown_setKey_of_ne (p : Keypad) {n : Nat} (other : n ≠ key.val) (down : Bool) :
    (p.setKey key down).isDown n = p.isDown n := by
  rw [isDown_setKey, if_neg other]

/-- Settings of two keys may change places. -/
theorem setKey_comm (p : Keypad) {key' : Key} (distinct : key ≠ key') (down down' : Bool) :
    (p.setKey key down).setKey key' down' = (p.setKey key' down').setKey key down := by
  refine ext_isDown fun k => ?_
  rw [isDown_setKey, isDown_setKey, isDown_setKey, isDown_setKey]
  split
  · next here =>
    rw [if_neg fun there => distinct (Fin.ext (there.symm.trans here))]
  · rfl

/-! ## The set of the keys that are down -/

@[simp]
theorem mem_held : key ∈ p.held ↔ p.isDown key.val = true := by
  simp [held]

theorem isDown_iff_mem_held (p : Keypad) (n : Nat) :
    p.isDown n = true ↔ ∃ key ∈ p.held, key.val = n := by
  constructor
  · intro down
    have inside : n < 16 := by
      by_contra outside
      rw [isDown_of_le p (Nat.le_of_not_lt outside)] at down
      cases down
    exact ⟨⟨n, inside⟩, mem_held.mpr down, rfl⟩
  · rintro ⟨key, member, rfl⟩
    exact mem_held.mp member

theorem anyDown_iff_nonempty_held : p.anyDown = true ↔ p.held.Nonempty := by
  rw [← Bool.not_eq_false, anyDown_eq_false_iff, Finset.nonempty_iff_ne_empty, not_iff_not,
    Finset.eq_empty_iff_forall_notMem]
  simp

theorem firstDown?_eq_some_iff_isLeast {first : Key} :
    p.firstDown? = some first ↔ IsLeast (p.held : Set Key) first := by
  rw [firstDown?_eq_some_iff]
  constructor
  · intro least
    exact ⟨mem_held.mpr least.down, fun key member => least.least key (mem_held.mp member)⟩
  · intro least
    exact ⟨mem_held.mp least.1, fun key down => least.2 (mem_held.mpr down)⟩

theorem bits_eq_sum (p : Keypad) : p.bits = ∑ key ∈ p.held, 2 ^ key.val := by
  have indices : p.bits.bitIndices.toFinset = p.held.map Fin.valEmbedding := by
    ext n
    rw [List.mem_toFinset, Nat.mem_bitIndices, Finset.mem_map, bits, BitVec.testBit_toNat]
    exact p.isDown_iff_mem_held n
  calc
    p.bits = ∑ n ∈ p.bits.bitIndices.toFinset, 2 ^ n :=
      (Finset.sum_toFinset_bitIndices_two_pow _).symm
    _ = ∑ key ∈ p.held, 2 ^ key.val := by
      rw [indices, Finset.sum_map]
      rfl

/-! ## The mask -/

/-- A key is looked up with a mask of its own, once its number is known to be one. -/
theorem isDown_eq_and (p : Keypad) (n : Nat) :
    p.isDown n = (decide (n < 16) && (p.mask &&& 1#16 <<< n) != 0#16) := by
  by_cases inside : n < 16
  · have own : BitVec.twoPow 16 n ≠ 0#16 := by
      intro zero
      have bit : (BitVec.twoPow 16 n).getLsbD n = true := by simp [inside]
      rw [zero, BitVec.getLsbD_zero] at bit
      cases bit
    rw [← BitVec.twoPow_eq, BitVec.and_twoPow, isDown, decide_eq_true inside, Bool.true_and]
    cases p.mask.getLsbD n with
    | true => simpa using own
    | false => rfl
  · rw [isDown_of_le p (Nat.le_of_not_lt inside), decide_eq_false inside, Bool.false_and]

/-- The number of the first key that is down is that of the zeros at the end of the mask. -/
theorem firstDown?_eq_ctz (p : Keypad) :
    p.firstDown?.map Fin.val = if p.anyDown then some p.mask.ctz.toNat else none := by
  cases pressed : p.anyDown with
  | false =>
      rw [firstDown?_eq_none_iff.mpr pressed]
      rfl
  | true =>
      have nonzero : p.mask ≠ 0#16 := by simpa [anyDown] using pressed
      have inside : p.mask.ctz.toNat < 16 := BitVec.ctz_lt_iff_ne_zero.mpr nonzero
      have least : p.IsLeastDown ⟨p.mask.ctz.toNat, inside⟩ := by
        refine ⟨BitVec.getLsbD_true_ctz_of_ne_zero nonzero, fun key down => ?_⟩
        by_contra before
        have up : p.isDown key.val = false :=
          BitVec.getLsbD_false_of_lt_ctz (Nat.lt_of_not_le before)
        rw [down] at up
        cases up
      rw [firstDown?_eq_some_iff.mpr least]
      rfl

/-! ## The keypad of a machine -/

theorem keypad_editKeys (m : Machine) (edits : List KeyEdit) :
    (m.editKeys edits).keypad = m.keypad.editKeys edits := by
  refine (List.foldl_hom Machine.keypad fun m edit => ?_).symm
  cases edit <;> rfl

/-- From all keys up, and through any edits: the keys down are those that were pressed
last, by the last edit to concern them. The numbers that are down are those of these keys
and no others, one is down if there is such a key, the first one is the least of them, if
there is any, and the mask is the sum of their powers of two. Setting a key leaves every
other number as it was, so settings of two keys may change places, and so may any edits
as long as those that concern one key do not. A key is looked up with its own bit, and
the first one by the zeros at the end of the mask; and the edits of a poll are made to the
keypad of the machine in just this way. -/
theorem keypad_holds_the_keys_pressed_last (edits : List KeyEdit) :
    let p := released.editKeys edits
    (∀ key, key ∈ p.held ↔ LastPressed key edits) ∧
      (∀ n, p.isDown n = true ↔ ∃ key ∈ p.held, key.val = n) ∧
      (p.anyDown = true ↔ p.held.Nonempty) ∧
      (∀ first, p.firstDown? = some first ↔ IsLeast (p.held : Set Key) first) ∧
      (p.firstDown? = none ↔ p.held = ∅) ∧
      p.bits = ∑ key ∈ p.held, 2 ^ key.val ∧
      (∀ (q : Keypad) (key : Key) down n, n ≠ key.val →
        (q.setKey key down).isDown n = q.isDown n) ∧
      (∀ (q : Keypad) (key key' : Key) down down', key ≠ key' →
        (q.setKey key down).setKey key' down' = (q.setKey key' down').setKey key down) ∧
      (∀ (q : Keypad) edits',
        (∀ key, edits.filter (KeyEdit.concerns key) = edits'.filter (KeyEdit.concerns key)) →
        q.editKeys edits = q.editKeys edits') ∧
      (∀ n, p.isDown n = (decide (n < 16) && (p.mask &&& 1#16 <<< n) != 0#16)) ∧
      p.firstDown?.map Fin.val = (if p.anyDown then some p.mask.ctz.toNat else none) ∧
      ∀ e : Emulator, (e.editKeys edits).machine.keypad = e.machine.keypad.editKeys edits := by
  intro p
  refine ⟨fun key => mem_held.trans (isDown_editKeys_released edits key), p.isDown_iff_mem_held,
    anyDown_iff_nonempty_held, fun first => firstDown?_eq_some_iff_isLeast, ?_, p.bits_eq_sum,
    fun q key down n other => q.isDown_setKey_of_ne other down,
    fun q key key' down down' distinct => q.setKey_comm distinct down down',
    fun q edits' => q.editKeys_congr, p.isDown_eq_and, p.firstDown?_eq_ctz, fun e => ?_⟩
  · rw [firstDown?_eq_none_iff, ← Bool.not_eq_true, anyDown_iff_nonempty_held,
      Finset.not_nonempty_iff_eq_empty]
  · rw [Emulator.machine_editKeys, keypad_editKeys]

/-- Of two keys pressed before all keys go up, one is pressed again, and of three others
one goes up again. The least of those that are left is the first key down, no number past
the keypad is down, and the edits give the same in another order. -/
theorem keypad_holds_the_keys_pressed_last_reordered :
    let edits : List KeyEdit :=
      [.set 3 true, .set 12 true, .releaseAll, .set 12 true, .set 5 true, .set 9 true,
        .set 5 false, .set 15 true]
    let edits' : List KeyEdit :=
      [.set 12 true, .set 3 true, .releaseAll, .set 5 true, .set 5 false, .set 15 true,
        .set 9 true, .set 12 true]
    let p := released.editKeys edits
    LastPressed 12 edits ∧ 12 ∈ p.held ∧ ¬ LastPressed 3 edits ∧ ¬ LastPressed 5 edits ∧
      IsLeast (p.held : Set Key) 9 ∧ p.bits = 0x9200 ∧ ¬ p.isDown 16 = true ∧
      ¬ p.isDown 0xFF = true ∧ p = released.editKeys edits' ∧
      (p.setKey 9 false).isDown 12 = p.isDown 12 ∧
      (p.setKey 9 false).setKey 5 true = (p.setKey 5 true).setKey 9 false := by
  intro edits edits' p
  obtain ⟨held, down, -, first, -, sum, others, swap, reorder, -⟩ :=
    keypad_holds_the_keys_pressed_last edits
  have last : LastPressed 12 edits := by
    refine ⟨[.set 3 true, .set 12 true, .releaseAll],
      [.set 5 true, .set 9 true, .set 5 false, .set 15 true], rfl, by decide⟩
  have up (n : Nat) (outside : 16 ≤ n) : ¬ p.isDown n = true := by
    rw [down]
    rintro ⟨key, -, rfl⟩
    exact absurd key.isLt (Nat.not_lt_of_le outside)
  exact ⟨last, (held 12).mpr last, mt (held 3).mpr (by decide), mt (held 5).mpr (by decide),
    (first 9).mp (by decide), sum.trans (by decide), up 16 (by decide), up 0xFF (by decide),
    reorder released edits' (by decide), others p 9 false 12 (by decide),
    swap p 9 5 false true (by decide)⟩

end Keypad

end ChipEight
