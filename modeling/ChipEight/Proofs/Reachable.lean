/-
# Where the program counter can be

Addresses in instructions have twelve bits, the program counter has sixteen and
is never masked. It still stays near the memory: an instruction is fetched from
inside, and from there the program goes on at an address, a byte further, an
instruction or two further, or behind an earlier call. The bound on the counter
needs one on the return addresses, which are counters themselves, so both are
kept together, by every action from the moment a machine is switched on.
-/

import ChipEight.Proofs.Footprint

namespace ChipEight

namespace CallStack

/-- What a push leaves is the address and the entries from before. -/
theorem mem_entries_of_push {s t : CallStack} {address a : UInt16}
    (pushed : s.push address = .ok t) : a ∈ t.entries ↔ a = address ∨ a ∈ s.entries := by
  rw [entries_of_push pushed, List.mem_cons]

theorem mem_entries_of_pop {s t : CallStack} {address a : UInt16}
    (popped : s.pop = .ok (address, t)) : a ∈ s.entries ↔ a = address ∨ a ∈ t.entries := by
  rw [entries_of_pop popped, List.mem_cons]

end CallStack

namespace Machine

variable {m next : Machine} {i : Instruction} {signal : Signal}

/-! ## Where an instruction leads -/

/-- The address at which the program goes on behind an instruction at the program
counter that is carried out. -/
def destination (m : Machine) : Instruction → UInt16
  | .ret => m.stack.entries.headD 0
  | .jump target | .call target => UInt16.ofNat target.val
  | .jumpOffset base => UInt16.ofNat (base.val + (m.v 0).toNat)
  | .skip condition => if condition.isMet m then m.pc + 2 + 2 else m.pc + 2
  | .awaitKey _ => if m.keypad.anyDown then m.pc + 2 else m.pc
  | _ => m.pc + 2

theorem pc_of_execute (done : m.advance.execute i = (.ok signal, next)) :
    next.pc = m.destination i := by
  cases i with
  | ret =>
      obtain ⟨pc, stack, popped, -, rfl⟩ := execute_ret_eq_ok_iff.mp done
      have entries : m.stack.entries = pc :: stack.entries := CallStack.entries_of_pop popped
      rw [destination, entries]
      rfl
  | call | draw | storeDecimal | storeRegisters =>
      obtain ⟨_, _, done⟩ := orFault_eq_ok_iff.mp done
      cases done
      rfl
  | loadRegisters last =>
      obtain ⟨values, _, done⟩ := orFault_eq_ok_iff.mp done
      cases done
      exact Registers.pc_setFrom ..
  | arithmetic operation x y =>
      cases done
      exact Registers.pc_setResult ..
  | skip condition =>
      cases done
      have same : condition.isMet m.advance = condition.isMet m := by cases condition <;> rfl
      rw [destination, same]
      split <;> rfl
  | awaitKey x =>
      obtain ⟨up, -, rfl⟩ | ⟨key, down, -, rfl, -⟩ := awaitKey_cases done
      · have keys : m.keypad.anyDown = false := up
        rw [destination, keys]
        exact congrArg Registers.pc m.registers.rewind_advance
      · have keys : m.keypad.anyDown = true := down
        rw [destination, keys]
        rfl
  | _ =>
      cases done
      rfl

/-- An instruction adds no return address but the one behind itself. -/
theorem mem_entries_of_execute (done : m.advance.execute i = (.ok signal, next)) {a : UInt16}
    (member : a ∈ next.stack.entries) : a = m.pc + 2 ∨ a ∈ m.stack.entries := by
  cases i with
  | ret =>
      obtain ⟨pc, stack, popped, -, rfl⟩ := execute_ret_eq_ok_iff.mp done
      exact .inr ((CallStack.mem_entries_of_pop popped).mpr (.inr member))
  | call target =>
      obtain ⟨stack, pushed, -, rfl⟩ := execute_call_eq_ok_iff.mp done
      exact (CallStack.mem_entries_of_push pushed).mp member
  | _ =>
      have kept : next.stack = m.stack := (changesOnly_of_execute done).stack rfl
      exact .inr (kept ▸ member)

/-! ## The bounds -/

/-- The program counter and the return addresses are where running programs take them. -/
structure InRange (m : Machine) : Prop where
  pc_le : m.pc.toNat ≤ 0x10FE
  /-- A return goes on behind a call, which was fetched from inside the memory. -/
  entries : ∀ a ∈ m.stack.entries, 2 ≤ a.toNat ∧ a.toNat ≤ 0x1000

/-- Where a load or the power switch puts the program counter is in range. -/
theorem toNat_programStart_le : (UInt16.ofNat Memory.programStart).toNat ≤ 0x10FE := by
  decide

/-- Behind an instruction fetched from inside the memory, the program goes on in range. -/
theorem InRange.destination_le (held : m.InRange) (inside : m.pc.toNat + 1 < Memory.size)
    (i : Instruction) :
    (m.destination i).toNat ≤ 0x10FE := by
  have next : (m.pc + 2).toNat = m.pc.toNat + 2 := Memory.toNat_add_two inside
  have behind : (m.pc + 2).toNat ≤ 0x10FE := by
    simp only [Memory.size] at inside
    omega
  have target (n : Nat) (near : n ≤ 0x10FE) : (UInt16.ofNat n).toNat ≤ 0x10FE := by
    rw [UInt16.toNat_ofNat_of_lt' (Nat.lt_of_le_of_lt near (by decide))]
    exact near
  cases i with
  | ret =>
      rw [destination]
      cases entries : m.stack.entries with
      | nil => exact Nat.zero_le _
      | cons a rest =>
          have near := (held.entries a (entries ▸ List.mem_cons_self)).2
          exact Nat.le_trans near (by decide)
  | jump address | call address =>
      have bound := address.isLt
      exact target _ (by omega)
  | jumpOffset base =>
      have bound := base.isLt
      have offset := (m.v 0).toNat_lt
      exact target _ (by omega)
  | skip condition =>
      rw [destination]
      split
      · have beyond : (m.pc + 2 + 2).toNat = (m.pc.toNat + 2 + 2) % 2 ^ 16 := by
          rw [UInt16.toNat_add, next]
          rfl
        simp only [Memory.size] at inside
        omega
      · exact behind
  | awaitKey =>
      rw [destination]
      split
      · exact behind
      · exact held.pc_le
  | _ => exact behind

theorem InRange.of_execute (held : m.InRange) (standing : m.instruction? = some i)
    (done : m.advance.execute i = (.ok signal, next)) : next.InRange := by
  have inside := (instruction?_eq_some_iff.mp standing).1
  refine ⟨?_, fun a member => ?_⟩
  · rw [pc_of_execute done]
    exact held.destination_le inside i
  · rcases mem_entries_of_execute done member with rfl | earlier
    · rw [Memory.toNat_add_two inside]
      simp only [Memory.size] at inside
      omega
    · exact held.entries a earlier

theorem InRange.act (held : m.InRange) (a : Action) : (m.act a).InRange := by
  rcases keeps_or_loads m a with kept | ⟨program, -, loads⟩
  · rcases act_cases kept with ⟨i, signal, standing, -, done, -⟩ | ⟨-, silent⟩
    · exact held.of_execute standing done
    · rw [silent]
      exact ⟨held.pc_le, held.entries⟩
  · rw [loads]
    exact ⟨toNat_programStart_le, nofun⟩

theorem inRange_after (seed : UInt64) (history : List Action) :
    ((powerOn seed).after history).InRange :=
  after_induction (fun _ a held => held.act a) history ⟨toNat_programStart_le, nofun⟩

end Machine

end ChipEight
