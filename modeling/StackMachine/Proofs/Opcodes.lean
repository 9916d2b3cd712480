import StackMachine.Operation

/-!
# Opcodes

What the opcode of an operation says about it. `Opcode.immediate_eq` says which opcodes have bytes
of their own, and `Operation.immediate_of_at?` that no revision changes that.
-/

namespace StackMachine

namespace Operation

theorem at?_eq_some {r : Revision} {b : UInt8} {op : Operation} :
    at? r b = some op ↔ ofByte? b = some op ∧ r.includes op.since = true := by
  simp [at?, Option.filter_eq_some_iff]

/-- The operations by range of opcodes. -/
theorem ofByte?_eq_some {b : UInt8} {op : Operation} (h : ofByte? b = some op) :
    (∃ n, op = push n ∧ b.toNat = 0x5f + n ∧ n ≤ 32) ∨
      (∃ n, op = dup n ∧ b.toNat = 0x7f + n ∧ 0 < n ∧ n ≤ 16) ∨
      (∃ n, op = swap n ∧ b.toNat = 0x8f + n ∧ 0 < n ∧ n ≤ 16) ∨ (b, op) ∈ plain := by
  unfold ofByte? at h
  simp only [UInt8.le_iff_toNat_le] at h
  split at h
  · cases h
    refine .inl ⟨_, rfl, ?_⟩
    simp only [UInt8.reduceToNat] at *
    omega
  · split at h
    · cases h
      refine .inr (.inl ⟨_, rfl, ?_⟩)
      simp only [UInt8.reduceToNat] at *
      omega
    · split at h
      · cases h
        refine .inr (.inr (.inl ⟨_, rfl, ?_⟩))
        simp only [UInt8.reduceToNat] at *
        omega
      · obtain ⟨before, after, split, -⟩ := List.lookup_eq_some_iff.mp h
        exact .inr (.inr (.inr (by simp [split])))

/-- No opcode copies the word above the top, or exchanges the top with itself. -/
theorem pos_of_ofByte? {b : UInt8} {op : Operation} {n : Nat} (h : ofByte? b = some op)
    (counts : op = dup n ∨ op = swap n) : 0 < n := by
  rcases ofByte?_eq_some h with ⟨m, rfl, -⟩ | ⟨m, rfl, -, hm⟩ | ⟨m, rfl, -, hm⟩ | listed
  · rcases counts with counts | counts <;> cases counts
  · rcases counts with counts | counts <;> cases counts
    exact hm.1
  · rcases counts with counts | counts <;> cases counts
    exact hm.1
  · rcases counts with rfl | rfl <;> simp [plain] at listed

/-- Outside the numbered families an operation has one opcode only. -/
theorem byte_eq_of_ofByte? {b listed : UInt8} {op : Operation} (h : ofByte? b = some op)
    (known : (listed, op) ∈ plain) : b = listed := by
  rcases ofByte?_eq_some h with ⟨n, rfl, -⟩ | ⟨n, rfl, -⟩ | ⟨n, rfl, -⟩ | also
  · simp [plain] at known
  · simp [plain] at known
  · simp [plain] at known
  · have distinct : ∀ p ∈ plain, ∀ q ∈ plain, p.2 = q.2 → p.1 = q.1 := by decide +kernel
    exact distinct _ also _ known rfl

/-- Only the pushes have bytes of their own, and their opcodes are apart from all others. -/
theorem immediate_of_mem_plain :
    ∀ p ∈ plain, p.2.immediate = 0 ∧ ¬ (0x60 ≤ p.1.toNat ∧ p.1.toNat ≤ 0x7f) := by
  decide

theorem immediate_of_at? {r : Revision} {b : UInt8} {op : Operation} (h : at? r b = some op) :
    op.immediate = Opcode.immediate b := by
  simp only [Opcode.immediate, (at?_eq_some.mp h).1]

end Operation

/-- The opcodes with bytes of their own are the pushes but the first. -/
theorem Opcode.immediate_eq (b : UInt8) :
    immediate b = if 0x60 ≤ b ∧ b ≤ 0x7f then b.toNat - 0x5f else 0 := by
  simp only [immediate, UInt8.le_iff_toNat_le, UInt8.reduceToNat]
  cases decoded : Operation.ofByte? b with
  | none =>
    rw [if_neg]
    intro range
    have push : (0x5f : UInt8) ≤ b ∧ b ≤ 0x7f := by
      simp only [UInt8.le_iff_toNat_le, UInt8.reduceToNat]
      omega
    simp only [Operation.ofByte?, if_pos push, reduceCtorEq] at decoded
  | some op =>
    show op.immediate = _
    rcases Operation.ofByte?_eq_some decoded with
      ⟨n, rfl, hb, hn⟩ | ⟨n, rfl, hb, hn⟩ | ⟨n, rfl, hb, hn⟩ | listed
    · show n = _
      split <;> omega
    · exact (if_neg (by omega)).symm
    · exact (if_neg (by omega)).symm
    · obtain ⟨none, apart⟩ := Operation.immediate_of_mem_plain _ listed
      rw [none, if_neg apart]

end StackMachine
