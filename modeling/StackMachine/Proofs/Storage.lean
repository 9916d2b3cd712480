import StackMachine.Host.Recording
import StackMachine.Proofs.Steps

/-!
# Storage along executions

An execution writes to the slots of one account, and a slot reads as what was last written to it.
The writes are read off the operands of each instruction that is carried out, not off the host:
`Execution.step_accounts` ties the two together for one step, `Execution.slot_steps` for any number
of them.
-/

namespace StackMachine

/-! ## Writes -/

/-- The key and the value that an operation writes to storage when its operands are on the stack. -/
def Operation.write? (s : Stack) : Operation → Option (Word × Word)
  | sstore => match s.items with
    | key :: value :: _ => some (key, value)
    | _ => none
  | _ => none

/-- The value that the last write to a key has left there, if there was one. -/
def lastWrite? (writes : List (Word × Word)) (key : Word) : Option Word :=
  writes.reverse.lookup key

theorem lastWrite?_append (writes : List (Word × Word)) (key value slot : Word) :
    lastWrite? (writes ++ [(key, value)]) slot
      = if slot = key then some value else lastWrite? writes slot := by
  by_cases h : slot = key
  · simp [lastWrite?, h]
  · simp [lastWrite?, List.lookup_cons, beq_false_of_ne h, h]

/-- Keys with a last write are the keys that were written. -/
theorem isSome_lastWrite? {writes : List (Word × Word)} {key : Word} :
    (lastWrite? writes key).isSome ↔ ∃ value, (key, value) ∈ writes := by
  simp only [lastWrite?, List.lookup_isSome_iff, List.mem_reverse, beq_iff_eq]
  constructor
  · rintro ⟨⟨_, value⟩, mem, rfl⟩
    exact ⟨value, mem⟩
  · rintro ⟨value, mem⟩
    exact ⟨(key, value), mem, rfl⟩

namespace StorageMap

/-- The value of a slot, none if it is absent. -/
def slot? (m : StorageMap) (address : Address) (key : Word) : Option Word :=
  (m.slots address).find? key

theorem find?_write_of_ne (m : StorageMap) {address other : Address} (apart : other ≠ address)
    (key value : Word) : (m.write address key value).find? other = m.find? other := by
  simp [write, apart]

theorem slot?_write (m : StorageMap) (address : Address) (key value slot : Word) :
    (m.write address key value).slot? address slot
      = if slot = key then some value else m.slot? address slot := by
  simp [slot?, slots, write]

end StorageMap

/-! ## Operations -/

section

variable {c : Context} {f : Frame} {host : RecordingHost} {op : Operation}
  {e : Effect RecordingHost}

/-- The storage that an operation leaves is the one that its write makes. -/
theorem Performs.accounts (h : Performs c f host op e) :
    e.host.accounts = match op.write? f.stack with
      | some (key, value) => host.accounts.write c.message.destination key value
      | none => host.accounts := by
  cases h with
  | rearranged h => cases h <;> rfl
  | wrote items _ => simp only [Operation.write?, items]; rfl
  | stored stores _ _ _ => rcases stores with ⟨rfl, -⟩ | ⟨rfl, -⟩ <;> rfl
  | returned halts _ _ _ => rcases halts with ⟨rfl, -⟩ | ⟨rfl, -⟩ <;> rfl
  | called _ _ _ _ _ _ _ answer => cases answer; rfl
  | stopped | jumped _ _ | branched _ _ _ | hashed _ _ _ | loaded _ _ _ | refused _ _ _ _ _ _ => rfl

/-- A load puts the value of the slot in place of the key. -/
theorem Performs.items_of_sload (h : Performs c f host .sload e) :
    ∃ key rest, f.stack.items = key :: rest ∧
      e.stack.items = host.storageAt c.message.destination key :: rest := by
  cases h with
  | rearranged h => cases h with
    | sload items => exact ⟨_, _, items, rfl⟩
  | stored other _ _ _ | returned other _ _ _ => simp at other

end

/-! ## Executions -/

namespace Execution

/-- The key and the value that the next step writes to storage. -/
def written? {σ : Type} [Host σ] (e : Execution σ) : Option (Word × Word) :=
  e.completed?.bind (Operation.write? e.frame.stack)

/-- The writes of so many steps, in order. -/
def writes {σ : Type} [Host σ] (e : Execution σ) (count : Nat) : List (Word × Word) :=
  (List.range count).filterMap fun i => (steps i e).written?

theorem writes_succ {σ : Type} [Host σ] (e : Execution σ) (count : Nat) :
    e.writes (count + 1) = e.writes count ++ (steps count e).written?.toList := by
  rw [writes, List.range_succ, List.filterMap_append]
  cases h : (steps count e).written? <;> simp [writes, h]

theorem step_accounts (e : Execution RecordingHost) :
    e.step.host.accounts = match e.written? with
      | some (key, value) => e.host.accounts.write e.context.message.destination key value
      | none => e.host.accounts := by
  rcases e.step_carries_out with ⟨op, opcode, effect, done, performs, -, host⟩ | ⟨idle, -, host⟩
  · simp only [written?, done, Option.bind_some, host]
    exact performs.accounts
  · simp only [written?, idle, Option.bind_none, host]

/-- Only the account that an execution runs for has other slots afterwards. -/
theorem account_steps (c : Context) (host : RecordingHost) {other : Address}
    (apart : other ≠ c.message.destination) (k : Nat) :
    (steps k (start c host)).host.accounts.find? other = host.accounts.find? other := by
  induction k with
  | zero => rfl
  | succ k ih =>
    rw [steps_succ, step_accounts, steps_context]
    cases (steps k (start c host)).written? with
    | none => exact ih
    | some write =>
      show (StorageMap.write _ c.message.destination _ _).find? other = _
      rw [StorageMap.find?_write_of_ne _ apart, ih]

/-- A slot of that account has the value that was last written to it; without a write it is what it
was. -/
theorem slot_steps (c : Context) (host : RecordingHost) (key : Word) (k : Nat) :
    (steps k (start c host)).host.accounts.slot? c.message.destination key
      = (lastWrite? ((start c host).writes k) key).or
        (host.accounts.slot? c.message.destination key) := by
  induction k with
  | zero => rfl
  | succ k ih =>
    rw [steps_succ, step_accounts, steps_context, writes_succ]
    cases (steps k (start c host)).written? with
    | none =>
      rw [Option.toList_none, List.append_nil]
      exact ih
    | some write =>
      obtain ⟨written, value⟩ := write
      show (StorageMap.write _ c.message.destination written value).slot? _ key = _
      rw [StorageMap.slot?_write, Option.toList_some, lastWrite?_append, ih]
      by_cases h : key = written <;> simp [h]

theorem storageAt_steps (c : Context) (host : RecordingHost) (key : Word) (k : Nat) :
    (steps k (start c host)).host.storageAt c.message.destination key
      = (lastWrite? ((start c host).writes k) key).getD
        (host.storageAt c.message.destination key) := by
  show ((steps k (start c host)).host.accounts.slot? c.message.destination key).getD 0 = _
  rw [slot_steps, Option.getD_or]
  rfl

/-- Only the slots of the account that an execution runs for change. Such a slot reads as the value
of the last write to it, or as it did at first; it is present if it was so at first or has been
written. A load pushes what the slot reads as at that time. -/
theorem storage_keeps_last_writes (c : Context) (host : RecordingHost) (k : Nat) :
    let e := start c host
    let own := c.message.destination
    let after := (steps k e).host
    (∀ other ≠ own, after.accounts.find? other = host.accounts.find? other) ∧
      (∀ key, after.storageAt own key
        = (lastWrite? (e.writes k) key).getD (host.storageAt own key)) ∧
      (∀ key, (after.accounts.slot? own key).isSome ↔
        (host.accounts.slot? own key).isSome ∨ ∃ value, (key, value) ∈ e.writes k) ∧
      ((steps k e).completes .sload = true → ∃ key rest,
        (steps k e).frame.stack.items = key :: rest ∧
          (steps (k + 1) e).frame.stack.items
            = (lastWrite? (e.writes k) key).getD (host.storageAt own key) :: rest) := by
  intro e own after
  refine ⟨fun other apart => account_steps c host apart k, fun key => storageAt_steps c host key k,
    fun key => ?_, fun completes => ?_⟩
  · rw [slot_steps c host key k, ← isSome_lastWrite?, Option.isSome_or, Bool.or_eq_true]
    exact or_comm
  · obtain ⟨opcode, effect, -, performs, frame, -⟩ := performs_of_completes completes
    obtain ⟨key, rest, items, pushed⟩ := performs.items_of_sload
    rw [steps_context] at pushed
    refine ⟨key, rest, items, ?_⟩
    rw [steps_succ, frame, Frame.proceed_stack, pushed]
    exact congrArg (· :: rest) (storageAt_steps c host key k)

/-- One slot is set to zero and another one twice before it is loaded. Another account has a slot
with that key, and one slot is never written. -/
theorem storage_keeps_last_writes_twice :
    let c : Context := ⟨.default, .latest, .call 0 7 99,
      .ofBytes [0x60, 0, 0x60, 1, 0x55, 0x60, 7, 0x60, 2, 0x55, 0x60, 9, 0x60, 2, 0x55, 0x60, 2,
        0x54]⟩
    let host := (RecordingHost.empty.setStorageAt 5 2 3).setStorageAt 7 3 4
    ((5 : Address) ≠ c.message.destination ∧ (steps 10 (start c host)).completes .sload = true) ∧
      (start c host).writes 10 = [(1, 0), (2, 7), (2, 9)] ∧
      (steps 10 (start c host)).host.accounts.find? 5 = host.accounts.find? 5 ∧
      (steps 10 (start c host)).host.storageAt 7 2 = 9 ∧
      (steps 10 (start c host)).host.storageAt 7 3 = 4 ∧
      ((steps 10 (start c host)).host.accounts.slot? 7 1).isSome ∧
      ¬ ((steps 10 (start c host)).host.accounts.slot? 7 0).isSome ∧
      (steps 11 (start c host)).frame.stack.items = [9] := by
  intro c host
  have apart : (5 : Address) ≠ c.message.destination := by decide
  have loads : (steps 10 (start c host)).completes .sload = true := by decide +kernel
  have writes : (start c host).writes 10 = [(1, 0), (2, 7), (2, 9)] := by decide +kernel
  have operands : (steps 10 (start c host)).frame.stack.items = [2] := by decide +kernel
  obtain ⟨others, reads, present, pushed⟩ := storage_keeps_last_writes c host 10
  rw [writes] at reads present pushed
  obtain ⟨key, rest, items, top⟩ := pushed loads
  rw [operands] at items
  cases items
  simp only [Nat.reduceAdd] at top
  refine ⟨⟨apart, loads⟩, writes, others 5 apart, (reads 2).trans (by decide +kernel),
    (reads 3).trans (by decide +kernel), (present 1).mpr (.inr ⟨0, by decide⟩), fun zero => ?_,
    top.trans (by decide +kernel)⟩
  rcases (present 0).mp zero with there | ⟨value, mem⟩
  · exact absurd there (by decide +kernel)
  · simp at mem

end Execution

end StackMachine
