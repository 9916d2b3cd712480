import StackMachine.Host.Recording
import StackMachine.Proofs.Likeness
import StackMachine.Proofs.Runs

/-!
# What executions cannot see

An execution sees the limit of memory only by running into it, of a nested call only whether it
succeeded and as much of its output as memory can hold, and of storage only what the slots of its
own account read as. Each of these is a likeness, and what it says of whole executions follows from
`Likeness.Executions.steps`.
-/

namespace StackMachine

/-! ## The same gas -/

namespace Likeness

/-- The same gas and the same prices. -/
def level {σ : Type} (c : Context) (limit : UInt64) (short : VmError → Prop)
    (limits : Nat → Nat → Prop) (hosts : σ → σ → Prop) : Likeness σ where
  meters := Eq
  scarce := False
  schedule := c.config.gasSchedule
  policy := c.config.memoryPolicy
  gas := c.message.gas
  short
  limits
  hosts
  limit

section

variable {σ : Type} {c : Context} {limit : UInt64} {short : VmError → Prop}
  {limits : Nat → Nat → Prop} {hosts : σ → σ → Prop}

theorem even_level : (level c limit short limits hosts).Even :=
  fun _ _ same => same.symm

theorem priced_level : (level c limit short limits hosts).Priced c.config where
  instruction _ _ _ same := by
    cases same
    exact .refl _
  memory _ _ _ _ _ same := by
    cases same
    exact .refl _

end

end Likeness

/-! ## The limit of memory -/

/-- The same host, and a limit of memory that is no lower. -/
def Likeness.roomier (σ : Type) (c : Context) (limit : UInt64) : Likeness σ :=
  level c limit (· = .memoryBoundsExceeded) (· ≤ ·) Eq

theorem Likeness.fair_roomier {σ : Type} [Host σ] (c : Context) (limit : UInt64) :
    (roomier σ c limit).Fair c where
  prices := priced_level
  roomier wider := .inr ⟨rfl, wider⟩
  blind := blind_of_eq rfl c

/-- An execution that does not end at its limit of memory ends with every higher limit, after as
many steps, with the same result and the same host. -/
theorem Execution.same_with_more_memory {σ : Type} [Host σ] (c : Context) (host : σ)
    {limit : UInt64} (wider : c.config.maxMemorySize ≤ limit) {n : Nat} {result : ExecutionResult}
    (ends : (start c host).HaltsAfter n result) (within : result.status ≠ .memoryBoundsExceeded) :
    let e := start c host
    let other := start { c with config := { c.config with maxMemorySize := limit } } host
    other.HaltsAfter n result ∧ (steps n other).host = (steps n e).host ∧
      other.outcome? = e.outcome? := by
  intro e other
  have fair := Likeness.fair_roomier (σ := σ) c limit
  have alike {i : Nat} (hi : i ≤ n) :
      (Likeness.roomier σ c limit).Executions (steps i e) (steps i other) := by
    refine (Likeness.Executions.start fair wider rfl rfl).steps Likeness.even_level id ?_
    rintro j hj _ rfl overrun
    obtain ⟨_, state, status, -⟩ := State.outcome?_eq_some.mp overrun
    rw [ends.eq_of_halted (Nat.le_trans hj hi) state] at status
    exact within status
  have ends' : other.HaltsAfter n result :=
    ends.of_states fun i hi => (alike hi).frames.state_eq Likeness.even_level
  have last : (steps n other).host = (steps n e).host := (alike (Nat.le_refl n)).hosts.symm
  refine ⟨ends', last, ends.outcome?_eq ends' last ?_ ?_⟩ <;> exact start_stack_size_le _ _

/-- A word is stored right below the limit and returned. -/
theorem Execution.same_with_more_memory_word :
    let config := { Config.default with maxMemorySize := 64 }
    let c : Context := ⟨config, .latest, .call 0 0 9,
      .ofBytes [0x60, 0x2a, 0x60, 32, 0x52, 0x60, 1, 0x60, 63, 0xf3]⟩
    let e := start c RecordingHost.empty
    let other := start { c with config := { config with maxMemorySize := 96 } } RecordingHost.empty
    (c.config.maxMemorySize ≤ 96 ∧ e.HaltsAfter 6 ⟨.success, 3, [0x2a]⟩) ∧
      other.HaltsAfter 6 ⟨.success, 3, [0x2a]⟩ ∧ (steps 6 other).host = (steps 6 e).host ∧
      other.outcome? = e.outcome? := by
  intro config c e other
  have wider : c.config.maxMemorySize ≤ 96 := by decide
  have ends : e.HaltsAfter 6 ⟨.success, 3, [0x2a]⟩ := ⟨by decide +kernel, by decide +kernel⟩
  exact ⟨⟨wider, ends⟩, same_with_more_memory c RecordingHost.empty wider ends (by decide)⟩

/-! ## Nested calls and storage -/

namespace RecordingHost

/-- Hosts that differ at most in how they answer nested calls: successes and failures are the same,
and so is the output as far as it can be seen. -/
structure AnswersAlike (seen : Nat) (host other : RecordingHost) : Prop where
  accounts : other.accounts = host.accounts
  tx : other.tx = host.tx
  calls : other.calls = host.calls
  isSuccess : other.callResult.isSuccess = host.callResult.isSuccess
  output : other.callResult.output.take seen = host.callResult.output.take seen

/-- Hosts that differ at most in the slots of other accounts and in slots that are zero. -/
structure ReadsAlike (own : Address) (host other : RecordingHost) : Prop where
  storage (key : Word) : other.storageAt own key = host.storageAt own key
  tx : other.tx = host.tx
  callResult : other.callResult = host.callResult
  calls : other.calls = host.calls

end RecordingHost

/-- The same limit of memory, and hosts of which something is known. -/
def Likeness.secluded {σ : Type} (c : Context) (hosts : σ → σ → Prop) : Likeness σ :=
  level c c.config.maxMemorySize (fun _ => False)
    (fun l l' => l = c.config.maxMemorySize.toNat ∧ l' = l) hosts

theorem Likeness.blind_answersAlike (c : Context) :
    (secluded c (RecordingHost.AnswersAlike c.config.maxMemorySize.toNat)).Blind c where
  txContext h := h.tx
  storage h key := congrArg (StorageMap.read · c.message.destination key) h.accounts
  setStorage h key value :=
    ⟨congrArg (StorageMap.write · c.message.destination key value) h.accounts, h.tx, h.calls,
      h.isSuccess, h.output⟩
  isSuccess h _ := h.isSuccess
  output h _ _ limits _ := by
    rw [limits.1]
    exact h.output
  call h message :=
    ⟨h.accounts, h.tx, congrArg (· ++ [message]) h.calls, h.isSuccess, h.output⟩

theorem Likeness.blind_readsAlike (c : Context) :
    (secluded c (RecordingHost.ReadsAlike c.message.destination)).Blind c where
  txContext h := h.tx
  storage h key := h.storage key
  setStorage := by
    intro host other h key value
    refine ⟨fun slot => ?_, h.tx, h.callResult, h.calls⟩
    have before : other.accounts.read c.message.destination slot
        = host.accounts.read c.message.destination slot := h.storage slot
    show (other.accounts.write _ _ _).read _ _ = (host.accounts.write _ _ _).read _ _
    rw [StorageMap.read_write, StorageMap.read_write, before]
  isSuccess h _ := congrArg ExecutionResult.isSuccess h.callResult
  output h _ _ _ _ := congrArg (List.take _ ·.output) h.callResult
  call h message := ⟨h.storage, h.tx, h.callResult, congrArg (· ++ [message]) h.calls⟩

namespace Execution

/-- Executions on hosts that are alike go through the same frames. -/
theorem steps_of_blind {σ : Type} [Host σ] {c : Context} {hosts : σ → σ → Prop}
    (blind : (Likeness.secluded c hosts).Blind c) {host other : σ} (h : hosts host other)
    (k : Nat) :
    (steps k (start c other)).frame = (steps k (start c host)).frame ∧
      hosts (steps k (start c host)).host (steps k (start c other)).host := by
  have fair : (Likeness.secluded c hosts).Fair c :=
    ⟨Likeness.priced_level, fun limits => .inl limits.2, blind⟩
  have alike := (Likeness.Executions.start fair ⟨rfl, rfl⟩ rfl h).steps (n := k)
    Likeness.even_level id fun _ _ _ short => short.elim
  exact ⟨alike.frames.eq_of_limit Likeness.even_level alike.frames.memory.limits.2, alike.hosts⟩

/-- Of a nested call an execution sees whether it succeeded and as much of its output as memory can
hold, and nothing else: hosts that answer alike as far as that make no difference to it. -/
theorem same_for_answers_alike (c : Context) {host other : RecordingHost}
    (alike : host.AnswersAlike c.config.maxMemorySize.toNat other) :
    (∀ k, (steps k (start c other)).frame = (steps k (start c host)).frame ∧
        (steps k (start c other)).host.accounts = (steps k (start c host)).host.accounts ∧
        (steps k (start c other)).host.calls = (steps k (start c host)).host.calls) ∧
      (start c other).outcome?.map (fun o => (o.1, o.2.accounts, o.2.calls))
        = (start c host).outcome?.map fun o => (o.1, o.2.accounts, o.2.calls) := by
  have same := steps_of_blind (Likeness.blind_answersAlike c) alike
  refine ⟨fun k => ⟨(same k).1, (same k).2.accounts, (same k).2.calls⟩, ?_⟩
  refine outcome?_map_eq (fun host => (host.accounts, host.calls)) (fun k => (same k).1) ?_
    (start_stack_size_le c host)
  intro k
  rw [(same k).2.accounts, (same k).2.calls]

/-- A nested call fails in two ways, with outputs that differ past what memory can hold. Its output
is returned. -/
theorem same_for_answers_alike_revert :
    let c : Context := ⟨{ Config.default with maxMemorySize := 2 }, .latest, .call 0 0 20,
      .ofBytes [0x60, 2, 0x60, 0, 0x60, 0, 0x60, 0, 0x60, 0, 0x60, 1, 0x60, 0, 0xf1, 0x60, 2, 0x60,
        0, 0xf3]⟩
    let host := { RecordingHost.empty with callResult := ⟨.revert, 5, [1, 2, 3]⟩ }
    let other := { RecordingHost.empty with callResult := ⟨.outOfGas, 0, [1, 2, 4, 5]⟩ }
    host.AnswersAlike c.config.maxMemorySize.toNat other ∧
      (steps 11 (start c host)).frame.state = .halted ⟨.success, 9, [1, 2]⟩ ∧
      (steps 11 (start c other)).frame = (steps 11 (start c host)).frame ∧
      (steps 11 (start c other)).host.accounts = (steps 11 (start c host)).host.accounts ∧
      (steps 11 (start c other)).host.calls = (steps 11 (start c host)).host.calls ∧
      (start c other).outcome?.map (fun o => (o.1, o.2.accounts, o.2.calls))
        = (start c host).outcome?.map fun o => (o.1, o.2.accounts, o.2.calls) := by
  intro c host other
  have alike : host.AnswersAlike c.config.maxMemorySize.toNat other :=
    ⟨rfl, rfl, rfl, by decide, by decide⟩
  obtain ⟨same, outcome⟩ := same_for_answers_alike c alike
  obtain ⟨frame, accounts, calls⟩ := same 11
  exact ⟨alike, by decide +kernel, frame, accounts, calls, outcome⟩

/-- An execution sees of storage what the slots of its own account read as, and nothing else: hosts
that differ elsewhere, or in whether a slot that is zero is present, make no difference to it. -/
theorem same_for_reads_alike (c : Context) {host other : RecordingHost}
    (alike : host.ReadsAlike c.message.destination other) :
    (∀ k, (steps k (start c other)).frame = (steps k (start c host)).frame ∧
        (steps k (start c other)).host.calls = (steps k (start c host)).host.calls ∧
        ∀ key, (steps k (start c other)).host.storageAt c.message.destination key
          = (steps k (start c host)).host.storageAt c.message.destination key) ∧
      (start c other).outcome?.map (fun o =>
          (o.1, o.2.calls, o.2.storageAt c.message.destination))
        = (start c host).outcome?.map fun o =>
          (o.1, o.2.calls, o.2.storageAt c.message.destination) := by
  have same := steps_of_blind (Likeness.blind_readsAlike c) alike
  refine ⟨fun k => ⟨(same k).1, (same k).2.calls, (same k).2.storage⟩, ?_⟩
  refine outcome?_map_eq (fun host => (host.calls, host.storageAt c.message.destination))
    (fun k => (same k).1) ?_ (start_stack_size_le c host)
  intro k
  rw [(same k).2.calls, funext (same k).2.storage]

/-- An absent slot and a slot that was set to zero are loaded alike, and another slot is set
according to what was loaded. Another account has a slot with that key. -/
theorem same_for_reads_alike_zero :
    let c : Context := ⟨.default, .latest, .call 0 7 20,
      .ofBytes [0x60, 2, 0x54, 0x15, 0x60, 1, 0x55]⟩
    let host := RecordingHost.empty.setStorageAt 7 1 5
    let other := (host.setStorageAt 7 2 0).setStorageAt 9 1 6
    (host.ReadsAlike c.message.destination other ∧ other ≠ host) ∧
      (steps 6 (start c host)).host.storageAt 7 1 = 1 ∧
      (steps 6 (start c other)).host.storageAt 7 1 = 1 ∧
      (steps 6 (start c other)).frame = (steps 6 (start c host)).frame ∧
      (steps 6 (start c other)).host.calls = (steps 6 (start c host)).host.calls := by
  intro c host other
  have alike : host.ReadsAlike c.message.destination other := by
    refine ⟨fun key => ?_, rfl, rfl, rfl⟩
    show ((host.accounts.write 7 2 0).write 9 1 6).read 7 key = host.accounts.read 7 key
    rw [StorageMap.read_write, StorageMap.read_write, if_neg (by simp)]
    split
    case isTrue zero =>
      rw [zero.2]
      decide +kernel
    case isFalse => rfl
  have wrote : (steps 6 (start c host)).host.storageAt 7 1 = 1 := by decide +kernel
  obtain ⟨frame, calls, reads⟩ := (same_for_reads_alike c alike).1 6
  exact ⟨⟨alike, by decide +kernel⟩, wrote, (reads 1).trans wrote, frame, calls⟩

end Execution

end StackMachine
