import StackMachine.Host.Recording
import StackMachine.Proofs.Steps

/-!
# What executions do to their host

A step leaves its host alone, sets one slot of the account it runs for, or makes one nested call:
`Execution.step_reaches`. A static execution does the last of these at most, without value.
-/

namespace StackMachine

/-! ## One step -/

section

variable {σ : Type} [Host σ]

/-- What one step can make of a host. -/
inductive Reaches (c : Context) (host : σ) : σ → Prop where
  | kept : Reaches c host host
  | wrote (key value : Word) (dynamic : c.message.isStatic = false) :
      Reaches c host (Host.setStorage host c.message.destination key value).2
  | called {forwarded target value : Word} {input : Bytes} {message : Message}
      {result : ExecutionResult} {after : σ} (allowed : c.message.isStatic = true → value = 0)
      (shallow : ¬ c.config.maxCallDepth ≤ c.message.depth)
      (request : message = nestedMessage c forwarded target value input)
      (answer : Host.call host message = (result, after)) : Reaches c host after

variable {c : Context} {f : Frame} {host : σ}

theorem Performs.reaches {op : Operation} {e : Effect σ} (h : Performs c f host op e) :
    Reaches c host e.host := by
  cases h with
  | wrote _ dynamic => exact .wrote _ _ dynamic
  | called _ _ _ allowed _ shallow request answer =>
    exact .called allowed shallow request answer
  | rearranged _ | stopped | jumped _ _ | branched _ _ _ | hashed _ _ _ | loaded _ _ _
  | stored _ _ _ _ | returned _ _ _ _ | refused _ _ _ _ _ _ => exact .kept

theorem Execution.step_reaches (e : Execution σ) : Reaches e.context e.host e.step.host := by
  cases state : e.frame.state with
  | halted result =>
    rw [step_of_halted state]
    exact .kept
  | running =>
    obtain ⟨after, takes, -, host⟩ := step_takes state
    rw [host]
    cases takes with
    | performed _ _ _ _ performs => exact performs.reaches
    | ended _ | unpaid _ _ | undefined _ _ _ | faulted _ _ _ _ => exact .kept

end

/-! ## Nested calls -/

theorem RecordingHost.call_eq (host : RecordingHost) (message : Message) :
    Host.call host message
      = (host.callResult, { host with calls := host.calls ++ [message] }) := rfl

/-- A step adds to the nested calls and takes none back. -/
theorem Reaches.calls_prefix {c : Context} {host after : RecordingHost} (h : Reaches c host after) :
    host.calls <+: after.calls := by
  cases h with
  | kept => exact List.prefix_refl _
  | wrote _ _ _ => exact List.prefix_refl _
  | called _ _ _ answer =>
    cases answer
    exact List.prefix_append _ _

theorem Execution.calls_prefix (e : Execution RecordingHost) {i n : Nat} (h : i ≤ n) :
    (steps i e).host.calls <+: (steps n e).host.calls := by
  induction h with
  | refl => exact List.prefix_refl _
  | @step n _ ih =>
    rw [Nat.succ_eq_add_one, steps_succ]
    exact ih.trans (steps n e).step_reaches.calls_prefix

/-! ## Static executions -/

namespace RecordingHost

/-- The nested calls are those of another host and some more, which have a property. -/
def Appends (before : RecordingHost) (P : Message → Prop) (after : RecordingHost) : Prop :=
  ∃ appended, after.calls = before.calls ++ appended ∧ ∀ m ∈ appended, P m

namespace Appends

variable {P : Message → Prop} {a b c : RecordingHost}

theorem of_calls_eq (same : b.calls = a.calls) : Appends a P b :=
  ⟨[], by rw [same, List.append_nil], by simp⟩

theorem single {m : Message} (calls : b.calls = a.calls ++ [m]) (h : P m) : Appends a P b := by
  refine ⟨[m], calls, fun other mem => ?_⟩
  rw [List.mem_singleton.mp mem]
  exact h

theorem trans (h : Appends a P b) (h' : Appends b P c) : Appends a P c := by
  obtain ⟨first, calls, hfirst⟩ := h
  obtain ⟨second, calls', hsecond⟩ := h'
  refine ⟨first ++ second, ?_, ?_⟩
  · rw [calls', calls, List.append_assoc]
  · intro m hm
    exact (List.mem_append.mp hm).elim (hfirst m) (hsecond m)

end Appends

/-- The accounts are those of another host, and nested calls come after its own that have a
property. -/
structure Follows (before : RecordingHost) (P : Message → Prop) (after : RecordingHost) : Prop where
  accounts : after.accounts = before.accounts
  calls : Appends before P after

theorem Follows.refl (h : RecordingHost) (P : Message → Prop) : Follows h P h :=
  ⟨rfl, .of_calls_eq rfl⟩

theorem Follows.trans {P : Message → Prop} {a b c : RecordingHost} (h : Follows a P b)
    (h' : Follows b P c) : Follows a P c :=
  ⟨h'.accounts.trans h.accounts, h.calls.trans h'.calls⟩

end RecordingHost

/-- A step that may not change anything makes nested calls at most, and those may not either. -/
theorem Reaches.follows {c : Context} {host after : RecordingHost} (h : Reaches c host after)
    (static : c.message.isStatic = true) :
    host.Follows (fun m => m.isStatic = true ∧ m.value = 0) after := by
  cases h with
  | kept => exact .refl _ _
  | wrote _ _ dynamic =>
    rw [static] at dynamic
    cases dynamic
  | called allowed _ request answer =>
    cases answer
    refine ⟨rfl, .single rfl ?_⟩
    rw [request]
    exact ⟨static, allowed static⟩

/-- A static execution leaves all accounts alone, and every nested call that it makes is static and
transfers nothing. -/
theorem Execution.static_follows (c : Context) (host : RecordingHost)
    (static : c.message.isStatic = true) (k : Nat) :
    (steps k (start c host)).host.accounts = host.accounts ∧
      ∃ appended, (steps k (start c host)).host.calls = host.calls ++ appended ∧
        ∀ m ∈ appended, m.isStatic = true ∧ m.value = 0 := by
  have follows : host.Follows (fun m => m.isStatic = true ∧ m.value = 0)
      (steps k (start c host)).host := by
    induction k with
    | zero => exact .refl _ _
    | succ k ih =>
      have reached := (steps k (start c host)).step_reaches
      rw [steps_succ]
      rw [steps_context] at reached
      exact ih.trans (reached.follows static)
  exact ⟨follows.accounts, follows.calls⟩

/-- A static execution that makes a nested call without value. -/
theorem Execution.static_follows_call :
    let c : Context := ⟨.default, .latest, (Message.call 0 0 9).asStatic,
      .ofBytes [0x60, 0, 0x60, 0, 0x60, 0, 0x60, 0, 0x60, 0, 0x60, 1, 0x60, 0, 0xf1]⟩
    let host := RecordingHost.empty.setStorageAt 0 1 1
    c.message.isStatic = true ∧ (steps 8 (start c host)).host.calls.length = 1 ∧
      (steps 8 (start c host)).host.accounts = host.accounts ∧
      ∃ appended, (steps 8 (start c host)).host.calls = host.calls ++ appended ∧
        ∀ m ∈ appended, m.isStatic = true ∧ m.value = 0 := by
  intro c host
  have static : c.message.isStatic = true := by decide
  exact ⟨static, by decide +kernel, static_follows c host static 8⟩

end StackMachine
