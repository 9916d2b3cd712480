import StackMachine.Proofs.Hosts
import StackMachine.Proofs.Tape

/-!
# Nested calls

What a nested call has from the execution that makes it. The depth grows by one and never beyond
the limit, so a host that executes nested calls comes to an end of them; at the limit nothing is
asked of the host at all. `Execution.step_asks` says so of one step, and that what was recorded
before stays.
-/

namespace StackMachine

/-! ## Depths -/

/-- One more than a depth below some other depth is no overflow. -/
theorem toInt_depth_succ {depth limit : Int32} (shallow : ¬ limit ≤ depth) :
    (depth + 1).toInt = depth.toInt + 1 ∧ depth + 1 ≤ limit := by
  rw [Int32.le_iff_toInt_le, Int.not_le] at shallow
  have low := Int32.le_toInt depth
  have high := Int32.toInt_lt limit
  have one : (1 : Int32).toInt = 1 := by decide
  have next : (depth + 1).toInt = depth.toInt + 1 := by
    rw [Int32.toInt_add, one]
    exact Int.bmod_eq_of_le (by omega) (by omega)
  refine ⟨next, Int32.le_iff_toInt_le.mpr ?_⟩
  omega

theorem Word.toGas_le (w : Word) : w.toGas ≤ maxGas :=
  Nat.min_le_right _ _

/-! ## Messages -/

/-- What a nested call has from the execution that makes it. -/
structure Message.IsNested (c : Context) (m : Message) : Prop where
  kind : m.kind = .call
  depth : m.depth.toInt = c.message.depth.toInt + 1
  shallow : m.depth ≤ c.config.maxCallDepth
  sender : m.sender = c.message.destination
  account : m.codeAddress = m.destination
  static : m.isStatic = c.message.isStatic
  funded : 0 ≤ m.gas
  bounded : m.gas ≤ maxGas
  input : m.input.length ≤ c.config.maxMemorySize.toNat

/-- The input of a nested call is a region of memory, and so within its limit. -/
theorem Region.length_bytes_le {f : Frame} {policy : MemoryPolicy} {region other : Option Region}
    {extra : Nat} {memory : Memory} {gas : GasMeter} {offset len : Word}
    (named : ofOperands offset len = .ok region)
    (settled : f.settle policy (region.toList ++ other.toList) extra = .ok (memory, gas)) :
    (bytes memory region).length ≤ f.memory.limit := by
  obtain ⟨within, -⟩ := Frame.settle_eq_ok.mp settled
  cases region with
  | none => exact Nat.zero_le _
  | some r =>
    have nonempty := len_ne_zero_of_ofOperands named
    have fits := (within r (by simp)).resolve_left nonempty
    rw [bytes, Memory.length_slice]
    omega

theorem nestedMessage_isNested {c : Context} (shallow : ¬ c.config.maxCallDepth ≤ c.message.depth)
    (gas target value : Word) {input : Bytes}
    (fits : input.length ≤ c.config.maxMemorySize.toNat) :
    (nestedMessage c gas target value input).IsNested c := by
  obtain ⟨depth, within⟩ := toInt_depth_succ shallow
  exact {
    kind := rfl
    depth := depth
    shallow := within
    sender := rfl
    account := rfl
    static := rfl
    funded := Int.natCast_nonneg _
    bounded := Int.ofNat_le.mpr gas.toGas_le
    input := fits }

/-! ## Operations -/

section

variable {c : Context} {f : Frame} {host : RecordingHost} {op : Operation}
  {e : Effect RecordingHost}

/-- An operation asks the host for nested calls only. -/
theorem Performs.asks (h : Performs c f host op e)
    (limit : f.memory.limit = c.config.maxMemorySize.toNat) :
    host.Appends (Message.IsNested c) e.host := by
  cases h with
  | called _ namedInput _ _ settled shallow request answer =>
    have fits := Region.length_bytes_le namedInput settled
    rw [limit] at fits
    cases answer
    rw [request]
    exact .single rfl (nestedMessage_isNested shallow _ _ _ fits)
  | rearranged _ | stopped | jumped _ _ | branched _ _ _ | wrote _ _ | hashed _ _ _ | loaded _ _ _
  | stored _ _ _ _ | returned _ _ _ _ | refused _ _ _ _ _ _ => exact .of_calls_eq rfl

end

section

variable {σ : Type} [Host σ] {c : Context} {f : Frame} {host : σ} {e : Effect σ}

/-- At the limit of depth a call pushes zero in place of its operands. -/
theorem Performs.items_of_deep (h : Performs c f host .call e)
    (deep : c.config.maxCallDepth ≤ c.message.depth) :
    e.stack.items = 0 :: f.stack.items.drop 7 := by
  cases h with
  | refused items _ _ _ _ _ => rw [items]; rfl
  | called _ _ _ _ _ shallow _ _ => exact absurd deep shallow
  | rearranged h => cases h
  | stored other _ _ _ | returned other _ _ _ => simp at other

end

/-- At the limit of depth a step asks nothing of the host. -/
theorem Reaches.calls_of_deep {c : Context} {host after : RecordingHost} (h : Reaches c host after)
    (deep : c.config.maxCallDepth ≤ c.message.depth) : after.calls = host.calls := by
  cases h with
  | kept | wrote _ _ _ => rfl
  | called _ shallow _ _ => exact absurd deep shallow

/-! ## Executions -/

namespace Execution

theorem step_asks {e : Execution RecordingHost}
    (limit : e.frame.memory.limit = e.context.config.maxMemorySize.toNat) :
    e.host.Appends (Message.IsNested e.context) e.step.host := by
  cases state : e.frame.state with
  | halted result =>
    rw [step_of_halted state]
    exact .of_calls_eq rfl
  | running =>
    obtain ⟨after, takes, -, host⟩ := step_takes state
    rw [host]
    cases takes with
    | performed _ _ _ _ performs => exact performs.asks limit
    | ended _ | unpaid _ _ | undefined _ _ _ | faulted _ _ _ _ => exact .of_calls_eq rfl

theorem steps_ask (c : Context) (host : RecordingHost) (k : Nat) :
    host.Appends (Message.IsNested c) (steps k (start c host)).host := by
  induction k with
  | zero => exact .of_calls_eq rfl
  | succ k ih =>
    have context : (steps k (start c host)).context = c := steps_context k _
    have limit : (steps k (start c host)).frame.memory.limit = c.config.maxMemorySize.toNat :=
      (steps_track c host k).limit
    have asks := step_asks (e := steps k (start c host)) (by rw [context, limit])
    rw [context] at asks
    rw [steps_succ]
    exact ih.trans asks

theorem calls_of_deep (c : Context) (host : RecordingHost)
    (deep : c.config.maxCallDepth ≤ c.message.depth) (k : Nat) :
    (steps k (start c host)).host.calls = host.calls := by
  induction k with
  | zero => rfl
  | succ k ih =>
    have reached := (steps k (start c host)).step_reaches
    rw [steps_context] at reached
    rw [steps_succ, reached.calls_of_deep deep, ih]

theorem items_of_deep {σ : Type} [Host σ] {e : Execution σ}
    (deep : e.context.config.maxCallDepth ≤ e.context.message.depth)
    (completes : e.completes .call = true) :
    e.step.frame.stack.items = 0 :: e.frame.stack.items.drop 7 := by
  obtain ⟨opcode, effect, -, performs, frame, -⟩ := performs_of_completes completes
  rw [frame, Frame.proceed_stack]
  exact performs.items_of_deep deep

/-- Every nested call of an execution is a plain one from the account that it runs for, with its
flags, one deeper and not beyond the limit, for an amount of gas that a message can carry and with
an input that fits into memory. What was recorded stays. At the limit of depth nothing is recorded,
and a call pushes zero. -/
theorem calls_are_nested (c : Context) (host : RecordingHost) (k : Nat) :
    let e := start c host
    (∃ appended, (steps k e).host.calls = host.calls ++ appended ∧
        ∀ m ∈ appended, m.IsNested c) ∧
      (∀ j ≤ k, (steps j e).host.calls <+: (steps k e).host.calls) ∧
      (c.config.maxCallDepth ≤ c.message.depth →
        (steps k e).host.calls = host.calls ∧
          ((steps k e).completes .call = true →
            (steps (k + 1) e).frame.stack.items = 0 :: (steps k e).frame.stack.items.drop 7)) := by
  intro e
  refine ⟨steps_ask c host k, fun j hj => e.calls_prefix hj, fun deep => ⟨?_, fun completes => ?_⟩⟩
  · exact calls_of_deep c host deep k
  · rw [steps_succ]
    exact items_of_deep (by rwa [steps_context]) completes

/-- The last depth that there is below the greatest limit, where one more call is made, and the
limit itself, where none is. -/
theorem calls_are_nested_limit :
    let shallow : Context := ⟨{ Config.default with maxCallDepth := 0x7fffffff }, .latest,
      { Message.call 5 7 99 with depth := 0x7ffffffe },
      .ofBytes [0x60, 0, 0x60, 0, 0x60, 8, 0x60, 0, 0x60, 0, 0x60, 1, 0x19, 0x60, 0, 0x19, 0xf1]⟩
    let deep : Context := { shallow with message := { shallow.message with depth := 0x7fffffff } }
    let host := RecordingHost.empty
    deep.config.maxCallDepth ≤ deep.message.depth ∧
      (steps 10 (start shallow host)).host.calls.map (fun m => (m.depth, m.gas, m.input.length))
        = [(0x7fffffff, (maxGas : Int), 8)] ∧
      (∃ appended, (steps 10 (start shallow host)).host.calls = host.calls ++ appended ∧
        ∀ m ∈ appended, m.IsNested shallow) ∧
      (steps 9 (start deep host)).completes .call = true ∧
      (steps 10 (start deep host)).frame.stack.items = [0] ∧
      (steps 10 (start deep host)).host.calls = [] := by
  intro shallow deep host
  have limit : deep.config.maxCallDepth ≤ deep.message.depth := by decide
  have completes : (steps 9 (start deep host)).completes .call = true := by decide +kernel
  obtain ⟨asks, -⟩ := calls_are_nested shallow host 10
  obtain ⟨-, -, pushed⟩ := calls_are_nested deep host 9
  obtain ⟨-, -, silent⟩ := calls_are_nested deep host 10
  refine ⟨limit, by decide +kernel, asks, completes, ?_, (silent limit).1⟩
  rw [(pushed limit).2 completes]
  decide +kernel

end Execution

end StackMachine
