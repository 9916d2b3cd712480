import StackMachine.Proofs.Budgets
import StackMachine.Proofs.NestedCalls

/-!
# Results

What the result of an execution can be. `Execution.Ends` lists the ways in which a step ends an
execution: it stops, a region of memory is given back, or there is a fault. What is left of the gas
goes back in the first two cases only, and it is never more than there was at first.
-/

namespace StackMachine

/-! ## Operations that end the execution -/

/-- A region is as long as its operands say. -/
theorem Region.length_bytes {m : Memory} {offset len : Word} {region : Option Region}
    (named : ofOperands offset len = .ok region) : (bytes m region).length = len.toNat := by
  rcases ofOperands_eq_ok.mp named with ⟨rfl, rfl⟩ | ⟨-, -, -, rfl⟩
  · rfl
  · exact m.length_slice _ _

/-- The operations that give back a region of memory, with the status that they end with. -/
def Operation.GivesBack (op : Operation) (status : Status) : Prop :=
  op = .ret ∧ status = .success ∨ op = .revert ∧ status = .revert

section

variable {σ : Type} [Host σ] {c : Context} {f : Frame} {host : σ} {op : Operation} {e : Effect σ}

/-- An operation that ends the execution stops it, or gives back as many bytes as its second operand
says. -/
theorem Performs.output_of_halt {status : Status} {output : Bytes} (h : Performs c f host op e)
    (halts : e.control = .halt status output) :
    op = .stop ∧ status = .success ∧ output = [] ∨
      op.GivesBack status ∧ output.length ≤ f.memory.limit ∧
        ∃ offset len rest, f.stack.items = offset :: len :: rest ∧ output.length = len.toNat := by
  cases h with
  | stopped =>
    cases halts
    exact .inl ⟨rfl, rfl, rfl⟩
  | @returned _ _ offset len rest region memory gas gives items named settled =>
    cases halts
    have alone : f.settle c.config.memoryPolicy (region.toList ++ (none : Option Region).toList) 0
        = .ok (memory, gas) := by
      rwa [Option.toList_none, List.append_nil]
    have within := Region.length_bytes_le named alone
    exact .inr ⟨gives, within, offset, len, rest, items, Region.length_bytes named⟩
  | rearranged _ | jumped _ _ | branched _ _ _ | wrote _ _ | hashed _ _ _ | loaded _ _ _
  | stored _ _ _ _ | refused _ _ _ _ _ _ | called _ _ _ _ _ _ _ _ => cases halts

end

/-! ## Last steps -/

namespace Execution

variable {σ : Type} [Host σ]

/-- The ways in which a step ends an execution, with the status and the output. -/
inductive Ends (e : Execution σ) : Status → Bytes → Prop where
  | past (idle : e.opcode? = none) : Ends e .success []
  | stopped (completes : e.completes .stop = true) : Ends e .success []
  | gaveBack {op : Operation} {status : Status} {output : Bytes} {offset len : Word}
      {rest : List Word} (gives : op.GivesBack status) (completes : e.completes op = true)
      (items : e.frame.stack.items = offset :: len :: rest) (length : output.length = len.toNat)
      (within : output.length ≤ e.frame.memory.limit) : Ends e status output
  | failed (error : VmError) (faults : e.step.frame.state.isFault = true) : Ends e error.status []

theorem completes_of_completed? {e : Execution σ} {op : Operation} (h : e.completed? = some op) :
    e.completes op = true :=
  (Option.filter_eq_some_iff.mp h).2

theorem ends_of_fail {e : Execution σ} {f : Frame} {error : VmError} {result : ExecutionResult}
    (frame : e.step.frame = f.fail error) (halted : e.step.frame.state = .halted result) :
    e.Ends result.status result.output := by
  rw [frame, Frame.fail_state] at halted
  cases halted
  refine .failed error ?_
  rw [frame, Frame.isFault_fail]

/-- A step that ends an execution does so in one of these ways. -/
theorem ends_of_halted {e : Execution σ} {result : ExecutionResult}
    (running : e.frame.state = .running) (halted : e.step.frame.state = .halted result) :
    e.Ends result.status result.output := by
  have next := opcode?_of_running running
  obtain ⟨after, takes, frame, -⟩ := step_takes running
  have state := frame ▸ halted
  cases takes with
  | ended past =>
    cases state
    exact .past (next.trans past)
  | unpaid _ _ | undefined _ _ _ | faulted _ _ _ _ => exact ends_of_fail frame halted
  | @performed opcode op effect fetched _ decoded _ performs =>
    have sound : e.step.frame.state.isFault = false := by
      rw [frame]
      exact performs.isFault_proceed running
    have completes : e.completes op = true :=
      completes_of_completed? (completed?_of_performs (next.trans fetched) decoded sound)
    have goes : (e.frame.paying (e.context.price opcode)).state = .running := running
    simp only [Frame.proceed] at state
    cases control : effect.control with
    | next | jump target =>
      simp only [control, goes] at state
      cases state
    | halt status output =>
      simp only [control] at state
      cases state
      rcases performs.output_of_halt control with ⟨rfl, rfl, rfl⟩ | ⟨gives, within, rest⟩
      · exact .stopped completes
      · obtain ⟨offset, len, rest, items, length⟩ := rest
        exact .gaveBack gives completes items length within

section

variable {e : Execution σ} {status : Status} {output : Bytes}

/-- An execution ends with no status that only hosts report. -/
theorem Ends.status_ne (h : e.Ends status output) :
    status ≠ .failure ∧ status ≠ .callDepthExceeded ∧ status ≠ .internalError := by
  cases h with
  | past _ | stopped _ => decide
  | gaveBack gives _ _ _ _ => rcases gives with ⟨-, rfl⟩ | ⟨-, rfl⟩ <;> decide
  | failed error _ => cases error <;> simp [VmError.status]

theorem Ends.completes_revert (h : e.Ends status output) (reverted : status = .revert) :
    e.completes .revert = true := by
  subst reverted
  generalize same : Status.revert = status at h
  cases h with
  | past _ | stopped _ => cases same
  | gaveBack gives completes _ _ _ =>
    rcases gives with ⟨-, rfl⟩ | ⟨rfl, -⟩
    · cases same
    · exact completes
  | failed error _ => cases error <;> cases same

/-- There is output only from the operations that give back a region. -/
theorem Ends.completes_of_output (h : e.Ends status output) (some : output ≠ []) :
    e.completes .ret = true ∨ e.completes .revert = true := by
  cases h with
  | past _ | stopped _ | failed _ _ => exact absurd rfl some
  | gaveBack gives completes _ _ _ =>
    rcases gives with ⟨rfl, -⟩ | ⟨rfl, -⟩
    · exact .inl completes
    · exact .inr completes

theorem completes_unique {op other : Operation} (h : e.completes op = true)
    (h' : e.completes other = true) : other = op :=
  Option.some.inj ((operation?_of_completes h').symm.trans (operation?_of_completes h))

/-- An operation outside the numbered families is completed at its own opcode only, and only under
the revisions that have it. -/
theorem opcode?_of_completes {op : Operation} {b : UInt8} (h : e.completes op = true)
    (listed : (b, op) ∈ Operation.plain) :
    e.opcode? = some b ∧ op.since ≤ e.context.revision := by
  have decodes := operation?_of_completes h
  obtain ⟨opcode, fetched, decoded⟩ := Option.bind_eq_some_iff.mp decodes
  obtain ⟨known, included⟩ := Operation.at?_eq_some.mp decoded
  rw [Operation.byte_eq_of_ofByte? known listed] at fetched
  exact ⟨fetched, of_decide_eq_true included⟩

/-- Such an operation gives back as many bytes as its second operand says. -/
theorem Ends.length_output (h : e.Ends status output)
    (gives : e.completes .ret = true ∨ e.completes .revert = true) :
    ∃ offset len rest, e.frame.stack.items = offset :: len :: rest ∧
      output.length = len.toNat := by
  cases h with
  | past idle => simp [completes, operation?, idle] at gives
  | failed _ faults => simp [completes, faults] at gives
  | stopped stops =>
    rcases gives with gives | gives <;> cases completes_unique stops gives
  | gaveBack _ _ items length _ => exact ⟨_, _, _, items, length⟩

theorem Ends.length_output_le (h : e.Ends status output) :
    output.length ≤ e.frame.memory.limit := by
  cases h with
  | past _ | stopped _ | failed _ _ => exact Nat.zero_le _
  | gaveBack _ _ _ _ within => exact within

end

/-! ## What is left of the gas -/

theorem step_remaining_le (e : Execution σ) :
    e.step.frame.gas.remaining ≤ e.frame.gas.remaining := by
  cases state : e.frame.state with
  | halted result =>
    exact Int.le_of_eq (by rw [step_of_halted state])
  | running =>
    obtain ⟨after, takes, frame, -⟩ := step_takes state
    rw [frame]
    cases takes with
    | ended _ | unpaid _ _ => exact Int.le_refl _
    | undefined _ _ _ | faulted _ _ _ _ =>
      rw [Frame.fail_gas]
      exact Int.sub_le_self _ (Int.natCast_nonneg _)
    | performed _ paid _ _ performs =>
      obtain ⟨-, -, meter⟩ := performs.meter (Frame.paying_solvent paid)
      rw [Frame.proceed_gas, meter, Frame.paying_gas, GasMeter.less_remaining,
        GasMeter.less_remaining]
      omega

theorem steps_remaining_le (c : Context) (host : σ) (k : Nat) :
    (steps k (start c host)).frame.gas.remaining ≤ c.message.gas :=
  steps_induction (P := fun e => e.frame.gas.remaining ≤ c.message.gas)
    (fun e le => Int.le_trans e.step_remaining_le le) (Int.le_refl _) k

/-! ## Results -/

/-- The result of an execution. What goes back of the gas is what is left of it, never less than
nothing and no more than there was, if the execution succeeded or reverted, and nothing otherwise.
An execution does not end with a status that only hosts report. It reverts only by the operation
that does so, which came with a later revision. It has output only if it came to its end by one of
the operations that give back a region, as long as their second operand says, and never longer than
memory can be. -/
theorem result_wellFormed (c : Context) (host : σ) {n : Nat} {result : ExecutionResult}
    (ends : (start c host).HaltsAfter n result) :
    let e := start c host
    (0 ≤ result.gasLeft ∧ result.gasLeft ≤ max c.message.gas 0) ∧
      (result.status = .success ∨ result.status = .revert →
        result.gasLeft = max (steps n e).frame.gas.remaining 0) ∧
      (result.status ≠ .success ∧ result.status ≠ .revert → result.gasLeft = 0) ∧
      (result.status ≠ .failure ∧ result.status ≠ .callDepthExceeded ∧
        result.status ≠ .internalError) ∧
      result.output.length ≤ c.config.maxMemorySize.toNat ∧
      ∃ last, n = last + 1 ∧
        (result.status = .revert → (steps last e).completes .revert = true ∧
          (steps last e).opcode? = some 0xfd ∧ Revision.byzantium ≤ c.revision) ∧
        (result.output ≠ [] →
          (steps last e).completes .ret = true ∨ (steps last e).completes .revert = true) ∧
        ((steps last e).completes .ret = true ∨ (steps last e).completes .revert = true →
          ∃ offset len rest, (steps last e).frame.stack.items = offset :: len :: rest ∧
            result.output.length = len.toNat) := by
  intro e
  have result_eq := result_of_halted ends.halted
  have left : result.gasLeft
      = if result.status.keepsGas then max 0 (steps n e).frame.gas.remaining else 0 :=
    congrArg ExecutionResult.gasLeft result_eq
  have bounded : (steps n e).frame.gas.remaining ≤ c.message.gas := steps_remaining_le c host n
  obtain ⟨last, rfl⟩ : ∃ last, n = last + 1 := by
    cases n with
    | zero => cases ends.halted
    | succ last => exact ⟨last, rfl⟩
  have running := ends.running last (Nat.lt_succ_self last)
  have halted := ends.halted
  rw [steps_succ] at halted
  have final := ends_of_halted running halted
  have limit : (steps last e).frame.memory.limit = c.config.maxMemorySize.toNat :=
    (steps_track c host last).limit
  refine ⟨?_, ?_, ?_, final.status_ne, limit ▸ final.length_output_le, last, rfl, ?_,
    final.completes_of_output, final.length_output⟩
  · rw [left]
    split <;> omega
  · intro well
    have keeps : result.status.keepsGas = true := by simpa [Status.keepsGas] using well
    rw [left, if_pos keeps, Int.max_comm]
  · intro badly
    have loses : ¬ result.status.keepsGas = true := by simpa [Status.keepsGas] using badly
    rw [left, if_neg loses]
  · intro reverted
    have completes := final.completes_revert reverted
    obtain ⟨opcode, since⟩ := opcode?_of_completes completes (b := 0xfd) (by decide)
    rw [steps_context] at since
    exact ⟨completes, opcode, since⟩

/-- One byte is written and three are given back, as many as memory can hold, under the revision
that the operation came with. Another execution begins in debt and has no code. -/
theorem result_wellFormed_revert :
    let c : Context := ⟨{ Config.default with maxMemorySize := 3 }, .byzantium, .call 0 0 20,
      .ofBytes [0x60, 0x2a, 0x60, 0, 0x53, 0x60, 3, 0x60, 0, 0xfd]⟩
    let debt : Context := ⟨.default, .latest, .call 0 0 (-5), .ofBytes []⟩
    let host := RecordingHost.empty
    ((start c host).HaltsAfter 6 ⟨.revert, 14, [0x2a, 0, 0]⟩ ∧
        (start debt host).HaltsAfter 1 ⟨.success, 0, []⟩) ∧
      (14 ≤ max c.message.gas 0 ∧ 14 = max (steps 6 (start c host)).frame.gas.remaining 0 ∧
        [0x2a, 0, 0].length ≤ c.config.maxMemorySize.toNat ∧
        (steps 5 (start c host)).completes .revert = true ∧ Revision.byzantium ≤ c.revision ∧
        ∃ offset len rest, (steps 5 (start c host)).frame.stack.items = offset :: len :: rest ∧
          3 = len.toNat) ∧
      0 = max (steps 1 (start debt host)).frame.gas.remaining 0 ∧
      (steps 1 (start debt host)).frame.gas.remaining = -5 := by
  intro c debt host
  have ends : (start c host).HaltsAfter 6 ⟨.revert, 14, [0x2a, 0, 0]⟩ :=
    ⟨by decide +kernel, by decide +kernel⟩
  have ends' : (start debt host).HaltsAfter 1 ⟨.success, 0, []⟩ :=
    ⟨by decide +kernel, by decide +kernel⟩
  obtain ⟨⟨-, bounded⟩, left, -, -, fits, last, six, reverts, -, length⟩ :=
    result_wellFormed c host ends
  obtain ⟨-, left', -⟩ := result_wellFormed debt host ends'
  obtain rfl : 5 = last := Nat.succ.inj six
  obtain ⟨completes, -, revision⟩ := reverts rfl
  obtain ⟨offset, len, rest, items, length⟩ := length (.inr completes)
  exact ⟨⟨ends, ends'⟩, ⟨bounded, left (.inr rfl), fits, completes, revision, offset, len, rest,
    items, length⟩, left' (.inl rfl), by decide +kernel⟩

end Execution

end StackMachine
