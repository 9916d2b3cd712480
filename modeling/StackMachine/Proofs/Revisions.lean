import StackMachine.Host.Recording
import StackMachine.Proofs.Opcodes
import StackMachine.Proofs.Runs

/-!
# Newer revisions

A newer revision defines what an older one defines, at the same price, and some instructions more.
So an instruction is carried out alike under both, unless the older one does not know it:
`Context.execute_newer`. An execution that never gets that far ends alike under both.
-/

namespace StackMachine

/-! ## Instructions under two revisions -/

theorem Operation.at?_newer {old newer : Revision} (later : old ≤ newer) {b : UInt8}
    {op : Operation} (h : at? old b = some op) : at? newer b = some op := by
  obtain ⟨known, included⟩ := at?_eq_some.mp h
  have since : op.since ≤ old := of_decide_eq_true included
  refine at?_eq_some.mpr ⟨known, decide_eq_true ?_⟩
  exact Nat.le_trans since later

/-- An instruction without a definition is never the dearer one. -/
theorem GasSchedule.instructionCost_none_le (s : GasSchedule) (op : Option Operation) :
    s.instructionCost none ≤ s.instructionCost op := by
  cases s with
  | uniform perInstruction => exact Nat.le_refl _
  | tiered => exact Nat.zero_le _

/-- The context under another revision. -/
def Context.under (c : Context) (revision : Revision) : Context :=
  { c with revision }

section

variable {σ : Type} [Host σ] {c : Context} {newer : Revision} {f : Frame} {host : σ}

/-- An instruction that the older revision knows, or that is not even paid for, is the same under
the newer one. -/
theorem Context.execute_newer (later : c.revision ≤ newer) {opcode : UInt8}
    (defined : (c.execute f host opcode).frame.state
      ≠ .halted (.failure .undefinedInstruction)) :
    (c.under newer).execute f host opcode = c.execute f host opcode := by
  cases decoded : Operation.at? c.revision opcode with
  | some op =>
    have decoded' : Operation.at? (c.under newer).revision opcode = some op :=
      Operation.at?_newer later decoded
    simp only [execute, decoded, decoded']
    -- No operation looks at the revision.
    rfl
  | none =>
    simp only [execute, decoded] at defined ⊢
    by_cases paid : (c.config.gasSchedule.instructionCost none : Int) ≤ f.gas.remaining
    · rw [GasMeter.charge_eq_ok.mpr ⟨paid, rfl⟩] at defined
      exact absurd rfl defined
    · have price := c.config.gasSchedule.instructionCost_none_le
        (Operation.at? newer opcode)
      have short := GasMeter.charge_eq_error.mpr ⟨Int.not_le.mp paid, rfl⟩
      have short' : f.gas.charge ((c.under newer).config.gasSchedule.instructionCost
          (Operation.at? (c.under newer).revision opcode)) = .error .outOfGas := by
        refine GasMeter.charge_eq_error.mpr ⟨?_, rfl⟩
        show f.gas.remaining < (c.config.gasSchedule.instructionCost
          (Operation.at? newer opcode) : Nat)
        omega
      rw [short, short']

theorem Context.step_newer (later : c.revision ≤ newer)
    (defined : (c.step f host).frame.state ≠ .halted (.failure .undefinedInstruction)) :
    (c.under newer).step f host = c.step f host := by
  cases state : f.state with
  | halted result => simp only [step, state]
  | running =>
    cases fetched : c.code.bytes[f.pc]? with
    | none => rw [step_of_past state fetched, step_of_past (c := c.under newer) state fetched]
    | some opcode =>
      rw [step_of_fetched state fetched] at defined ⊢
      rw [step_of_fetched (c := c.under newer) state fetched]
      exact execute_newer later defined

end

/-! ## Executions -/

namespace Execution

variable {σ : Type} [Host σ]

/-- An execution that does not end with an undefined instruction ends under every newer revision,
after as many steps, with the same result and the same host. -/
theorem same_under_newer_revision (c : Context) (host : σ) {newer : Revision}
    (later : c.revision ≤ newer) {n : Nat} {result : ExecutionResult}
    (ends : (start c host).HaltsAfter n result)
    (defined : result.status ≠ .undefinedInstruction) :
    let e := start c host
    let other := start { c with revision := newer } host
    other.HaltsAfter n result ∧ (steps n other).host = (steps n e).host ∧
      other.outcome? = e.outcome? := by
  intro e other
  have step : ∀ i < n, (c.under newer).step (steps i e).frame (steps i e).host
      = c.step (steps i e).frame (steps i e).host := by
    intro i hi
    refine Context.step_newer later fun halted => ?_
    have next : (steps (i + 1) e).frame.state = .halted (.failure .undefinedInstruction) := by
      rw [steps_succ_frame]
      exact halted
    exact defined (ends.eq_of_halted hi next ▸ rfl)
  have frames : ∀ i < n, ((c.under newer).step (steps i e).frame (steps i e).host).frame
      = (steps (i + 1) e).frame := by
    intro i hi
    rw [step i hi, steps_succ_frame]
    rfl
  have hosts : ∀ i < n, ((c.under newer).step (steps i e).frame (steps i e).host).host
      = (steps (i + 1) e).host := by
    intro i hi
    rw [step i hi, steps_succ_host]
    rfl
  have agrees {i : Nat} (hi : i ≤ n) := agrees_steps_inContext frames hosts hi
  have ends' : other.HaltsAfter n result := ends.of_frames fun i hi => (agrees hi).frame
  have last : (steps n other).host = (steps n e).host := (agrees (Nat.le_refl n)).host
  refine ⟨ends', last, ends.outcome?_eq ends' last ?_ ?_⟩ <;> exact start_stack_size_le _ _

/-- Under the first revision a slot is set, and then the gas does not suffice for the price of an
instruction that only came later. -/
theorem same_under_newer_revision_write :
    let c : Context := ⟨.default, .frontier, .call 0 0 3,
      .ofBytes [0x60, 0x2a, 0x60, 0x01, 0x55, 0x5f]⟩
    let e := start c RecordingHost.empty
    let other := start { c with revision := .shanghai } RecordingHost.empty
    (c.revision ≤ .shanghai ∧ e.HaltsAfter 4 ⟨.outOfGas, 0, []⟩ ∧
        Operation.at? c.revision 0x5f = none) ∧
      other.HaltsAfter 4 ⟨.outOfGas, 0, []⟩ ∧ (steps 4 other).host = (steps 4 e).host ∧
      (steps 4 other).host.storageAt 0 1 = 0x2a := by
  intro c e other
  have later : c.revision ≤ .shanghai := by decide
  have ends : e.HaltsAfter 4 ⟨.outOfGas, 0, []⟩ := ⟨by decide +kernel, by decide +kernel⟩
  obtain ⟨ends', host, -⟩ :=
    same_under_newer_revision c RecordingHost.empty later ends (by decide)
  refine ⟨⟨later, ends, by decide⟩, ends', host, ?_⟩
  rw [host]
  decide +kernel

end Execution

end StackMachine
