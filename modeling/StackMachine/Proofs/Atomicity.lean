import StackMachine.Proofs.Cycles

/-!
# Faults are atomic

A cycle that faults leaves everything as it was, but for the base price if that was paid and for the
operands of a jump that missed. A routine that fails keeps what it has done, so this says that it
fails before it does anything: every access that comes after the charge succeeds on the stacks that
an execution gets to (`Routine.run_ofOperation`).
-/

namespace StackMachine

namespace Execution

variable {σ : Type} [Host σ]

/-- A cycle that faults gives nothing back and changes nothing but the meter, which loses the base
price if it bears it, and the stack of a jump that misses. -/
theorem fault_atomic {c : Context} {host : σ} {k : Nat} {e : Execution σ}
    (reached : e = cycles k (start c host)) {result : ExecutionResult}
    (running : e.frame.state = .running) (halted : e.cycle.frame.state = .halted result)
    (failed : result.status ≠ .success ∧ result.status ≠ .revert) :
    (e.cycle.frame.pc = e.frame.pc ∧ e.cycle.frame.memory = e.frame.memory ∧
        e.cycle.host = e.host) ∧
      (result.output = [] ∧ result.gasLeft = 0) ∧
      (result.status ≠ .badJumpDestination → e.cycle.frame.stack = e.frame.stack) ∧
      (result.status = .badJumpDestination → ∃ op, e.operation? = some op ∧
        op.DropsTarget e.frame.stack e.cycle.frame.stack) ∧
      ∃ opcode, e.opcode? = some opcode ∧
        e.cycle.frame.gas = if (e.context.price opcode : Int) ≤ e.frame.gas.remaining
          then e.frame.gas.less (e.context.price opcode) else e.frame.gas := by
  have fits : e.frame.stack.size ≤ stackLimit := by
    rw [reached]
    exact cycles_stack_size_le c host k
  rw [cycle_eq_step fits] at halted ⊢
  have opcode := opcode?_of_running running
  obtain ⟨after, takes, frame, host⟩ := step_takes running
  rw [frame] at halted ⊢
  rw [host]
  cases takes with
  | ended past =>
    cases halted
    exact absurd rfl failed.1
  | unpaid fetched short =>
    rw [fetched] at opcode
    rw [Frame.fail_state] at halted
    cases halted
    refine ⟨⟨rfl, rfl, rfl⟩, ⟨rfl, rfl⟩, fun _ => rfl, Status.noConfusion, _, opcode, ?_⟩
    rw [Frame.fail_gas, if_neg (Int.not_le.mpr short)]
  | undefined fetched paid unknown =>
    rw [fetched] at opcode
    rw [Frame.fail_state] at halted
    cases halted
    refine ⟨⟨rfl, rfl, rfl⟩, ⟨rfl, rfl⟩, fun _ => rfl, Status.noConfusion, _, opcode, ?_⟩
    rw [Frame.fail_gas, if_pos paid, Frame.paying_gas]
  | @faulted _ op fault fetched paid decoded attempted =>
    rw [fetched] at opcode
    rw [Frame.fail_state] at halted
    cases halted
    refine ⟨⟨rfl, rfl, rfl⟩, ⟨rfl, rfl⟩, ?_, ?_, _, opcode, ?_⟩
    · intro other
      exact (Context.attempt_error decoded attempted).elim And.right fun h => absurd h.1 other
    · intro missed
      refine ⟨op, by simp only [operation?, opcode, Option.bind_some, decoded], ?_⟩
      exact (Context.attempt_error decoded attempted).elim (fun h => absurd missed h.1) And.right
    · rw [Frame.fail_gas, if_pos paid]
      rfl
  | performed _ _ _ _ performs =>
    -- An operation that is carried out ends the execution well, if at all.
    have sound := performs.isFault_proceed running
    rw [halted] at sound
    simp [State.isFault, Status.keepsGas, failed] at sound

/-- A jump into the bytes of the push before it loses its target and nothing else. -/
theorem fault_atomic_jump :
    let e := cycles 1 (start ⟨.default, .latest, .call 0 0 9, .ofBytes [0x60, 0x01, 0x56]⟩
      RecordingHost.empty)
    e.frame.state = .running ∧ e.cycle.frame.state = .halted ⟨.badJumpDestination, 0, []⟩ ∧
      e.cycle.frame.pc = e.frame.pc ∧ e.cycle.frame.memory = e.frame.memory ∧
      e.cycle.host = e.host ∧
      ∃ op, e.operation? = some op ∧ op.DropsTarget e.frame.stack e.cycle.frame.stack := by
  intro e
  have running : e.frame.state = .running := by decide +kernel
  have halted : e.cycle.frame.state = .halted ⟨.badJumpDestination, 0, []⟩ := by decide +kernel
  obtain ⟨⟨pc, memory, host⟩, -, -, missed, -⟩ := fault_atomic rfl running halted (by decide)
  exact ⟨running, halted, pc, memory, host, missed rfl⟩

end Execution

end StackMachine
