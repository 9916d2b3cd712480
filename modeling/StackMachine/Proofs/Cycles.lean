import StackMachine.Proofs.Arity
import StackMachine.Proofs.Routines

/-!
# Cycles

A cycle runs the routine of its operation where a step takes the operation as a whole. On a stack
within the limit, and so in everything that an execution gets to, the two are the same:
`Execution.cycle_eq_step`, `Execution.cycles_start`.
-/

namespace StackMachine

section

variable {σ : Type} [Host σ] {c : Context} {f : Frame} {host : σ}

open Routine in
theorem Context.run_attempt {opcode : UInt8} {op : Operation}
    (fits : f.stack.size ≤ stackLimit) :
    Stepped.ofInstruction opcode ((Routine.attempt c op).run ⟨f, host, []⟩)
      = match c.attempt f host op with
        | .error fault =>
          ⟨Frame.fail { f with stack := fault.stack } fault.error, host,
            [.step f.pc op f.gas.remaining f.stack.size, .failed f.pc opcode fault.error]⟩
        | .ok effect =>
          ⟨f.proceed op effect, effect.host,
            .step f.pc op f.gas.remaining f.stack.size :: effect.events⟩ := by
  let begun : Stepped σ := ⟨f, host, [.step f.pc op f.gas.remaining f.stack.size]⟩
  have reports : (report (.step f.pc op f.gas.remaining f.stack.size)).run ⟨f, host, []⟩
      = .ok () begun := rfl
  rw [Routine.attempt, run_frame_bind, run_bind_ok reports, Context.attempt]
  cases f.stack.require op.inputs op.outputs with
  | error error =>
    rw [run_bind_error (run_given_error rfl)]
    rfl
  | ok _ =>
    have performs : (ofOperation c op).run begun = (op.perform c f host).after begun :=
      run_ofOperation fits op
    rw [run_bind_ok (run_given rfl)]
    cases result : op.perform c f host with
    | error fault =>
      rw [result] at performs
      rw [run_bind_error performs]
      rfl
    | ok effect =>
      rw [result] at performs
      rw [run_bind_ok performs]
      obtain ⟨control, stack, memory, gas, host, events⟩ := effect
      cases control <;> rfl

open Routine in
theorem Context.run_dispatch {opcode : UInt8} (fits : f.stack.size ≤ stackLimit) :
    Stepped.ofInstruction opcode ((dispatch c opcode).run ⟨f, host, []⟩)
      = c.execute f host opcode := by
  rw [dispatch, execute]
  cases charged : f.gas.charge (c.config.gasSchedule.instructionCost
      (Operation.at? c.revision opcode)) with
  | error error =>
    rw [run_bind_error (run_charge_error charged)]
    rfl
  | ok gas =>
    rw [run_bind_ok (run_charge charged)]
    cases decoded : Operation.at? c.revision opcode with
    | none => rfl
    | some op => exact run_attempt (f := { f with gas }) fits

theorem Context.cycle_eq_step (fits : f.stack.size ≤ stackLimit) :
    c.cycle f host = c.step f host := by
  rw [cycle, step]
  cases f.state with
  | halted result => rfl
  | running =>
    cases c.code.bytes[f.pc]? with
    | none => rfl
    | some opcode => exact run_dispatch fits

end

/-! ## Executions -/

namespace Execution

variable {σ : Type} [Host σ] {e : Execution σ}

theorem cycle_eq_step (fits : e.frame.stack.size ≤ stackLimit) : e.cycle = e.step := by
  rw [cycle, step, Context.cycle_eq_step fits]

/-- Cycles and steps lead to the same, from any stack within the limit. -/
theorem cycles_eq_steps (fits : e.frame.stack.size ≤ stackLimit) (k : Nat) :
    cycles k e = steps k e := by
  induction k generalizing e with
  | zero => rfl
  | succ k ih =>
    rw [cycles, steps, cycle_eq_step fits]
    exact ih (step_stack_size_le fits)

omit [Host σ] in
theorem start_stack_size_le (c : Context) (host : σ) :
    (start c host).frame.stack.size ≤ stackLimit :=
  Nat.zero_le _

theorem cycles_start (c : Context) (host : σ) (k : Nat) :
    cycles k (start c host) = steps k (start c host) :=
  cycles_eq_steps (start_stack_size_le c host) k

theorem cycles_stack_size_le (c : Context) (host : σ) (k : Nat) :
    (cycles k (start c host)).frame.stack.size ≤ stackLimit := by
  rw [cycles_start]
  exact steps_stack_size_le c host k

end Execution

end StackMachine
