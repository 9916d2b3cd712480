import StackMachine.Host.Recording
import StackMachine.Proofs.Faults
import StackMachine.Proofs.Steps

/-!
# Arity

What an operation is said to take from the stack and to put there is what it does to it:
`Performs.replaces`. Once the stack was checked for that, nothing fails for the stack any more:
`Faults.status_ne`. So a stack never outgrows its limit, although handlers that look at their
operands first and drop them later do not check it again.
-/

namespace StackMachine

/-! ## Replacing the top of a stack -/

namespace Stack

/-- The top words are replaced, so many of them by so many others; the words below stay. -/
structure Replaces (inputs outputs : Nat) (before after : Stack) : Prop where
  enough : inputs ≤ before.size
  size : after.size = before.size - inputs + outputs
  below : after.items.drop outputs = before.items.drop inputs

variable {inputs outputs : Nat} {before after : Stack}

theorem Replaces.of_append (taken given : List Word) {rest : List Word}
    (items : before.items = taken ++ rest) (items' : after.items = given ++ rest) :
    Replaces taken.length given.length before after where
  enough := by simp [Stack.size, items]
  size := by
    simp only [Stack.size, items, items', List.length_append]
    omega
  below := by rw [items, items', List.drop_left, List.drop_left]

/-- Counted from the bottom, the words that are not taken are the first ones of both stacks. -/
theorem Replaces.take_toList (h : Replaces inputs outputs before after) :
    after.toList.take (before.size - inputs) = before.toList.take (before.size - inputs) := by
  have enough := h.enough
  have size := h.size
  simp only [Stack.size] at enough size
  have taken : before.items.length - (before.size - inputs) = inputs := by
    simp only [Stack.size]
    omega
  have given : after.items.length - (before.size - inputs) = outputs := by
    simp only [Stack.size]
    omega
  rw [toList, toList, List.take_reverse, List.take_reverse, taken, given, h.below]

/-- A stack that was checked stays within the limit. -/
theorem Replaces.size_le (h : Replaces inputs outputs before after)
    (room : before.require inputs outputs = .ok ()) (fits : before.size ≤ stackLimit) :
    after.size ≤ stackLimit := by
  obtain ⟨-, within⟩ := fits_of_require room fits
  rw [h.size]
  exact Nat.not_lt.mp within

end Stack

/-! ## Operations -/

section

variable {σ : Type} [Host σ] {c : Context} {f : Frame} {host : σ} {op : Operation}

theorem Rearranges.replaces {items : List Word} (h : Rearranges c f host op items) :
    f.stack.Replaces op.inputs op.outputs ⟨items⟩ := by
  cases h with
  | @unary _ a rest items | @callDataLoad a rest items | @sload a rest items =>
    exact .of_append [a] [_] items rfl
  | @binary _ a b rest items => exact .of_append [a, b] [_] items rfl
  | observe _ | push _ => exact .of_append [] [_] rfl rfl
  | @pop top rest items => exact .of_append [top] [] items rfl
  | @jumpi target rest items => exact .of_append [target, 0] [] items rfl
  | jumpDest => exact .of_append [] [] rfl rfl
  | @dup n w item room =>
    -- The copied word is among those that count as taken, and all of them are put back.
    obtain ⟨within, -⟩ := List.getElem?_eq_some_iff.mp item
    refine ⟨within, ?_, rfl⟩
    simp only [Stack.size, Operation.inputs, Operation.outputs, List.length_cons]
    omega
  | @swap n top w rest items item =>
    obtain ⟨within, -⟩ := List.getElem?_eq_some_iff.mp item
    refine ⟨?_, ?_, ?_⟩
    · simp only [Stack.size, Operation.inputs, items, List.length_cons]
      omega
    · simp only [Stack.size, Operation.inputs, Operation.outputs, items, List.length_cons,
        List.length_set]
      omega
    · simp only [Operation.inputs, Operation.outputs, items, List.drop_succ_cons]
      exact List.drop_set_of_lt (Nat.lt_succ_self n)

/-- An operation takes from the stack and puts there what it is said to. -/
theorem Performs.replaces {e : Effect σ} (h : Performs c f host op e) :
    f.stack.Replaces op.inputs op.outputs e.stack := by
  cases h with
  | rearranged h => exact h.replaces
  | stopped => exact .of_append [] [] rfl rfl
  | @jumped target _ items _ => exact .of_append [target] [] items rfl
  | @branched target condition _ items _ _ =>
    exact .of_append [target, condition] [] items rfl
  | @wrote key value _ items _ => exact .of_append [key, value] [] items rfl
  | @hashed offset len _ _ _ _ items _ _ =>
    exact .of_append [offset, len] [_] items rfl
  | @loaded offset _ _ _ items _ _ => exact .of_append [offset] [_] items rfl
  | @stored _ _ offset value _ _ _ stores items _ _ =>
    rcases stores with ⟨rfl, -⟩ | ⟨rfl, -⟩ <;>
      exact .of_append [offset, value] [] items rfl
  | @returned _ _ offset len _ _ _ _ halts items _ _ =>
    rcases halts with ⟨rfl, -⟩ | ⟨rfl, -⟩ <;>
      exact .of_append [offset, len] [] items rfl
  | refused items _ _ _ _ _ | called items _ _ _ _ _ _ _ =>
    exact .of_append [_, _, _, _, _, _, _] [_] items rfl

end

/-- An operation whose operands are there does not fail for the stack. -/
theorem Faults.status_ne {c : Context} {f : Frame} {op : Operation} {fault : Fault}
    (h : Faults c f op fault) :
    fault.error.status ≠ .stackUnderflow ∧ fault.error.status ≠ .stackOverflow := by
  cases h with
  | wrote _ | transferred _ _ _ | jumped _ _ | branched _ _ _ | unnamed _ => simp [VmError.status]
  | unsettled _ refused =>
    rcases Frame.settle_error refused with rfl | rfl <;> simp [VmError.status]

/-- An attempt that fails keeps the stack, unless it is that of a jump, which has lost its operands. -/
theorem Context.attempt_error {σ : Type} [Host σ] {c : Context} {f : Frame} {host : σ}
    {op : Operation} {fault : Fault} {r : Revision} {opcode : UInt8}
    (decoded : Operation.at? r opcode = some op) (h : c.attempt f host op = .error fault) :
    (fault.error.status ≠ .badJumpDestination ∧ fault.stack = f.stack) ∨
      fault.error.status = .badJumpDestination ∧ op.DropsTarget f.stack fault.stack := by
  unfold attempt at h
  cases room : f.stack.require op.inputs op.outputs with
  | error error =>
    -- The check of the stack fails before any operand is taken.
    rw [room] at h
    cases h
    refine .inl ⟨?_, rfl⟩
    rcases Stack.require_error room with rfl | rfl <;> exact Status.noConfusion
  | ok u =>
    rw [room] at h
    exact (Operation.perform_faults decoded room h).stack

theorem Operation.DropsTarget.size_le {op : Operation} {before after : Stack}
    (h : op.DropsTarget before after) : after.size ≤ before.size := by
  rcases h with ⟨-, target, items⟩ | ⟨-, target, condition, items⟩ <;>
    simp only [Stack.size, items, List.length_cons] <;> omega

/-! ## Executions -/

namespace Execution

variable {σ : Type} [Host σ]

/-- A step keeps a stack within the limit. -/
theorem step_stack_size_le {e : Execution σ} (fits : e.frame.stack.size ≤ stackLimit) :
    e.step.frame.stack.size ≤ stackLimit := by
  cases state : e.frame.state with
  | halted result =>
    rw [step_of_halted state]
    exact fits
  | running =>
    obtain ⟨after, takes, frame, -⟩ := step_takes state
    rw [frame]
    cases takes with
    | ended _ | unpaid _ _ | undefined _ _ _ => exact fits
    | faulted _ _ decoded attempted =>
      rw [Frame.fail_stack]
      rcases Context.attempt_error decoded attempted with ⟨-, kept⟩ | ⟨-, drops⟩
      · rw [kept]
        exact fits
      · exact Nat.le_trans drops.size_le fits
    | performed _ _ _ room performs =>
      rw [Frame.proceed_stack]
      exact performs.replaces.size_le room fits

/-- A stack never outgrows its limit. -/
theorem steps_stack_size_le (c : Context) (host : σ) (k : Nat) :
    (steps k (start c host)).frame.stack.size ≤ stackLimit := by
  have empty : (start c host).frame.stack.size ≤ stackLimit := Nat.zero_le _
  exact steps_induction (P := fun e => e.frame.stack.size ≤ stackLimit)
    (fun _ fits => step_stack_size_le fits) empty k

/-- A step that completes an operation replaces the operands by the results. -/
theorem step_replaces {e : Execution σ} {op : Operation} (completes : e.completes op = true) :
    e.frame.stack.Replaces op.inputs op.outputs e.step.frame.stack := by
  obtain ⟨opcode, effect, -, performs, frame, -⟩ := performs_of_completes completes
  rw [frame, Frame.proceed_stack]
  exact performs.replaces

/-- A step whose stack was checked does not fail for the stack. -/
theorem step_status_ne {e : Execution σ} {op : Operation} (running : e.frame.state = .running)
    (decoded : e.operation? = some op)
    (room : e.frame.stack.require op.inputs op.outputs = .ok ()) {result : ExecutionResult}
    (halted : e.step.frame.state = .halted result) :
    result.status ≠ .stackUnderflow ∧ result.status ≠ .stackOverflow := by
  have next := opcode?_of_running running
  obtain ⟨after, takes, frame, -⟩ := step_takes running
  rw [frame] at halted
  cases takes with
  | ended past => simp [operation?, next, past] at decoded
  | unpaid _ _ | undefined _ _ _ =>
    rw [Frame.fail_state] at halted
    cases halted
    simp [VmError.status]
  | @faulted opcode other fault fetched _ known attempted =>
    have same : other = op := by simpa [operation?, next, fetched, known] using decoded
    subst same
    have paidRoom : (e.frame.paying (e.context.price opcode)).stack.require other.inputs
        other.outputs = .ok () := room
    simp only [Context.attempt, paidRoom] at attempted
    rw [Frame.fail_state] at halted
    cases halted
    exact (Operation.perform_faults known paidRoom attempted).status_ne
  | performed _ _ _ _ performs =>
    -- What is carried out ends the execution well, if at all.
    have sound := performs.isFault_proceed running
    rw [halted] at sound
    simp only [State.isFault, Bool.not_eq_false'] at sound
    constructor <;> intro status <;> rw [status] at sound <;> cases sound

/-- A stack never outgrows its limit. Once it was checked for an operation, the operation does not
fail for the stack; and if it does not fail at all, it leaves as many words as it is said to, those
that it does not take at the bottom as they were. -/
theorem stack_follows_arity (c : Context) (host : σ) :
    (∀ k, (steps k (start c host)).frame.stack.size ≤ stackLimit) ∧
      ∀ (e : Execution σ) (op : Operation), e.frame.state = .running → e.operation? = some op →
        e.frame.stack.require op.inputs op.outputs = .ok () →
        op.inputs ≤ e.frame.stack.size ∧
          (∀ (f : Frame) (fault : Fault), f.stack = e.frame.stack →
            op.perform e.context f e.host = .error fault →
              fault.error ≠ .stackUnderflow ∧ fault.error ≠ .stackOverflow) ∧
          (∀ result, e.step.frame.state = .halted result →
            result.status ≠ .stackUnderflow ∧ result.status ≠ .stackOverflow) ∧
          (e.step.frame.state.isFault = false →
            e.step.frame.stack.size = e.frame.stack.size - op.inputs + op.outputs ∧
              e.step.frame.stack.toList.take (e.frame.stack.size - op.inputs)
                = e.frame.stack.toList.take (e.frame.stack.size - op.inputs)) := by
  refine ⟨fun k => ?_, fun e op running decoded room => ⟨?_, ?_, ?_, ?_⟩⟩
  · exact steps_stack_size_le c host k
  · exact Stack.inputs_le_of_require room
  · intro f fault same performed
    rw [← same] at room
    obtain ⟨opcode, -, known⟩ := Option.bind_eq_some_iff.mp decoded
    have status := (Operation.perform_faults known room performed).status_ne
    exact ⟨fun error => status.1 (error ▸ rfl), fun error => status.2 (error ▸ rfl)⟩
  · intro result halted
    exact step_status_ne running decoded room halted
  · intro sound
    have completes : e.completes op = true := by simp [Execution.completes, decoded, sound]
    have replaces := step_replaces completes
    exact ⟨replaces.size, replaces.take_toList⟩

/-- A nested call takes seven words off a stack of eight, and one comes in their place. -/
theorem stack_follows_arity_call :
    let c : Context := ⟨.default, .latest, .call 0 0 99,
      .ofBytes [0x60, 9, 0x60, 0, 0x60, 0, 0x60, 0, 0x60, 0, 0x60, 0, 0x60, 1, 0x60, 0, 0xf1]⟩
    let e := steps 8 (start c RecordingHost.empty)
    (e.frame.state = .running ∧ e.operation? = some .call ∧
        e.frame.stack.require Operation.call.inputs Operation.call.outputs = .ok () ∧
        e.step.frame.state.isFault = false) ∧
      e.frame.stack.size = 8 ∧ e.step.frame.stack.size = 2 ∧
      e.step.frame.stack.toList.take 1 = [9] := by
  intro c e
  have running : e.frame.state = .running := by decide +kernel
  have decoded : e.operation? = some .call := by decide +kernel
  have sound : e.step.frame.state.isFault = false := by decide +kernel
  have eight : e.frame.stack.size = 8 := by decide +kernel
  have room : e.frame.stack.require Operation.call.inputs Operation.call.outputs = .ok () := by
    simp [Stack.require, eight, Operation.inputs, Operation.outputs]
  have bottom : e.frame.stack.toList.take 1 = [9] := by decide +kernel
  obtain ⟨-, effect⟩ := stack_follows_arity c RecordingHost.empty
  obtain ⟨-, -, -, replaced⟩ := effect e .call running decoded room
  obtain ⟨size, below⟩ := replaced sound
  rw [eight] at size below
  exact ⟨⟨running, decoded, room, sound⟩, eight, size, below.trans bottom⟩

end Execution

end StackMachine
