import StackMachine.Proofs.Boundaries

/-!
# Where jumps go

The targets of jumps are said twice: by the marks that one sweep leaves, and by `Code.IsTarget`,
which speaks of the boundaries of instructions. `Code.getElem?_jumpDests` says that they are the
same positions, `Execution.jump_exact` that a jump goes to those and to no others.
-/

namespace StackMachine

theorem length_markJumpDests (skip : Nat) (bs : Bytes) :
    (markJumpDests skip bs).length = bs.length := by
  fun_induction markJumpDests skip bs with
  | case1 skip => rfl
  | case2 skip b rest ih => rw [List.length_cons, List.length_cons, ih]
  | case3 b rest ih => rw [List.length_cons, List.length_cons, ih]

/-! ## Targets -/

namespace Code

/-- A position to which a jump may go: an instruction begins there, and its opcode marks jump
destinations. -/
structure IsTarget (c : Code) (p : Nat) : Prop where
  within : p < c.size
  opcode : c.bytes[p]? = some 0x5b
  boundary : IsBoundary c.bytes.toList p

variable (c : Code)

theorem isJumpDest_iff_isTarget (p : Nat) : c.isJumpDest p = true ↔ c.IsTarget p := by
  rw [isJumpDest_iff]
  constructor
  · rintro ⟨boundary, opcode⟩
    obtain ⟨within, -⟩ := Array.getElem?_eq_some_iff.mp opcode
    exact ⟨within, opcode, boundary⟩
  · rintro ⟨-, opcode, boundary⟩
    exact ⟨boundary, opcode⟩

/-- There is one mark for each byte, also if the last push is cut off. -/
theorem size_jumpDests : c.jumpDests.size = c.size := by
  rw [c.jumpDests_eq, List.size_toArray, length_markJumpDests, Array.length_toList, size]

/-- The marks are at the targets. -/
theorem getElem?_jumpDests (p : Nat) : c.jumpDests[p]? = some true ↔ c.IsTarget p := by
  rw [← isJumpDest_iff_isTarget, isJumpDest, Array.getD_eq_getD_getElem?]
  cases c.jumpDests[p]? <;> simp

theorem jumpTarget_eq_ok_iff {target : Word} {p : Nat} :
    c.jumpTarget target = .ok p ↔ c.IsTarget target.toNat ∧ p = target.toNat := by
  rw [jumpTarget_eq_ok, isJumpDest_iff_isTarget]

theorem jumpTarget_of_not_isTarget {target : Word} (missed : ¬ c.IsTarget target.toNat) :
    c.jumpTarget target = .error (.badJumpDestination (min target.toNat (sizeLimit - 1))) := by
  rw [← isJumpDest_iff_isTarget, Bool.not_eq_true] at missed
  exact jumpTarget_eq_error.mpr ⟨missed, rfl⟩

/-- Code that has a size can be asked for the position cut off at the largest size instead: no
target is mistaken for a smaller one. -/
theorem jumpTarget_eq_of_size (small : c.size < sizeLimit) (target : Word) :
    c.jumpTarget target =
      let p := target.toSize?.getD (sizeLimit - 1)
      if c.isJumpDest p then .ok p else .error (.badJumpDestination p) := by
  by_cases fits : target.toNat < sizeLimit
  · have cut : min target.toNat (sizeLimit - 1) = target.toNat := by omega
    simp only [jumpTarget, Word.toSize?, if_pos fits, cut, Option.getD_some]
  · have past (p : Nat) (large : c.size ≤ p) : c.isJumpDest p = false := by
      rw [← Bool.not_eq_true, isJumpDest_iff_isTarget]
      exact fun marked => Nat.not_le.mpr marked.within large
    have cut : min target.toNat (sizeLimit - 1) = sizeLimit - 1 := by omega
    simp only [jumpTarget, Word.toSize?, if_neg fits, cut, Option.getD_none,
      past target.toNat (by omega), past (sizeLimit - 1) (by omega), Bool.false_eq_true, ↓reduceIte]

end Code

/-! ## Jumps -/

/-- The target of an operation that jumps when its operands are on the stack. A conditional jump
without its condition does not. -/
def Operation.target? (s : Stack) : Operation → Option Word
  | jump => match s.items with
    | target :: _ => some target
    | _ => none
  | jumpi => match s.items with
    | target :: condition :: _ => if condition = 0 then none else some target
    | _ => none
  | _ => none

/-- All that decides about a jump is whether the code accepts the target. -/
theorem Context.attempt_of_target? {σ : Type} [Host σ] (c : Context) (f : Frame) (host : σ)
    {op : Operation} {target : Word} (h : op.target? f.stack = some target) :
    ∃ rest, c.attempt f host op = match c.code.jumpTarget target with
      | .ok p => .ok { Effect.ofItems f host rest with control := .jump p }
      | .error error => .error ⟨error, ⟨rest⟩⟩ := by
  have room (inputs : Nat) (enough : inputs ≤ f.stack.size) :
      f.stack.require inputs 0 = .ok () := Stack.require_of_le enough (Nat.zero_le _)
  cases op with
  | jump =>
    simp only [Operation.target?] at h
    split at h
    case h_1 top rest items =>
      cases h
      have enough := room 1 (by simp [Stack.size, items])
      refine ⟨rest, ?_⟩
      cases accepted : c.code.jumpTarget target <;>
        simp only [attempt, Operation.inputs, Operation.outputs, enough, Operation.perform, items,
          accepted]
    case h_2 => cases h
  | jumpi =>
    simp only [Operation.target?] at h
    split at h
    case h_1 top condition rest items =>
      split at h
      · cases h
      · rename_i taken
        cases h
        have enough := room 2 (by simp [Stack.size, items])
        refine ⟨rest, ?_⟩
        cases accepted : c.code.jumpTarget target <;>
          simp only [attempt, Operation.inputs, Operation.outputs, enough, Operation.perform, items,
            if_neg taken, accepted]
    case h_2 => cases h
  | _ => cases h

namespace Execution

variable {σ : Type} [Host σ]

/-- A jump that is paid for goes to its target, or it ends the execution. -/
theorem step_of_target? {e : Execution σ} {op : Operation} {target : Word}
    (decoded : e.operation? = some op) (operand : op.target? e.frame.stack = some target)
    (paid : (e.context.config.gasSchedule.instructionCost (some op) : Int) ≤ e.frame.gas.remaining) :
    (e.context.code.IsTarget target.toNat →
        e.step.frame.state = .running ∧ e.step.frame.pc = target.toNat) ∧
      (¬ e.context.code.IsTarget target.toNat →
        e.step.frame.state = .halted ⟨.badJumpDestination, 0, []⟩) := by
  obtain ⟨performed, faulted⟩ := step_attempts decoded rfl paid
  obtain ⟨opcode, fetched, -⟩ := Option.bind_eq_some_iff.mp decoded
  have running := running_of_opcode? fetched
  obtain ⟨rest, attempted⟩ := e.context.attempt_of_target?
    (e.frame.paying (e.context.config.gasSchedule.instructionCost (some op))) e.host operand
  constructor
  · intro accepted
    rw [(Code.jumpTarget_eq_ok_iff _).mpr ⟨accepted, rfl⟩] at attempted
    obtain ⟨frame, -⟩ := performed _ attempted
    rw [frame]
    exact ⟨running, rfl⟩
  · intro missed
    rw [Code.jumpTarget_of_not_isTarget _ missed] at attempted
    obtain ⟨frame, -⟩ := faulted _ attempted
    rw [frame, Frame.fail_state]
    rfl

/-- Only pushes skip bytes, as many as they push, and code has a mark for each byte, at the targets
alone. A word is accepted as the target of a jump exactly if its number is a target, also where
positions are cut off at the largest size, and the jump goes to that very position. -/
theorem jump_exact (c : Code) :
    ((∀ b, Opcode.immediate b = if 0x60 ≤ b ∧ b ≤ 0x7f then b.toNat - 0x5f else 0) ∧
        c.jumpDests.size = c.size ∧ ∀ p, c.jumpDests[p]? = some true ↔ c.IsTarget p) ∧
      (∀ target : Word, ((∃ p, c.jumpTarget target = .ok p) ↔ c.IsTarget target.toNat) ∧
        ∀ p, c.jumpTarget target = .ok p → p = target.toNat) ∧
      (c.size < sizeLimit → ∀ target : Word, c.jumpTarget target =
        let p := target.toSize?.getD (sizeLimit - 1)
        if c.isJumpDest p then .ok p else .error (.badJumpDestination p)) ∧
      ∀ (e : Execution σ) (op : Operation) (target : Word), e.context.code = c →
        e.operation? = some op → op.target? e.frame.stack = some target →
        (e.context.config.gasSchedule.instructionCost (some op) : Int) ≤ e.frame.gas.remaining →
        (c.IsTarget target.toNat →
            e.step.frame.state = .running ∧ e.step.frame.pc = target.toNat) ∧
          (¬ c.IsTarget target.toNat →
            e.step.frame.state = .halted ⟨.badJumpDestination, 0, []⟩) := by
  refine ⟨⟨Opcode.immediate_eq, c.size_jumpDests, c.getElem?_jumpDests⟩, fun target => ⟨?_, ?_⟩,
    c.jumpTarget_eq_of_size, ?_⟩
  · constructor
    · rintro ⟨p, accepted⟩
      exact (c.jumpTarget_eq_ok_iff.mp accepted).1
    · intro accepted
      exact ⟨_, c.jumpTarget_eq_ok_iff.mpr ⟨accepted, rfl⟩⟩
  · intro p accepted
    exact (c.jumpTarget_eq_ok_iff.mp accepted).2
  · rintro e op target rfl decoded operand paid
    exact step_of_target? decoded operand paid

/-- A jump over the bytes of a push, and one into the bytes of a push that is cut off. -/
theorem jump_exact_pushed :
    let code (t : UInt8) : Code := .ofBytes [0x60, t, 0x56, 0x5b, 0x60, 0x5b, 0x5b, 0x7f, 0x5b]
    let e (t : UInt8) := steps 1
      (start ⟨.default, .latest, .call 0 0 9, code t⟩ RecordingHost.empty)
    ((e 6).operation? = some .jump ∧ Operation.jump.target? (e 6).frame.stack = some 6 ∧
        (1 : Int) ≤ (e 6).frame.gas.remaining ∧ (code 6).IsTarget 6 ∧
        (code 6).size < sizeLimit) ∧
      ((e 8).operation? = some .jump ∧ Operation.jump.target? (e 8).frame.stack = some 8 ∧
        (1 : Int) ≤ (e 8).frame.gas.remaining ∧ ¬ (code 8).IsTarget 8) ∧
      ((e 6).step.frame.state = .running ∧ (e 6).step.frame.pc = 6) ∧
      (e 8).step.frame.state = .halted ⟨.badJumpDestination, 0, []⟩ ∧
      (code 6).jumpTarget 0x10000000000000006 = .error (.badJumpDestination (sizeLimit - 1)) := by
  intro code e
  have decoded : (e 6).operation? = some .jump := by decide +kernel
  have decoded' : (e 8).operation? = some .jump := by decide +kernel
  have operand : Operation.jump.target? (e 6).frame.stack = some 6 := by decide +kernel
  have operand' : Operation.jump.target? (e 8).frame.stack = some 8 := by decide +kernel
  have accepted : (code 6).IsTarget 6 := (Code.isJumpDest_iff_isTarget _ 6).mp (by decide +kernel)
  have missed : ¬ (code 8).IsTarget 8 := by
    rw [← Code.isJumpDest_iff_isTarget]
    decide +kernel
  have small : (code 6).size < sizeLimit := by decide
  have paid : (1 : Int) ≤ (e 6).frame.gas.remaining := by decide +kernel
  have paid' : (1 : Int) ≤ (e 8).frame.gas.remaining := by decide +kernel
  have jumped := @jump_exact RecordingHost _
  obtain ⟨-, -, cut, jumps⟩ := jumped (code 6)
  obtain ⟨-, -, -, jumps'⟩ := jumped (code 8)
  have goes := (jumps (e 6) .jump 6 rfl decoded operand paid).1 accepted
  have ends := (jumps' (e 8) .jump 8 rfl decoded' operand' paid').2 missed
  have largest : (0x10000000000000006 : Word).toSize?.getD (sizeLimit - 1) = sizeLimit - 1 := by
    decide +kernel
  have unmarked : (code 6).isJumpDest (sizeLimit - 1) = false := by decide +kernel
  refine ⟨⟨decoded, operand, paid, accepted, small⟩, ⟨decoded', operand', paid', missed⟩, goes,
    ends, ?_⟩
  simp only [cut small, largest, unmarked, Bool.false_eq_true, ↓reduceIte]

end Execution

end StackMachine
