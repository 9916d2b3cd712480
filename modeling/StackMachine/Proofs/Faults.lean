import StackMachine.Proofs.Opcodes
import StackMachine.Proofs.Settlement

/-!
# How operations fault

`Faults` lists the faults of an operation whose operands are there: it may not change anything, a
jump misses, operands name no region, or the regions are not settled. `Faults.stack` says what is
left of the operands.
-/

namespace StackMachine

/-! ## The faults of operations -/

section

variable (c : Context) (f : Frame)

/-- Operations whose operands name a region that there cannot be. -/
inductive Unnamed : Operation → Prop where
  | access {op : Operation} {offset : Word} {rest : List Word}
      (accesses : op = .mload ∨ op = .mstore ∨ op = .mstore8)
      (items : f.stack.items = offset :: rest) (large : sizeLimit ≤ offset.toNat) : Unnamed op
  | region {op : Operation} {offset len : Word} {rest : List Word}
      (takes : op = .keccak256 ∨ op = .ret ∨ op = .revert)
      (items : f.stack.items = offset :: len :: rest) (large : Region.Unnamed offset len) :
      Unnamed op
  | call {forwarded target value inOffset inLen outOffset outLen : Word} {rest : List Word}
      (items : f.stack.items =
        forwarded :: target :: value :: inOffset :: inLen :: outOffset :: outLen :: rest)
      (large : Region.Unnamed inOffset inLen ∨ Region.Unnamed outOffset outLen) : Unnamed .call

/-- The faults of an operation whose operands are there. -/
inductive Faults : Operation → Fault → Prop where
  | wrote (static : c.message.isStatic = true) : Faults .sstore ⟨.staticModeViolation, f.stack⟩
  | transferred {forwarded target value inOffset inLen outOffset outLen : Word} {rest : List Word}
      (items : f.stack.items =
        forwarded :: target :: value :: inOffset :: inLen :: outOffset :: outLen :: rest)
      (static : c.message.isStatic = true) (transfers : value ≠ 0) :
      Faults .call ⟨.staticModeViolation, f.stack⟩
  | jumped {target : Word} {rest : List Word} (items : f.stack.items = target :: rest)
      (unmarked : c.code.isJumpDest target.toNat = false) :
      Faults .jump ⟨.badJumpDestination (min target.toNat (sizeLimit - 1)), ⟨rest⟩⟩
  | branched {target condition : Word} {rest : List Word}
      (items : f.stack.items = target :: condition :: rest) (taken : condition ≠ 0)
      (unmarked : c.code.isJumpDest target.toNat = false) :
      Faults .jumpi ⟨.badJumpDestination (min target.toNat (sizeLimit - 1)), ⟨rest⟩⟩
  | unnamed {op : Operation} (operands : Unnamed f op) :
      Faults op ⟨.memoryBoundsExceeded, f.stack⟩
  | unsettled {op : Operation} {regions : List Region} {extra : Nat} {error : VmError}
      (touches : Touches c f op regions extra)
      (refused : f.settle c.config.memoryPolicy regions extra = .error error) :
      Faults op ⟨error, f.stack⟩

end

/-! ## Every fault is one of them -/

section

variable {σ : Type} {c : Context} {f : Frame} {host : σ} {fault : Fault}

theorem Performed.keepingStack_eq_error {x : Except VmError (Effect σ)} :
    Performed.keepingStack f x = .error fault ↔
      ∃ error, x = .error error ∧ fault = ⟨error, f.stack⟩ := by
  cases x <;> simp [Performed.keepingStack, eq_comm]

theorem Performed.ofStack_eq_error {x : Except VmError Stack} :
    Performed.ofStack f host x = .error fault ↔
      ∃ error, x = .error error ∧ fault = ⟨error, f.stack⟩ := by
  cases x <;> simp [Performed.ofStack, eq_comm]

section

variable {error : VmError}

theorem performKeccak_faults (room : 2 ≤ f.stack.size)
    (h : performKeccak c f host = .error error) : Faults c f .keccak256 ⟨error, f.stack⟩ := by
  obtain ⟨offset, len, rest, items⟩ := Stack.exists_two room
  simp only [performKeccak, items, bind_eq_error, pure, Except.pure, reduceCtorEq, and_false,
    exists_false, or_false] at h
  rcases h with h | ⟨region, named, refused⟩
  · obtain ⟨large, rfl⟩ := Region.ofOperands_eq_error.mp h
    exact .unnamed (.region (.inl rfl) items large)
  · refine .unsettled (.keccak256 items named) ?_
    -- The step prices the region, the rule the length operand: without a region both are zero.
    rw [← refused]
    rcases Region.ofOperands_eq_ok.mp named with ⟨rfl, rfl⟩ | ⟨-, -, -, rfl⟩ <;> rfl

theorem performLoad_faults (room : 1 ≤ f.stack.size) (h : performLoad c f host = .error error) :
    Faults c f .mload ⟨error, f.stack⟩ := by
  obtain ⟨offset, rest, items⟩ := Stack.exists_one room
  simp only [performLoad, items, bind_eq_error, Region.position_eq_ok, Region.position_eq_error,
    pure, Except.pure, reduceCtorEq, and_false, exists_false, or_false] at h
  rcases h with ⟨large, rfl⟩ | ⟨_, ⟨named, rfl⟩, refused⟩
  · exact .unnamed (.access (.inl rfl) items large)
  · exact .unsettled (.mload items named) refused

theorem performStore_faults {op : Operation} {bytes : Word → Bytes}
    (stores : op = .mstore ∧ bytes = Word.toBytes ∨ op = .mstore8 ∧ bytes = fun w => [w.byte 31])
    (room : 2 ≤ f.stack.size) (h : performStore c f host bytes = .error error) :
    Faults c f op ⟨error, f.stack⟩ := by
  obtain ⟨offset, value, rest, items⟩ := Stack.exists_two room
  simp only [performStore, items, bind_eq_error, Region.position_eq_ok, Region.position_eq_error,
    pure, Except.pure, reduceCtorEq, and_false, exists_false, or_false] at h
  rcases h with ⟨large, rfl⟩ | ⟨_, ⟨named, rfl⟩, refused⟩
  · exact .unnamed (.access (.inr (stores.imp And.left And.left)) items large)
  · rcases stores with ⟨rfl, rfl⟩ | ⟨rfl, rfl⟩
    · rw [Word.length_toBytes] at refused
      exact .unsettled (.mstore items named) refused
    · exact .unsettled (.mstore8 items named) refused

theorem performHalt_faults {op : Operation} {status : Status} (halts : op = .ret ∨ op = .revert)
    (room : 2 ≤ f.stack.size) (h : performHalt c f host status = .error error) :
    Faults c f op ⟨error, f.stack⟩ := by
  obtain ⟨offset, len, rest, items⟩ := Stack.exists_two room
  simp only [performHalt, items, bind_eq_error, pure, Except.pure, reduceCtorEq, and_false,
    exists_false, or_false] at h
  rcases h with h | ⟨region, named, refused⟩
  · obtain ⟨large, rfl⟩ := Region.ofOperands_eq_error.mp h
    exact .unnamed (.region (.inr halts) items large)
  · exact .unsettled (.halt halts items named) refused

theorem performCall_faults [Host σ] (room : 7 ≤ f.stack.size)
    (h : performCall c f host = .error error) : Faults c f .call ⟨error, f.stack⟩ := by
  obtain ⟨forwarded, target, value, inOffset, inLen, outOffset, outLen, rest, items⟩ :=
    Stack.exists_seven room
  simp only [performCall, items, bind_eq_error] at h
  rcases h with h | ⟨input, namedInput, h | ⟨output, namedOutput, h⟩⟩
  · obtain ⟨large, rfl⟩ := Region.ofOperands_eq_error.mp h
    exact .unnamed (.call items (.inl large))
  · obtain ⟨large, rfl⟩ := Region.ofOperands_eq_error.mp h
    exact .unnamed (.call items (.inr large))
  · split at h
    · rename_i transfers
      cases h
      exact .transferred items transfers.1 transfers.2
    · rename_i allowed
      have allowed : c.message.isStatic = true → value = 0 := by simpa using allowed
      rcases bind_eq_error.mp h with refused | ⟨_, _, h⟩
      · exact .unsettled (.call items namedInput namedOutput allowed) refused
      · -- Once the regions are settled the call can be refused or answered, not fault.
        split at h <;> cases h

end

/-- Once the stack has room, an operation faults for one of the reasons. -/
theorem Operation.perform_faults [Host σ] {r : Revision} {b : UInt8} {op : Operation}
    (decoded : at? r b = some op) (room : f.stack.require op.inputs op.outputs = .ok ())
    (h : op.perform c f host = .error fault) : Faults c f op fault := by
  have inputs := Stack.inputs_le_of_require room
  cases op with
  | stop | jumpDest => cases h
  | unary op | callDataLoad | pop | sload =>
    obtain ⟨a, rest, items⟩ := Stack.exists_one inputs
    simp only [perform, items, reduceCtorEq] at h
  | binary op =>
    obtain ⟨a, b, rest, items⟩ := Stack.exists_two inputs
    simp only [perform, items, reduceCtorEq] at h
  | keccak256 =>
    obtain ⟨error, fails, rfl⟩ := Performed.keepingStack_eq_error.mp h
    exact performKeccak_faults inputs fails
  | mload =>
    obtain ⟨error, fails, rfl⟩ := Performed.keepingStack_eq_error.mp h
    exact performLoad_faults inputs fails
  | mstore =>
    obtain ⟨error, fails, rfl⟩ := Performed.keepingStack_eq_error.mp h
    exact performStore_faults (.inl ⟨rfl, rfl⟩) inputs fails
  | mstore8 =>
    obtain ⟨error, fails, rfl⟩ := Performed.keepingStack_eq_error.mp h
    exact performStore_faults (.inr ⟨rfl, rfl⟩) inputs fails
  | call =>
    obtain ⟨error, fails, rfl⟩ := Performed.keepingStack_eq_error.mp h
    exact performCall_faults inputs fails
  | ret =>
    obtain ⟨error, fails, rfl⟩ := Performed.keepingStack_eq_error.mp h
    exact performHalt_faults (.inl rfl) inputs fails
  | revert =>
    obtain ⟨error, fails, rfl⟩ := Performed.keepingStack_eq_error.mp h
    exact performHalt_faults (.inr rfl) inputs fails
  | sstore =>
    obtain ⟨key, value, rest, items⟩ := Stack.exists_two inputs
    simp only [perform, items] at h
    split at h
    · cases h
      exact .wrote ‹_›
    · cases h
  | jump =>
    obtain ⟨target, rest, items⟩ := Stack.exists_one inputs
    simp only [perform, items] at h
    split at h
    · cases h
    · rename_i missed
      obtain ⟨unmarked, rfl⟩ := Code.jumpTarget_eq_error.mp missed
      cases h
      exact .jumped items unmarked
  | jumpi =>
    obtain ⟨target, condition, rest, items⟩ := Stack.exists_two inputs
    simp only [perform, items] at h
    split at h
    · cases h
    · rename_i taken
      split at h
      · cases h
      · rename_i missed
        obtain ⟨unmarked, rfl⟩ := Code.jumpTarget_eq_error.mp missed
        cases h
        exact .branched items taken unmarked
  | observe quantity | push n =>
    -- The stack was checked for room, so these two never fault.
    obtain ⟨error, fails, rfl⟩ := Performed.ofStack_eq_error.mp h
    rw [Stack.push_eq_ok.mpr ⟨Stack.size_lt_of_require room, rfl⟩] at fails
    cases fails
  | dup n =>
    obtain ⟨error, fails, rfl⟩ := Performed.ofStack_eq_error.mp h
    have counts := pos_of_ofByte? (at?_eq_some.mp decoded).1 (.inl rfl)
    obtain ⟨t, copied⟩ := Stack.dup_ok (n := n) room counts
    rw [copied] at fails
    cases fails
  | swap n =>
    obtain ⟨error, fails, rfl⟩ := Performed.ofStack_eq_error.mp h
    have counts := pos_of_ofByte? (at?_eq_some.mp decoded).1 (.inr rfl)
    obtain ⟨t, exchanged⟩ := Stack.swap_ok inputs counts
    rw [exchanged] at fails
    cases fails

/-! ## What a fault leaves -/

/-- What a stack is once a jump has lost its operands: one of them, or two if the jump was
conditional. -/
def Operation.DropsTarget (op : Operation) (before after : Stack) : Prop :=
  op = .jump ∧ (∃ target, before.items = target :: after.items) ∨
    op = .jumpi ∧ ∃ target condition, before.items = target :: condition :: after.items

/-- A fault keeps the stack, unless it is that of a jump, which has lost its operands. -/
theorem Faults.stack {op : Operation} (h : Faults c f op fault) :
    (fault.error.status ≠ .badJumpDestination ∧ fault.stack = f.stack) ∨
      fault.error.status = .badJumpDestination ∧ op.DropsTarget f.stack fault.stack := by
  cases h with
  | jumped items _ => exact .inr ⟨rfl, .inl ⟨rfl, _, items⟩⟩
  | branched items _ _ => exact .inr ⟨rfl, .inr ⟨rfl, _, _, items⟩⟩
  | wrote _ | transferred _ _ _ | unnamed _ => exact .inl ⟨Status.noConfusion, rfl⟩
  | unsettled _ refused =>
    refine .inl ⟨?_, rfl⟩
    rcases Frame.settle_error refused with rfl | rfl <;> exact Status.noConfusion

end

end StackMachine
