import StackMachine.Proofs.Effects
import StackMachine.Proofs.Pricing

/-!
# Settling memory

Which regions an operation touches, and what that does to memory and gas. `Performs.settles` says
that an operation leaves memory and gas alone or settles the regions that `Touches` names;
`Performs.meter` draws the price of both cases in one equation.
-/

namespace StackMachine

@[simp] theorem Word.length_toBytes (w : Word) : w.toBytes.length = 32 :=
  Bytes.length_ofNat 32 w.toNat

/-- The output of a nested call stays within the memory that was settled for it. -/
theorem size_writeOutput {m : Memory} {offset len : Word} {region : Option Region} {output : Bytes}
    (named : Region.ofOperands offset len = .ok region)
    (within : ∀ r ∈ region.toList, r.stop ≤ m.size) :
    (writeOutput m region output).size = m.size := by
  cases region with
  | none => rfl
  | some r =>
    refine Memory.size_put_of_stop_le r (Region.len_ne_zero_of_ofOperands named) ?_
      (within r (by simp))
    simp only [List.length_take]
    omega

/-! ## The regions of an operation -/

/-- The price of hashing, for the operation that hashes the region its operands name. -/
def Operation.hashGas (c : Context) (s : Stack) : Operation → Nat
  | keccak256 => match s.items with
    | _ :: len :: _ => c.config.gasSchedule.hashCost len.toNat
    | _ => 0
  | _ => 0

theorem Operation.hashGas_of_ne {c : Context} {s : Stack} {op : Operation} (h : op ≠ .keccak256) :
    op.hashGas c s = 0 := by
  cases op with
  | keccak256 => exact absurd rfl h
  | _ => rfl

section

variable (c : Context) (f : Frame)

/-- The regions that an operation touches if its operands are in order, and what it pays on top of
their growth. -/
inductive Touches : Operation → List Region → Nat → Prop where
  | keccak256 {offset len : Word} {rest : List Word} {region : Option Region}
      (items : f.stack.items = offset :: len :: rest)
      (named : Region.ofOperands offset len = .ok region) :
      Touches .keccak256 region.toList (c.config.gasSchedule.hashCost len.toNat)
  | mload {offset : Word} {rest : List Word} (items : f.stack.items = offset :: rest)
      (named : offset.toNat < sizeLimit) : Touches .mload [⟨offset.toNat, 32⟩] 0
  | mstore {offset value : Word} {rest : List Word}
      (items : f.stack.items = offset :: value :: rest) (named : offset.toNat < sizeLimit) :
      Touches .mstore [⟨offset.toNat, 32⟩] 0
  | mstore8 {offset value : Word} {rest : List Word}
      (items : f.stack.items = offset :: value :: rest) (named : offset.toNat < sizeLimit) :
      Touches .mstore8 [⟨offset.toNat, 1⟩] 0
  | halt {op : Operation} {offset len : Word} {rest : List Word} {region : Option Region}
      (halts : op = .ret ∨ op = .revert) (items : f.stack.items = offset :: len :: rest)
      (named : Region.ofOperands offset len = .ok region) : Touches op region.toList 0
  | call {forwarded target value inOffset inLen outOffset outLen : Word} {rest : List Word}
      {input output : Option Region}
      (items : f.stack.items =
        forwarded :: target :: value :: inOffset :: inLen :: outOffset :: outLen :: rest)
      (namedInput : Region.ofOperands inOffset inLen = .ok input)
      (namedOutput : Region.ofOperands outOffset outLen = .ok output)
      (allowed : c.message.isStatic = true → value = 0) :
      Touches .call (input.toList ++ output.toList) 0

variable {c f}

theorem Touches.extra {op : Operation} {regions : List Region} {extra : Nat}
    (h : Touches c f op regions extra) : extra = op.hashGas c f.stack := by
  cases h with
  | keccak256 items _ => simp [Operation.hashGas, items]
  | halt halts _ _ => rcases halts with rfl | rfl <;> rfl
  | mload _ _ | mstore _ _ | mstore8 _ _ | call _ _ _ _ => rfl

end

section

variable {σ : Type} [Host σ] {c : Context} {f : Frame} {host : σ} {op : Operation} {e : Effect σ}

theorem Rearranges.hashGas {items : List Word} (h : Rearranges c f host op items) (s : Stack) :
    op.hashGas c s = 0 := by
  cases h <;> rfl

/-- An operation keeps memory and gas, or settles its regions; what it writes afterwards lies within
them. -/
theorem Performs.settles (h : Performs c f host op e) :
    (op.hashGas c f.stack = 0 ∧ e.memory = f.memory ∧ e.gas = f.gas) ∨
      ∃ regions extra memory, Touches c f op regions extra ∧
        f.settle c.config.memoryPolicy regions extra = .ok (memory, e.gas) ∧
        e.memory.size = memory.size := by
  cases h with
  | rearranged h => exact .inl ⟨h.hashGas _, rfl, rfl⟩
  | stopped | jumped _ _ | branched _ _ _ | wrote _ _ => exact .inl ⟨rfl, rfl, rfl⟩
  | hashed items named settled => exact .inr ⟨_, _, _, .keccak256 items named, settled, rfl⟩
  | loaded items named settled => exact .inr ⟨_, _, _, .mload items named, settled, rfl⟩
  | @stored _ _ offset _ _ _ _ stores items named settled =>
    have within := Frame.stop_le_of_settle settled _ (List.mem_singleton.mpr rfl)
    rcases stores with ⟨rfl, rfl⟩ | ⟨rfl, rfl⟩
    · rw [Word.length_toBytes] at settled within
      refine .inr ⟨_, _, _, .mstore items named, settled, ?_⟩
      exact Memory.size_put_of_stop_le ⟨offset.toNat, 32⟩ (by simp) (by simp) within
    · refine .inr ⟨_, _, _, .mstore8 items named, settled, ?_⟩
      exact Memory.size_put_of_stop_le ⟨offset.toNat, 1⟩ (by simp) (by simp) within
  | returned halts items named settled =>
    refine .inr ⟨_, _, _, .halt ?_ items named, settled, rfl⟩
    exact halts.imp And.left And.left
  | refused items namedInput namedOutput allowed settled _ =>
    exact .inr ⟨_, _, _, .call items namedInput namedOutput allowed, settled, rfl⟩
  | called items namedInput namedOutput allowed settled _ _ _ =>
    -- The region of the output is settled together with that of the input, before the call.
    refine .inr ⟨_, _, _, .call items namedInput namedOutput allowed, settled, ?_⟩
    have within := Frame.stop_le_of_settle settled
    exact size_writeOutput namedOutput fun r hr => within r (List.mem_append_right _ hr)

/-- An operation takes off the meter what the growth of memory costs and what hashing costs, in one
amount. -/
theorem Performs.gas_eq (h : Performs c f host op e) :
    e.gas = f.gas.less (saturate (c.config.memoryPolicy.expansionCost f.memory.size e.memory.size
      + op.hashGas c f.stack)) := by
  obtain ⟨free, memory, gas⟩ | ⟨regions, extra, memory, touches, settled, size⟩ := h.settles
  · rw [memory, gas, free, MemoryPolicy.expansionCost_of_le _ (Nat.le_refl _)]
    exact (GasMeter.less_zero _).symm
  · rw [size, ← touches.extra]
    exact (Frame.gas_of_settle settled).1

/-- Memory never shrinks, and what an operation takes off the meter was there. -/
theorem Performs.meter (h : Performs c f host op e) (solvent : 0 ≤ f.gas.remaining) :
    f.memory.size ≤ e.memory.size ∧ 0 ≤ e.gas.remaining ∧
      e.gas = f.gas.less (saturate (c.config.memoryPolicy.expansionCost f.memory.size e.memory.size
        + op.hashGas c f.stack)) := by
  obtain ⟨-, memory, gas⟩ | ⟨regions, extra, memory, -, settled, size⟩ := h.settles
  · refine ⟨?_, ?_, h.gas_eq⟩
    · exact Nat.le_of_eq (congrArg Memory.size memory.symm)
    · rw [gas]
      exact solvent
  · have grown := Region.size_le_furthest f.memory regions
    rw [← Frame.size_of_settle settled, ← size] at grown
    exact ⟨grown, (Frame.gas_of_settle settled).2, h.gas_eq⟩

end

end StackMachine
