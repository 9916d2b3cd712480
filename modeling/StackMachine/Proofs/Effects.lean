import StackMachine.Proofs.Regions
import StackMachine.Proofs.Stacks

/-!
# What operations do

`Performs` lists, one rule for each kind of operation, what can come of an operation that does not
fault. `perform_eq_ok` says that the list is exact. The rules keep apart the operations that
rearrange the stack and nothing else, the jumps, and those that settle regions of memory first.
-/

namespace StackMachine

/-! ## Jump targets -/

theorem Code.jumpTarget_eq_ok {c : Code} {target : Word} {position : Nat} :
    c.jumpTarget target = .ok position ↔ c.isJumpDest target.toNat ∧ position = target.toNat := by
  by_cases h : c.isJumpDest target.toNat <;> simp [jumpTarget, h, eq_comm]

theorem Code.jumpTarget_eq_error {c : Code} {target : Word} {error : VmError} :
    c.jumpTarget target = .error error ↔ c.isJumpDest target.toNat = false ∧
      error = .badJumpDestination (min target.toNat (sizeLimit - 1)) := by
  by_cases h : c.isJumpDest target.toNat <;> simp [jumpTarget, h, eq_comm]

/-! ## The effects of operations -/

section

variable {σ : Type} [Host σ] (c : Context) (f : Frame) (host : σ)

/-- Operations that change nothing but the stack, with the words that they leave on it. -/
inductive Rearranges : Operation → List Word → Prop where
  | unary {op : UnaryOp} {a : Word} {rest : List Word} (items : f.stack.items = a :: rest) :
      Rearranges (.unary op) (op.apply a :: rest)
  | binary {op : BinaryOp} {a b : Word} {rest : List Word}
      (items : f.stack.items = a :: b :: rest) : Rearranges (.binary op) (op.apply a b :: rest)
  | observe {quantity : Quantity} (room : f.stack.size < stackLimit) :
      Rearranges (.observe quantity) (quantity.value c f host :: f.stack.items)
  | callDataLoad {offset : Word} {rest : List Word} (items : f.stack.items = offset :: rest) :
      Rearranges .callDataLoad
        (.ofNat (Bytes.toNat (c.message.input.window offset.toNat 32)) :: rest)
  | pop {top : Word} {rest : List Word} (items : f.stack.items = top :: rest) : Rearranges .pop rest
  | sload {key : Word} {rest : List Word} (items : f.stack.items = key :: rest) :
      Rearranges .sload (Host.storage host c.message.destination key :: rest)
  /-- A conditional jump that is not taken. -/
  | jumpi {target : Word} {rest : List Word} (items : f.stack.items = target :: 0 :: rest) :
      Rearranges .jumpi rest
  | jumpDest : Rearranges .jumpDest f.stack.items
  | push {n : Nat} (room : f.stack.size < stackLimit) :
      Rearranges (.push n) (c.code.immediateAt (f.pc + 1) n :: f.stack.items)
  | dup {n : Nat} {w : Word} (item : f.stack.items[n]? = some w)
      (room : f.stack.size < stackLimit) : Rearranges (.dup (n + 1)) (w :: f.stack.items)
  | swap {n : Nat} {top w : Word} {rest : List Word} (items : f.stack.items = top :: rest)
      (item : rest[n]? = some w) : Rearranges (.swap (n + 1)) (w :: rest.set n top)

/-- What can come of an operation that does not fault. -/
inductive Performs : Operation → Effect σ → Prop where
  | rearranged {op : Operation} {items : List Word} (h : Rearranges c f host op items) :
      Performs op (.ofItems f host items)
  | stopped : Performs .stop { Effect.nothing f host with control := .halt .success [] }
  | jumped {target : Word} {rest : List Word} (items : f.stack.items = target :: rest)
      (marked : c.code.isJumpDest target.toNat) :
      Performs .jump { Effect.ofItems f host rest with control := .jump target.toNat }
  | branched {target condition : Word} {rest : List Word}
      (items : f.stack.items = target :: condition :: rest) (taken : condition ≠ 0)
      (marked : c.code.isJumpDest target.toNat) :
      Performs .jumpi { Effect.ofItems f host rest with control := .jump target.toNat }
  | wrote {key value : Word} {rest : List Word} (items : f.stack.items = key :: value :: rest)
      (dynamic : c.message.isStatic = false) :
      Performs .sstore
        (.ofItems f (Host.setStorage host c.message.destination key value).2 rest)
  | hashed {offset len : Word} {rest : List Word} {region : Option Region} {memory : Memory}
      {gas : GasMeter} (items : f.stack.items = offset :: len :: rest)
      (named : Region.ofOperands offset len = .ok region)
      (settled : f.settle c.config.memoryPolicy region.toList
        (c.config.gasSchedule.hashCost len.toNat) = .ok (memory, gas)) :
      Performs .keccak256
        ⟨.next, ⟨.ofNat (Bytes.toNat (Keccak.hash (Region.bytes memory region))) :: rest⟩, memory,
          gas, host, []⟩
  | loaded {offset : Word} {rest : List Word} {memory : Memory} {gas : GasMeter}
      (items : f.stack.items = offset :: rest) (named : offset.toNat < sizeLimit)
      (settled : f.settle c.config.memoryPolicy [⟨offset.toNat, 32⟩] 0 = .ok (memory, gas)) :
      Performs .mload
        ⟨.next, ⟨.ofNat (Bytes.toNat (memory.slice offset.toNat 32)) :: rest⟩, memory, gas, host,
          []⟩
  | stored {op : Operation} {bytes : Word → Bytes} {offset value : Word} {rest : List Word}
      {memory : Memory} {gas : GasMeter}
      (stores : op = .mstore ∧ bytes = Word.toBytes ∨ op = .mstore8 ∧ bytes = fun w => [w.byte 31])
      (items : f.stack.items = offset :: value :: rest) (named : offset.toNat < sizeLimit)
      (settled : f.settle c.config.memoryPolicy [⟨offset.toNat, (bytes value).length⟩] 0
        = .ok (memory, gas)) :
      Performs op ⟨.next, ⟨rest⟩, memory.put offset.toNat (bytes value), gas, host, []⟩
  | returned {op : Operation} {status : Status} {offset len : Word} {rest : List Word}
      {region : Option Region} {memory : Memory} {gas : GasMeter}
      (halts : op = .ret ∧ status = .success ∨ op = .revert ∧ status = .revert)
      (items : f.stack.items = offset :: len :: rest)
      (named : Region.ofOperands offset len = .ok region)
      (settled : f.settle c.config.memoryPolicy region.toList 0 = .ok (memory, gas)) :
      Performs op ⟨.halt status (Region.bytes memory region), ⟨rest⟩, memory, gas, host, []⟩
  | refused {forwarded target value inOffset inLen outOffset outLen : Word} {rest : List Word}
      {input output : Option Region} {memory : Memory} {gas : GasMeter}
      (items : f.stack.items =
        forwarded :: target :: value :: inOffset :: inLen :: outOffset :: outLen :: rest)
      (namedInput : Region.ofOperands inOffset inLen = .ok input)
      (namedOutput : Region.ofOperands outOffset outLen = .ok output)
      (allowed : c.message.isStatic = true → value = 0)
      (settled : f.settle c.config.memoryPolicy (input.toList ++ output.toList) 0
        = .ok (memory, gas))
      (deep : c.config.maxCallDepth ≤ c.message.depth) :
      Performs .call
        ⟨.next, ⟨0 :: rest⟩, memory, gas, host, [.depthLimitReached c.message.depth]⟩
  | called {forwarded target value inOffset inLen outOffset outLen : Word} {rest : List Word}
      {input output : Option Region} {memory : Memory} {gas : GasMeter} {message : Message}
      {result : ExecutionResult} {after : σ}
      (items : f.stack.items =
        forwarded :: target :: value :: inOffset :: inLen :: outOffset :: outLen :: rest)
      (namedInput : Region.ofOperands inOffset inLen = .ok input)
      (namedOutput : Region.ofOperands outOffset outLen = .ok output)
      (allowed : c.message.isStatic = true → value = 0)
      (settled : f.settle c.config.memoryPolicy (input.toList ++ output.toList) 0
        = .ok (memory, gas))
      (shallow : ¬ c.config.maxCallDepth ≤ c.message.depth)
      (request : message = nestedMessage c forwarded target value (Region.bytes memory input))
      (answer : Host.call host message = (result, after)) :
      Performs .call
        ⟨.next, ⟨.ofBool result.isSuccess :: rest⟩, writeOutput memory output result.output, gas,
          after, []⟩

end

/-! ## Every effect follows the rules -/

section

variable {σ : Type} {c : Context} {f : Frame} {host : σ} {e : Effect σ}

theorem Performed.keepingStack_eq_ok {x : Except VmError (Effect σ)} :
    Performed.keepingStack f x = .ok e ↔ x = .ok e := by
  cases x <;> simp [Performed.keepingStack]

theorem Performed.ofStack_eq_ok {x : Except VmError Stack} :
    Performed.ofStack f host x = .ok e ↔ ∃ s, x = .ok s ∧ e = .ofItems f host s.items := by
  cases x <;> simp [Performed.ofStack, Effect.ofItems, eq_comm]

variable [Host σ]

theorem performKeccak_performs (h : performKeccak c f host = .ok e) :
    Performs c f host .keccak256 e := by
  unfold performKeccak at h
  split at h
  case h_1 offset len rest items =>
    simp only [bind_eq_ok, pure, Except.pure, Except.ok.injEq] at h
    obtain ⟨region, named, ⟨memory, gas⟩, settled, rfl⟩ := h
    refine .hashed items named ?_
    -- The length operand is zero if there is no region, so it always gives the price.
    rw [← settled]
    rcases Region.ofOperands_eq_ok.mp named with ⟨rfl, rfl⟩ | ⟨-, -, -, rfl⟩ <;> rfl
  case h_2 => cases h

theorem performLoad_performs (h : performLoad c f host = .ok e) : Performs c f host .mload e := by
  unfold performLoad at h
  split at h
  case h_1 offset rest items =>
    simp only [bind_eq_ok, Region.position_eq_ok, pure, Except.pure, Except.ok.injEq] at h
    obtain ⟨_, ⟨named, rfl⟩, ⟨memory, gas⟩, settled, rfl⟩ := h
    exact .loaded items named settled
  case h_2 => cases h

theorem performStore_performs {op : Operation} {bytes : Word → Bytes}
    (stores : op = .mstore ∧ bytes = Word.toBytes ∨ op = .mstore8 ∧ bytes = fun w => [w.byte 31])
    (h : performStore c f host bytes = .ok e) : Performs c f host op e := by
  unfold performStore at h
  split at h
  case h_1 offset value rest items =>
    simp only [bind_eq_ok, Region.position_eq_ok, pure, Except.pure, Except.ok.injEq] at h
    obtain ⟨_, ⟨named, rfl⟩, ⟨memory, gas⟩, settled, rfl⟩ := h
    exact .stored stores items named settled
  case h_2 => cases h

theorem performHalt_performs {op : Operation} {status : Status}
    (halts : op = .ret ∧ status = .success ∨ op = .revert ∧ status = .revert)
    (h : performHalt c f host status = .ok e) : Performs c f host op e := by
  unfold performHalt at h
  split at h
  case h_1 offset len rest items =>
    simp only [bind_eq_ok, pure, Except.pure, Except.ok.injEq] at h
    obtain ⟨region, named, ⟨memory, gas⟩, settled, rfl⟩ := h
    exact .returned halts items named settled
  case h_2 => cases h

theorem performCall_performs (h : performCall c f host = .ok e) : Performs c f host .call e := by
  unfold performCall at h
  split at h
  case h_1 forwarded target value inOffset inLen outOffset outLen rest items =>
    simp only [bind_eq_ok] at h
    obtain ⟨input, namedInput, output, namedOutput, h⟩ := h
    split at h
    · cases h
    · rename_i allowed
      have allowed : c.message.isStatic = true → value = 0 := by simpa using allowed
      rw [bind_eq_ok] at h
      obtain ⟨⟨memory, gas⟩, settled, h⟩ := h
      split at h
      · cases h
        exact .refused items namedInput namedOutput allowed settled ‹_›
      · cases h
        exact .called items namedInput namedOutput allowed settled ‹_› rfl rfl
  case h_2 => cases h

theorem Operation.perform_performs {op : Operation} (h : op.perform c f host = .ok e) :
    Performs c f host op e := by
  cases op with
  | stop => cases h; exact .stopped
  | unary op =>
    simp only [perform] at h
    split at h
    case h_1 a rest items => cases h; exact .rearranged (.unary items)
    case h_2 => cases h
  | binary op =>
    simp only [perform] at h
    split at h
    case h_1 a b rest items => cases h; exact .rearranged (.binary items)
    case h_2 => cases h
  | keccak256 => exact performKeccak_performs (Performed.keepingStack_eq_ok.mp h)
  | observe quantity =>
    obtain ⟨s, hs, rfl⟩ := Performed.ofStack_eq_ok.mp h
    obtain ⟨room, rfl⟩ := Stack.push_eq_ok.mp hs
    exact .rearranged (.observe room)
  | callDataLoad =>
    simp only [perform] at h
    split at h
    case h_1 offset rest items => cases h; exact .rearranged (.callDataLoad items)
    case h_2 => cases h
  | pop =>
    simp only [perform] at h
    split at h
    case h_1 top rest items => cases h; exact .rearranged (.pop items)
    case h_2 => cases h
  | mload => exact performLoad_performs (Performed.keepingStack_eq_ok.mp h)
  | mstore => exact performStore_performs (.inl ⟨rfl, rfl⟩) (Performed.keepingStack_eq_ok.mp h)
  | mstore8 => exact performStore_performs (.inr ⟨rfl, rfl⟩) (Performed.keepingStack_eq_ok.mp h)
  | sload =>
    simp only [perform] at h
    split at h
    case h_1 key rest items => cases h; exact .rearranged (.sload items)
    case h_2 => cases h
  | sstore =>
    simp only [perform] at h
    split at h
    · cases h
    · split at h
      case h_1 key value rest items =>
        cases h
        exact .wrote items (by simpa using ‹¬ c.message.isStatic = true›)
      case h_2 => cases h
  | jump =>
    simp only [perform] at h
    split at h
    case h_1 target rest items =>
      split at h
      case h_1 position hp =>
        obtain ⟨marked, rfl⟩ := Code.jumpTarget_eq_ok.mp hp
        cases h
        exact .jumped items marked
      case h_2 => cases h
    case h_2 => cases h
  | jumpi =>
    simp only [perform] at h
    split at h
    case h_1 target condition rest items =>
      split at h
      · rename_i hz
        cases h
        exact .rearranged (.jumpi (hz ▸ items))
      · split at h
        case h_1 position hp =>
          obtain ⟨marked, rfl⟩ := Code.jumpTarget_eq_ok.mp hp
          cases h
          exact .branched items ‹_› marked
        case h_2 => cases h
    case h_2 => cases h
  | jumpDest => cases h; exact .rearranged .jumpDest
  | push n =>
    obtain ⟨s, hs, rfl⟩ := Performed.ofStack_eq_ok.mp h
    obtain ⟨room, rfl⟩ := Stack.push_eq_ok.mp hs
    exact .rearranged (.push room)
  | dup n =>
    obtain ⟨s, hs, rfl⟩ := Performed.ofStack_eq_ok.mp h
    obtain ⟨room, m, w, rfl, item, rfl⟩ := Stack.dup_eq_ok.mp hs
    exact .rearranged (.dup item room)
  | swap n =>
    obtain ⟨s, hs, rfl⟩ := Performed.ofStack_eq_ok.mp h
    obtain ⟨m, top, w, rest, rfl, items, item, rfl⟩ := Stack.swap_eq_ok.mp hs
    exact .rearranged (.swap items item)
  | call => exact performCall_performs (Performed.keepingStack_eq_ok.mp h)
  | ret => exact performHalt_performs (.inl ⟨rfl, rfl⟩) (Performed.keepingStack_eq_ok.mp h)
  | revert => exact performHalt_performs (.inr ⟨rfl, rfl⟩) (Performed.keepingStack_eq_ok.mp h)

theorem Performs.perform_eq {op : Operation} (h : Performs c f host op e) :
    op.perform c f host = .ok e := by
  cases h with
  | rearranged h =>
    cases h with
    | unary items => simp [Operation.perform, items]
    | binary items => simp [Operation.perform, items]
    | observe room => exact Performed.ofStack_eq_ok.mpr ⟨_, Stack.push_eq_ok.mpr ⟨room, rfl⟩, rfl⟩
    | callDataLoad items => simp [Operation.perform, items]
    | pop items => simp [Operation.perform, items]
    | sload items => simp [Operation.perform, items]
    | jumpi items => simp [Operation.perform, items]
    | jumpDest => rfl
    | push room => exact Performed.ofStack_eq_ok.mpr ⟨_, Stack.push_eq_ok.mpr ⟨room, rfl⟩, rfl⟩
    | dup item room =>
      exact Performed.ofStack_eq_ok.mpr
        ⟨_, Stack.dup_eq_ok.mpr ⟨room, _, _, rfl, item, rfl⟩, rfl⟩
    | swap items item =>
      exact Performed.ofStack_eq_ok.mpr
        ⟨_, Stack.swap_eq_ok.mpr ⟨_, _, _, _, rfl, items, item, rfl⟩, rfl⟩
  | stopped => rfl
  | jumped items marked =>
    simp [Operation.perform, items, Code.jumpTarget_eq_ok.mpr ⟨marked, rfl⟩]
  | branched items taken marked =>
    simp only [Operation.perform, items, if_neg taken, Code.jumpTarget_eq_ok.mpr ⟨marked, rfl⟩]
  | wrote items dynamic => simp [Operation.perform, items, dynamic]
  | @hashed _ _ _ _ memory gas items named settled =>
    refine Performed.keepingStack_eq_ok.mpr ?_
    simp only [performKeccak, items]
    refine bind_eq_ok.mpr ⟨_, named, bind_eq_ok.mpr ⟨(memory, gas), ?_, rfl⟩⟩
    rw [← settled]
    rcases Region.ofOperands_eq_ok.mp named with ⟨rfl, rfl⟩ | ⟨-, -, -, rfl⟩ <;> rfl
  | loaded items named settled =>
    refine Performed.keepingStack_eq_ok.mpr ?_
    simp only [performLoad, items]
    exact bind_eq_ok.mpr ⟨_, Region.position_ok named, bind_eq_ok.mpr ⟨_, settled, rfl⟩⟩
  | stored stores items named settled =>
    rcases stores with ⟨rfl, rfl⟩ | ⟨rfl, rfl⟩
    all_goals
      refine Performed.keepingStack_eq_ok.mpr ?_
      simp only [performStore, items]
      exact bind_eq_ok.mpr ⟨_, Region.position_ok named, bind_eq_ok.mpr ⟨_, settled, rfl⟩⟩
  | returned halts items named settled =>
    rcases halts with ⟨rfl, rfl⟩ | ⟨rfl, rfl⟩
    all_goals
      refine Performed.keepingStack_eq_ok.mpr ?_
      simp only [performHalt, items]
      exact bind_eq_ok.mpr ⟨_, named, bind_eq_ok.mpr ⟨_, settled, rfl⟩⟩
  | refused items namedInput namedOutput allowed settled deep =>
    refine Performed.keepingStack_eq_ok.mpr ?_
    simp only [performCall, items]
    refine bind_eq_ok.mpr ⟨_, namedInput, bind_eq_ok.mpr ⟨_, namedOutput, ?_⟩⟩
    rw [if_neg (by simpa using allowed)]
    exact bind_eq_ok.mpr ⟨_, settled, if_pos deep⟩
  | called items namedInput namedOutput allowed settled shallow request answer =>
    refine Performed.keepingStack_eq_ok.mpr ?_
    simp only [performCall, items]
    refine bind_eq_ok.mpr ⟨_, namedInput, bind_eq_ok.mpr ⟨_, namedOutput, ?_⟩⟩
    rw [if_neg (by simpa using allowed)]
    refine bind_eq_ok.mpr ⟨_, settled, ?_⟩
    simp only [if_neg shallow, ← request, answer]

/-- The rules describe exactly the operations that do not fault. -/
theorem perform_eq_ok {op : Operation} : op.perform c f host = .ok e ↔ Performs c f host op e :=
  ⟨Operation.perform_performs, Performs.perform_eq⟩

/-! ## How an operation goes on -/

theorem Performs.marked_of_jump {op : Operation} {target : Nat} (h : Performs c f host op e)
    (jumps : e.control = .jump target) : c.code.isJumpDest target := by
  cases h with
  | jumped _ marked | branched _ _ marked => cases jumps; exact marked
  | rearranged _ | stopped | wrote _ _ | hashed _ _ _ | loaded _ _ _ | stored _ _ _ _
  | returned _ _ _ _ | refused _ _ _ _ _ _ | called _ _ _ _ _ _ _ _ => cases jumps

/-- An operation that ends the execution ends it well. -/
theorem Performs.keepsGas_of_halt {op : Operation} {status : Status} {output : Bytes}
    (h : Performs c f host op e) (halts : e.control = .halt status output) :
    status.keepsGas = true := by
  cases h with
  | stopped => cases halts; rfl
  | returned ends _ _ _ =>
    cases halts
    rcases ends with ⟨-, rfl⟩ | ⟨-, rfl⟩ <;> rfl
  | rearranged _ | jumped _ _ | branched _ _ _ | wrote _ _ | hashed _ _ _ | loaded _ _ _
  | stored _ _ _ _ | refused _ _ _ _ _ _ | called _ _ _ _ _ _ _ _ => cases halts

end

end StackMachine
