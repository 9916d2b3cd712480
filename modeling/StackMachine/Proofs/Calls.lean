import Mathlib.Algebra.Group.Nat.Defs
import StackMachine.Proofs.NestedCalls

/-!
# What a nested call does

The operands of a nested call, what the host is asked for, and what is made of its answer. The input
is read before the output is written, so it makes no difference whether the two regions overlap.
`Performs.call_cases` says what becomes of the host, the bytes of memory and the stack,
`Performs.growth_of_call` what is paid; `Execution.call_effect` puts both together for one step.
-/

namespace StackMachine

/-! ## Operands -/

/-- The operands of a nested call, the first of them on top. -/
structure CallOperands where
  gas : Word
  target : Word
  value : Word
  inOffset : Word
  inLen : Word
  outOffset : Word
  outLen : Word

namespace CallOperands

/-- The operands as they lie on the stack. -/
def items (o : CallOperands) : List Word :=
  [o.gas, o.target, o.value, o.inOffset, o.inLen, o.outOffset, o.outLen]

/-- The regions of the input and of the output, as far as they have bytes. -/
def regions (o : CallOperands) : List Region :=
  Region.named o.inOffset o.inLen ++ Region.named o.outOffset o.outLen

/-- What the host is asked. -/
structure Asks (o : CallOperands) (c : Context) (before : Memory) (m : Message) : Prop where
  kind : m.kind = .call
  isStatic : m.isStatic = c.message.isStatic
  depth : m.depth.toInt = c.message.depth.toInt + 1
  gas : m.gas = (min o.gas.toNat maxGas : Nat)
  destination : m.destination.toNat = o.target.toNat % 2 ^ 160
  account : m.codeAddress = m.destination
  sender : m.sender = c.message.destination
  value : m.value = o.value
  /-- The bytes that memory had before the call, zeros past its size. -/
  input : m.input = (List.range o.inLen.toNat).map fun i => before.byte (o.inOffset.toNat + i)

/-- A byte of memory once the output was received, as far as there is room for it. -/
def receive (o : CallOperands) (before : Memory) (output : Bytes) : Tape := fun a =>
  if o.outOffset.toNat ≤ a ∧ a < o.outOffset.toNat + min o.outLen.toNat output.length then
    output.getD (a - o.outOffset.toNat) 0
  else before.byte a

/-- The message of a nested call with these operands. -/
def request (o : CallOperands) (c : Context) (before : Memory) : Message :=
  nestedMessage c o.gas o.target o.value (Tape.read before.byte o.inOffset.toNat o.inLen.toNat)

theorem asks_request (o : CallOperands) {c : Context} (before : Memory)
    (shallow : ¬ c.config.maxCallDepth ≤ c.message.depth) :
    o.Asks c before (o.request c before) where
  kind := rfl
  isStatic := rfl
  depth := (toInt_depth_succ shallow).1
  gas := rfl
  destination := rfl
  account := rfl
  sender := rfl
  value := rfl
  input := rfl

theorem receive_eq_write (o : CallOperands) (before : Memory) (output : Bytes) :
    o.receive before output
      = Tape.write before.byte o.outOffset.toNat (output.take o.outLen.toNat) := by
  funext a
  unfold receive Tape.write
  by_cases low : o.outOffset.toNat ≤ a
  · rw [if_pos low, List.getD_eq_getElem?_getD, List.getD_eq_getElem?_getD, List.getElem?_take]
    by_cases room : a - o.outOffset.toNat < o.outLen.toNat
    · rw [if_pos room]
      by_cases within : a - o.outOffset.toNat < output.length
      · rw [if_pos (by omega), List.getElem?_eq_getElem within]
        rfl
      · rw [if_neg (by omega), List.getElem?_eq_none (Nat.not_lt.mp within)]
        rfl
    · rw [if_neg (by omega), if_neg room]
      rfl
  · rw [if_neg fun both => low both.1, if_neg low]

variable {o : CallOperands} {s : Stack} {rest : List Word}

theorem eq_of_items {gas target value inOffset inLen outOffset outLen : Word} {others : List Word}
    (h : gas :: target :: value :: inOffset :: inLen :: outOffset :: outLen :: others
      = o.items ++ rest) :
    o = ⟨gas, target, value, inOffset, inLen, outOffset, outLen⟩ ∧ rest = others := by
  cases h
  exact ⟨rfl, rfl⟩

theorem touched_call (items : s.items = o.items ++ rest) :
    Operation.call.touched s = o.regions := by
  simp only [Operation.touched, items]
  rfl

theorem inscribe_call {σ : Type} [Host σ] (c : Context) (host : σ) (before : Memory)
    (items : s.items = o.items ++ rest) :
    Operation.call.inscribe c s host before.byte =
      if c.config.maxCallDepth ≤ c.message.depth then before.byte
      else o.receive before (Host.call host (o.request c before)).1.output := by
  rw [o.receive_eq_write]
  simp only [Operation.inscribe, items]
  rfl

end CallOperands

/-! ## Carrying a call out -/

theorem ExecutionResult.ofBool_isSuccess (r : ExecutionResult) :
    Word.ofBool r.isSuccess = if r.status = .success then 1 else 0 := by
  by_cases h : r.status = .success <;> simp [isSuccess, Status.isSuccess, Word.ofBool, h]

section

variable {σ : Type} [Host σ] {c : Context} {f : Frame} {host : σ} {e : Effect σ}
  {o : CallOperands} {rest : List Word}

/-- Memory grows once, to the end of the further region, and its growth is all that is paid. -/
theorem Performs.growth_of_call (h : Performs c f host .call e)
    (items : f.stack.items = o.items ++ rest) :
    e.memory.size = max f.memory.size (Region.highest o.regions) ∧
      e.gas = f.gas.less (c.config.memoryPolicy.expansionCost f.memory.size e.memory.size) := by
  constructor
  · rw [← o.touched_call items]
    exact (h.tracks (t := f.memory.byte) fun _ => rfl).size
  · have price := MemoryPolicy.expansionCost_le c.config.memoryPolicy f.memory.size e.memory.size
    rw [h.gas_eq]
    exact congrArg f.gas.less (saturate_of_le price)

/-- A call is refused at the limit of depth. Below it the host is asked once, for the bytes that
memory had before the call. -/
theorem Performs.call_cases (h : Performs c f host .call e)
    (items : f.stack.items = o.items ++ rest) :
    let answer := Host.call host (o.request c f.memory)
    e.control = .next ∧
      (c.config.maxCallDepth ≤ c.message.depth ∧ e.host = host ∧
          e.memory.Shows f.memory.byte ∧ e.stack.items = 0 :: rest ∨
        ¬ c.config.maxCallDepth ≤ c.message.depth ∧ e.host = answer.2 ∧
          e.memory.Shows (o.receive f.memory answer.1.output) ∧
          e.stack.items = .ofBool answer.1.isSuccess :: rest) := by
  intro answer
  have written := (h.tracks (t := f.memory.byte) fun _ => rfl).shows
  rw [o.inscribe_call c host f.memory items] at written
  cases h with
  | refused items' _ _ _ _ deep =>
    obtain ⟨-, rfl⟩ := CallOperands.eq_of_items (items'.symm.trans items)
    rw [if_pos deep] at written
    exact ⟨rfl, .inl ⟨deep, rfl, written, rfl⟩⟩
  | called items' namedInput namedOutput allowed settled shallow request given =>
    rename_i message result after
    obtain ⟨rfl, rfl⟩ := CallOperands.eq_of_items (items'.symm.trans items)
    rw [if_neg shallow] at written
    -- The host sees memory once both regions are settled, which has the same bytes as before.
    have shows := (Frame.settle_tracks (t := f.memory.byte) (fun _ => rfl) settled).shows
    rw [shows.bytes_eq namedInput] at request
    have answered : answer = (result, after) := by
      rw [← given, request]
      rfl
    rw [answered]
    refine ⟨rfl, .inr ⟨shallow, rfl, ?_, rfl⟩⟩
    rw [← congrArg Prod.fst answered]
    exact written
  | rearranged h => cases h
  | stored other _ _ _ | returned other _ _ _ => simp at other

end

/-! ## The step -/

namespace Execution

variable {σ : Type} [Host σ]

theorem price_of_completes {e : Execution σ} {op : Operation} {opcode : UInt8}
    (completes : e.completes op = true) (fetched : e.opcode? = some opcode) :
    e.context.price opcode = e.context.config.gasSchedule.instructionCost (some op) := by
  have decoded := operation?_of_completes completes
  rw [operation?, fetched, Option.bind_some] at decoded
  rw [Context.price, decoded]

/-- A call that does not fault pays its base price and the growth of memory to the end of the
further region, and goes on with the next instruction. Below the limit of depth the host is asked
once, the output is received as far as there is room for it, and whether the call succeeded is
pushed. At the limit nothing is asked or received, and zero is pushed. -/
theorem call_effect {e : Execution σ} {o : CallOperands} {rest : List Word}
    (completes : e.completes .call = true) (items : e.frame.stack.items = o.items ++ rest) :
    let c := e.context
    let before := e.frame.memory
    let after := e.step
    (after.frame.state = .running ∧ after.frame.pc = e.frame.pc + 1 ∧
        after.frame.memory.size = max before.size (Region.highest o.regions) ∧
        after.frame.gas = e.frame.gas.less (c.config.gasSchedule.instructionCost (some .call)
          + c.config.memoryPolicy.expansionCost before.size after.frame.memory.size)) ∧
      (c.message.depth < c.config.maxCallDepth → ∃ request, o.Asks c before request ∧
        let answer := Host.call e.host request
        after.host = answer.2 ∧
          (∀ a, after.frame.memory.byte a = o.receive before answer.1.output a) ∧
          after.frame.stack.items = (if answer.1.status = .success then 1 else 0) :: rest) ∧
      (c.config.maxCallDepth ≤ c.message.depth → after.host = e.host ∧
        (∀ a, after.frame.memory.byte a = before.byte a) ∧
        after.frame.stack.items = 0 :: rest) := by
  intro c before after
  obtain ⟨opcode, effect, fetched, performs, frame, host⟩ := performs_of_completes completes
  have running := running_of_opcode? fetched
  have next : after.frame = (e.frame.paying (c.price opcode)).proceed .call effect := frame
  obtain ⟨size, gas⟩ := performs.growth_of_call items
  obtain ⟨control, outcome⟩ := performs.call_cases items
  have memory : after.frame.memory = effect.memory := by rw [next, Frame.proceed_memory]
  have stack : after.frame.stack = effect.stack := by rw [next, Frame.proceed_stack]
  have left : after.host = effect.host := host
  refine ⟨⟨?_, ?_, ?_, ?_⟩, fun shallow => ?_, fun deep => ?_⟩
  · rw [next, Frame.proceed, control]
    exact running
  · rw [next, Frame.proceed, control]
    rfl
  · rw [memory]
    exact size
  · rw [next, Frame.proceed_gas, Frame.proceed_memory, gas, Frame.paying_gas, GasMeter.less_less,
      price_of_completes completes fetched]
    rfl
  · have shallow : ¬ c.config.maxCallDepth ≤ c.message.depth := Int32.not_le.mpr shallow
    obtain ⟨-, asked, shows, pushed⟩ := outcome.resolve_left fun refused => shallow refused.1
    refine ⟨o.request c before, o.asks_request before shallow, left.trans asked, ?_, ?_⟩
    · rw [memory]
      exact shows
    · rw [stack, pushed, ExecutionResult.ofBool_isSuccess]
      rfl
  · obtain ⟨-, kept, shows, pushed⟩ := outcome.resolve_right fun asked => asked.1 deep
    rw [left, memory, stack]
    exact ⟨kept, shows, pushed⟩

/-- The input overlaps the output, of which one byte has no room; then the same at the limit of
depth. -/
theorem call_effect_overlap :
    let c : Context := ⟨{ Config.default with memoryPolicy := .linear 1 }, .latest, .call 0 9 99,
      .ofBytes [0x60, 7, 0x60, 0xff, 0x60, 1, 0x53, 0x60, 2, 0x60, 1, 0x60, 33, 0x60, 0, 0x60, 5,
        0x60, 0, 0x19, 0x60, 0, 0x19, 0xf1]⟩
    let deep : Context := { c with message := { c.message with depth := defaultCallDepth } }
    let host := { RecordingHost.empty with callResult := .success 0 [0xaa, 0xbb, 0xcc] }
    let o : CallOperands := ⟨~~~ 0, ~~~ 0, 5, 0, 33, 1, 2⟩
    ((steps 13 (start c host)).completes .call = true ∧
        (steps 13 (start c host)).frame.stack.items = o.items ++ [7]) ∧
      (∃ request, o.Asks c (steps 13 (start c host)).frame.memory request ∧
        (steps 13 (start c host)).step.host.calls = [request]) ∧
      (List.range 4).map (steps 13 (start c host)).step.frame.memory.byte = [0, 0xaa, 0xbb, 0] ∧
      (steps 13 (start c host)).step.frame.stack.items = [1, 7] ∧
      (steps 13 (start c host)).step.frame.gas.remaining = 83 ∧
      (steps 13 (start deep host)).step.host.calls = [] ∧
      (steps 13 (start deep host)).step.frame.stack.items = [0, 7] := by
  intro c deep host o
  have completes : (steps 13 (start c host)).completes .call = true := by decide +kernel
  have items : (steps 13 (start c host)).frame.stack.items = o.items ++ [7] := by decide +kernel
  have completes' : (steps 13 (start deep host)).completes .call = true := by decide +kernel
  have items' : (steps 13 (start deep host)).frame.stack.items = o.items ++ [7] := by
    decide +kernel
  have shallow : c.message.depth < c.config.maxCallDepth := by decide
  have limit : deep.config.maxCallDepth ≤ deep.message.depth := by decide
  have context : (steps 13 (start c host)).context = c := steps_context 13 _
  have context' : (steps 13 (start deep host)).context = deep := steps_context 13 _
  have silent : (steps 13 (start c host)).host.calls = [] := by decide +kernel
  have answer : (steps 13 (start c host)).host.callResult = .success 0 [0xaa, 0xbb, 0xcc] := by
    decide +kernel
  obtain ⟨⟨-, -, size, gas⟩, called, -⟩ := call_effect completes items
  obtain ⟨-, -, refused⟩ := call_effect completes' items'
  rw [context] at called gas
  rw [context'] at refused
  obtain ⟨request, asks, left, shown, pushed⟩ := called shallow
  obtain ⟨kept, -, pushed'⟩ := refused limit
  rw [RecordingHost.call_eq] at left
  simp only [RecordingHost.call_eq, answer] at shown pushed
  refine ⟨⟨completes, items⟩, ⟨request, asks, ?_⟩, ?_, pushed, ?_, ?_, pushed'⟩
  · rw [left, silent, List.nil_append]
  · rw [funext shown]
    decide +kernel
  · rw [gas, size]
    decide +kernel
  · rw [kept]
    decide +kernel

end Execution

end StackMachine
