import StackMachine.Proofs.Arity
import StackMachine.Proofs.Conservation
import StackMachine.Proofs.Tape

/-!
# Which fault comes first

`Execution.fault?` says whether the next step faults, and with which status, from the code, the
stack, the meter and the sizes alone: it asks for one reason after another, and the first one that
holds is the fault. `Operation.perform_fault?` says that an operation finds the same reason, in
whatever order it looks at its operands, and `Execution.step_fault?` that a step does.
-/

namespace StackMachine

/-! ## Reasons to fault -/

/-- A region with an offset or a length that is no size. -/
def Region.IsLarge (r : Region) : Prop :=
  sizeLimit ≤ r.offset ∨ sizeLimit ≤ r.len

instance (r : Region) : Decidable r.IsLarge :=
  inferInstanceAs (Decidable (_ ∨ _))

namespace Operation

/-- A jump is taken to a position that is no jump destination. -/
def misses (code : Code) (s : Stack) : Operation → Bool
  | jump => match s.items with
    | target :: _ => !code.isJumpDest target.toNat
    | _ => false
  | jumpi => match s.items with
    | target :: condition :: _ => condition ≠ 0 && !code.isJumpDest target.toNat
    | _ => false
  | _ => false

/-- A nested call transfers value. -/
def transfers (s : Stack) : Operation → Bool
  | call => match s.items with
    | _ :: _ :: value :: _ => value ≠ 0
    | _ => false
  | _ => false

/-- The price of what an operation touches and hashes: memory grows once, to the furthest end. -/
def touchPrice (c : Context) (f : Frame) (op : Operation) : Nat :=
  c.config.memoryPolicy.expansionCost f.memory.size
    (max f.memory.size (Region.highest (op.touched f.stack))) + op.hashGas c f.stack

/-- The fault of an operation whose operands are there, if there is one: the first of these reasons
that holds. -/
def fault? (c : Context) (f : Frame) (op : Operation) : Option Status :=
  if op = sstore ∧ c.message.isStatic then some .staticModeViolation
  else if op.misses c.code f.stack then some .badJumpDestination
  else if ∃ r ∈ op.touched f.stack, r.IsLarge then some .memoryBoundsExceeded
  else if op.transfers f.stack ∧ c.message.isStatic then some .staticModeViolation
  else if ∃ r ∈ op.touched f.stack, c.config.maxMemorySize.toNat < r.offset + r.len then
    some .memoryBoundsExceeded
  else if f.gas.remaining < op.touchPrice c f then some .outOfGas
  else none

end Operation

/-- The status of a fault that ended the execution. -/
def State.fault? : State → Option Status
  | .running => none
  | .halted result => if result.status.keepsGas then none else some result.status

/-- The fault of the next step if it fetches an opcode: the first of these reasons that holds, and
once the operands are there the fault of the operation. -/
def Execution.fault? {σ : Type} (e : Execution σ) (opcode : UInt8) : Option Status :=
  let price := e.context.price opcode
  if e.frame.gas.remaining < price then some .outOfGas
  else match Operation.at? e.context.revision opcode with
    | none => some .undefinedInstruction
    | some op =>
      if e.frame.stack.size < op.inputs then some .stackUnderflow
      else if stackLimit < e.frame.stack.size - op.inputs + op.outputs then some .stackOverflow
      else op.fault? e.context (e.frame.paying price)

/-! ## Large regions -/

namespace Region

theorem Unnamed.exists_isLarge {offset len : Word} (h : Unnamed offset len) :
    ∃ r ∈ named offset len, r.IsLarge := by
  obtain ⟨nonempty, large⟩ := h
  refine ⟨⟨offset.toNat, len.toNat⟩, ?_, large.symm⟩
  rw [named, if_neg nonempty]
  exact List.mem_cons_self

/-- The region that operands name has bytes and is not large. -/
theorem proper_of_ofOperands {offset len : Word} {region : Option Region}
    (h : ofOperands offset len = .ok region) :
    ∀ r ∈ region.toList, r.len ≠ 0 ∧ ¬ r.IsLarge := by
  intro r hr
  rcases ofOperands_eq_ok.mp h with ⟨-, rfl⟩ | ⟨nonempty, len_lt, offset_lt, rfl⟩
  · cases hr
  · cases List.mem_singleton.mp hr
    refine ⟨fun empty => nonempty (BitVec.eq_of_toNat_eq empty), ?_⟩
    exact not_or.mpr ⟨Nat.not_le.mpr offset_lt, Nat.not_le.mpr len_lt⟩

end Region

/-! ## Operations that touch memory -/

section

variable {c : Context} {f : Frame} {op : Operation} {regions : List Region} {extra : Nat}

theorem Touches.touched (h : Touches c f op regions extra) : op.touched f.stack = regions := by
  cases h with
  | mload items _ | mstore items _ | mstore8 items _ => simp only [Operation.touched, items]
  | keccak256 items named =>
    simp only [Operation.touched, items, Region.toList_of_ofOperands named]
  | halt halts items named =>
    rcases halts with rfl | rfl <;>
      simp only [Operation.touched, items, Region.toList_of_ofOperands named]
  | call items namedInput namedOutput _ =>
    simp only [Operation.touched, items, Region.toList_of_ofOperands namedInput,
      Region.toList_of_ofOperands namedOutput]

theorem Touches.proper (h : Touches c f op regions extra) :
    ∀ r ∈ regions, r.len ≠ 0 ∧ ¬ r.IsLarge := by
  intro r hr
  cases h with
  | mload _ named | mstore _ named | mstore8 _ named =>
    cases List.mem_singleton.mp hr
    exact ⟨by simp, not_or.mpr ⟨Nat.not_le.mpr named, by simp [sizeLimit]⟩⟩
  | keccak256 _ named | halt _ _ named => exact Region.proper_of_ofOperands named r hr
  | call _ namedInput namedOutput _ =>
    rcases List.mem_append.mp hr with hr | hr
    · exact Region.proper_of_ofOperands namedInput r hr
    · exact Region.proper_of_ofOperands namedOutput r hr

/-- What touches memory neither writes to storage nor jumps, and transfers no value that it may not
transfer. -/
theorem Touches.allowed (h : Touches c f op regions extra) :
    op ≠ .sstore ∧ op.misses c.code f.stack = false ∧
      ¬ (op.transfers f.stack ∧ c.message.isStatic) := by
  cases h with
  | mload _ _ | mstore _ _ | mstore8 _ _ | keccak256 _ _ =>
    simp [Operation.misses, Operation.transfers]
  | halt halts _ _ => rcases halts with rfl | rfl <;> simp [Operation.misses, Operation.transfers]
  | call items _ _ allowed =>
    refine ⟨Operation.noConfusion, rfl, ?_⟩
    rintro ⟨transfers, static⟩
    simp [Operation.transfers, items, allowed static] at transfers

/-- Regions that were named leave two reasons to fault: the limit and the price. -/
theorem Touches.fault?_eq (h : Touches c f op regions extra) :
    op.fault? c f =
      if ∃ r ∈ regions, c.config.maxMemorySize.toNat < r.offset + r.len then
        some .memoryBoundsExceeded
      else if f.gas.remaining < op.touchPrice c f then some .outOfGas
      else none := by
  obtain ⟨dynamic, hits, allowed⟩ := h.allowed
  have small : ¬ ∃ r ∈ op.touched f.stack, r.IsLarge := by
    rw [h.touched]
    rintro ⟨r, hr, large⟩
    exact (h.proper r hr).2 large
  rw [Operation.fault?, if_neg (fun both => dynamic both.1), hits, if_neg Bool.false_ne_true,
    if_neg small, if_neg allowed, h.touched]

/-- A meter of 63 bits does not tell a price from the price cut off. -/
theorem Touches.settlePrice_le_iff (h : Touches c f op regions extra)
    (bounded : f.gas.remaining ≤ maxGas) :
    (f.settlePrice c.config.memoryPolicy regions extra : Int) ≤ f.gas.remaining ↔
      (op.touchPrice c f : Int) ≤ f.gas.remaining := by
  rw [Frame.settlePrice, Region.furthest_eq, Operation.touchPrice, h.touched, ← h.extra]
  simp only [saturate, maxPrice, maxGas] at *
  omega

theorem Touches.within_iff (h : Touches c f op regions extra)
    (limit : f.memory.limit = c.config.maxMemorySize.toNat) :
    (∀ r ∈ regions, r.len = 0 ∨ r.offset + r.len ≤ f.memory.limit) ↔
      ¬ ∃ r ∈ regions, c.config.maxMemorySize.toNat < r.offset + r.len := by
  rw [limit]
  constructor
  · rintro within ⟨r, hr, past⟩
    have empty := (within r hr).resolve_right (Nat.not_le.mpr past)
    exact (h.proper r hr).1 empty
  · intro within r hr
    exact .inr (Nat.not_lt.mp fun past => within ⟨r, hr, past⟩)

theorem Touches.fault?_of_settled (h : Touches c f op regions extra)
    (bounded : f.gas.remaining ≤ maxGas)
    (limit : f.memory.limit = c.config.maxMemorySize.toNat) {memory : Memory} {gas : GasMeter}
    (settled : f.settle c.config.memoryPolicy regions extra = .ok (memory, gas)) :
    op.fault? c f = none := by
  obtain ⟨within, paid, -, -⟩ := Frame.settle_eq_ok.mp settled
  rw [h.within_iff limit] at within
  rw [h.settlePrice_le_iff bounded] at paid
  rw [h.fault?_eq, if_neg within, if_neg (Int.not_lt.mpr paid)]

theorem Touches.fault?_of_refused (h : Touches c f op regions extra)
    (bounded : f.gas.remaining ≤ maxGas)
    (limit : f.memory.limit = c.config.maxMemorySize.toNat) {error : VmError}
    (refused : f.settle c.config.memoryPolicy regions extra = .error error) :
    op.fault? c f = some error.status := by
  rw [h.fault?_eq]
  obtain ⟨past, rfl⟩ | ⟨within, unpaid, rfl⟩ := Frame.settle_refused refused
  · rw [h.within_iff limit, not_not] at past
    rw [if_pos past]
    rfl
  · rw [h.within_iff limit] at within
    rw [← Int.not_le, h.settlePrice_le_iff bounded, Int.not_le] at unpaid
    rw [if_neg within, if_pos unpaid]
    rfl

end

/-! ## One operation -/

section

variable {c : Context} {f : Frame} {op : Operation}

/-- What touches no memory faults for the write or the jump alone. -/
theorem Operation.fault?_of_untouched (solvent : 0 ≤ f.gas.remaining)
    (untouched : op.touched f.stack = []) (free : op.hashGas c f.stack = 0)
    (keeps : op.transfers f.stack = false) :
    op.fault? c f =
      if op = .sstore ∧ c.message.isStatic then some .staticModeViolation
      else if op.misses c.code f.stack then some .badJumpDestination
      else none := by
  have price : op.touchPrice c f = 0 := by
    rw [touchPrice, untouched, free]
    exact MemoryPolicy.expansionCost_of_le _ (Nat.max_le.mpr ⟨Nat.le_refl _, Nat.zero_le _⟩)
  have paid : ¬ f.gas.remaining < op.touchPrice c f := by
    rw [price]
    exact Int.not_lt.mpr solvent
  have without (P : Region → Prop) : ¬ ∃ r ∈ op.touched f.stack, P r := by simp [untouched]
  have keeps : ¬ (op.transfers f.stack ∧ c.message.isStatic) := by simp [keeps]
  rw [fault?, if_neg (without _), if_neg keeps, if_neg (without _), if_neg paid]

variable {σ : Type} [Host σ] {host : σ}

theorem Rearranges.fault? {items : List Word} (h : Rearranges c f host op items)
    (solvent : 0 ≤ f.gas.remaining) : op.fault? c f = none := by
  have untouched : op.touched f.stack = [] := by cases h <;> rfl
  have keeps : op.transfers f.stack = false := by cases h <;> rfl
  have dynamic : op ≠ .sstore := by cases h <;> exact Operation.noConfusion
  have hits : op.misses c.code f.stack = false := by
    cases h with
    | jumpi items => simp [Operation.misses, items]
    | _ => rfl
  rw [Operation.fault?_of_untouched solvent untouched (h.hashGas _) keeps,
    if_neg (fun both => dynamic both.1), hits, if_neg Bool.false_ne_true]

/-- An operation that is carried out had no reason to fault. -/
theorem Performs.fault? {e : Effect σ} (h : Performs c f host op e)
    (solvent : 0 ≤ f.gas.remaining) (bounded : f.gas.remaining ≤ maxGas)
    (limit : f.memory.limit = c.config.maxMemorySize.toNat) : op.fault? c f = none := by
  cases h with
  | rearranged h => exact h.fault? solvent
  | stopped => exact Operation.fault?_of_untouched solvent rfl rfl rfl
  | jumped items marked =>
    rw [Operation.fault?_of_untouched solvent rfl rfl rfl]
    simp [Operation.misses, items, marked]
  | branched items taken marked =>
    rw [Operation.fault?_of_untouched solvent rfl rfl rfl]
    simp [Operation.misses, items, marked]
  | wrote items dynamic =>
    rw [Operation.fault?_of_untouched solvent rfl rfl rfl]
    simp [Operation.misses, dynamic]
  | hashed items named settled =>
    exact (Touches.keccak256 items named).fault?_of_settled bounded limit settled
  | loaded items named settled =>
    exact (Touches.mload items named).fault?_of_settled bounded limit settled
  | stored stores items named settled =>
    rcases stores with ⟨rfl, rfl⟩ | ⟨rfl, rfl⟩
    · rw [Word.length_toBytes] at settled
      exact (Touches.mstore items named).fault?_of_settled bounded limit settled
    · exact (Touches.mstore8 items named).fault?_of_settled bounded limit settled
  | returned halts items named settled =>
    have touches : Touches c f op _ 0 := .halt (halts.imp And.left And.left) items named
    exact touches.fault?_of_settled bounded limit settled
  | refused items namedInput namedOutput allowed settled _
  | called items namedInput namedOutput allowed settled _ _ _ =>
    have touches := Touches.call items namedInput namedOutput allowed
    exact touches.fault?_of_settled bounded limit settled

/-- Operands that name no region are the reason of the fault, before any transfer of value. -/
theorem Unnamed.fault? (h : Unnamed f op) : op.fault? c f = some .memoryBoundsExceeded := by
  have apart : op ≠ .sstore ∧ op.misses c.code f.stack = false := by
    cases h with
    | access accesses _ _ => rcases accesses with rfl | rfl | rfl <;> simp [Operation.misses]
    | region takes _ _ => rcases takes with rfl | rfl | rfl <;> simp [Operation.misses]
    | call _ _ => simp [Operation.misses]
  have large : ∃ r ∈ op.touched f.stack, r.IsLarge := by
    cases h with
    | access accesses items large =>
      rcases accesses with rfl | rfl | rfl <;>
        simp [Operation.touched, items, Region.IsLarge, large]
    | region takes items large =>
      rcases takes with rfl | rfl | rfl <;>
        simpa only [Operation.touched, items] using large.exists_isLarge
    | call items large =>
      simp only [Operation.touched, items, List.mem_append]
      rcases large with large | large
      · obtain ⟨r, hr, large⟩ := large.exists_isLarge
        exact ⟨r, .inl hr, large⟩
      · obtain ⟨r, hr, large⟩ := large.exists_isLarge
        exact ⟨r, .inr hr, large⟩
  rw [Operation.fault?, if_neg (fun both => apart.1 both.1), apart.2, if_neg Bool.false_ne_true,
    if_pos large]

section

variable {forwarded target value inOffset inLen outOffset outLen : Word} {rest : List Word}

/-- A nested call looks at its regions before it looks at its value. -/
theorem named_of_performCall_static
    (items : f.stack.items =
      forwarded :: target :: value :: inOffset :: inLen :: outOffset :: outLen :: rest)
    (h : performCall c f host = .error .staticModeViolation) :
    ∃ input output, Region.ofOperands inOffset inLen = .ok input ∧
      Region.ofOperands outOffset outLen = .ok output := by
  simp only [performCall, items, bind_eq_error] at h
  rcases h with h | ⟨input, namedInput, h | ⟨output, namedOutput, -⟩⟩
  · cases (Region.ofOperands_eq_error.mp h).2
  · cases (Region.ofOperands_eq_error.mp h).2
  · exact ⟨input, output, namedInput, namedOutput⟩

theorem Operation.fault?_of_transfer {input output : Option Region}
    (items : f.stack.items =
      forwarded :: target :: value :: inOffset :: inLen :: outOffset :: outLen :: rest)
    (namedInput : Region.ofOperands inOffset inLen = .ok input)
    (namedOutput : Region.ofOperands outOffset outLen = .ok output)
    (static : c.message.isStatic = true) (transfers : value ≠ 0) :
    call.fault? c f = some .staticModeViolation := by
  have small : ¬ ∃ r ∈ call.touched f.stack, r.IsLarge := by
    simp only [touched, items, ← Region.toList_of_ofOperands namedInput,
      ← Region.toList_of_ofOperands namedOutput]
    rintro ⟨r, hr, large⟩
    rcases List.mem_append.mp hr with hr | hr
    · exact (Region.proper_of_ofOperands namedInput r hr).2 large
    · exact (Region.proper_of_ofOperands namedOutput r hr).2 large
  have moves : call.transfers f.stack = true := by
    simpa [Operation.transfers, items] using transfers
  rw [fault?, if_neg (by simp), if_neg (by simp [misses]), if_neg small, if_pos ⟨moves, static⟩]

end

/-- An operation whose operands are there finds the first reason to fault, in whatever order it
looks at them. -/
theorem Operation.perform_fault? {r : Revision} {b : UInt8} (decoded : at? r b = some op)
    (room : f.stack.require op.inputs op.outputs = .ok ())
    (solvent : 0 ≤ f.gas.remaining) (bounded : f.gas.remaining ≤ maxGas)
    (limit : f.memory.limit = c.config.maxMemorySize.toNat) {fault : Fault}
    (h : op.perform c f host = .error fault) : op.fault? c f = some fault.error.status := by
  cases Operation.perform_faults decoded room h with
  | wrote static => exact if_pos ⟨rfl, static⟩
  | jumped items unmarked =>
    rw [fault?_of_untouched solvent rfl rfl rfl]
    simp [misses, items, unmarked, VmError.status]
  | branched items taken unmarked =>
    rw [fault?_of_untouched solvent rfl rfl rfl]
    have missed : jumpi.misses c.code f.stack = true := by
      simpa [misses, items, unmarked] using taken
    rw [if_neg (by simp), if_pos missed]
    rfl
  | unnamed operands => exact operands.fault?
  | unsettled touches refused => exact touches.fault?_of_refused bounded limit refused
  | transferred items static transfers =>
    obtain ⟨error, fails, same⟩ := Performed.keepingStack_eq_error.mp h
    cases same
    obtain ⟨input, output, namedInput, namedOutput⟩ := named_of_performCall_static items fails
    exact fault?_of_transfer items namedInput namedOutput static transfers

end

/-! ## One step -/

theorem State.fault?_of_isFault {s : State} (sound : s.isFault = false) : s.fault? = none := by
  cases s with
  | running => rfl
  | halted result =>
    simp only [isFault, Bool.not_eq_false'] at sound
    exact if_pos sound

theorem Frame.fault?_fail (f : Frame) (error : VmError) :
    (f.fail error).state.fault? = some error.status := by
  rw [fail_state]
  exact if_neg (by simp [VmError.keepsGas_status])

namespace Execution

section

variable {σ : Type} {e : Execution σ} {opcode : UInt8}

theorem fault?_of_short (short : e.frame.gas.remaining < e.context.price opcode) :
    e.fault? opcode = some .outOfGas :=
  if_pos short

theorem fault?_of_undefined (paid : (e.context.price opcode : Int) ≤ e.frame.gas.remaining)
    (unknown : Operation.at? e.context.revision opcode = none) :
    e.fault? opcode = some .undefinedInstruction := by
  simp only [fault?, if_neg (Int.not_lt.mpr paid), unknown]

theorem fault?_of_decoded (paid : (e.context.price opcode : Int) ≤ e.frame.gas.remaining)
    {op : Operation} (decoded : Operation.at? e.context.revision opcode = some op) :
    e.fault? opcode =
      if e.frame.stack.size < op.inputs then some .stackUnderflow
      else if stackLimit < e.frame.stack.size - op.inputs + op.outputs then some .stackOverflow
      else op.fault? e.context (e.frame.paying (e.context.price opcode)) := by
  simp only [fault?, if_neg (Int.not_lt.mpr paid), decoded]

end

variable {σ : Type} [Host σ]

/-- A step faults for the first reason, or there is none and it does not fault. -/
theorem step_fault? {e : Execution σ} {opcode : UInt8} (running : e.frame.state = .running)
    (fetched : e.context.code.bytes[e.frame.pc]? = some opcode)
    (bounded : e.frame.gas.remaining ≤ maxGas)
    (limit : e.frame.memory.limit = e.context.config.maxMemorySize.toNat)
    (fits : e.frame.stack.size ≤ stackLimit) :
    e.step.frame.state.fault? = e.fault? opcode := by
  have bounded (amount : Nat) : (e.frame.paying amount).gas.remaining ≤ maxGas := by
    rw [Frame.paying_gas, GasMeter.less_remaining]
    omega
  obtain ⟨after, takes, frame, -⟩ := step_takes running
  rw [frame]
  cases takes with
  | ended past =>
    rw [past] at fetched
    cases fetched
  | unpaid same short =>
    cases fetched.symm.trans same
    rw [Frame.fault?_fail, fault?_of_short short]
    rfl
  | undefined same paid unknown =>
    cases fetched.symm.trans same
    rw [Frame.fault?_fail, fault?_of_undefined paid unknown]
    rfl
  | @faulted _ op fault same paid decoded attempted =>
    cases fetched.symm.trans same
    rw [Frame.fault?_fail, fault?_of_decoded paid decoded]
    unfold Context.attempt at attempted
    cases room : (e.frame.paying (e.context.price opcode)).stack.require op.inputs op.outputs with
    | error error =>
      rw [room] at attempted
      cases attempted
      rcases Stack.require_refused room with ⟨missing, rfl⟩ | ⟨enough, past, rfl⟩
      · exact (if_pos missing).symm
      · rw [Frame.paying_stack] at enough past
        rw [if_neg enough, if_pos past]
        rfl
    | ok u =>
      rw [room] at attempted
      obtain ⟨enough, within⟩ := Stack.fits_of_require room fits
      rw [Frame.paying_stack] at enough within
      rw [if_neg enough, if_neg within]
      exact (Operation.perform_fault? decoded room (Frame.paying_solvent paid) (bounded _) limit
        attempted).symm
  | performed same paid decoded room performs =>
    cases fetched.symm.trans same
    obtain ⟨enough, within⟩ := Stack.fits_of_require room fits
    rw [State.fault?_of_isFault (performs.isFault_proceed running), fault?_of_decoded paid decoded,
      if_neg enough, if_neg within]
    exact (performs.fault? (Frame.paying_solvent paid) (bounded _) limit).symm

/-- In every run, a step that fetches an opcode faults exactly if one of the reasons holds, with the
status of the first one. -/
theorem faults_in_order (c : Context) (host : σ) (bounded : c.message.gas ≤ maxGas) (k : Nat)
    {opcode : UInt8} (running : (steps k (start c host)).frame.state = .running)
    (fetched : c.code.bytes[(steps k (start c host)).frame.pc]? = some opcode) :
    (steps k (start c host)).step.frame.state.fault? = (steps k (start c host)).fault? opcode := by
  have context := steps_context k (start c host)
  have gas := (steps_accounted c host bounded k).bounded bounded
  have limit := (steps_track c host k).limit
  have fits := steps_stack_size_le c host k
  refine step_fault? running ?_ gas ?_ fits
  · rw [context]
    exact fetched
  · rw [context]
    exact limit

/-- A static message calls with value, with its output past the limit and no gas left for it. -/
theorem faults_in_order_call :
    let c : Context := ⟨{ Config.default with memoryPolicy := .quadratic }, .latest,
      (Message.call 0 0 8).asStatic,
      .ofBytes [0x60, 1, 0x65, 1, 0, 0, 0, 0, 0, 0x60, 0, 0x60, 0, 0x60, 1, 0x60, 0, 0x60, 0, 0xf1]⟩
    (c.message.gas ≤ maxGas ∧ (steps 7 (start c RecordingHost.empty)).frame.state = .running ∧
        c.code.bytes[(steps 7 (start c RecordingHost.empty)).frame.pc]? = some 0xf1) ∧
      (steps 7 (start c RecordingHost.empty)).step.frame.state.fault?
        = some .staticModeViolation := by
  intro c
  have bounded : c.message.gas ≤ maxGas := by decide
  have running : (steps 7 (start c RecordingHost.empty)).frame.state = .running := by
    decide +kernel
  have fetched : c.code.bytes[(steps 7 (start c RecordingHost.empty)).frame.pc]? = some 0xf1 := by
    decide +kernel
  have first : (steps 7 (start c RecordingHost.empty)).fault? 0xf1
      = some .staticModeViolation := by decide +kernel
  have faults := faults_in_order c RecordingHost.empty bounded 7 running fetched
  exact ⟨⟨bounded, running, fetched⟩, faults.trans first⟩

end Execution

end StackMachine
