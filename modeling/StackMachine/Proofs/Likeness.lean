import StackMachine.Proofs.Opcodes
import StackMachine.Proofs.Steps

/-!
# Executions that are alike

Two executions of the same code for the same message, each with its own gas, prices, limit of memory
and host. What the code does with them is the same, unless one of the two ends at a fault that the
other does not meet, or the code pushes what gas is left. `Operation.perform_alike` says so of one
operation, `Likeness.step_outcomes` of one step, `Likeness.Executions.steps` of any number of them
when the gas is the same.
-/

namespace StackMachine

/-! ## Results that match -/

/-- How the gas of two executions compares. -/
structure Comparison where
  /-- What is known of their meters. -/
  meters : GasMeter → GasMeter → Prop
  /-- Whether the second can run out of gas while the first does not. -/
  scarce : Prop

/-- Two results match: related values, the same error, or one of the two is short of gas. -/
inductive Comparison.Matches (k : Comparison) {ε α β : Type} (short : ε → Prop)
    (R : α → β → Prop) : Except ε α → Except ε β → Prop where
  | ok {a : α} {b : β} (related : R a b) : Matches k short R (.ok a) (.ok b)
  | error (error : ε) : Matches k short R (.error error) (.error error)
  | first {error : ε} (fails : short error) (y : Except ε β) : Matches k short R (.error error) y
  | second {error : ε} (scarce : k.scarce) (fails : short error) (x : Except ε α) :
      Matches k short R x (.error error)

namespace Comparison.Matches

variable {k : Comparison} {ε α β γ δ : Type} {short : ε → Prop} {R : α → β → Prop}
  {S : γ → δ → Prop}

theorem refl (x : Except ε α) : k.Matches short Eq x x := by
  cases x with
  | ok a => exact .ok rfl
  | error error => exact .error error

theorem bind {x : Except ε α} {y : Except ε β} {next : α → Except ε γ} {next' : β → Except ε δ}
    (h : k.Matches short R x y) (rest : ∀ a b, R a b → k.Matches short S (next a) (next' b)) :
    k.Matches short S (x >>= next) (y >>= next') := by
  cases h with
  | ok related => exact rest _ _ related
  | error error => exact .error error
  | first fails _ => exact .first fails _
  | second scarce fails _ => exact .second scarce fails _

theorem ite {p : Prop} [Decidable p] {x x' : Except ε α} {y y' : Except ε β}
    (yes : p → k.Matches short R x y) (no : ¬ p → k.Matches short R x' y') :
    k.Matches short R (if p then x else x') (if p then y else y') := by
  by_cases h : p
  · rw [if_pos h, if_pos h]
    exact yes h
  · rw [if_neg h, if_neg h]
    exact no h

end Comparison.Matches

/-! ## What is alike -/

/-- How two executions are alike, and what the second runs with instead. -/
structure Likeness (σ : Type) extends Comparison where
  /-- The faults that one of the two can meet alone. -/
  short : VmError → Prop
  /-- What is known of their limits of memory. -/
  limits : Nat → Nat → Prop
  /-- What is known of their hosts. -/
  hosts : σ → σ → Prop
  schedule : GasSchedule
  policy : MemoryPolicy
  gas : Int
  limit : UInt64

namespace Likeness

variable {σ : Type}

/-- The context of the second execution. -/
def context (k : Likeness σ) (c : Context) : Context :=
  { c with
    config := { c.config with
      gasSchedule := k.schedule, memoryPolicy := k.policy, maxMemorySize := k.limit }
    message := { c.message with gas := k.gas } }

/-- Both meters always hold the same. -/
def Even (k : Likeness σ) : Prop :=
  ∀ m m', k.meters m m' → m' = m

/-- Memories that differ in their limits alone. -/
structure Memories (k : Likeness σ) (m m' : Memory) : Prop where
  data : m'.data = m.data
  limits : k.limits m.limit m'.limit

/-- Effects that are alike. -/
structure Effects (k : Likeness σ) (e e' : Effect σ) : Prop where
  control : e'.control = e.control
  stack : e'.stack = e.stack
  memory : k.Memories e.memory e'.memory
  gas : k.meters e.gas e'.gas
  hosts : k.hosts e.host e'.host
  events : e'.events = e.events

/-- Charges of the same kind match. -/
structure Priced (k : Likeness σ) (config : Config) : Prop where
  instruction (op : Option Operation) {m m' : GasMeter} (h : k.meters m m') :
    k.Matches k.short k.meters (m.charge (config.gasSchedule.instructionCost op))
      (m'.charge (k.schedule.instructionCost op))
  memory (current new len : Nat) {m m' : GasMeter} (h : k.meters m m') :
    k.Matches k.short k.meters
      (m.charge (saturate
        (config.memoryPolicy.expansionCost current new + config.gasSchedule.hashCost len)))
      (m'.charge (saturate (k.policy.expansionCost current new + k.schedule.hashCost len)))

/-- Nothing that an execution asks of its host tells the two hosts apart. -/
structure Blind [Host σ] (k : Likeness σ) (c : Context) : Prop where
  txContext {host other : σ} (h : k.hosts host other) : Host.txContext other = Host.txContext host
  storage {host other : σ} (h : k.hosts host other) (key : Word) :
    Host.storage other c.message.destination key = Host.storage host c.message.destination key
  setStorage {host other : σ} (h : k.hosts host other) (key value : Word) :
    k.hosts (Host.setStorage host c.message.destination key value).2
      (Host.setStorage other c.message.destination key value).2
  isSuccess {host other : σ} (h : k.hosts host other) (message : Message) :
    (Host.call other message).1.isSuccess = (Host.call host message).1.isSuccess
  /-- No region of memory is longer than the limit, so no more of an output is seen. -/
  output {host other : σ} (h : k.hosts host other) {limit limit' : Nat} (l : k.limits limit limit')
    (message : Message) :
    (Host.call other message).1.output.take limit = (Host.call host message).1.output.take limit
  call {host other : σ} (h : k.hosts host other) (message : Message) :
    k.hosts (Host.call host message).2 (Host.call other message).2

/-- What makes two executions stay alike. -/
structure Fair [Host σ] (k : Likeness σ) (c : Context) : Prop where
  prices : k.Priced c.config
  roomier {limit limit' : Nat} (h : k.limits limit limit') :
    limit' = limit ∨ k.short .memoryBoundsExceeded ∧ limit ≤ limit'
  blind : k.Blind c

/-- A host is not told apart from itself. -/
theorem blind_of_eq [Host σ] {k : Likeness σ} (same : k.hosts = Eq) (c : Context) : k.Blind c := by
  constructor
  all_goals
    intro host other h
    rw [same] at h
    subst h
    simp [same]

end Likeness

theorem GasSchedule.hashCost_zero (s : GasSchedule) : s.hashCost 0 = 0 := by
  cases s <;> rfl

/-! ## Memory -/

namespace Likeness.Memories

variable {σ : Type} {k : Likeness σ} {m m' : Memory}

theorem size_eq (h : k.Memories m m') : m'.size = m.size :=
  congrArg ByteArray.size h.data

theorem eq_of_limit (h : k.Memories m m') (same : m'.limit = m.limit) : m' = m := by
  cases m
  cases m'
  cases h.data
  cases same
  rfl

theorem slice_eq (h : k.Memories m m') (offset len : Nat) :
    m'.slice offset len = m.slice offset len := by
  simp only [Memory.slice, h.data, h.size_eq]

theorem bytes_eq (h : k.Memories m m') (region : Option Region) :
    Region.bytes m' region = Region.bytes m region := by
  cases region with
  | none => rfl
  | some r => exact h.slice_eq r.offset r.len

theorem growTo (h : k.Memories m m') (size : Nat) :
    k.Memories (m.growTo size) (m'.growTo size) := by
  simp only [Memory.growTo, h.size_eq]
  split
  · exact ⟨congrArg (· ++ _) h.data, h.limits⟩
  · exact h

theorem put (h : k.Memories m m') (offset : Nat) (bs : Bytes) :
    k.Memories (m.put offset bs) (m'.put offset bs) := by
  refine ⟨?_, h.limits⟩
  simp only [Memory.put, h.data, h.size_eq]

end Likeness.Memories

section

variable {σ : Type} [Host σ] {k : Likeness σ} {c : Context} (fair : k.Fair c)

include fair

/-- Regions reach as far under the other limit, and none is longer than the first one. -/
theorem Region.reach_alike {m m' : Memory} (h : k.Memories m m') (regions : List Region) :
    k.Matches k.short (fun size size' => size' = size ∧ ∀ r ∈ regions, r.len ≤ m.limit)
      (reach m regions) (reach m' regions) := by
  cases reached : reach m regions with
  | ok size =>
    obtain ⟨within, rfl⟩ := reach_eq_ok.mp reached
    have le : m.limit ≤ m'.limit := by
      rcases fair.roomier h.limits with same | ⟨-, le⟩
      · exact Nat.le_of_eq same.symm
      · exact le
    have further : furthest m' regions = furthest m regions := by rw [furthest, h.size_eq]; rfl
    have reached' : reach m' regions = .ok (furthest m regions) :=
      reach_eq_ok.mpr ⟨fun r hr => (within r hr).imp_right fun h => Nat.le_trans h le, further.symm⟩
    rw [reached']
    refine .ok ⟨rfl, fun r hr => ?_⟩
    rcases within r hr with empty | h <;> omega
  | error error =>
    rcases fair.roomier h.limits with same | ⟨short, -⟩
    · rw [h.eq_of_limit same, reached]
      exact .error error
    · rw [reach_error reached]
      exact .first short _

variable {f : Frame} {memory : Memory} {meter : GasMeter} (memories : k.Memories f.memory memory)
  (meters : k.meters f.gas meter)

include memories meters

/-- What comes after regions are settled matches if it matches for all memories that differ in their
limits alone and all meters that compare. -/
theorem Frame.settle_alike (regions : List Region) (len : Nat)
    {next next' : Memory × GasMeter → Except VmError (Effect σ)}
    (rest : ∀ m paid m' paid', k.Memories m m' → k.meters paid paid' →
      (∀ r ∈ regions, r.len ≤ m.limit) →
      k.Matches k.short k.Effects (next (m, paid)) (next' (m', paid'))) :
    k.Matches k.short k.Effects
      (f.settle c.config.memoryPolicy regions (c.config.gasSchedule.hashCost len) >>= next)
      ({ f with memory, gas := meter }.settle k.policy regions (k.schedule.hashCost len)
        >>= next') := by
  have settled : k.Matches k.short
      (fun p q => k.Memories p.1 q.1 ∧ k.meters p.2 q.2 ∧ ∀ r ∈ regions, r.len ≤ p.1.limit)
      (f.settle c.config.memoryPolicy regions (c.config.gasSchedule.hashCost len))
      ({ f with memory, gas := meter }.settle k.policy regions (k.schedule.hashCost len)) := by
    refine .bind (Region.reach_alike fair memories regions) ?_
    rintro _ size ⟨rfl, short⟩
    rw [memories.size_eq]
    refine .bind (fair.prices.memory _ _ _ meters) ?_
    intro paid paid' related
    refine .ok ⟨memories.growTo size, related, ?_⟩
    rw [Memory.limit_growTo]
    exact short
  refine .bind settled ?_
  rintro ⟨m, paid⟩ ⟨m', paid'⟩ ⟨memories, related, short⟩
  exact rest m paid m' paid' memories related short

/-- Regions without a hash are settled as if nothing were hashed. -/
theorem Frame.settle_alike_zero (regions : List Region)
    {next next' : Memory × GasMeter → Except VmError (Effect σ)}
    (rest : ∀ m paid m' paid', k.Memories m m' → k.meters paid paid' →
      (∀ r ∈ regions, r.len ≤ m.limit) →
      k.Matches k.short k.Effects (next (m, paid)) (next' (m', paid'))) :
    k.Matches k.short k.Effects (f.settle c.config.memoryPolicy regions 0 >>= next)
      ({ f with memory, gas := meter }.settle k.policy regions 0 >>= next') := by
  have h := settle_alike fair memories meters regions 0 rest
  rwa [GasSchedule.hashCost_zero, GasSchedule.hashCost_zero] at h

/-! ## Operations on memory -/

variable {host other : σ} (hosts : k.hosts host other)

include hosts

theorem performKeccak_alike :
    k.Matches k.short k.Effects (performKeccak c f host)
      (performKeccak (k.context c) { f with memory, gas := meter } other) := by
  unfold performKeccak
  dsimp only
  split
  · refine .bind (.refl _) ?_
    rintro region _ rfl
    refine Frame.settle_alike fair memories meters _ _ fun m _ m' _ memories related _ => ?_
    rw [memories.bytes_eq]
    exact .ok ⟨rfl, rfl, memories, related, hosts, rfl⟩
  · exact .error _

theorem performLoad_alike :
    k.Matches k.short k.Effects (performLoad c f host)
      (performLoad (k.context c) { f with memory, gas := meter } other) := by
  unfold performLoad
  dsimp only
  split
  · refine .bind (.refl _) ?_
    rintro offset _ rfl
    refine Frame.settle_alike_zero fair memories meters _ fun m _ m' _ memories related _ => ?_
    rw [memories.slice_eq]
    exact .ok ⟨rfl, rfl, memories, related, hosts, rfl⟩
  · exact .error _

theorem performStore_alike (bytes : Word → Bytes) :
    k.Matches k.short k.Effects (performStore c f host bytes)
      (performStore (k.context c) { f with memory, gas := meter } other bytes) := by
  unfold performStore
  dsimp only
  split
  · refine .bind (.refl _) ?_
    rintro offset _ rfl
    refine Frame.settle_alike_zero fair memories meters _ fun m _ m' _ memories related _ => ?_
    exact .ok ⟨rfl, rfl, memories.put _ _, related, hosts, rfl⟩
  · exact .error _

theorem performHalt_alike (status : Status) :
    k.Matches k.short k.Effects (performHalt c f host status)
      (performHalt (k.context c) { f with memory, gas := meter } other status) := by
  unfold performHalt
  dsimp only
  split
  · refine .bind (.refl _) ?_
    rintro region _ rfl
    refine Frame.settle_alike_zero fair memories meters _ fun m _ m' _ memories related _ => ?_
    rw [memories.bytes_eq]
    exact .ok ⟨rfl, rfl, memories, related, hosts, rfl⟩
  · exact .error _

omit memories meters in
/-- As much of an output is written as both hosts agree on. -/
theorem writeOutput_alike {m m' : Memory} (memories : k.Memories m m') (message : Message)
    {region : Option Region} (short : ∀ r ∈ region, r.len ≤ m.limit) :
    k.Memories (writeOutput m region (Host.call host message).1.output)
      (writeOutput m' region (Host.call other message).1.output) := by
  cases region with
  | none => exact memories
  | some r =>
    have seen (output : Bytes) : output.take r.len = (output.take m.limit).take r.len := by
      rw [List.take_take, Nat.min_eq_left (short r rfl)]
    have same : (Host.call other message).1.output.take r.len
        = (Host.call host message).1.output.take r.len := by
      rw [seen, fair.blind.output hosts memories.limits, ← seen]
    simp only [writeOutput, same]
    exact memories.put _ _

theorem performCall_alike :
    k.Matches k.short k.Effects (performCall c f host)
      (performCall (k.context c) { f with memory, gas := meter } other) := by
  unfold performCall
  dsimp only
  split
  · refine .bind (.refl _) ?_
    rintro input _ rfl
    refine .bind (.refl _) ?_
    rintro output _ rfl
    refine .ite (fun _ => .error _) fun _ => ?_
    refine Frame.settle_alike_zero fair memories meters _ fun m _ m' _ memories related short => ?_
    refine .ite (fun _ => .ok ⟨rfl, rfl, memories, related, hosts, rfl⟩) fun _ => ?_
    rw [memories.bytes_eq]
    -- The message of the nested call forwards an operand, not what the meter holds.
    refine .ok ⟨rfl, ?_, ?_, related, fair.blind.call hosts _, rfl⟩
    · show Stack.mk (_ :: _) = Stack.mk (_ :: _)
      rw [← fair.blind.isSuccess hosts]
      rfl
    · refine writeOutput_alike fair hosts memories _ fun r hr => short r ?_
      exact List.mem_append_right _ (Option.mem_toList.mpr hr)
  · exact .error _

end

/-! ## All operations -/

/-- A fault of an operation that one of the executions can meet alone. -/
def Likeness.ShortFault {σ : Type} (k : Likeness σ) (fault : Fault) : Prop :=
  k.short fault.error

section

variable {σ : Type} {k : Likeness σ} {f : Frame} {memory : Memory} {meter : GasMeter}
  {host other : σ}

theorem Performed.keepingStack_alike {x y : Except VmError (Effect σ)}
    (h : k.Matches k.short k.Effects x y) :
    k.Matches k.ShortFault k.Effects (keepingStack f x)
      (keepingStack { f with memory, gas := meter } y) := by
  cases h with
  | ok related => exact .ok related
  | error error => exact .error _
  | first fails _ => exact .first (show k.ShortFault ⟨_, f.stack⟩ from fails) _
  | second scarce fails _ => exact .second scarce (show k.ShortFault ⟨_, f.stack⟩ from fails) _

variable (memories : k.Memories f.memory memory) (meters : k.meters f.gas meter)
  (hosts : k.hosts host other)

include memories meters hosts

theorem Performed.ofStack_alike (x : Except VmError Stack) :
    k.Matches k.ShortFault k.Effects (ofStack f host x)
      (ofStack { f with memory, gas := meter } other x) := by
  cases x with
  | ok stack => exact .ok ⟨rfl, rfl, memories, meters, hosts, rfl⟩
  | error error => exact .error _

variable [Host σ] {c : Context} (fair : k.Fair c)

include fair

/-- Every quantity but the gas is the same for both executions. -/
theorem Quantity.value_alike {quantity : Quantity} (seen : quantity = .gas → k.Even) :
    quantity.value (k.context c) { f with memory, gas := meter } other
      = quantity.value c f host := by
  cases quantity with
  | origin | timestamp | number | chainId =>
    simp only [value]
    rw [fair.blind.txContext hosts]
  | memorySize => exact congrArg Word.ofNat memories.size_eq
  | gas => rw [seen rfl _ _ meters]; rfl
  | _ => rfl

/-- Of all operations only the one that pushes the gas tells the executions apart. -/
theorem Operation.perform_alike {op : Operation} (seen : op = .observe .gas → k.Even) :
    k.Matches k.ShortFault k.Effects (op.perform c f host)
      (op.perform (k.context c) { f with memory, gas := meter } other) := by
  have alike {control : Control} {items : List Word} {after after' : σ}
      (hosts : k.hosts after after') :
      k.Effects { Effect.ofItems f after items with control }
        { Effect.ofItems { f with memory, gas := meter } after' items with control } :=
    ⟨rfl, rfl, memories, meters, hosts, rfl⟩
  cases op with
  | stop | jumpDest => exact .ok ⟨rfl, rfl, memories, meters, hosts, rfl⟩
  | unary op | binary op | callDataLoad | pop =>
    simp only [perform]
    split
    · exact .ok (alike hosts)
    · exact .error _
  | keccak256 => exact Performed.keepingStack_alike (performKeccak_alike fair memories meters hosts)
  | mload => exact Performed.keepingStack_alike (performLoad_alike fair memories meters hosts)
  | mstore | mstore8 =>
    exact Performed.keepingStack_alike (performStore_alike fair memories meters hosts _)
  | call => exact Performed.keepingStack_alike (performCall_alike fair memories meters hosts)
  | ret | revert =>
    exact Performed.keepingStack_alike (performHalt_alike fair memories meters hosts _)
  | observe quantity =>
    have same := Quantity.value_alike memories meters hosts fair fun h => seen (h ▸ rfl)
    simp only [perform, same]
    exact Performed.ofStack_alike memories meters hosts _
  | push n | dup n | swap n => exact Performed.ofStack_alike memories meters hosts _
  | sload =>
    simp only [perform]
    split
    · rw [← fair.blind.storage hosts]
      exact .ok (alike hosts)
    · exact .error _
  | sstore =>
    refine .ite (fun _ => .error _) fun _ => ?_
    dsimp only
    split
    · exact .ok (alike (fair.blind.setStorage hosts _ _))
    · exact .error _
  | jump =>
    simp only [perform, Likeness.context]
    split
    · split
      · exact .ok (alike hosts)
      · exact .error _
    · exact .error _
  | jumpi =>
    simp only [perform, Likeness.context]
    split
    · refine .ite (fun _ => .ok (alike hosts)) fun _ => ?_
      split
      · exact .ok (alike hosts)
      · exact .error _
    · exact .error _

/-- The check of the stack is the same for both executions. -/
theorem Context.attempt_alike {op : Operation} (seen : op = .observe .gas → k.Even) :
    k.Matches k.ShortFault k.Effects (c.attempt f host op)
      ((k.context c).attempt { f with memory, gas := meter } other op) := by
  simp only [attempt]
  split
  · exact .error _
  · exact Operation.perform_alike memories meters hosts fair seen

end

/-! ## Steps -/

/-- The status and the output of an execution that is over. -/
def State.outcome? : State → Option (Status × Bytes)
  | .running => none
  | .halted result => some (result.status, result.output)

theorem State.outcome?_eq_none {s : State} : s.outcome? = none ↔ s = .running := by
  cases s <;> simp [outcome?]

theorem State.outcome?_eq_some {s : State} {status : Status} {output : Bytes} :
    s.outcome? = some (status, output) ↔
      ∃ result, s = .halted result ∧ result.status = status ∧ result.output = output := by
  cases s <;> simp [outcome?]

/-- One opcode only pushes the gas. -/
theorem Operation.byte_of_at?_gas {r : Revision} {opcode : UInt8}
    (decoded : at? r opcode = some (.observe .gas)) : opcode = 0x5a :=
  byte_eq_of_ofByte? (at?_eq_some.mp decoded).1 (by decide)

/-- Both executions go on, or both are over with the same status and output and with what their
meters hold. -/
inductive State.Alike (m m' : GasMeter) : State → State → Prop where
  | running : Alike m m' .running .running
  | halted (status : Status) (output : Bytes) :
      Alike m m' (.halted (.ofStatus status m.remaining output))
        (.halted (.ofStatus status m'.remaining output))

theorem State.Alike.outcome?_eq {m m' : GasMeter} {s s' : State} (h : Alike m m' s s') :
    s'.outcome? = s.outcome? := by
  cases h <;> rfl

theorem State.Alike.eq {m : GasMeter} {s s' : State} (h : Alike m m s s') : s' = s := by
  cases h <;> rfl

theorem State.Alike.running_iff {m m' : GasMeter} {s s' : State} (h : Alike m m' s s') :
    s' = .running ↔ s = .running := by
  cases h <;> simp

namespace Likeness

/-- Frames that are alike. -/
structure Frames {σ : Type} (k : Likeness σ) (f f' : Frame) : Prop where
  pc : f'.pc = f.pc
  stack : f'.stack = f.stack
  memory : k.Memories f.memory f'.memory
  gas : k.meters f.gas f'.gas
  state : State.Alike f.gas f'.gas f.state f'.state

theorem Frames.eq {σ : Type} {k : Likeness σ} {f f' : Frame} (h : k.Frames f f') :
    f' = { f with memory := f'.memory, gas := f'.gas, state := f'.state } := by
  rw [← h.pc, ← h.stack]

theorem Frames.state_eq {σ : Type} {k : Likeness σ} {f f' : Frame} (h : k.Frames f f')
    (even : k.Even) : f'.state = f.state := by
  have state := h.state
  rw [even _ _ h.gas] at state
  exact state.eq

/-- Frames that are alike are the same if their gas and their limits of memory are. -/
theorem Frames.eq_of_limit {σ : Type} {k : Likeness σ} {f f' : Frame} (h : k.Frames f f')
    (even : k.Even) (same : f'.memory.limit = f.memory.limit) : f' = f := by
  rw [h.eq, h.memory.eq_of_limit same, even _ _ h.gas, h.state_eq even]

/-- What comes of one step of both executions: they are alike again, or one of them has ended at a
fault that the other need not meet. -/
inductive Outcomes {σ : Type} (k : Likeness σ) (other : σ) (a b : Stepped σ) : Prop where
  | both (frames : k.Frames a.frame b.frame) (hosts : k.hosts a.host b.host)
  | first {error : VmError} (fails : k.short error)
      (ends : a.frame.state.outcome? = some (error.status, []))
  | second {error : VmError} (scarce : k.scarce) (fails : k.short error)
      (ends : b.frame.state.outcome? = some (error.status, [])) (kept : b.host = other)

section

variable {σ : Type} {k : Likeness σ} {f : Frame} {memory : Memory} {meter : GasMeter}

theorem Effects.proceed {e e' : Effect σ} (h : k.Effects e e') (op : Operation)
    (running : f.state = .running) :
    k.Frames (f.proceed op e) ({ f with memory, gas := meter }.proceed op e') := by
  unfold Frame.proceed
  rw [h.control]
  cases e.control with
  | next | jump target =>
    refine ⟨rfl, h.stack, h.memory, h.gas, ?_⟩
    simp only [running]
    exact .running
  | halt status output => exact ⟨rfl, h.stack, h.memory, h.gas, .halted status output⟩

theorem frames_fail {stack : Stack} (memories : k.Memories f.memory memory)
    (meters : k.meters f.gas meter) (error : VmError) :
    k.Frames (Frame.fail { f with stack } error)
      (Frame.fail { f with stack, memory, gas := meter } error) :=
  ⟨rfl, rfl, memories, meters, .halted error.status []⟩

variable [Host σ] {c : Context} {host other : σ} (fair : k.Fair c)
  (memories : k.Memories f.memory memory) (meters : k.meters f.gas meter)
  (hosts : k.hosts host other) (running : f.state = .running)

include fair memories meters hosts running

theorem execute_outcomes {opcode : UInt8}
    (seen : Operation.at? c.revision opcode = some (.observe .gas) → k.Even) :
    k.Outcomes other (c.execute f host opcode)
      ((k.context c).execute { f with memory, gas := meter } other opcode) := by
  have charged := fair.prices.instruction (Operation.at? c.revision opcode) meters
  simp only [Context.execute, Likeness.context]
  revert charged
  generalize f.gas.charge _ = x
  generalize meter.charge _ = y
  intro charged
  cases charged with
  | error error => exact .both (frames_fail memories meters error) hosts
  | first fails _ => exact .first fails rfl
  | second scarce fails _ => exact .second scarce fails rfl rfl
  | @ok paid paid' related =>
    dsimp only
    cases decoded : Operation.at? c.revision opcode with
    | none => exact .both (frames_fail (f := { f with gas := paid }) memories related _) hosts
    | some op =>
      have attempted : k.Matches k.ShortFault k.Effects (c.attempt { f with gas := paid } host op)
          ((k.context c).attempt { f with memory, gas := paid' } other op) :=
        Context.attempt_alike (f := { f with gas := paid }) memories related hosts fair
          fun h => seen (h ▸ decoded)
      simp only [Likeness.context] at attempted
      dsimp only
      revert attempted
      generalize c.attempt _ host op = x
      generalize Context.attempt _ _ other op = y
      intro attempted
      cases attempted with
      | ok effects => exact .both (effects.proceed op running) effects.hosts
      | error fault =>
        exact .both (frames_fail (f := { f with gas := paid }) memories related _) hosts
      | first fails _ => exact .first fails rfl
      | second scarce fails _ => exact .second scarce fails rfl rfl

/-- A step of executions that are alike, unless it pushes gas of which they hold other amounts. -/
theorem step_outcomes (seen : c.code.bytes[f.pc]? = some 0x5a → k.Even) :
    k.Outcomes other (c.step f host)
      ((k.context c).step { f with memory, gas := meter } other) := by
  cases fetched : c.code.bytes[f.pc]? with
  | none =>
    have also : (k.context c).step { f with memory, gas := meter } other = _ :=
      Context.step_of_past running fetched
    rw [Context.step_of_past running fetched, also]
    exact .both ⟨rfl, rfl, memories, meters, .halted .success []⟩ hosts
  | some opcode =>
    have also : (k.context c).step { f with memory, gas := meter } other = _ :=
      Context.step_of_fetched running fetched
    rw [Context.step_of_fetched running fetched, also]
    refine execute_outcomes fair memories meters hosts running fun decoded => seen ?_
    rw [fetched, Operation.byte_of_at?_gas decoded]

end

/-! ## Executions -/

/-- Executions that are alike. -/
structure Executions {σ : Type} [Host σ] (k : Likeness σ) (e e' : Execution σ) : Prop where
  fair : k.Fair e.context
  context : e'.context = k.context e.context
  frames : k.Frames e.frame e'.frame
  hosts : k.hosts e.host e'.host

namespace Executions

variable {σ : Type} [Host σ] {k : Likeness σ}

theorem start {c : Context} {host other : σ} (fair : k.Fair c)
    (limits : k.limits c.config.maxMemorySize.toNat k.limit.toNat)
    (meters : k.meters (.ofLimit c.message.gas) (.ofLimit k.gas)) (hosts : k.hosts host other) :
    k.Executions (.start c host) (.start (k.context c) other) :=
  ⟨fair, rfl, ⟨rfl, rfl, ⟨rfl, limits⟩, meters, .running⟩, hosts⟩

variable {e e' : Execution σ}

/-- One step of executions whose meters hold the same. -/
theorem step (h : k.Executions e e') (even : k.Even) (ample : ¬ k.scarce) :
    k.Executions e.step e'.step ∨
      ∃ error, k.short error ∧ e.step.frame.state.outcome? = some (error.status, []) := by
  obtain ⟨fair, context, frames, hosts⟩ := h
  have same := frames.eq
  obtain ⟨pc, stack, memories, meters, state⟩ := frames
  cases running : e.frame.state with
  | halted result =>
    rw [even _ _ meters] at state
    have halted' := state.eq.trans running
    rw [Execution.step_of_halted running, Execution.step_of_halted halted']
    refine .inl ⟨fair, context, ⟨pc, stack, memories, meters, ?_⟩, hosts⟩
    rwa [even _ _ meters]
  | running =>
    rw [state.running_iff.mpr running, ← running] at same
    have outcomes : k.Outcomes e'.host (e.context.step e.frame e.host)
        (e'.context.step e'.frame e'.host) := by
      rw [context, same]
      exact step_outcomes fair memories meters hosts running fun _ => even
    cases outcomes with
    | both frames hosts => exact .inl ⟨fair, context, frames, hosts⟩
    | @first error fails ends => exact .inr ⟨error, fails, ends⟩
    | second scarce _ _ _ => exact absurd scarce ample

/-- Executions whose meters hold the same stay alike until the first ends at a fault that the second
need not meet. -/
theorem steps (h : k.Executions e e') (even : k.Even) (ample : ¬ k.scarce) {n : Nat}
    (clear : ∀ i ≤ n, ∀ error, k.short error →
      (Execution.steps i e).frame.state.outcome? ≠ some (error.status, [])) :
    k.Executions (Execution.steps n e) (Execution.steps n e') := by
  induction n with
  | zero => exact h
  | succ n ih =>
    have before := ih fun i hi => clear i (Nat.le_succ_of_le hi)
    rw [Execution.steps_succ, Execution.steps_succ]
    rcases before.step even ample with alike | ⟨error, fails, ends⟩
    · exact alike
    · rw [← Execution.steps_succ] at ends
      exact absurd ends (clear (n + 1) (Nat.le_refl _) error fails)

end Executions

end Likeness

end StackMachine
