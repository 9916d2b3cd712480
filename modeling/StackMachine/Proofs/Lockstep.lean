import StackMachine.Proofs.Likeness
import StackMachine.Proofs.Runs

/-!
# Executions in lockstep

Two executions of the same code that differ in gas alone: in what they have and in what they pay.
Gas reaches stack, memory, host and the course of the execution only by running out, and through the
operation that pushes what is left. `Comparison.Lockstep.step` says so of one step, as a case of
`Likeness.step_outcomes`, and `Comparison.Lockstep.ends` of a whole execution.
-/

namespace StackMachine

/-! ## Faults and prices -/

/-- A fault for want of gas. -/
def VmError.IsShort (error : VmError) : Prop :=
  error = .outOfGas

/-- The context with other prices and other gas. -/
def Context.repriced (c : Context) (schedule : GasSchedule) (policy : MemoryPolicy) (gas : Int) :
    Context :=
  { c with
    config := { c.config with gasSchedule := schedule, memoryPolicy := policy }
    message := { c.message with gas } }

/-- Charges of the same kind match, under the prices of a configuration and under others. -/
structure Comparison.Fair (k : Comparison) (config : Config) (schedule : GasSchedule)
    (policy : MemoryPolicy) : Prop where
  instruction (op : Option Operation) {m m' : GasMeter} (h : k.meters m m') :
    k.Matches VmError.IsShort k.meters (m.charge (config.gasSchedule.instructionCost op))
      (m'.charge (schedule.instructionCost op))
  memory (current new len : Nat) {m m' : GasMeter} (h : k.meters m m') :
    k.Matches VmError.IsShort k.meters
      (m.charge (saturate
        (config.memoryPolicy.expansionCost current new + config.gasSchedule.hashCost len)))
      (m'.charge (saturate (policy.expansionCost current new + schedule.hashCost len)))

/-! ## Steps -/

/-- The execution ended for want of gas. -/
def State.IsShort (s : State) : Prop :=
  s.outcome? = some (.outOfGas, [])

namespace Comparison

/-- Frames that differ in gas alone. -/
structure Frames (k : Comparison) (f f' : Frame) : Prop where
  same : f' = { f with gas := f'.gas, state := f'.state }
  gas : k.meters f.gas f'.gas
  outcome : f'.state.outcome? = f.state.outcome?

/-- What comes of one step of both executions: they differ in gas alone again, or one of them has
run out of it, without a trace outside. -/
inductive Outcomes (k : Comparison) {σ : Type} (host : σ) (a b : Stepped σ) : Prop where
  | both (frames : k.Frames a.frame b.frame) (kept : b.host = a.host)
  | first (short : a.frame.state.IsShort)
  | second (scarce : k.scarce) (short : b.frame.state.IsShort) (kept : b.host = host)

/-- Two executions are alike that differ in gas and in prices alone. -/
def likeness (k : Comparison) (σ : Type) (schedule : GasSchedule) (policy : MemoryPolicy)
    (gas : Int) (limit : UInt64) : Likeness σ :=
  { k with short := VmError.IsShort, limits := Eq, hosts := Eq, schedule, policy, gas, limit }

theorem Fair.likeness {k : Comparison} {σ : Type} [Host σ] {c : Context} {schedule : GasSchedule}
    {policy : MemoryPolicy} (fair : k.Fair c.config schedule policy) (gas : Int)
    (limit : UInt64) : (k.likeness σ schedule policy gas limit).Fair c where
  prices := ⟨fair.instruction, fair.memory⟩
  roomier same := .inl same.symm
  blind := Likeness.blind_of_eq rfl c

theorem Frames.of_alike {k : Comparison} {σ : Type} {schedule : GasSchedule} {policy : MemoryPolicy}
    {gas : Int} {limit : UInt64} {f f' : Frame}
    (h : (k.likeness σ schedule policy gas limit).Frames f f') : k.Frames f f' := by
  have memory : f'.memory = f.memory := h.memory.eq_of_limit h.memory.limits.symm
  refine ⟨?_, h.gas, h.state.outcome?_eq⟩
  rw [h.eq, memory]

/-- One step of frames that differ in gas alone, unless it pushes the gas. -/
theorem step_outcomes {k : Comparison} {σ : Type} [Host σ] {c : Context} {schedule : GasSchedule}
    {policy : MemoryPolicy} {gas : Int} {host : σ} (fair : k.Fair c.config schedule policy)
    {f f' : Frame} (frames : k.Frames f f') (running : f.state = .running)
    (blind : c.code.bytes[f.pc]? ≠ some 0x5a) :
    k.Outcomes host (c.step f host) ((c.repriced schedule policy gas).step f' host) := by
  obtain ⟨same, meters, outcome⟩ := frames
  have running' : f'.state = .running := by
    rw [running] at outcome
    exact State.outcome?_eq_none.mp outcome
  rw [running', ← running] at same
  rw [same]
  have memories : (k.likeness σ schedule policy gas c.config.maxMemorySize).Memories f.memory
      f.memory := ⟨rfl, rfl⟩
  have outcomes := Likeness.step_outcomes (fair.likeness gas c.config.maxMemorySize) memories
    meters (rfl : host = host) running fun gas => absurd gas blind
  cases outcomes with
  | both frames hosts => exact .both (.of_alike frames) hosts.symm
  | first fails ends =>
    subst fails
    exact .first ends
  | second scarce fails ends kept =>
    subst fails
    exact .second scarce ends kept

/-! ## Executions -/

/-- Executions that differ in gas and in prices alone. -/
structure Lockstep (k : Comparison) {σ : Type} (e e' : Execution σ) : Prop where
  context : ∃ schedule policy gas, k.Fair e.context.config schedule policy ∧
    e'.context = e.context.repriced schedule policy gas
  frames : k.Frames e.frame e'.frame
  host : e'.host = e.host

/-- An execution runs out of gas while it is in lockstep with another one: it took no more than so
many steps, and what it did outside is what the other had done after some of its steps. -/
structure CutShort (k : Comparison) {σ : Type} [Host σ] (e e' : Execution σ) (n : Nat) : Prop where
  scarce : k.scarce
  ends : ∃ m ≤ n, ∃ result, e'.HaltsAfter m result ∧ result.status = .outOfGas ∧
    ∃ i ≤ n, (e'.steps m).host = (e.steps i).host

variable {k : Comparison} {σ : Type} [Host σ] {e e' : Execution σ}

omit [Host σ] in
theorem Lockstep.running (h : k.Lockstep e e') (running : e.frame.state = .running) :
    e'.frame.state = .running := by
  have outcome := h.frames.outcome
  rw [running] at outcome
  exact State.outcome?_eq_none.mp outcome

/-- One step of executions in lockstep, unless the first is about to push its gas. -/
theorem Lockstep.step (h : k.Lockstep e e') (running : e.frame.state = .running)
    (blind : e.opcode? ≠ some 0x5a) :
    k.Lockstep e.step e'.step ∨ e.step.frame.state.IsShort ∨
      k.scarce ∧ e'.step.frame.state.IsShort ∧ e'.step.host = e.host := by
  obtain ⟨⟨schedule, policy, gas, fair, context⟩, frames, host⟩ := h
  rw [Execution.opcode?_of_running running] at blind
  have outcomes : k.Outcomes e.host (e.context.step e.frame e.host)
      (e'.context.step e'.frame e'.host) := by
    rw [context, host]
    exact step_outcomes fair frames running blind
  cases outcomes with
  | both frames host => exact .inl ⟨⟨schedule, policy, gas, fair, context⟩, frames, host⟩
  | first short => exact .inr (.inl short)
  | second scarce short kept => exact .inr (.inr ⟨scarce, short, kept⟩)

/-- Executions stay in lockstep to the end of the first, if that has gas enough and never pushes
what it has, or until the second runs out of gas. -/
theorem Lockstep.steps (h : k.Lockstep e e') {n : Nat} {result : ExecutionResult}
    (ends : e.HaltsAfter n result) (paid : result.status ≠ .outOfGas)
    (blind : ∀ i < n, (e.steps i).opcode? ≠ some 0x5a) {j : Nat} (hj : j ≤ n) :
    (∀ i ≤ j, k.Lockstep (e.steps i) (e'.steps i)) ∨ k.CutShort e e' n := by
  induction j with
  | zero =>
    refine .inl fun i hi => ?_
    rw [Nat.le_zero.mp hi]
    exact h
  | succ j ih =>
    rcases ih (Nat.le_of_succ_le hj) with before | cut
    · have running := ends.running j hj
      have stepped := (before j (Nat.le_refl j)).step running (blind j hj)
      rw [← Execution.steps_succ, ← Execution.steps_succ] at stepped
      rcases stepped with together | short | ⟨scarce, short, kept⟩
      · refine .inl fun i hi => ?_
        rcases Nat.le_succ_iff.mp hi with earlier | rfl
        · exact before i earlier
        · exact together
      · -- The first would have ended there, for want of gas.
        obtain ⟨ended, state, status, -⟩ := State.outcome?_eq_some.mp short
        rw [ends.eq_of_halted hj state] at status
        exact absurd status paid
      · obtain ⟨ended, state, status, -⟩ := State.outcome?_eq_some.mp short
        refine .inr ⟨scarce, j + 1, hj, ended, ⟨fun i hi => ?_, state⟩, status, j, ?_, kept⟩
        · have hi := Nat.le_of_lt_succ hi
          exact (before i hi).running (ends.running i (Nat.lt_of_le_of_lt hi hj))
        · exact Nat.le_of_succ_le hj
    · exact .inr cut

/-- An execution in lockstep with one that ends ends after as many steps, with the same status and
output and the same host, or runs out of gas before. -/
theorem Lockstep.ends (h : k.Lockstep e e') {n : Nat} {result : ExecutionResult}
    (ends : e.HaltsAfter n result) (paid : result.status ≠ .outOfGas)
    (blind : ∀ i < n, (e.steps i).opcode? ≠ some 0x5a) :
    (∃ result', e'.HaltsAfter n result' ∧ result'.status = result.status ∧
        result'.output = result.output ∧ k.Lockstep (e.steps n) (e'.steps n)) ∨
      k.CutShort e e' n := by
  rcases h.steps ends paid blind (Nat.le_refl n) with together | cut
  · have last := together n (Nat.le_refl n)
    have outcome := last.frames.outcome
    rw [ends.halted] at outcome
    obtain ⟨result', state, status, output⟩ := State.outcome?_eq_some.mp outcome
    refine .inl ⟨result', ⟨fun i hi => ?_, state⟩, status, output, last⟩
    exact (together i (Nat.le_of_lt hi)).running (ends.running i hi)
  · exact .inr cut

end Comparison

end StackMachine
