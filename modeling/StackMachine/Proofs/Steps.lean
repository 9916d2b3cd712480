import StackMachine.Execution
import StackMachine.Proofs.Effects

/-!
# What steps do

`Takes` lists the outcomes of one step of a running frame, in the order in which the step finds
them out: the code is over, the instruction is not paid for, it is undefined, it faults, it is
carried out. Whatever holds of every outcome holds after any number of steps.
-/

namespace StackMachine

theorem VmError.keepsGas_status (error : VmError) : error.status.keepsGas = false := by
  cases error <;> rfl

/-- Whether a fault ended the execution. -/
def State.isFault : State → Bool
  | .running => false
  | .halted result => !result.status.keepsGas

/-! ## Frames -/

namespace Frame

/-- The frame once an amount of gas is paid. -/
def paying (f : Frame) (amount : Nat) : Frame :=
  { f with gas := f.gas.less amount }

@[simp] theorem paying_pc (f : Frame) (amount : Nat) : (f.paying amount).pc = f.pc := rfl

@[simp] theorem paying_stack (f : Frame) (amount : Nat) : (f.paying amount).stack = f.stack := rfl

@[simp] theorem paying_memory (f : Frame) (amount : Nat) :
    (f.paying amount).memory = f.memory := rfl

@[simp] theorem paying_gas (f : Frame) (amount : Nat) :
    (f.paying amount).gas = f.gas.less amount := rfl

/-- A meter that bears an amount is not overdrawn once it is paid. -/
theorem paying_solvent {f : Frame} {amount : Nat} (paid : (amount : Int) ≤ f.gas.remaining) :
    0 ≤ (f.paying amount).gas.remaining := by
  rw [paying_gas, GasMeter.less_remaining]
  omega

@[simp] theorem fail_pc (f : Frame) (error : VmError) : (f.fail error).pc = f.pc := rfl

@[simp] theorem fail_stack (f : Frame) (error : VmError) : (f.fail error).stack = f.stack := rfl

@[simp] theorem fail_memory (f : Frame) (error : VmError) : (f.fail error).memory = f.memory := rfl

@[simp] theorem fail_gas (f : Frame) (error : VmError) : (f.fail error).gas = f.gas := rfl

/-- A fault gives nothing back. -/
theorem fail_state (f : Frame) (error : VmError) :
    (f.fail error).state = .halted ⟨error.status, 0, []⟩ := by
  simp [fail, halt, ExecutionResult.ofStatus, VmError.keepsGas_status]

@[simp] theorem isFault_fail (f : Frame) (error : VmError) :
    (f.fail error).state.isFault = true := by
  simp [fail_state, State.isFault, VmError.keepsGas_status]

section

variable {σ : Type} (f : Frame) (op : Operation) (e : Effect σ)

@[simp] theorem proceed_stack : (f.proceed op e).stack = e.stack := by
  unfold proceed
  cases e.control <;> rfl

@[simp] theorem proceed_memory : (f.proceed op e).memory = e.memory := by
  unfold proceed
  cases e.control <;> rfl

@[simp] theorem proceed_gas : (f.proceed op e).gas = e.gas := by
  unfold proceed
  cases e.control <;> rfl

end

end Frame

/-! ## One step -/

/-- The base price of an opcode, undefined ones included. -/
def Context.price (c : Context) (opcode : UInt8) : Nat :=
  c.config.gasSchedule.instructionCost (Operation.at? c.revision opcode)

section

variable {σ : Type} [Host σ] (c : Context) (f : Frame) (host : σ)

/-- The outcomes of a step of a running frame. -/
inductive Takes : Stepped σ → Prop where
  | ended (past : c.code.bytes[f.pc]? = none) : Takes ⟨f.halt .success [], host, []⟩
  | unpaid {opcode : UInt8} (fetched : c.code.bytes[f.pc]? = some opcode)
      (short : f.gas.remaining < c.price opcode) :
      Takes ⟨f.fail .outOfGas, host, [.failed f.pc opcode .outOfGas]⟩
  | undefined {opcode : UInt8} (fetched : c.code.bytes[f.pc]? = some opcode)
      (paid : (c.price opcode : Int) ≤ f.gas.remaining)
      (unknown : Operation.at? c.revision opcode = none) :
      Takes ⟨(f.paying (c.price opcode)).fail (.undefinedInstruction opcode), host,
        [.failed f.pc opcode (.undefinedInstruction opcode)]⟩
  | faulted {opcode : UInt8} {op : Operation} {fault : Fault}
      (fetched : c.code.bytes[f.pc]? = some opcode)
      (paid : (c.price opcode : Int) ≤ f.gas.remaining)
      (decoded : Operation.at? c.revision opcode = some op)
      (attempted : c.attempt (f.paying (c.price opcode)) host op = .error fault) :
      Takes ⟨Frame.fail { f.paying (c.price opcode) with stack := fault.stack } fault.error, host,
        [.step f.pc op (f.gas.remaining - c.price opcode) f.stack.size,
          .failed f.pc opcode fault.error]⟩
  | performed {opcode : UInt8} {op : Operation} {effect : Effect σ}
      (fetched : c.code.bytes[f.pc]? = some opcode)
      (paid : (c.price opcode : Int) ≤ f.gas.remaining)
      (decoded : Operation.at? c.revision opcode = some op)
      (room : f.stack.require op.inputs op.outputs = .ok ())
      (performs : Performs c (f.paying (c.price opcode)) host op effect) :
      Takes ⟨(f.paying (c.price opcode)).proceed op effect, effect.host,
        .step f.pc op (f.gas.remaining - c.price opcode) f.stack.size :: effect.events⟩

variable {c f host}

theorem Context.attempt_eq_ok {op : Operation} {effect : Effect σ} :
    c.attempt f host op = .ok effect ↔
      f.stack.require op.inputs op.outputs = .ok () ∧ Performs c f host op effect := by
  unfold attempt
  cases f.stack.require op.inputs op.outputs with
  | error error => simp
  | ok u => simp [perform_eq_ok]

theorem Context.execute_takes {opcode : UInt8} (fetched : c.code.bytes[f.pc]? = some opcode) :
    Takes c f host (c.execute f host opcode) := by
  unfold execute
  by_cases paid : (c.price opcode : Int) ≤ f.gas.remaining
  · have charged : f.gas.charge (c.config.gasSchedule.instructionCost
        (Operation.at? c.revision opcode)) = .ok (f.gas.less (c.price opcode)) :=
      GasMeter.charge_eq_ok.mpr ⟨paid, rfl⟩
    simp only [charged]
    cases decoded : Operation.at? c.revision opcode with
    | none => exact .undefined fetched paid decoded
    | some op =>
      cases attempted : c.attempt (f.paying (c.price opcode)) host op with
      | error fault =>
        -- The step builds the frame that has paid in place.
        have outcome : Takes c f host _ := .faulted fetched paid decoded attempted
        simp only [Frame.paying] at attempted outcome
        simpa only [attempted, GasMeter.less_remaining] using outcome
      | ok effect =>
        obtain ⟨room, performs⟩ := attempt_eq_ok.mp attempted
        have outcome : Takes c f host _ := .performed fetched paid decoded room performs
        simp only [Frame.paying] at attempted outcome
        simpa only [attempted, GasMeter.less_remaining] using outcome
  · have short := Int.not_le.mp paid
    have refused : f.gas.charge (c.config.gasSchedule.instructionCost
        (Operation.at? c.revision opcode)) = .error .outOfGas :=
      GasMeter.charge_eq_error.mpr ⟨short, rfl⟩
    simp only [refused]
    exact .unpaid fetched short

theorem Context.step_of_past (running : f.state = .running) (past : c.code.bytes[f.pc]? = none) :
    c.step f host = ⟨f.halt .success [], host, []⟩ := by
  simp only [step, running, past]

theorem Context.step_of_fetched {opcode : UInt8} (running : f.state = .running)
    (fetched : c.code.bytes[f.pc]? = some opcode) :
    c.step f host = c.execute f host opcode := by
  simp only [step, running, fetched]

/-- A step of a running frame has one of the outcomes. -/
theorem Context.step_takes (running : f.state = .running) : Takes c f host (c.step f host) := by
  cases fetched : c.code.bytes[f.pc]? with
  | none =>
    rw [step_of_past running fetched]
    exact .ended fetched
  | some opcode =>
    rw [step_of_fetched running fetched]
    exact execute_takes fetched

end

/-! ## Runs -/

/-- An operation that does not fault does not end the execution with a fault either. -/
theorem Performs.isFault_proceed {σ : Type} [Host σ] {c : Context} {f : Frame} {host : σ}
    {op : Operation} {e : Effect σ} (h : Performs c f host op e) (running : f.state = .running) :
    (f.proceed op e).state.isFault = false := by
  unfold Frame.proceed
  cases control : e.control with
  | next | jump target => simp only [running, State.isFault]
  | halt status output =>
    have keeps := h.keepsGas_of_halt control
    simp [Frame.halt, State.isFault, ExecutionResult.ofStatus, keeps]

namespace Execution

variable {σ : Type}

/-- The opcode that the next step fetches, none if the execution is over or past its code. -/
def opcode? (e : Execution σ) : Option UInt8 :=
  match e.frame.state with
  | .running => e.context.code.bytes[e.frame.pc]?
  | .halted _ => none

/-- The operation that the next step decodes, if it fetches a defined opcode. -/
def operation? (e : Execution σ) : Option Operation :=
  e.opcode?.bind (Operation.at? e.context.revision)

theorem opcode?_of_running {e : Execution σ} (running : e.frame.state = .running) :
    e.opcode? = e.context.code.bytes[e.frame.pc]? := by
  simp only [opcode?, running]

theorem opcode?_of_halted {e : Execution σ} {result : ExecutionResult}
    (halted : e.frame.state = .halted result) : e.opcode? = none := by
  simp only [opcode?, halted]

theorem running_of_opcode? {e : Execution σ} {opcode : UInt8} (fetched : e.opcode? = some opcode) :
    e.frame.state = .running := by
  cases state : e.frame.state with
  | running => rfl
  | halted result =>
    rw [opcode?_of_halted state] at fetched
    cases fetched

variable [Host σ]

/-- Whether the next step carries out an operation without a fault. -/
def completes (e : Execution σ) (op : Operation) : Bool :=
  e.operation? = some op && !e.step.frame.state.isFault

theorem operation?_of_completes {e : Execution σ} {op : Operation} (h : e.completes op = true) :
    e.operation? = some op := by
  simp only [completes, Bool.and_eq_true, decide_eq_true_eq] at h
  exact h.1

@[simp] theorem step_context (e : Execution σ) : e.step.context = e.context := rfl

/-- The step of a running execution has one of the outcomes. -/
theorem step_takes {e : Execution σ} (running : e.frame.state = .running) :
    ∃ after, Takes e.context e.frame e.host after ∧ e.step.frame = after.frame ∧
      e.step.host = after.host :=
  ⟨_, Context.step_takes running, rfl, rfl⟩

/-- A step attempts the operation that it decodes once that is paid for, and what comes of it comes
of the step. -/
theorem step_attempts {e : Execution σ} {op : Operation} {price : Nat}
    (decoded : e.operation? = some op)
    (priced : price = e.context.config.gasSchedule.instructionCost (some op))
    (paid : (price : Int) ≤ e.frame.gas.remaining) :
    (∀ effect, e.context.attempt (e.frame.paying price) e.host op = .ok effect →
        e.step.frame = (e.frame.paying price).proceed op effect ∧ e.step.host = effect.host) ∧
      ∀ fault, e.context.attempt (e.frame.paying price) e.host op = .error fault →
        e.step.frame = Frame.fail { e.frame.paying price with stack := fault.stack } fault.error ∧
          e.step.host = e.host := by
  obtain ⟨opcode, next, known⟩ := Option.bind_eq_some_iff.mp decoded
  have running := running_of_opcode? next
  rw [opcode?_of_running running] at next
  have cost : price = e.context.price opcode := by rw [priced, Context.price, known]
  subst cost
  obtain ⟨after, takes, frame, host⟩ := step_takes running
  rw [frame, host]
  cases takes with
  | ended past =>
    rw [past] at next
    cases next
  | unpaid fetched short =>
    cases next.symm.trans fetched
    exact absurd paid (Int.not_le.mpr short)
  | undefined fetched _ unknown =>
    cases next.symm.trans fetched
    rw [unknown] at known
    cases known
  | faulted fetched _ same attempted =>
    cases next.symm.trans fetched
    cases known.symm.trans same
    constructor
    · intro effect ok
      rw [attempted] at ok
      cases ok
    · intro fault error
      rw [attempted] at error
      cases error
      exact ⟨rfl, rfl⟩
  | @performed _ _ effect fetched _ same room performs =>
    cases next.symm.trans fetched
    cases known.symm.trans same
    have attempted : e.context.attempt (e.frame.paying (e.context.price opcode)) e.host op
        = .ok effect := Context.attempt_eq_ok.mpr ⟨room, performs⟩
    constructor
    · intro effect ok
      rw [attempted] at ok
      cases ok
      exact ⟨rfl, rfl⟩
    · intro fault error
      rw [attempted] at error
      cases error

/-- A step carries out the operation that it decodes, if that is paid for and has room. -/
theorem step_of_performs {e : Execution σ} {op : Operation} {price : Nat} {effect : Effect σ}
    (decoded : e.operation? = some op)
    (priced : price = e.context.config.gasSchedule.instructionCost (some op))
    (paid : (price : Int) ≤ e.frame.gas.remaining)
    (room : e.frame.stack.require op.inputs op.outputs = .ok ())
    (performs : Performs e.context (e.frame.paying price) e.host op effect) :
    e.step.frame = (e.frame.paying price).proceed op effect ∧ e.step.host = effect.host := by
  have attempted : e.context.attempt (e.frame.paying price) e.host op = .ok effect :=
    Context.attempt_eq_ok.mpr ⟨room, performs⟩
  exact (step_attempts decoded priced paid).1 effect attempted

/-- A step that completes an operation carries it out. -/
theorem performs_of_completes {e : Execution σ} {op : Operation} (h : e.completes op = true) :
    ∃ opcode effect, e.opcode? = some opcode ∧
      Performs e.context (e.frame.paying (e.context.price opcode)) e.host op effect ∧
      e.step.frame = (e.frame.paying (e.context.price opcode)).proceed op effect ∧
      e.step.host = effect.host := by
  simp only [completes, Bool.and_eq_true, decide_eq_true_eq, Bool.not_eq_true'] at h
  obtain ⟨decoded, sound⟩ := h
  cases state : e.frame.state with
  | halted result => simp [operation?, opcode?_of_halted state] at decoded
  | running =>
    have next := opcode?_of_running state
    obtain ⟨after, takes, frame, host⟩ := step_takes state
    rw [frame] at sound
    cases takes with
    | ended past => simp [operation?, next, past] at decoded
    | unpaid _ _ | undefined _ _ _ | faulted _ _ _ _ => simp at sound
    | @performed opcode other effect fetched _ known _ performs =>
      rw [fetched] at next
      have same : other = op := by simpa [operation?, next, known] using decoded
      subst same
      exact ⟨opcode, effect, next, performs, frame, host⟩

/-- An execution that is over stays as it is. -/
theorem step_of_halted {e : Execution σ} {result : ExecutionResult}
    (halted : e.frame.state = .halted result) : e.step = e := by
  simp [step, Context.step, halted, report]

/-- The operation that the next step carries out without a fault. -/
def completed? (e : Execution σ) : Option Operation :=
  e.operation?.filter e.completes

theorem completed?_of_opcode?_none {e : Execution σ} (idle : e.opcode? = none) :
    e.completed? = none := by
  simp [completed?, operation?, idle]

theorem completed?_of_isFault {e : Execution σ} (faults : e.step.frame.state.isFault = true) :
    e.completed? = none := by
  simp [completed?, completes, faults]

theorem completed?_of_performs {e : Execution σ} {opcode : UInt8} {op : Operation}
    (fetched : e.opcode? = some opcode)
    (decoded : Operation.at? e.context.revision opcode = some op)
    (sound : e.step.frame.state.isFault = false) : e.completed? = some op := by
  simp [completed?, completes, operation?, fetched, decoded, sound]

/-- A step carries an operation out, or it keeps memory and host as they are. -/
theorem step_carries_out (e : Execution σ) :
    (∃ op opcode effect, e.completed? = some op ∧
        Performs e.context (e.frame.paying (e.context.price opcode)) e.host op effect ∧
        e.step.frame = (e.frame.paying (e.context.price opcode)).proceed op effect ∧
        e.step.host = effect.host) ∨
      e.completed? = none ∧ e.step.frame.memory = e.frame.memory ∧ e.step.host = e.host := by
  cases state : e.frame.state with
  | halted result =>
    have idle := completed?_of_opcode?_none (opcode?_of_halted state)
    rw [step_of_halted state]
    exact .inr ⟨idle, rfl, rfl⟩
  | running =>
    have opcode := opcode?_of_running state
    obtain ⟨after, takes, frame, host⟩ := step_takes state
    cases takes with
    | ended past =>
      rw [past] at opcode
      refine .inr ⟨completed?_of_opcode?_none opcode, ?_, host⟩
      rw [frame]
      rfl
    | unpaid _ _ | undefined _ _ _ | faulted _ _ _ _ =>
      have faults : e.step.frame.state.isFault = true := by rw [frame, Frame.isFault_fail]
      refine .inr ⟨completed?_of_isFault faults, ?_, host⟩
      rw [frame]
      rfl
    | performed fetched _ decoded _ performs =>
      rw [fetched] at opcode
      have sound : e.step.frame.state.isFault = false := by
        rw [frame]
        exact performs.isFault_proceed state
      have done := completed?_of_performs opcode decoded sound
      exact .inl ⟨_, _, _, done, performs, frame, host⟩

@[simp] theorem steps_zero (e : Execution σ) : steps 0 e = e := rfl

theorem steps_succ (count : Nat) (e : Execution σ) :
    steps (count + 1) e = (steps count e).step := by
  induction count generalizing e with
  | zero => rfl
  | succ count ih => exact ih e.step

/-- What a step keeps, any number of steps keeps. -/
theorem steps_induction {P : Execution σ → Prop} (kept : ∀ e, P e → P e.step) {e : Execution σ}
    (h : P e) (count : Nat) : P (steps count e) := by
  induction count with
  | zero => exact h
  | succ count ih =>
    rw [steps_succ]
    exact kept _ ih

@[simp] theorem steps_context (count : Nat) (e : Execution σ) :
    (steps count e).context = e.context := by
  induction count with
  | zero => rfl
  | succ count ih => rw [steps_succ, step_context, ih]

end Execution

end StackMachine
