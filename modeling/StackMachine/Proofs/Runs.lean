import StackMachine.Proofs.Cycles

/-!
# Runs

How many steps an execution takes to its end, and what taking it there comes to.
`Execution.outcome?_eq_some` says that a run is as many steps as it takes,
`Execution.outcome?_steps` that steps taken beforehand make no difference to it.
-/

namespace StackMachine

namespace Execution

variable {σ : Type}

/-- Executions that differ in their logs at most. -/
structure Agrees (e other : Execution σ) : Prop where
  context : other.context = e.context
  frame : other.frame = e.frame
  host : other.host = e.host

theorem Agrees.symm {e other : Execution σ} (h : e.Agrees other) : other.Agrees e :=
  ⟨h.context.symm, h.frame.symm, h.host.symm⟩

theorem Agrees.trans {e e' e'' : Execution σ} (h : e.Agrees e') (h' : e'.Agrees e'') :
    e.Agrees e'' :=
  ⟨h'.context.trans h.context, h'.frame.trans h.frame, h'.host.trans h.host⟩

theorem agrees_report (e : Execution σ) (events : List Event) : e.Agrees (e.report events) :=
  ⟨rfl, rfl, rfl⟩

/-- The same execution in another context. -/
def inContext (c : Context) (e : Execution σ) : Execution σ :=
  { e with context := c }

variable [Host σ]

/-- The execution goes on for `n` steps, the last of which ends it with a result. -/
structure HaltsAfter (e : Execution σ) (n : Nat) (result : ExecutionResult) : Prop where
  running : ∀ i < n, (steps i e).frame.state = .running
  halted : (steps n e).frame.state = .halted result

/-- The execution ends after no more than so many steps. -/
def HaltsWithin (e : Execution σ) (limit : Nat) : Prop :=
  ∃ n ≤ limit, ∃ result, e.HaltsAfter n result

/-- What a run gives: the result, and the host as it leaves it. -/
def outcome? (e : Execution σ) : Option (ExecutionResult × σ) :=
  e.run?.map fun finished => (finished.result, finished.host)

/-! ## Steps after the end -/

section

variable {e : Execution σ} {result : ExecutionResult}

theorem steps_add (m n : Nat) (e : Execution σ) : steps (m + n) e = steps n (steps m e) := by
  induction n with
  | zero => rfl
  | succ n ih => rw [← Nat.add_assoc, steps_succ, ih, steps_succ]

theorem steps_of_halted (halted : e.frame.state = .halted result) (count : Nat) :
    steps count e = e := by
  induction count with
  | zero => rfl
  | succ count ih => rw [steps_succ, ih, step_of_halted halted]

/-- An execution that goes on after some steps went on all the while. -/
theorem running_of_le {i n : Nat} (h : i ≤ n) (goes : (steps n e).frame.state = .running) :
    (steps i e).frame.state = .running := by
  cases state : (steps i e).frame.state with
  | running => rfl
  | halted result =>
    obtain ⟨rest, rfl⟩ := Nat.exists_eq_add_of_le h
    rw [steps_add, steps_of_halted state, state] at goes
    cases goes

theorem HaltsAfter.steps_eq {n : Nat} (h : e.HaltsAfter n result) {k : Nat} (hk : n ≤ k) :
    steps k e = steps n e := by
  obtain ⟨rest, rfl⟩ := Nat.exists_eq_add_of_le hk
  rw [steps_add, steps_of_halted h.halted]

/-- An execution has one result, however long it has been over. -/
theorem HaltsAfter.eq_of_halted {n : Nat} (h : e.HaltsAfter n result) {j : Nat} (hj : j ≤ n)
    {other : ExecutionResult} (halted : (steps j e).frame.state = .halted other) :
    other = result := by
  have ends := h.halted
  obtain ⟨rest, rfl⟩ := Nat.exists_eq_add_of_le hj
  rw [steps_add, steps_of_halted halted, halted] at ends
  cases ends
  rfl

/-- An execution that is over after some steps took no more than these to its end. -/
theorem haltsWithin_of_halted {limit : Nat}
    (halted : (steps limit e).frame.state = .halted result) : e.HaltsWithin limit := by
  induction limit generalizing result with
  | zero => exact ⟨0, Nat.le_refl 0, result, fun _ h => absurd h (Nat.not_lt_zero _), halted⟩
  | succ limit ih =>
    cases before : (steps limit e).frame.state with
    | halted earlier =>
      obtain ⟨n, hn, rest⟩ := ih before
      exact ⟨n, Nat.le_succ_of_le hn, rest⟩
    | running =>
      refine ⟨limit + 1, Nat.le_refl _, result, fun i hi => ?_, halted⟩
      exact running_of_le (Nat.le_of_lt_succ hi) before

theorem haltsWithin_of_not_running {limit : Nat} (h : (steps limit e).frame.state ≠ .running) :
    e.HaltsWithin limit := by
  cases state : (steps limit e).frame.state with
  | running => exact absurd state h
  | halted result => exact haltsWithin_of_halted state

/-- The first step of an execution that goes on is one of those to its end. -/
theorem haltsAfter_succ {n : Nat} (goes : e.frame.state = .running) :
    e.HaltsAfter (n + 1) result ↔ e.step.HaltsAfter n result := by
  constructor
  · rintro ⟨running, halted⟩
    exact ⟨fun i hi => running (i + 1) (Nat.succ_lt_succ hi), halted⟩
  · rintro ⟨running, halted⟩
    refine ⟨fun i hi => ?_, halted⟩
    cases i with
    | zero => exact goes
    | succ i => exact running i (Nat.lt_of_succ_lt_succ hi)

theorem haltsAfter_zero : e.HaltsAfter 0 result ↔ e.frame.state = .halted result :=
  ⟨fun h => h.halted, fun halted => ⟨fun _ h => absurd h (Nat.not_lt_zero _), halted⟩⟩

/-- An execution that goes on and ends when another one does has the result of that one. -/
theorem HaltsAfter.of_states {other : Execution σ} {n : Nat} (ends : e.HaltsAfter n result)
    (same : ∀ i ≤ n, (steps i other).frame.state = (steps i e).frame.state) :
    other.HaltsAfter n result := by
  refine ⟨fun i hi => ?_, ?_⟩
  · rw [same i (Nat.le_of_lt hi)]
    exact ends.running i hi
  · rw [same n (Nat.le_refl n)]
    exact ends.halted

/-- An execution that goes through the frames of one that ends ends with it. -/
theorem HaltsAfter.of_frames {other : Execution σ} {n : Nat} (ends : e.HaltsAfter n result)
    (same : ∀ i ≤ n, (steps i other).frame = (steps i e).frame) : other.HaltsAfter n result :=
  ends.of_states fun i hi => congrArg Frame.state (same i hi)

end

/-! ## Logs -/

/-- Nothing depends on the events that were reported. -/
theorem Agrees.step {e other : Execution σ} (h : e.Agrees other) : e.step.Agrees other.step := by
  obtain ⟨context, frame, host⟩ := h
  refine ⟨context, ?_, ?_⟩
  · show (other.context.step other.frame other.host).frame = _
    rw [context, frame, host]
    rfl
  · show (other.context.step other.frame other.host).host = _
    rw [context, frame, host]
    rfl

theorem Agrees.steps {e other : Execution σ} (h : e.Agrees other) (count : Nat) :
    (steps count e).Agrees (steps count other) := by
  induction count with
  | zero => exact h
  | succ count ih =>
    rw [steps_succ, steps_succ]
    exact ih.step

theorem Agrees.haltsAfter {e other : Execution σ} (h : e.Agrees other) {n : Nat}
    {result : ExecutionResult} (ends : e.HaltsAfter n result) : other.HaltsAfter n result :=
  ends.of_frames fun i _ => (h.steps i).frame

theorem steps_succ_frame (i : Nat) (e : Execution σ) :
    (steps (i + 1) e).frame = (e.context.step (steps i e).frame (steps i e).host).frame := by
  rw [steps_succ, ← steps_context i e]
  rfl

theorem steps_succ_host (i : Nat) (e : Execution σ) :
    (steps (i + 1) e).host = (e.context.step (steps i e).frame (steps i e).host).host := by
  rw [steps_succ, ← steps_context i e]
  rfl

/-- A context that makes no difference to any of some steps makes none to all of them. -/
theorem agrees_steps_inContext {c : Context} {e : Execution σ} {n : Nat}
    (frames : ∀ i < n, (c.step (steps i e).frame (steps i e).host).frame = (steps (i + 1) e).frame)
    (hosts : ∀ i < n, (c.step (steps i e).frame (steps i e).host).host = (steps (i + 1) e).host)
    {i : Nat} (hi : i ≤ n) : ((steps i e).inContext c).Agrees (steps i (e.inContext c)) := by
  induction i with
  | zero => exact ⟨rfl, rfl, rfl⟩
  | succ i ih =>
    have before := (ih (Nat.le_of_succ_le hi)).step
    have after : ((steps (i + 1) e).inContext c).Agrees ((steps i e).inContext c).step :=
      ⟨rfl, frames i hi, hosts i hi⟩
    rw [steps_succ i (e.inContext c)]
    exact after.trans before

/-! ## Taking an execution to its end -/

/-- The end of an execution, if it has one, is where its steps lead. -/
theorem complete?_eq_some {e after : Execution σ} (fits : e.frame.stack.size ≤ stackLimit) :
    e.complete? = some after ↔ ∃ n result, e.HaltsAfter n result ∧ after = steps n e := by
  constructor
  · intro h
    refine complete?.partial_correctness
      (fun e after => e.frame.stack.size ≤ stackLimit →
        ∃ n result, e.HaltsAfter n result ∧ after = steps n e) ?_ e after h fits
    -- The recursion takes the first step; the steps that it takes later are the rest.
    intro later ih e after h fits
    cases state : e.frame.state with
    | running =>
      simp only [Frame.isHalted, state, Bool.false_eq_true, ↓reduceIte, cycle_eq_step fits] at h
      obtain ⟨n, result, ends, rfl⟩ := ih _ _ h (step_stack_size_le fits)
      exact ⟨n + 1, result, (haltsAfter_succ state).mpr ends, rfl⟩
    | halted result =>
      simp only [Frame.isHalted, state, ↓reduceIte, Option.some.injEq] at h
      exact ⟨0, result, haltsAfter_zero.mpr state, h.symm⟩
  · rintro ⟨n, result, ends, rfl⟩
    induction n generalizing e with
    | zero =>
      rw [complete?, Frame.isHalted, haltsAfter_zero.mp ends]
      rfl
    | succ n ih =>
      have goes := ends.running 0 (Nat.succ_pos n)
      rw [steps_zero] at goes
      rw [complete?, Frame.isHalted, goes, cycle_eq_step fits]
      exact ih (step_stack_size_le fits) ((haltsAfter_succ goes).mp ends)

/-- A run reports its start, takes the execution to its end, and reports that. -/
theorem run?_eq_some {e : Execution σ} {finished : Finished σ} :
    e.run? = some finished ↔ ∃ after result,
      (e.report [e.startEvent]).complete? = some after ∧ after.frame.state = .halted result ∧
        finished = ⟨result, after.host,
          (after.report [.finished result.status result.gasLeft result.output.length]).log⟩ := by
  simp only [run?, bind, Option.bind_eq_some_iff]
  constructor
  · rintro ⟨after, completes, h⟩
    cases state : after.frame.state with
    | running =>
      rw [state] at h
      cases h
    | halted result =>
      rw [state] at h
      cases h
      exact ⟨after, result, completes, state, rfl⟩
  · rintro ⟨after, result, completes, state, rfl⟩
    refine ⟨after, completes, ?_⟩
    rw [state]
    rfl

/-- A run is as many steps as it takes to the end. -/
theorem outcome?_eq_some {e : Execution σ} {result : ExecutionResult} {host : σ}
    (fits : e.frame.stack.size ≤ stackLimit) :
    e.outcome? = some (result, host) ↔
      ∃ n, e.HaltsAfter n result ∧ (steps n e).host = host := by
  have agrees := agrees_report e [e.startEvent]
  simp only [outcome?, Option.map_eq_some_iff, run?_eq_some, Prod.mk.injEq]
  constructor
  · rintro ⟨_, ⟨after, ended, completes, state, rfl⟩, rfl, rfl⟩
    obtain ⟨n, _, ends, rfl⟩ := (complete?_eq_some (e := e.report _) fits).mp completes
    have same := ends.halted.symm.trans state
    cases same
    exact ⟨n, agrees.symm.haltsAfter ends, (agrees.steps n).host.symm⟩
  · rintro ⟨n, ends, rfl⟩
    have ends := agrees.haltsAfter ends
    have completes := (complete?_eq_some (e := e.report _) fits).mpr ⟨n, result, ends, rfl⟩
    exact ⟨_, ⟨_, result, completes, ends.halted, rfl⟩, rfl, (agrees.steps n).host⟩

/-- Executions that end together on the same host come to the same. -/
theorem HaltsAfter.outcome?_eq {e other : Execution σ} {n : Nat} {result : ExecutionResult}
    (ends : e.HaltsAfter n result) (ends' : other.HaltsAfter n result)
    (host : (steps n other).host = (steps n e).host) (fits : e.frame.stack.size ≤ stackLimit)
    (fits' : other.frame.stack.size ≤ stackLimit) : other.outcome? = e.outcome? := by
  rw [(outcome?_eq_some fits).mpr ⟨n, ends, rfl⟩, (outcome?_eq_some fits').mpr ⟨n, ends', host⟩]

/-- Executions that go through the same frames come to the same, as far as their hosts are seen to
be the same. -/
theorem outcome?_map_eq {e other : Execution σ} {α : Type} (view : σ → α)
    (frames : ∀ k, (steps k other).frame = (steps k e).frame)
    (hosts : ∀ k, view (steps k other).host = view (steps k e).host)
    (fits : e.frame.stack.size ≤ stackLimit) :
    other.outcome?.map (fun o => (o.1, view o.2)) = e.outcome?.map fun o => (o.1, view o.2) := by
  have fits' : other.frame.stack.size ≤ stackLimit := by
    rw [← steps_zero other, frames 0]
    exact fits
  refine Option.ext fun seen => ?_
  simp only [Option.map_eq_some_iff, Prod.exists, outcome?_eq_some fits, outcome?_eq_some fits']
  constructor
  · rintro ⟨result, _, ⟨n, ends, rfl⟩, rfl⟩
    refine ⟨result, _, ⟨n, ends.of_frames fun i _ => (frames i).symm, rfl⟩, ?_⟩
    rw [hosts n]
  · rintro ⟨result, _, ⟨n, ends, rfl⟩, rfl⟩
    refine ⟨result, _, ⟨n, ends.of_frames fun i _ => frames i, rfl⟩, ?_⟩
    rw [hosts n]

/-- A step taken beforehand makes no difference to a run. -/
theorem outcome?_step {e : Execution σ} (fits : e.frame.stack.size ≤ stackLimit) :
    e.step.outcome? = e.outcome? := by
  cases state : e.frame.state with
  | halted result => rw [step_of_halted state]
  | running =>
    refine Option.ext fun outcome => ?_
    rw [outcome?_eq_some (step_stack_size_le fits), outcome?_eq_some fits]
    constructor
    · rintro ⟨n, ends, host⟩
      exact ⟨n + 1, (haltsAfter_succ state).mpr ends, host⟩
    · rintro ⟨n, ends, host⟩
      cases n with
      | zero =>
        rw [haltsAfter_zero, state] at ends
        cases ends
      | succ n => exact ⟨n, (haltsAfter_succ state).mp ends, host⟩

theorem outcome?_steps (c : Context) (host : σ) (count : Nat) :
    (steps count (start c host)).outcome? = (start c host).outcome? := by
  induction count with
  | zero => rfl
  | succ count ih => rw [steps_succ, outcome?_step (steps_stack_size_le c host count), ih]

end Execution

end StackMachine
