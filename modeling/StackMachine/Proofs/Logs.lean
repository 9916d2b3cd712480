import StackMachine.Host.Recording
import StackMachine.Proofs.Runs

/-!
# Logs

How much an execution logs makes no difference to what it does. `Execution.raisedIn` is everything
that some steps have to tell, reported or not; the log of a run is the part of it that the
verbosity asks for (`Execution.runSteps_log`, `Execution.run?_eq_some_iff`), and the traces in it
are one for each instruction that is paid for and defined (`Execution.raised_traces`).
-/

namespace StackMachine

/-! ## What is reported -/

namespace Event

@[simp] theorem level_step (position : Nat) (op : Operation) (gas : Int) (stackSize : Nat) :
    (step position op gas stackSize).level = .trace := rfl

@[simp] theorem level_failed (position : Nat) (opcode : UInt8) (error : VmError) :
    (failed position opcode error).level = .debug := rfl

variable {config : Config}

theorem isReported_of_silent (silent : config.verbosity ≤ 0) (event : Event) :
    event.isReported config = false := by
  have none : ¬ 2 ≤ config.verbosity := by omega
  cases h : event.level <;>
    simp [isReported, h, Config.tracesInstructions, Config.logsBoundaries, silent, none]

theorem isReported_of_logging (logging : config.verbosity = 1) (event : Event) :
    event.isReported config = decide (event.level ≠ .trace) := by
  cases h : event.level <;>
    simp [isReported, h, Config.tracesInstructions, Config.logsBoundaries, logging]

theorem isReported_of_tracing (tracing : 2 ≤ config.verbosity) (event : Event) :
    event.isReported config = true := by
  have some : 0 < config.verbosity := by omega
  cases h : event.level <;>
    simp [isReported, h, Config.tracesInstructions, Config.logsBoundaries, tracing, some]

end Event

/-! ## Steps -/

/-- The context with another verbosity. -/
def Context.withVerbosity (c : Context) (verbosity : Int) : Context :=
  { c with config := { c.config with verbosity } }

section

variable {σ : Type} [Host σ] {c : Context} {f : Frame} {host : σ}

/-- No step looks at the verbosity. -/
theorem Context.step_withVerbosity (verbosity : Int) :
    (c.withVerbosity verbosity).step f host = c.step f host :=
  rfl

/-- What an operation tells is no trace: that of its instruction was told before. -/
theorem Performs.level_ne_trace {op : Operation} {e : Effect σ} (h : Performs c f host op e) :
    ∀ event ∈ e.events, event.level ≠ .trace := by
  intro event mem
  cases h with
  | refused _ _ _ _ _ _ =>
    rw [List.mem_singleton.mp mem]
    exact Level.noConfusion
  | rearranged _ | stopped | jumped _ _ | branched _ _ _ | wrote _ _ | hashed _ _ _ | loaded _ _ _
  | stored _ _ _ _ | returned _ _ _ _ | called _ _ _ _ _ _ _ _ =>
    simp [Effect.ofItems, Effect.nothing] at mem

end

/-! ## Executions -/

namespace Execution

variable {σ : Type} [Host σ]

/-- What the next step has to tell, reported or not. -/
def raised (e : Execution σ) : List Event :=
  (e.context.step e.frame e.host).events

/-- What so many steps have to tell, in order. -/
def raisedIn (e : Execution σ) (count : Nat) : List Event :=
  (List.range count).flatMap fun i => (steps i e).raised

/-- The execution after so many steps of a run, which begins by telling so. -/
def runSteps (count : Nat) (e : Execution σ) : Execution σ :=
  steps count (e.report [e.startEvent])

/-- The trace of the instruction that the next step fetches, if that is paid for and defined: where
it is, what gas remains once it is paid, and how many words it finds on the stack. -/
def announced? (e : Execution σ) : Option Event := do
  let opcode ← e.opcode?
  if (e.context.price opcode : Int) ≤ e.frame.gas.remaining then
    let op ← Operation.at? e.context.revision opcode
    return .step e.frame.pc op (e.frame.gas.remaining - e.context.price opcode) e.frame.stack.size
  else none

/-- A step tells one trace if it comes to an instruction that is paid for and defined, and none
otherwise. -/
theorem raised_traces (e : Execution σ) :
    e.raised.filter (·.level = .trace) = e.announced?.toList := by
  cases state : e.frame.state with
  | halted result => simp [raised, Context.step, announced?, state, opcode?_of_halted state]
  | running =>
    have next := opcode?_of_running state
    have takes : Takes e.context e.frame e.host (e.context.step e.frame e.host) :=
      Context.step_takes state
    unfold raised announced?
    rw [next]
    generalize e.context.step e.frame e.host = after at takes
    cases takes with
    | ended past => simp [past]
    | unpaid fetched short => simp [fetched, Int.not_le.mpr short]
    | undefined fetched paid unknown => simp [fetched, paid, unknown]
    | faulted fetched paid decoded _ => simp [fetched, paid, decoded]
    | performed fetched paid decoded _ performs =>
      simpa [fetched, paid, decoded] using performs.level_ne_trace

theorem raisedIn_traces (e : Execution σ) (count : Nat) :
    (e.raisedIn count).filter (·.level = .trace)
      = (List.range count).filterMap fun i => (steps i e).announced? := by
  induction count with
  | zero => rfl
  | succ count ih =>
    rw [raisedIn, List.range_succ, List.flatMap_append, List.filter_append, List.flatMap_singleton,
      raised_traces, List.filterMap_append, ← ih]
    cases h : (steps count e).announced? <;> simp [raisedIn, h]

/-! ## Logs -/

theorem Agrees.raised {e other : Execution σ} (h : e.Agrees other) : other.raised = e.raised := by
  rw [Execution.raised, h.context, h.frame, h.host]
  rfl

theorem Agrees.raisedIn {e other : Execution σ} (h : e.Agrees other) (count : Nat) :
    other.raisedIn count = e.raisedIn count := by
  simp only [Execution.raisedIn, fun i => (h.steps i).raised]

theorem steps_log (e : Execution σ) (count : Nat) :
    (steps count e).log.toList
      = e.log.toList ++ (e.raisedIn count).filter (Event.isReported e.context.config) := by
  induction count with
  | zero => simp [raisedIn]
  | succ count ih =>
    have told : (steps count e).step.log = (steps count e).log
        ++ (steps count e).raised.filter (Event.isReported (steps count e).context.config) := rfl
    rw [steps_succ, told, Array.toList_appendList, ih, steps_context, raisedIn, raisedIn,
      List.range_succ, List.flatMap_append, List.flatMap_singleton, List.filter_append,
      List.append_assoc]

/-- The log of a run in progress. -/
theorem runSteps_log (e : Execution σ) (count : Nat) :
    (runSteps count e).log.toList = e.log.toList
      ++ (e.startEvent :: e.raisedIn count).filter (Event.isReported e.context.config) := by
  have agrees := agrees_report e [e.startEvent]
  have begun : (e.report [e.startEvent]).log.toList
      = e.log.toList ++ [e.startEvent].filter (Event.isReported e.context.config) := by
    rw [report, Array.toList_appendList]
  rw [runSteps, steps_log, agrees.raisedIn, begun, agrees.context, List.append_assoc,
    ← List.filter_append, List.singleton_append]

/-- The event that ends a run. -/
def endEvent (result : ExecutionResult) : Event :=
  .finished result.status result.gasLeft result.output.length

/-- A run ends after as many steps as its execution. Its log has the start, what the steps have to
tell, and the end, as far as they are reported. -/
theorem run?_eq_some_iff {e : Execution σ} {finished : Finished σ}
    (fits : e.frame.stack.size ≤ stackLimit) :
    e.run? = some finished ↔ ∃ n, e.HaltsAfter n finished.result ∧
      finished.host = (steps n e).host ∧
      finished.log.toList = e.log.toList
        ++ (e.startEvent :: e.raisedIn n ++ [endEvent finished.result]).filter
          (Event.isReported e.context.config) := by
  have agrees := agrees_report e [e.startEvent]
  have log (n : Nat) (result : ExecutionResult) :
      ((runSteps n e).report [endEvent result]).log.toList = e.log.toList
        ++ (e.startEvent :: e.raisedIn n ++ [endEvent result]).filter
          (Event.isReported e.context.config) := by
    rw [report, Array.toList_appendList, runSteps_log, List.filter_append, List.append_assoc,
      runSteps, steps_context]
    rfl
  rw [run?_eq_some]
  constructor
  · rintro ⟨after, result, completes, state, rfl⟩
    obtain ⟨n, other, ends, rfl⟩ := (complete?_eq_some (e := e.report _) fits).mp completes
    have same := ends.halted.symm.trans state
    cases same
    exact ⟨n, agrees.symm.haltsAfter ends, (agrees.steps n).host, log n result⟩
  · rintro ⟨n, ends, host, told⟩
    have ends := agrees.haltsAfter ends
    have completes := (complete?_eq_some (e := e.report _) fits).mpr ⟨n, _, ends, rfl⟩
    refine ⟨runSteps n e, finished.result, completes, ends.halted, ?_⟩
    have hosts : finished.host = (runSteps n e).host := host.trans (agrees.steps n).host.symm
    have logs := Array.toList_inj.mp (told.trans (log n finished.result).symm)
    rw [← hosts]
    exact congrArg (Finished.mk finished.result finished.host) logs

theorem HaltsAfter.exists_run? {e : Execution σ} {n : Nat} {result : ExecutionResult}
    (ends : e.HaltsAfter n result) (fits : e.frame.stack.size ≤ stackLimit) :
    ∃ finished, e.run? = some finished ∧ finished.result = result := by
  let logged := (e.startEvent :: e.raisedIn n ++ [endEvent result]).filter
    (Event.isReported e.context.config)
  refine ⟨⟨result, (steps n e).host, e.log ++ logged⟩, ?_, rfl⟩
  exact (run?_eq_some_iff fits).mpr ⟨n, ends, rfl, Array.toList_appendList⟩

/-! ## Two verbosities -/

section

variable (c : Context) (host : σ) (verbosity : Int)

theorem agrees_withVerbosity (k : Nat) :
    ((steps k (start c host)).inContext (c.withVerbosity verbosity)).Agrees
      (steps k (start (c.withVerbosity verbosity) host)) := by
  refine agrees_steps_inContext (e := start c host) (fun i _ => ?_) (fun i _ => ?_) (Nat.le_refl k)
  · rw [Context.step_withVerbosity, steps_succ_frame]
    rfl
  · rw [Context.step_withVerbosity, steps_succ_host]
    rfl

theorem raisedIn_withVerbosity (k : Nat) :
    (start (c.withVerbosity verbosity) host).raisedIn k = (start c host).raisedIn k := by
  have same (i : Nat) : (steps i (start (c.withVerbosity verbosity) host)).raised
      = (steps i (start c host)).raised := by
    have context : (steps i (start c host)).context = c := steps_context i _
    rw [(agrees_withVerbosity c host verbosity i).raised, raised, raised, context]
    rfl
  simp only [raisedIn, same]

theorem haltsAfter_withVerbosity (n : Nat) (result : ExecutionResult) :
    (start (c.withVerbosity verbosity) host).HaltsAfter n result
      ↔ (start c host).HaltsAfter n result := by
  have frames (i : Nat) := (agrees_withVerbosity c host verbosity i).frame
  constructor
  · intro ends
    exact ends.of_frames fun i _ => (frames i).symm
  · intro ends
    exact ends.of_frames fun i _ => frames i

theorem outcome?_withVerbosity :
    (start (c.withVerbosity verbosity) host).outcome? = (start c host).outcome? := by
  refine Option.ext fun ⟨result, after⟩ => ?_
  rw [outcome?_eq_some (start_stack_size_le _ host), outcome?_eq_some (start_stack_size_le c host)]
  refine exists_congr fun n => ?_
  rw [haltsAfter_withVerbosity, (agrees_withVerbosity c host verbosity n).host]
  rfl

variable {c host verbosity} {keep : Event → Bool}
  (sieve : ∀ event, event.isReported (c.withVerbosity verbosity).config
    = (keep event && event.isReported c.config))

include sieve

omit [Host σ] in
theorem filter_sifted (events : List Event) :
    events.filter (Event.isReported (c.withVerbosity verbosity).config)
      = (events.filter (Event.isReported c.config)).filter keep := by
  rw [List.filter_filter]
  exact List.filter_congr fun event _ => sieve event

/-- A verbosity that reports some of the events of another one has these in the log of a run in
progress. -/
theorem runSteps_sifted (k : Nat) :
    (runSteps k (start (c.withVerbosity verbosity) host)).log
      = (runSteps k (start c host)).log.filter keep := by
  rw [← Array.toList_inj, Array.toList_filter, runSteps_log, runSteps_log, raisedIn_withVerbosity]
  exact filter_sifted sieve _

/-- A verbosity that reports some of the events of another one gives the same runs, with these
events in their logs. -/
theorem run?_sifted :
    (start (c.withVerbosity verbosity) host).run? =
      (start c host).run?.map fun finished =>
        { finished with log := finished.log.filter keep } := by
  have told (n : Nat) (result : ExecutionResult) := filter_sifted sieve
    ((start c host).startEvent :: (start c host).raisedIn n ++ [endEvent result])
  cases run : (start c host).run? with
  | none =>
    rw [Option.map_none, Option.eq_none_iff_forall_ne_some]
    intro finished run'
    obtain ⟨n, ends, -⟩ := (run?_eq_some_iff (start_stack_size_le _ host)).mp run'
    have ends' := (haltsAfter_withVerbosity c host verbosity n _).mp ends
    obtain ⟨_, ran, -⟩ := ends'.exists_run? (start_stack_size_le c host)
    rw [run] at ran
    cases ran
  | some finished =>
    obtain ⟨n, ends, after, log⟩ := (run?_eq_some_iff (start_stack_size_le c host)).mp run
    refine (run?_eq_some_iff (start_stack_size_le _ host)).mpr ⟨n, ?_, ?_, ?_⟩
    · exact (haltsAfter_withVerbosity c host verbosity n _).mpr ends
    · exact after.trans (agrees_withVerbosity c host verbosity n).host.symm
    · rw [raisedIn_withVerbosity, Array.toList_filter, log]
      exact (told n finished.result).symm

end

/-! ## One verbosity -/

section

variable {c : Context} {host : σ}

/-- An execution that is silent leaves no log. -/
theorem log_of_silent (silent : c.config.verbosity ≤ 0) :
    (∀ k, (runSteps k (start c host)).log = #[]) ∧
      ∀ finished, (start c host).run? = some finished → finished.log = #[] := by
  have nothing (events : List Event) : events.filter (Event.isReported c.config) = [] :=
    List.filter_eq_nil_iff.mpr fun event _ => by simp [Event.isReported_of_silent silent]
  constructor
  · intro k
    rw [← Array.toList_inj, runSteps_log]
    exact nothing _
  · intro finished run
    obtain ⟨n, -, -, log⟩ := (run?_eq_some_iff (start_stack_size_le c host)).mp run
    rw [← Array.toList_inj, log]
    exact nothing _

/-- An execution that traces logs everything, and so one trace for each instruction that is paid for
and defined. -/
theorem traces_of_tracing (tracing : 2 ≤ c.config.verbosity) :
    (∀ k, (runSteps k (start c host)).log.toList.filter (·.level = .trace)
        = (List.range k).filterMap fun i => (steps i (start c host)).announced?) ∧
      ∀ finished, (start c host).run? = some finished →
        ∃ n, (start c host).HaltsAfter n finished.result ∧
          finished.log.toList.filter (·.level = .trace)
            = (List.range n).filterMap fun i => (steps i (start c host)).announced? := by
  have everything (events : List Event) : events.filter (Event.isReported c.config) = events :=
    List.filter_eq_self.mpr fun event _ => Event.isReported_of_tracing tracing event
  constructor
  · intro k
    have log : (runSteps k (start c host)).log.toList = _ :=
      (runSteps_log (start c host) k).trans (everything _)
    rw [log, ← raisedIn_traces]
    rfl
  · intro finished run
    obtain ⟨n, ends, -, log⟩ := (run?_eq_some_iff (start_stack_size_le c host)).mp run
    have log : finished.log.toList = _ := log.trans (everything _)
    refine ⟨n, ends, ?_⟩
    rw [log, ← raisedIn_traces, List.filter_append]
    exact List.append_nil _

end

/-- How much an execution logs makes no difference to its steps, to its result and to its host.
Below one it reports nothing. From two on every verbosity reports the same, and one reports this
without the traces. There is a trace, in order, for each step that comes to an instruction that is
paid for and defined, with the place, the gas and the size of the stack that the instruction
finds. -/
theorem same_at_every_verbosity (c : Context) (host : σ) (verbosity : Int) :
    let e := start c host
    let other := start { c with config := { c.config with verbosity } } host
    (∀ k, (steps k other).frame = (steps k e).frame ∧
        (steps k other).host = (steps k e).host) ∧
      (∀ n result, other.HaltsAfter n result ↔ e.HaltsAfter n result) ∧
      other.outcome? = e.outcome? ∧
      (c.config.verbosity ≤ 0 → (∀ k, (runSteps k e).log = #[]) ∧
        ∀ finished, e.run? = some finished → finished.log = #[]) ∧
      (2 ≤ c.config.verbosity → 2 ≤ verbosity →
        (∀ k, (runSteps k other).log = (runSteps k e).log) ∧ other.run? = e.run?) ∧
      (2 ≤ c.config.verbosity → verbosity = 1 →
        (∀ k, (runSteps k other).log = (runSteps k e).log.filter (·.level ≠ .trace)) ∧
          other.run? = e.run?.map fun finished =>
            { finished with log := finished.log.filter (·.level ≠ .trace) }) ∧
      (2 ≤ c.config.verbosity →
        (∀ k, (runSteps k e).log.toList.filter (·.level = .trace)
          = (List.range k).filterMap fun i => (steps i e).announced?) ∧
        ∀ finished, e.run? = some finished → ∃ n, e.HaltsAfter n finished.result ∧
          finished.log.toList.filter (·.level = .trace)
            = (List.range n).filterMap fun i => (steps i e).announced?) := by
  intro e other
  have agrees (k : Nat) := agrees_withVerbosity c host verbosity k
  refine ⟨fun k => ⟨(agrees k).frame, (agrees k).host⟩, haltsAfter_withVerbosity c host verbosity,
    outcome?_withVerbosity c host verbosity, log_of_silent, ?_, ?_, traces_of_tracing⟩
  · intro tracing tracing'
    have sieve (event : Event) : event.isReported (c.withVerbosity verbosity).config
        = (true && event.isReported c.config) := by
      rw [Event.isReported_of_tracing tracing, Event.isReported_of_tracing tracing']
      rfl
    have whole (log : Array Event) : log.filter (fun _ => true) = log :=
      Array.filter_eq_self.mpr fun _ _ => rfl
    refine ⟨fun k => (runSteps_sifted sieve k).trans (whole _), (run?_sifted sieve).trans ?_⟩
    simp only [whole]
    exact Option.map_id'
  · intro tracing logging
    have sieve (event : Event) : event.isReported (c.withVerbosity verbosity).config
        = (decide (event.level ≠ .trace) && event.isReported c.config) := by
      rw [Event.isReported_of_tracing tracing, Event.isReported_of_logging logging, Bool.and_true]
    exact ⟨runSteps_sifted sieve, run?_sifted sieve⟩

/-- Seven words are pushed, a call is refused for its depth, and an addition finds one word only. -/
theorem same_at_every_verbosity_refused :
    let c : Context := ⟨{ Config.default with verbosity := 2 }, .latest,
      { Message.call 5 7 99 with depth := 1024 },
      .ofBytes [0x5f, 0x5f, 0x5f, 0x5f, 0x5f, 0x5f, 0x5f, 0xf1, 0x01]⟩
    let host := RecordingHost.empty
    let e := start c host
    let louder := start { c with config := { c.config with verbosity := 9 } } host
    let quieter := start { c with config := { c.config with verbosity := 1 } } host
    let silent := start { c with config := { c.config with verbosity := 0 } } host
    2 ≤ c.config.verbosity ∧
      (∃ finished n, e.run? = some finished ∧ finished.result = ⟨.stackUnderflow, 0, []⟩ ∧
        e.HaltsAfter n finished.result ∧ finished.log.toList.filter (·.level = .trace)
          = (List.range n).filterMap fun i => (steps i e).announced?) ∧
      (steps 8 e).announced? = some (.step 8 (.binary .add) 90 1) ∧
      louder.run? = e.run? ∧
      (runSteps 9 quieter).log = (runSteps 9 e).log.filter (·.level ≠ .trace) ∧
      (runSteps 9 quieter).log
        = #[.started .latest 1024 99 9, .depthLimitReached 1024, .failed 8 0x01 .stackUnderflow] ∧
      ∃ finished, silent.run? = some finished ∧ finished.log = #[] := by
  intro c host e louder quieter silent
  have tracing : 2 ≤ c.config.verbosity := by decide
  have ends : e.HaltsAfter 9 ⟨.stackUnderflow, 0, []⟩ := ⟨by decide +kernel, by decide +kernel⟩
  obtain ⟨finished, run, result⟩ := ends.exists_run? (start_stack_size_le c host)
  obtain ⟨-, -, -, -, louder, -, traces⟩ := same_at_every_verbosity c host 9
  obtain ⟨-, -, -, -, -, quieter, -⟩ := same_at_every_verbosity c host 1
  obtain ⟨-, ends', -⟩ := same_at_every_verbosity c host 0
  obtain ⟨-, -, -, nothing, -⟩ :=
    same_at_every_verbosity { c with config := { c.config with verbosity := 0 } } host 0
  obtain ⟨n, halts, traced⟩ := (traces tracing).2 finished run
  obtain ⟨still, run', -⟩ := ((ends' 9 _).mpr ends).exists_run? (start_stack_size_le _ host)
  exact ⟨tracing, ⟨finished, n, run, result, halts, traced⟩, by decide +kernel,
    (louder tracing (by decide)).2, (quieter tracing rfl).1 9, by decide +kernel, still, run',
    (nothing (by decide)).2 still run'⟩

end Execution

end StackMachine
