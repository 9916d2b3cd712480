import StackMachine.Frame.Routine

/-!
# Executions

An execution together with its host and the log of what it reported, taken one step at a time or to
its end.
-/

namespace StackMachine

/-- An execution, its host and its log. -/
structure Execution (σ : Type) where
  context : Context
  frame : Frame
  host : σ
  /-- The events that the configuration asks for, in order. -/
  log : Array Event

/-- What is left of an execution that has ended. -/
structure Finished (σ : Type) where
  result : ExecutionResult
  host : σ
  log : Array Event

namespace Execution

variable {σ : Type}

/-- An execution that has not begun. -/
def start (context : Context) (host : σ) : Execution σ :=
  ⟨context, .initial context, host, #[]⟩

/-- Reports events, as far as the configuration asks for them. -/
def report (e : Execution σ) (events : List Event) : Execution σ :=
  let reported := events.filter (Event.isReported e.context.config)
  { e with log := e.log ++ reported }

variable [Host σ]

/-- Takes one step. -/
def step (e : Execution σ) : Execution σ :=
  let after := e.context.step e.frame e.host
  { e with frame := after.frame, host := after.host }.report after.events

/-- Takes so many steps. -/
def steps : (count : Nat) → Execution σ → Execution σ
  | 0, e => e
  | count + 1, e => steps count e.step

/-- Takes one step by running routines. -/
def cycle (e : Execution σ) : Execution σ :=
  let after := e.context.cycle e.frame e.host
  { e with frame := after.frame, host := after.host }.report after.events

/-- Takes so many cycles. -/
def cycles : (count : Nat) → Execution σ → Execution σ
  | 0, e => e
  | count + 1, e => cycles count e.cycle

/-- Takes cycles until the execution has ended, but no more than so many. -/
def advance : (limit : Nat) → Execution σ → Execution σ
  | 0, e => e
  | limit + 1, e => if e.frame.isHalted then e else advance limit e.cycle

/-- Runs the routine of an operation outside the course of the execution: nothing is paid or checked
for it beforehand, and the execution neither moves on nor ends. -/
def perform (e : Execution σ) (op : Operation) : Except VmError Control × Execution σ :=
  let after (s : Stepped σ) := { e with frame := s.frame, host := s.host }.report s.events
  match (Routine.ofOperation e.context op).run ⟨e.frame, e.host, []⟩ with
  | .ok control s => (.ok control, after s)
  | .error error s => (.error error, after s)

/-- The event that begins a run. -/
def startEvent (e : Execution σ) : Event :=
  let c := e.context
  .started c.revision c.message.depth c.message.gas c.code.size

/-- Takes cycles until the execution has ended, however many that takes. An execution that goes on
for ever has no end. -/
def complete? (e : Execution σ) : Option (Execution σ) :=
  if e.frame.isHalted then some e else e.cycle |>.complete?
partial_fixpoint

/-- Takes the execution to its end. -/
def run? (e : Execution σ) : Option (Finished σ) := do
  let e ← (e.report [e.startEvent]).complete?
  match e.frame.state with
  | .running => none
  | .halted result =>
    let e := e.report [.finished result.status result.gasLeft result.output.length]
    return ⟨result, e.host, e.log⟩

end Execution

end StackMachine
