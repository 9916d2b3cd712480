import StackMachine.Config
import StackMachine.Json

/-!
# Events

What executions, machines and fixture runs report about themselves. Nothing ever depends on the
events that were reported.
-/

namespace StackMachine

/-- How important an event is. -/
inductive Level where
  | trace
  | debug
  | info
  | warn
  deriving DecidableEq, Repr

/-- The name of a level. -/
def Level.name : Level → String
  | trace => "TRACE"
  | debug => "DEBUG"
  | info => "INFO"
  | warn => "WARN"

/-- Something worth reporting. -/
inductive Event where
  /-- An execution begins. -/
  | started (revision : Revision) (depth : Int32) (gas : Int) (codeSize : Nat)
  /-- An instruction is paid for and about to be carried out. -/
  | step (position : Nat) (operation : Operation) (gas : Int) (stackSize : Nat)
  /-- An instruction raised a fault. -/
  | failed (position : Nat) (opcode : UInt8) (error : VmError)
  /-- A nested call was refused for its depth. -/
  | depthLimitReached (depth : Int32)
  /-- An execution is over. -/
  | finished (status : Status) (gasLeft : Int) (outputSize : Nat)
  /-- The verbosity of a machine was set. -/
  | optionSet (verbosity : Int)
  /-- A fixture case met its expectations. -/
  | casePassed (name : String)
  /-- A fixture case did not. -/
  | caseFailed (name reason : String)
  deriving DecidableEq, Repr

namespace Event

/-- The level of an event. -/
def level : Event → Level
  | step .. => .trace
  | started .. | failed .. | depthLimitReached _ | finished .. | optionSet _ => .debug
  | casePassed _ => .info
  | caseFailed .. => .warn

/-- The text of an event. -/
def message : Event → String
  | started .. => "execution started"
  | step .. => "step"
  | failed .. => "execution failed"
  | depthLimitReached _ => "call depth limit reached"
  | finished .. => "execution finished"
  | optionSet _ => "option set"
  | casePassed name => s!"PASS: {name}"
  | caseFailed name reason => s!"FAIL: {name} - {reason}"

/-- The details of an event. -/
def fields : Event → List (String × Json)
  | started revision depth gas codeSize =>
    [("revision", .str revision.title), ("depth", .int depth.toInt), ("gas", .int gas),
      ("code_len", .int codeSize)]
  | step position operation gas stackSize =>
    [("pc", .int position), ("op", .str operation.name), ("gas", .int gas),
      ("stack", .int stackSize)]
  | failed position opcode error =>
    [("pc", .int position), ("opcode", .str (Opcode.describe opcode)), ("error", .str error.message)]
  | depthLimitReached depth => [("depth", .int depth.toInt)]
  | finished status gasLeft outputSize =>
    [("status", .str status.title), ("gas_left", .int gasLeft), ("output_len", .int outputSize)]
  | optionSet verbosity => [("verbosity", .int verbosity)]
  | casePassed _ | caseFailed .. => []

/-- Whether an execution with a given configuration reports the event: instructions when it traces
them, everything else when it logs at all. -/
def isReported (config : Config) (e : Event) : Bool :=
  match e.level with
  | .trace => config.tracesInstructions
  | _ => config.logsBoundaries

end Event

end StackMachine
