import StackMachine.Text.Hex
import StackMachine.Json.Decode

/-!
# Outcomes of an execution

The faults that end an execution, the statuses that an execution can end with, and the result that
the caller gets. Only an execution that succeeded or reverted gives unused gas back.
-/

namespace StackMachine

/-- The greatest number of words on a stack. -/
def stackLimit : Nat := 1024

/-! ## Statuses -/

/-- How an execution ended. -/
inductive Status where
  /-- The code stopped, returned, or ran off its end. -/
  | success
  /-- The code gave up, with output and the rest of its gas. -/
  | revert
  /-- A failure that only hosts report, for nested calls. -/
  | failure
  | outOfGas
  | undefinedInstruction
  | badJumpDestination
  | stackOverflow
  | stackUnderflow
  | memoryBoundsExceeded
  | staticModeViolation
  | callDepthExceeded
  | internalError
  deriving DecidableEq, Repr

namespace Status

/-- All statuses. -/
def all : List Status :=
  [success, revert, failure, outOfGas, undefinedInstruction, badJumpDestination, stackOverflow,
    stackUnderflow, memoryBoundsExceeded, staticModeViolation, callDepthExceeded, internalError]

/-- Whether the execution succeeded. -/
def isSuccess (s : Status) : Bool :=
  s = success

/-- Whether the caller gets the unused gas back. -/
def keepsGas (s : Status) : Bool :=
  s = success ∨ s = revert

/-- The name in documents. -/
def name : Status → String
  | success => "success"
  | revert => "revert"
  | failure => "failure"
  | outOfGas => "out_of_gas"
  | undefinedInstruction => "undefined_instruction"
  | badJumpDestination => "bad_jump_destination"
  | stackOverflow => "stack_overflow"
  | stackUnderflow => "stack_underflow"
  | memoryBoundsExceeded => "memory_bounds_exceeded"
  | staticModeViolation => "static_mode_violation"
  | callDepthExceeded => "call_depth_exceeded"
  | internalError => "internal_error"

/-- The name in messages and events. -/
def title : Status → String
  | success => "success"
  | revert => "revert"
  | failure => "failure"
  | outOfGas => "out of gas"
  | undefinedInstruction => "undefined instruction"
  | badJumpDestination => "bad jump destination"
  | stackOverflow => "stack overflow"
  | stackUnderflow => "stack underflow"
  | memoryBoundsExceeded => "memory bounds exceeded"
  | staticModeViolation => "static mode violation"
  | callDepthExceeded => "call depth exceeded"
  | internalError => "internal error"

/-- Reads a status by name. -/
def ofJson (j : Json) : Json.Decoded Status :=
  j.asName (all.map fun s => (s.name, s))

end Status

/-! ## Faults -/

/-- A fault that an instruction raises. -/
inductive VmError where
  | outOfGas
  /-- The opcode has no instruction under the active revision. -/
  | undefinedInstruction (opcode : UInt8)
  | stackUnderflow
  | stackOverflow
  | memoryBoundsExceeded
  /-- The target of a jump is no jump destination. -/
  | badJumpDestination (target : Nat)
  | staticModeViolation
  deriving DecidableEq, Repr

namespace VmError

/-- The status of an execution that the fault ends. -/
def status : VmError → Status
  | outOfGas => .outOfGas
  | undefinedInstruction _ => .undefinedInstruction
  | stackUnderflow => .stackUnderflow
  | stackOverflow => .stackOverflow
  | memoryBoundsExceeded => .memoryBoundsExceeded
  | badJumpDestination _ => .badJumpDestination
  | staticModeViolation => .staticModeViolation

/-- Says what went wrong. -/
def message : VmError → String
  | outOfGas => "out of gas"
  | undefinedInstruction opcode =>
    let shown := Text.Hex.encode [opcode]
    s!"undefined instruction: 0x{shown}"
  | stackUnderflow => "stack underflow"
  | stackOverflow => s!"stack overflow (max {stackLimit})"
  | memoryBoundsExceeded => "memory access out of bounds"
  | badJumpDestination target => s!"invalid jump destination: {target}"
  | staticModeViolation => "state modification in static context"

end VmError

/-! ## Results -/

/-- What the caller of an execution gets. -/
structure ExecutionResult where
  status : Status
  /-- The gas that goes back to the caller. -/
  gasLeft : Int
  output : Bytes
  deriving DecidableEq, Repr

namespace ExecutionResult

/-- The result of an execution that ended with some gas remaining. Gas goes back only if the status
keeps it, and never a negative amount. -/
def ofStatus (status : Status) (remaining : Int) (output : Bytes) : ExecutionResult :=
  ⟨status, if status.keepsGas then max 0 remaining else 0, output⟩

/-- A success. -/
def success (remaining : Int) (output : Bytes) : ExecutionResult :=
  ofStatus .success remaining output

/-- A deliberate stop that undoes nothing by itself. -/
def revert (remaining : Int) (output : Bytes) : ExecutionResult :=
  ofStatus .revert remaining output

/-- A failure, without gas and output. -/
def failure (status : Status) : ExecutionResult :=
  ofStatus status 0 []

/-- Whether the execution succeeded. -/
def isSuccess (r : ExecutionResult) : Bool :=
  r.status.isSuccess

end ExecutionResult

end StackMachine
