import StackMachine.Code
import StackMachine.Config
import StackMachine.Memory
import StackMachine.Message
import StackMachine.Stack

/-!
# Frames

An execution in progress: what it was started with, which does not change, and the frame, which
does.
-/

namespace StackMachine

/-- What an execution was started with. -/
structure Context where
  config : Config
  revision : Revision
  message : Message
  code : Code

/-- Whether an execution goes on. -/
inductive State where
  | running
  | halted (result : ExecutionResult)
  deriving DecidableEq, Repr

/-- The changing part of an execution. -/
structure Frame where
  /-- The position in the code of the instruction that comes next. -/
  pc : Nat
  stack : Stack
  memory : Memory
  gas : GasMeter
  state : State

namespace Frame

/-- The frame before the first instruction. -/
def initial (c : Context) : Frame :=
  ⟨0, .empty, .ofLimit c.config.maxMemorySize.toNat, .ofLimit c.message.gas, .running⟩

/-- The frame when the execution ends with a status and output. -/
def halt (f : Frame) (status : Status) (output : Bytes) : Frame :=
  { f with state := .halted (.ofStatus status f.gas.remaining output) }

/-- Whether the execution has ended. -/
def isHalted (f : Frame) : Bool :=
  match f.state with
  | .running => false
  | .halted _ => true

end Frame

end StackMachine
