import StackMachine.Gas

/-!
# Configuration

What an execution runs with: how much it logs, how instructions and memory are priced, and the
limits of memory and of nested calls. A configuration is copied when an execution starts and does
not change while it runs.
-/

namespace StackMachine

/-- The limit of memory unless another is set: sixteen mebibytes. -/
def defaultMemoryLimit : UInt64 := 16 * 1024 * 1024

/-- The limit of nested calls unless another is set. -/
def defaultCallDepth : Int32 := 1024

/-- What an execution runs with. -/
structure Config where
  /-- Above zero the start and the end of executions are logged, from two on every instruction. -/
  verbosity : Int
  gasSchedule : GasSchedule
  memoryPolicy : MemoryPolicy
  /-- The limit of memory in bytes. -/
  maxMemorySize : UInt64
  /-- The depth at which nested calls are refused. -/
  maxCallDepth : Int32
  deriving DecidableEq, Repr

namespace Config

/-- The lowest verbosity that a machine can have. -/
def minVerbosity : Int := -1

/-- The highest verbosity that a machine can have. -/
def maxVerbosity : Int := 9

/-- No logs, one gas for every instruction, memory for free. -/
def default : Config :=
  ⟨0, .uniform 1, .free, defaultMemoryLimit, defaultCallDepth⟩

instance : Inhabited Config := ⟨default⟩

/-- Whether a verbosity is one that a machine can have. -/
def isVerbosity (v : Int) : Bool :=
  minVerbosity ≤ v ∧ v ≤ maxVerbosity

/-- The configuration with the nearest verbosity that a machine can have. -/
def clamped (c : Config) : Config :=
  { c with verbosity := max minVerbosity (min maxVerbosity c.verbosity) }

/-- Whether the start and the end of executions are logged. -/
def logsBoundaries (c : Config) : Bool :=
  0 < c.verbosity

/-- Whether every instruction is logged. -/
def tracesInstructions (c : Config) : Bool :=
  2 ≤ c.verbosity

end Config

end StackMachine
