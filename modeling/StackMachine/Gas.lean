import StackMachine.Operation
import StackMachine.Status

/-!
# Gas

Gas is the budget of an execution. A schedule prices instructions, a policy prices the growth of
memory, and a meter keeps what remains. Prices are 64-bit numbers without sign; sums and products
that would exceed them stay at the largest.
-/

namespace StackMachine

/-! ## Amounts -/

/-- The largest price, the largest number of 64 bits. -/
def maxPrice : Nat := 0xffffffffffffffff

/-- An amount, cut off at the largest price. -/
def saturate (n : Nat) : Nat :=
  min n maxPrice

/-- How many words of thirty-two bytes it takes to hold `bytes` bytes. -/
def wordsFor (bytes : Nat) : Nat :=
  (bytes + 31) / 32

/-! ## Instructions -/

/-- How instructions are priced. -/
inductive GasSchedule where
  /-- Every instruction costs the same, undefined ones included. -/
  | uniform (perInstruction : UInt64)
  /-- Every instruction costs its base gas; undefined ones cost nothing. -/
  | tiered
  deriving DecidableEq, Repr

namespace GasSchedule

/-- What is paid before an opcode with the given operation, if any, is carried out. -/
def instructionCost (s : GasSchedule) (op : Option Operation) : Nat :=
  match s with
  | uniform perInstruction => perInstruction.toNat
  | tiered => match op with
    | some op => op.baseGas
    | none => 0

/-- What hashing `len` bytes costs on top: six for each word under the tiered schedule. -/
def hashCost (s : GasSchedule) (len : Nat) : Nat :=
  match s with
  | uniform _ => 0
  | tiered => saturate (6 * wordsFor len)

end GasSchedule

/-! ## Memory -/

/-- How the growth of memory is priced. -/
inductive MemoryPolicy where
  | free
  /-- A fixed price for each new word. -/
  | linear (perWord : UInt64)
  /-- Three for each word and a 512th of the square of their number, for the words that are new. -/
  | quadratic
  deriving DecidableEq, Repr

namespace MemoryPolicy

/-- What a memory of so many words costs under the quadratic policy. -/
def quadraticCost (words : Nat) : Nat :=
  saturate (saturate (3 * words) + saturate (words * words) / 512)

/-- What growth from `current` to `new` bytes costs. -/
def expansionCost (p : MemoryPolicy) (current new : Nat) : Nat :=
  if new ≤ current then 0
  else match p with
    | free => 0
    | linear perWord => saturate (perWord.toNat * (wordsFor new - wordsFor current))
    | quadratic => quadraticCost (wordsFor new) - quadraticCost (wordsFor current)

end MemoryPolicy

/-! ## The meter -/

/-- The gas of one execution. -/
structure GasMeter where
  /-- The gas at the start. -/
  limit : Int
  /-- The gas that remains. -/
  remaining : Int
  deriving DecidableEq, Repr

namespace GasMeter

/-- A meter with all of its gas. -/
def ofLimit (limit : Int) : GasMeter :=
  ⟨limit, limit⟩

/-- The gas that is gone. -/
def spent (m : GasMeter) : Int :=
  m.limit - m.remaining

/-- Takes an amount off the meter, if that much remains. -/
def charge (m : GasMeter) (amount : Nat) : Except VmError GasMeter :=
  if (amount : Int) ≤ m.remaining then .ok { m with remaining := m.remaining - amount }
  else .error .outOfGas

end GasMeter

end StackMachine
