import StackMachine.Event
import StackMachine.Frame
import StackMachine.Host
import StackMachine.Keccak

/-!
# Operations as a whole

What each operation makes of the stack, the memory, the gas and the host, said in one piece. Nothing
is changed unless the operands are there and what memory costs is settled, so a fault is no more
than an error and the stack it leaves: the operations that take their operands off first, the jumps
among them, lose those. An execution gets there access by access, and each access may fail
(`Routine.ofOperation`); that both come to the same is `Routine.run_ofOperation`.
-/

namespace StackMachine

/-- How an execution goes on after an operation. -/
inductive Control where
  /-- With the instruction that follows. -/
  | next
  /-- At a jump destination. -/
  | jump (target : Nat)
  /-- Not at all. -/
  | halt (status : Status) (output : Bytes)
  deriving DecidableEq, Repr

/-- What an operation did: everything that it can change, and how the execution goes on. -/
structure Effect (σ : Type) where
  control : Control
  stack : Stack
  memory : Memory
  gas : GasMeter
  host : σ
  events : List Event

/-- A fault of an operation, and the stack that it left. -/
structure Fault where
  error : VmError
  stack : Stack
  deriving DecidableEq, Repr

/-! ## Pure operations -/

/-- The word that replaces one word. -/
def UnaryOp.apply : UnaryOp → Word → Word
  | isZero, a => .ofBool (a = 0)
  | not, a => ~~~ a

/-- The word that replaces two words, the first of them on top. -/
def BinaryOp.apply : BinaryOp → Word → Word → Word
  | add, a, b => a + b
  | mul, a, b => a * b
  | sub, a, b => a - b
  | div, a, b => a.quotient b
  | mod, a, b => a.remainder b
  | lt, a, b => .ofBool (a < b)
  | gt, a, b => .ofBool (b < a)
  | eq, a, b => .ofBool (a = b)
  | and, a, b => a &&& b
  | or, a, b => a ||| b
  | xor, a, b => a ^^^ b

/-- The value of a quantity. Gas below zero reads as zero. -/
def Quantity.value {σ : Type} [Host σ] (c : Context) (f : Frame) (host : σ) : Quantity → Word
  | address => .ofAddress c.message.destination
  | origin => .ofAddress (Host.txContext host).origin
  | caller => .ofAddress c.message.sender
  | callValue => c.message.value
  | callDataSize => .ofNat c.message.input.length
  | timestamp => .ofNat (Host.txContext host).blockTimestamp.toNat
  | number => .ofNat (Host.txContext host).blockNumber.toNat
  | chainId => (Host.txContext host).chainId
  | position => .ofNat f.pc
  | memorySize => .ofNat f.memory.size
  | gas => .ofNat f.gas.remaining.toNat

/-! ## Regions of memory -/

/-- A region of memory with at least one byte. -/
structure Region where
  offset : Nat
  len : Nat
  deriving DecidableEq, Repr

namespace Region

/-- A position in memory; it must be below the limit of sizes. -/
def position (w : Word) : Except VmError Nat :=
  match w.toSize? with
  | some n => .ok n
  | none => .error .memoryBoundsExceeded

/-- The region that two operands name, none if it has no bytes. -/
def ofOperands (offset len : Word) : Except VmError (Option Region) :=
  if len = 0 then .ok none
  else do
    let len ← position len
    let offset ← position offset
    return some ⟨offset, len⟩

/-- The bytes of a region. -/
def bytes (m : Memory) : Option Region → Bytes
  | some r => m.slice r.offset r.len
  | none => []

/-- The size that memory has once all regions are touched. -/
def reach (m : Memory) : List Region → Except VmError Nat
  | [] => .ok m.size
  | r :: rest => do
    let stop ← m.regionEnd r.offset r.len
    let further ← reach m rest
    return max stop further

end Region

/-- Pays for touching all regions together, and for `extra` gas, in one amount; then touches them. -/
def Frame.settle (f : Frame) (policy : MemoryPolicy) (regions : List Region) (extra : Nat) :
    Except VmError (Memory × GasMeter) := do
  let size ← Region.reach f.memory regions
  let gas ← f.gas.charge (saturate (policy.expansionCost f.memory.size size + extra))
  return (f.memory.growTo size, gas)

/-! ## Results of operations -/

namespace Effect

variable {σ : Type}

/-- The effect of doing nothing. -/
def nothing (f : Frame) (host : σ) : Effect σ :=
  ⟨.next, f.stack, f.memory, f.gas, host, []⟩

/-- The effect of changing the stack alone. -/
def ofItems (f : Frame) (host : σ) (items : List Word) : Effect σ :=
  { nothing f host with stack := ⟨items⟩ }

end Effect

/-- What carrying out an operation comes to. -/
abbrev Performed (σ : Type) := Except Fault (Effect σ)

namespace Performed

variable {σ : Type}

/-- Too few operands for an operation that takes them off one by one: none is left. -/
def drained : Performed σ :=
  .error ⟨.stackUnderflow, .empty⟩

/-- The effect of replacing the stack, unless that faulted. -/
def ofStack (f : Frame) (host : σ) : Except VmError Stack → Performed σ
  | .ok stack => .ok { Effect.nothing f host with stack }
  | .error error => .error ⟨error, f.stack⟩

/-- A result of an operation that leaves the stack alone when it faults. -/
def keepingStack (f : Frame) : Except VmError (Effect σ) → Performed σ
  | .ok effect => .ok effect
  | .error error => .error ⟨error, f.stack⟩

end Performed

/-! ## Operations on memory -/

section

variable {σ : Type} (c : Context) (f : Frame) (host : σ)

/-- Pushes the hash of a region. -/
def performKeccak : Except VmError (Effect σ) :=
  match f.stack.items with
  | offset :: len :: rest => do
    let region ← Region.ofOperands offset len
    let hashed := match region with
      | some r => r.len
      | none => 0
    let extra := c.config.gasSchedule.hashCost hashed
    let (memory, gas) ← f.settle c.config.memoryPolicy region.toList extra
    let hash := Word.ofNat (Bytes.toNat (Keccak.hash (Region.bytes memory region)))
    return ⟨.next, ⟨hash :: rest⟩, memory, gas, host, []⟩
  | _ => .error .stackUnderflow

/-- Pushes the word at a position. -/
def performLoad : Except VmError (Effect σ) :=
  match f.stack.items with
  | offset :: rest => do
    let offset ← Region.position offset
    let (memory, gas) ← f.settle c.config.memoryPolicy [⟨offset, 32⟩] 0
    let word := Word.ofNat (Bytes.toNat (memory.slice offset 32))
    return ⟨.next, ⟨word :: rest⟩, memory, gas, host, []⟩
  | _ => .error .stackUnderflow

/-- Writes the bytes that `bytes` makes of the second operand to the position that the first one
names. -/
def performStore (bytes : Word → Bytes) : Except VmError (Effect σ) :=
  match f.stack.items with
  | offset :: value :: rest => do
    let offset ← Region.position offset
    let written := bytes value
    let (memory, gas) ← f.settle c.config.memoryPolicy [⟨offset, written.length⟩] 0
    return ⟨.next, ⟨rest⟩, memory.put offset written, gas, host, []⟩
  | _ => .error .stackUnderflow

/-- Ends the execution with a region as output. -/
def performHalt (status : Status) : Except VmError (Effect σ) :=
  match f.stack.items with
  | offset :: len :: rest => do
    let region ← Region.ofOperands offset len
    let (memory, gas) ← f.settle c.config.memoryPolicy region.toList 0
    return ⟨.halt status (Region.bytes memory region), ⟨rest⟩, memory, gas, host, []⟩
  | _ => .error .stackUnderflow

/-! ## Nested calls -/

/-- The message of a nested call. -/
def nestedMessage (gas target value : Word) (input : Bytes) : Message :=
  { kind := .call
    isStatic := c.message.isStatic
    depth := c.message.depth + 1
    gas := gas.toGas
    destination := target.toAddress
    sender := c.message.destination
    value
    input
    codeAddress := target.toAddress }

/-- The memory after the output of a nested call is written to its region, as far as it fits. -/
def writeOutput (m : Memory) (region : Option Region) (output : Bytes) : Memory :=
  match region with
  | some r => m.put r.offset (output.take r.len)
  | none => m

/-- Calls an account: takes gas, target, value, the region of the input and the region of the output,
and pushes whether the call succeeded. A call that is nested too deeply does not happen. -/
def performCall [Host σ] : Except VmError (Effect σ) :=
  match f.stack.items with
  | gas :: target :: value :: inOffset :: inLen :: outOffset :: outLen :: rest => do
    let input ← Region.ofOperands inOffset inLen
    let output ← Region.ofOperands outOffset outLen
    if c.message.isStatic ∧ value ≠ 0 then .error .staticModeViolation
    else do
      let (memory, meter) ← f.settle c.config.memoryPolicy (input.toList ++ output.toList) 0
      if c.config.maxCallDepth ≤ c.message.depth then
        .ok ⟨.next, ⟨0 :: rest⟩, memory, meter, host, [.depthLimitReached c.message.depth]⟩
      else
        let message := nestedMessage c gas target value (Region.bytes memory input)
        let (result, host) := Host.call host message
        .ok ⟨.next, ⟨.ofBool result.isSuccess :: rest⟩, writeOutput memory output result.output,
          meter, host, []⟩
  | _ => .error .stackUnderflow

end

/-! ## All operations -/

/-- Carries out an operation. -/
def Operation.perform {σ : Type} [Host σ] (c : Context) (f : Frame) (host : σ) :
    Operation → Performed σ
  | stop => .ok { Effect.nothing f host with control := .halt .success [] }
  | unary op => match f.stack.items with
    | a :: rest => .ok (.ofItems f host (op.apply a :: rest))
    | _ => .drained
  | binary op => match f.stack.items with
    | a :: b :: rest => .ok (.ofItems f host (op.apply a b :: rest))
    | _ => .drained
  | keccak256 => .keepingStack f (performKeccak c f host)
  | observe quantity => .ofStack f host (f.stack.push (quantity.value c f host))
  | callDataLoad => match f.stack.items with
    | offset :: rest =>
      .ok (.ofItems f host (.ofNat (Bytes.toNat (c.message.input.window offset.toNat 32)) :: rest))
    | _ => .drained
  | pop => match f.stack.items with
    | _ :: rest => .ok (.ofItems f host rest)
    | _ => .drained
  | mload => .keepingStack f (performLoad c f host)
  | mstore => .keepingStack f (performStore c f host Word.toBytes)
  | mstore8 => .keepingStack f (performStore c f host fun w => [w.byte 31])
  | sload => match f.stack.items with
    | key :: rest => .ok (.ofItems f host (Host.storage host c.message.destination key :: rest))
    | _ => .drained
  | sstore =>
    if c.message.isStatic then .error ⟨.staticModeViolation, f.stack⟩
    else match f.stack.items with
      | key :: value :: rest =>
        let (_, host) := Host.setStorage host c.message.destination key value
        .ok (.ofItems f host rest)
      | _ => .drained
  | jump => match f.stack.items with
    | target :: rest => match c.code.jumpTarget target with
      | .ok position => .ok { Effect.ofItems f host rest with control := .jump position }
      | .error error => .error ⟨error, ⟨rest⟩⟩
    | _ => .drained
  | jumpi => match f.stack.items with
    | target :: condition :: rest =>
      if condition = 0 then .ok (.ofItems f host rest)
      else match c.code.jumpTarget target with
        | .ok position => .ok { Effect.ofItems f host rest with control := .jump position }
        | .error error => .error ⟨error, ⟨rest⟩⟩
    | _ => .drained
  | jumpDest => .ok (.nothing f host)
  | push n => .ofStack f host (f.stack.push (c.code.immediateAt (f.pc + 1) n))
  | dup n => .ofStack f host (f.stack.dup n)
  | swap n => .ofStack f host (f.stack.swap n)
  | call => .keepingStack f (performCall c f host)
  | ret => .keepingStack f (performHalt c f host .success)
  | revert => .keepingStack f (performHalt c f host .revert)

end StackMachine
