import StackMachine.Frame.Step

/-!
# Routines

How operations are carried out, one access after another. `Operation.perform` says what an
operation comes to as a whole. Its routine is the way there: it looks at operands or pops them, pays
for memory, drops its operands, touches memory, asks the host and pushes a result. Each of these
accesses checks for itself and can fail, and what was done before the failure stays done.
`Context.cycle` is a step that runs the routine of its operation.
-/

namespace StackMachine

/-- Something that is done to an execution. A fault leaves everything as it was when the fault was
raised. -/
abbrev Routine (σ : Type) := EStateM VmError (Stepped σ)

namespace Stepped

variable {σ : Type} (s : Stepped σ)

/-- The state at another position of the code. -/
def withPc (pc : Nat) : Stepped σ :=
  { s with frame := { s.frame with pc } }

/-- The state with another meter. -/
def withGas (gas : GasMeter) : Stepped σ :=
  { s with frame := { s.frame with gas } }

/-- The state with another stack. -/
def withStack (stack : Stack) : Stepped σ :=
  { s with frame := { s.frame with stack } }

/-- The state with another memory. -/
def withMemory (memory : Memory) : Stepped σ :=
  { s with frame := { s.frame with memory } }

end Stepped

namespace Routine

variable {σ : Type}

/-! ## The frame -/

/-- The frame as it is now. -/
def frame : Routine σ Frame :=
  return (← get).frame

/-- Reports an event. -/
def report (event : Event) : Routine σ Unit :=
  modify fun s => { s with events := s.events ++ [event] }

/-- Takes an amount off the meter. -/
def charge (amount : Nat) : Routine σ Unit := do
  let gas ← ofExcept ((← frame).gas.charge amount)
  modify fun s => s.withGas gas

/-! ## The stack -/

/-- Replaces the stack by what a call makes of it. -/
def onStack (call : Stack → Except VmError Stack) : Routine σ Unit := do
  let stack ← ofExcept (call (← frame).stack)
  modify fun s => s.withStack stack

/-- Takes the top off. -/
def pop : Routine σ Word := do
  let (w, stack) ← ofExcept (← frame).stack.pop
  modify fun s => s.withStack stack
  return w

/-- Takes so many words off, one by one. -/
def drop : (count : Nat) → Routine σ Unit
  | 0 => return
  | count + 1 => do
    let _ ← pop
    drop count

/-- The word `depth` places below the top, which stays there. -/
def peek (depth : Nat) : Routine σ Word := do
  ofExcept ((← frame).stack.peek depth)

/-- Goes on with the next instruction after a word is pushed. -/
def push (w : Word) : Routine σ Control := do
  onStack fun stack => stack.push w
  return .next

/-! ## Memory -/

/-- Replaces the memory by what a call makes of it. -/
def onMemory (call : Memory → Except VmError Memory) : Routine σ Unit := do
  let memory ← ofExcept (call (← frame).memory)
  modify fun s => s.withMemory memory

/-- The size that memory has once regions are touched, `size` or more. -/
def grown (m : Memory) (size : Nat) : List Region → Except VmError Nat
  | [] => .ok size
  | r :: rest => do
    let growth ← m.growth r.offset r.len
    grown m (max size (growth.getD 0)) rest

/-- Pays for touching all regions together, and for `extra` gas, in one amount. -/
def pay (policy : MemoryPolicy) (regions : List Region) (extra : Nat) : Routine σ Unit := do
  let memory := (← frame).memory
  let size ← ofExcept (grown memory memory.size regions)
  charge (saturate (policy.expansionCost memory.size size + extra))

/-- Touches regions one by one. -/
def expand : List Region → Routine σ Unit
  | [] => return
  | r :: rest => do
    onMemory fun memory => memory.expand r.offset r.len
    expand rest

/-- The bytes of a region. -/
def read : Option Region → Routine σ Bytes
  | some r => do ofExcept ((← frame).memory.read r.offset r.len)
  | none => return []

/-! ## The host -/

/-- The answer of the host to a message. -/
def ask [Host σ] (message : Message) : Routine σ ExecutionResult := do
  let (result, host) := Host.call (← get).host message
  modify fun s => { s with host }
  return result

/-! ## Operations on memory -/

section

variable (c : Context)

/-- Pushes the hash of a region. -/
def keccak : Routine σ Control := do
  let offset ← peek 0
  let len ← peek 1
  let region ← ofExcept (Region.ofOperands offset len)
  let hashed := match region with
    | some r => r.len
    | none => 0
  pay c.config.memoryPolicy region.toList (c.config.gasSchedule.hashCost hashed)
  drop 2
  expand region.toList
  let data ← read region
  push (.ofNat (Bytes.toNat (Keccak.hash data)))

/-- Pushes the word at a position. -/
def load : Routine σ Control := do
  let offset ← peek 0
  let offset ← ofExcept (Region.position offset)
  pay c.config.memoryPolicy [⟨offset, 32⟩] 0
  drop 1
  expand [⟨offset, 32⟩]
  let word ← ofExcept ((← frame).memory.readWord offset)
  push word

/-- Writes the second operand to the position that the first one names, by a call that writes so
many bytes. -/
def store (len : Nat) (write : Memory → Nat → Word → Except VmError Memory) :
    Routine σ Control := do
  let offset ← peek 0
  let value ← peek 1
  let offset ← ofExcept (Region.position offset)
  pay c.config.memoryPolicy [⟨offset, len⟩] 0
  drop 2
  onMemory fun memory => write memory offset value
  return .next

/-- Ends the execution with a region as output. -/
def halt (status : Status) : Routine σ Control := do
  let offset ← peek 0
  let len ← peek 1
  let region ← ofExcept (Region.ofOperands offset len)
  pay c.config.memoryPolicy region.toList 0
  drop 2
  expand region.toList
  let output ← read region
  return .halt status output

/-- Writes the output of a nested call to its region, as far as it fits. -/
def deliver (output : Bytes) : Option Region → Routine σ Unit
  | some r => onMemory fun memory => memory.write r.offset (output.take r.len)
  | none => return

/-- Calls an account: takes gas, target, value, the region of the input and the region of the
output, and pushes whether the call succeeded. -/
def call [Host σ] : Routine σ Control := do
  let gas ← peek 0
  let target ← peek 1
  let value ← peek 2
  let inOffset ← peek 3
  let inLen ← peek 4
  let outOffset ← peek 5
  let outLen ← peek 6
  let input ← ofExcept (Region.ofOperands inOffset inLen)
  let output ← ofExcept (Region.ofOperands outOffset outLen)
  if c.message.isStatic ∧ value ≠ 0 then throw .staticModeViolation
  else do
    pay c.config.memoryPolicy (input.toList ++ output.toList) 0
    drop 7
    expand (input.toList ++ output.toList)
    if c.config.maxCallDepth ≤ c.message.depth then do
      report (.depthLimitReached c.message.depth)
      push 0
    else do
      let data ← read input
      let result ← ask (nestedMessage c gas target value data)
      deliver result.output output
      push (.ofBool result.isSuccess)

end

/-! ## All operations -/

/-- Carries out an operation. -/
def ofOperation [Host σ] (c : Context) : Operation → Routine σ Control
  | .stop => return .halt .success []
  | .unary op => do
    let a ← pop
    push (op.apply a)
  | .binary op => do
    let a ← pop
    let b ← pop
    push (op.apply a b)
  | .keccak256 => keccak c
  | .observe quantity => do
    let s ← get
    push (quantity.value c s.frame s.host)
  | .callDataLoad => do
    let offset ← pop
    push (.ofNat (Bytes.toNat (c.message.input.window offset.toNat 32)))
  | .pop => do
    let _ ← pop
    return .next
  | .mload => load c
  | .mstore => store c 32 Memory.writeWord
  | .mstore8 => store c 1 fun memory offset value => memory.writeByte offset (value.byte 31)
  | .sload => do
    let key ← pop
    push (Host.storage (← get).host c.message.destination key)
  | .sstore =>
    if c.message.isStatic then throw .staticModeViolation
    else do
      let key ← pop
      let value ← pop
      let (_, host) := Host.setStorage (← get).host c.message.destination key value
      modify fun s => { s with host }
      return .next
  | .jump => do
    let target ← pop
    return .jump (← ofExcept (c.code.jumpTarget target))
  | .jumpi => do
    let target ← pop
    let condition ← pop
    if condition = 0 then return .next
    else return .jump (← ofExcept (c.code.jumpTarget target))
  | .jumpDest => return .next
  | .push n => do push (c.code.immediateAt ((← frame).pc + 1) n)
  | .dup n => do
    onStack fun stack => stack.dup n
    return .next
  | .swap n => do
    onStack fun stack => stack.swap n
    return .next
  | .call => call c
  | .ret => halt c .success
  | .revert => halt c .revert

/-! ## Instructions -/

/-- Goes on as an operation says that is carried out. -/
def goOn (op : Operation) : Control → Routine σ Unit
  | .next => modify fun s => s.withPc (s.frame.pc + 1 + op.immediate)
  | .jump target => modify fun s => s.withPc target
  | .halt status output => modify fun s => { s with frame := s.frame.halt status output }

/-- Carries out an operation that is paid for, if the stack has room for it. -/
def attempt [Host σ] (c : Context) (op : Operation) : Routine σ Unit := do
  let f ← frame
  report (.step f.pc op f.gas.remaining f.stack.size)
  ofExcept (f.stack.require op.inputs op.outputs)
  let control ← ofOperation c op
  goOn op control

/-- Carries out the instruction with a given opcode. -/
def dispatch [Host σ] (c : Context) (opcode : UInt8) : Routine σ Unit := do
  let op := Operation.at? c.revision opcode
  charge (c.config.gasSchedule.instructionCost op)
  match op with
  | none => throw (.undefinedInstruction opcode)
  | some op => attempt c op

end Routine

/-! ## Cycles -/

/-- The outcome of a step once its instruction is over. A fault ends the execution. -/
def Stepped.ofInstruction {σ : Type} (opcode : UInt8) :
    EStateM.Result VmError (Stepped σ) Unit → Stepped σ
  | .ok () s => s
  | .error error s =>
    ⟨s.frame.fail error, s.host, s.events ++ [.failed s.frame.pc opcode error]⟩

/-- Takes one step by running routines. -/
def Context.cycle {σ : Type} [Host σ] (c : Context) (f : Frame) (host : σ) : Stepped σ :=
  match f.state with
  | .halted _ => ⟨f, host, []⟩
  | .running =>
    match c.code.bytes[f.pc]? with
    | none => ⟨f.halt .success [], host, []⟩
    | some opcode => .ofInstruction opcode ((Routine.dispatch c opcode).run ⟨f, host, []⟩)

end StackMachine
