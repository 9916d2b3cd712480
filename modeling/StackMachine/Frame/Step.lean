import StackMachine.Frame.Perform

/-!
# Steps

One step of an execution: the opcode at the current position is fetched and paid for, its operation
is looked up, the stack is checked against what the operation takes and gives, and the operation is
taken as a whole. The first of these that fails ends the execution. Past the end of the code an
execution stops as if by itself. A cycle (`Context.cycle`) is the same step, taken access by access.
-/

namespace StackMachine

/-- The outcome of a step, with the events of the step in order. -/
structure Stepped (σ : Type) where
  frame : Frame
  host : σ
  events : List Event

/-- The frame when an instruction raises a fault. -/
def Frame.fail (f : Frame) (error : VmError) : Frame :=
  f.halt error.status []

/-- The frame after an operation that did not fault. -/
def Frame.proceed {σ : Type} (f : Frame) (op : Operation) (e : Effect σ) : Frame :=
  let f := { f with stack := e.stack, memory := e.memory, gas := e.gas }
  match e.control with
  | .next => { f with pc := f.pc + 1 + op.immediate }
  | .jump target => { f with pc := target }
  | .halt status output => f.halt status output

namespace Context

variable {σ : Type} [Host σ]

/-- Carries out an operation that is paid for, if the stack has room for it. -/
def attempt (c : Context) (f : Frame) (host : σ) (op : Operation) : Performed σ :=
  match f.stack.require op.inputs op.outputs with
  | .error error => .error ⟨error, f.stack⟩
  | .ok () => op.perform c f host

/-- Carries out the instruction with a given opcode. -/
def execute (c : Context) (f : Frame) (host : σ) (opcode : UInt8) : Stepped σ :=
  let op := Operation.at? c.revision opcode
  match f.gas.charge (c.config.gasSchedule.instructionCost op) with
  | .error error => ⟨f.fail error, host, [.failed f.pc opcode error]⟩
  | .ok gas =>
    let f := { f with gas }
    match op with
    | none =>
      let error := VmError.undefinedInstruction opcode
      ⟨f.fail error, host, [.failed f.pc opcode error]⟩
    | some op =>
      let begun := Event.step f.pc op gas.remaining f.stack.size
      match c.attempt f host op with
      | .error fault =>
        let f := { f with stack := fault.stack }
        ⟨f.fail fault.error, host, [begun, .failed f.pc opcode fault.error]⟩
      | .ok effect => ⟨f.proceed op effect, effect.host, begun :: effect.events⟩

/-- Takes one step; an execution that has ended takes none. -/
def step (c : Context) (f : Frame) (host : σ) : Stepped σ :=
  match f.state with
  | .halted _ => ⟨f, host, []⟩
  | .running =>
    match c.code.bytes[f.pc]? with
    | none => ⟨f.halt .success [], host, []⟩
    | some opcode => c.execute f host opcode

end Context

end StackMachine
