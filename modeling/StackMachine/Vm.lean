import StackMachine.Execution
import StackMachine.Text.Numeral
import StackMachine.Text.Quoted

/-!
# The virtual machine

A configured machine that executes messages, says what it is, and has one option that can be set
while it is in use. Executions take a copy of the configuration when they start.
-/

namespace StackMachine

/-! ## Capabilities -/

/-- What a machine can do, as bits. -/
structure Capabilities where
  bits : Nat
  deriving DecidableEq, Repr

namespace Capabilities

/-- Nothing. -/
def none : Capabilities := ⟨0⟩

/-- The first version of the byte code. -/
def evm1 : Capabilities := ⟨1⟩

/-- Whether every capability of another set is among these. -/
def contains (c other : Capabilities) : Bool :=
  c.bits &&& other.bits = other.bits

end Capabilities

/-! ## Options -/

/-- Why an option was not set. -/
inductive OptionError where
  /-- No option has this name. -/
  | invalidName (name : String)
  /-- The value is missing, is no number, or is out of range. -/
  | invalidValue (name : String) (value : Option String)
  deriving DecidableEq, Repr

/-- Says why an option was not set. -/
def OptionError.message : OptionError → String
  | invalidName name => s!"unknown option: {name}"
  | invalidValue name value =>
    let shown := match value with
      | some value => "Some(" ++ Text.quote value ++ ")"
      | none => "None"
    s!"invalid value for option {name}: {shown}"

/-! ## Machines -/

/-- A configured machine. -/
structure Vm where
  config : Config
  deriving DecidableEq, Repr

namespace Vm

/-- A machine with the default configuration. -/
def default : Vm := ⟨.default⟩

instance : Inhabited Vm := ⟨default⟩

/-- A machine with a configuration, the verbosity brought into range. -/
def ofConfig (config : Config) : Vm :=
  ⟨config.clamped⟩

/-- The name of the machine. -/
def name : String := "minivm"

/-- The version of the machine. -/
def version : String := "0.1.0"

/-- What the machine can do. -/
def capabilities : Capabilities := .evm1

/-- The name of the option that sets the verbosity. -/
def verboseOption : String := "verbose"

/-- Sets an option from text. The verbosity is the integer that the text begins with; it must be one
that a machine can have, and is kept in eight bits. Gives the changed machine and the event that
reports the change. -/
def setOption (vm : Vm) (name : String) (value : Option String) : Except OptionError (Vm × Event) :=
  if name ≠ verboseOption then .error (.invalidName name)
  else match value.bind Text.leadingInteger? with
    | none => .error (.invalidValue name value)
    | some v =>
      if Config.isVerbosity v then
        let verbosity := v.toInt8.toInt
        .ok (⟨{ vm.config with verbosity }⟩, .optionSet verbosity)
      else .error (.invalidValue name value)

/-- The execution of a message before its first step. -/
def begin {σ : Type} (vm : Vm) (host : σ) (revision : Revision) (message : Message) (code : Bytes) :
    Execution σ :=
  .start ⟨vm.config, revision, message, .ofBytes code⟩ host

/-- Executes code for a message. -/
def execute? {σ : Type} [Host σ] (vm : Vm) (host : σ) (revision : Revision) (message : Message)
    (code : Bytes) : Option (Finished σ) :=
  (vm.begin host revision message code).run?

end Vm

end StackMachine
