import StackMachine.Word

/-!
# Messages

What an execution is asked to do, and the block and transaction that it happens in.
-/

namespace StackMachine

/-! ## Messages -/

/-- The kind of call that a message describes. -/
inductive CallKind where
  | call
  | delegateCall
  | callCode
  | create
  | create2
  deriving DecidableEq, Repr

namespace CallKind

/-- All kinds. -/
def all : List CallKind :=
  [call, delegateCall, callCode, create, create2]

/-- The name in documents. -/
def name : CallKind → String
  | call => "call"
  | delegateCall => "delegate_call"
  | callCode => "call_code"
  | create => "create"
  | create2 => "create2"

end CallKind

/-- A request to execute code, from outside or from another execution. -/
structure Message where
  kind : CallKind
  /-- Nothing outside the execution may change. -/
  isStatic : Bool
  /-- How many calls this one is nested in. -/
  depth : Int32
  /-- The gas of the execution. -/
  gas : Int
  /-- The account whose storage is used. -/
  destination : Address
  /-- The caller. -/
  sender : Address
  /-- The value transferred. -/
  value : Word
  /-- The call data. -/
  input : Bytes
  /-- The account whose code is run. -/
  codeAddress : Address
  deriving DecidableEq, Repr

namespace Message

/-- A call of nothing by nobody. -/
def default : Message :=
  ⟨.call, false, 0, 0, 0, 0, 0, [], 0⟩

instance : Inhabited Message := ⟨default⟩

/-- A call from outside, without value and data. -/
def call (sender destination : Address) (gas : Int) : Message :=
  { default with sender, destination, gas, codeAddress := destination }

/-- The message with other call data. -/
def withInput (m : Message) (input : Bytes) : Message :=
  { m with input }

/-- The message with another value. -/
def withValue (m : Message) (value : Word) : Message :=
  { m with value }

/-- The message with other gas. -/
def withGas (m : Message) (gas : Int) : Message :=
  { m with gas }

/-- The message as one under which nothing outside may change. -/
def asStatic (m : Message) : Message :=
  { m with isStatic := true }

/-- The flags as bits: the lowest says that the message is static. -/
def flags (m : Message) : Nat :=
  if m.isStatic then 1 else 0

end Message

/-! ## The transaction -/

/-- The block and the transaction that an execution happens in. -/
structure TxContext where
  gasPrice : Word
  origin : Address
  coinbase : Address
  blockNumber : UInt64
  blockTimestamp : UInt64
  blockGasLimit : UInt64
  prevRandao : Word
  chainId : Word
  baseFee : Word
  deriving DecidableEq, Repr

/-- An empty block on the first chain. -/
def TxContext.default : TxContext :=
  ⟨0, 0, 0, 0, 0, 30000000, 0, 1, 0⟩

instance : Inhabited TxContext := ⟨TxContext.default⟩

end StackMachine
