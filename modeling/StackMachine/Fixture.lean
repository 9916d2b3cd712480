import StackMachine.Host.Recording
import StackMachine.Vm

/-!
# Fixtures

Test cases for the machine: code, the message that it is executed for, the host that it finds, and
what is expected of the execution. A case fails with the first expectation that is not met.
-/

namespace StackMachine

/-! ## Cases -/

/-- The account that executes unless a case names another. -/
def defaultDestination : Address := 0xd00000000000000000000000000000000000000d

/-- The caller unless a case names another. -/
def defaultSender : Address := 0x5000000000000000000000000000000000000005

namespace Fixture

/-- What is executed. -/
structure Exec where
  address : Address
  caller : Address
  code : Bytes
  data : Bytes
  gas : Int
  value : Word
  isStatic : Bool
  depth : Int32
  deriving DecidableEq, Repr

/-- The block and the transaction. -/
structure Env where
  number : UInt64
  timestamp : UInt64
  origin : Address
  /-- The first chain if absent. -/
  chainId : Option Word
  deriving DecidableEq, Repr

/-- The first block of all. -/
def Env.default : Env := ⟨0, 0, 0, none⟩

/-- The answer to nested calls. -/
structure CallResult where
  status : Status
  gasLeft : Int
  output : Bytes
  deriving DecidableEq, Repr

/-- What is expected of the execution. -/
structure Expect where
  status : Status
  gasLeft : Int
  output : Bytes
  /-- Slots and the values that they must have afterwards. -/
  storage : StorageMap
  /-- How many nested calls must have been made, if that matters. -/
  calls : Option Nat
  deriving DecidableEq, Repr

end Fixture

/-- A test case. -/
structure Fixture where
  revision : Revision
  exec : Fixture.Exec
  env : Fixture.Env
  callResult : Option Fixture.CallResult
  /-- The storage before the execution. -/
  pre : StorageMap
  expect : Fixture.Expect
  deriving DecidableEq, Repr

/-! ## Expectations that are not met -/

/-- The first expectation that an execution did not meet. -/
inductive Mismatch where
  | status (expected got : Status)
  | gasLeft (expected got : Int)
  | output (expected got : Bytes)
  | storage (address : Address) (key expected got : Word)
  | calls (expected got : Nat)
  deriving DecidableEq, Repr

/-- Says which expectation was not met. -/
def Mismatch.message : Mismatch → String
  | status expected got => s!"status mismatch: expected {expected.title}, got {got.title}"
  | gasLeft expected got => s!"gas_left mismatch: expected {expected}, got {got}"
  | output expected got =>
    s!"output mismatch: expected 0x{Text.Hex.encode expected}, got 0x{Text.Hex.encode got}"
  | storage address key expected got =>
    let place := s!"{address.toHex} slot {key.toHex}"
    s!"storage mismatch at {place}: expected {expected.toHex}, got {got.toHex}"
  | calls expected got => s!"call count mismatch: expected {expected}, got {got}"

namespace Fixture

/-! ## Running a case -/

/-- The host that a case describes. -/
def host (fx : Fixture) : RecordingHost :=
  let tx := { TxContext.default with
    blockNumber := fx.env.number
    blockTimestamp := fx.env.timestamp
    origin := fx.env.origin
    chainId := fx.env.chainId.getD 1 }
  let callResult := match fx.callResult with
    | some r => .ofStatus r.status r.gasLeft r.output
    | none => RecordingHost.empty.callResult
  let entries := fx.pre.entries.flatMap fun (address, slots) =>
    slots.entries.map fun (key, value) => (address, key, value)
  { RecordingHost.empty with tx, callResult }.seed entries

/-- The message that a case describes. -/
def message (fx : Fixture) : Message :=
  let base := Message.call fx.exec.caller fx.exec.address fx.exec.gas
  { (base.withInput fx.exec.data).withValue fx.exec.value with
    depth := fx.exec.depth
    isStatic := fx.exec.isStatic }

/-- The first slot of an account that does not have its value. -/
def checkSlots (host : RecordingHost) (address : Address) : List (Word × Word) → Except Mismatch Unit
  | [] => .ok ()
  | (key, expected) :: rest =>
    let got := host.storageAt address key
    if got = expected then checkSlots host address rest
    else .error (.storage address key expected got)

/-- The first slot of any account that does not have its value. -/
def checkStorage (host : RecordingHost) : List (Address × Slots) → Except Mismatch Unit
  | [] => .ok ()
  | (address, slots) :: rest => do
    checkSlots host address slots.entries
    checkStorage host rest

/-- The first expectation that a result and a host do not meet: status, gas, output, storage by
account and slot, and the number of nested calls. -/
def check (expect : Expect) (result : ExecutionResult) (host : RecordingHost) :
    Except Mismatch Unit := do
  if result.status ≠ expect.status then throw (.status expect.status result.status)
  if result.gasLeft ≠ expect.gasLeft then throw (.gasLeft expect.gasLeft result.gasLeft)
  if result.output ≠ expect.output then throw (.output expect.output result.output)
  checkStorage host expect.storage.entries
  match expect.calls with
  | some calls => if host.calls.length ≠ calls then throw (.calls calls host.calls.length)
  | none => return ()

/-- The verdict on a case, and what its execution logged. -/
structure Verdict where
  verdict : Except Mismatch Unit
  log : Array Event

/-- Runs a case on a host of its own. -/
def run? (vm : Vm) (fx : Fixture) : Option Verdict :=
  (vm.execute? fx.host fx.revision fx.message fx.exec.code).map fun finished =>
    ⟨check fx.expect finished.result finished.host, finished.log⟩

end Fixture

end StackMachine
