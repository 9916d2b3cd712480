import StackMachine.Host.Recording
import StackMachine.Vm

/-!
# A world of accounts with code

A host whose accounts have code. A nested call to an account with code is executed by the same
machine, under the same revision and against the same world; any other is answered as the recording
host answers it. A call that fails undoes nothing.
-/

namespace StackMachine

/-- Accounts with code, and the calls among them so far. -/
structure World where
  vm : Vm
  revision : Revision
  /-- The code of the accounts that have any. -/
  codes : OrderedMap Address Bytes
  /-- Storage, transaction, and the answer to calls of accounts without code. -/
  base : RecordingHost
  /-- The nested calls and their results, in the order in which the calls began. -/
  calls : List (Message × ExecutionResult)

namespace World

/-- The world as a host that answers nested calls in a given way. -/
@[reducible] def answering (call : World → Message → ExecutionResult × World) : Host World where
  storage w := w.base.storageAt
  setStorage w address key value :=
    let (status, base) := Host.setStorage w.base address key value
    (status, { w with base })
  txContext w := w.base.tx
  call := call

/-- Answers a call below which calls nest less than `nesting` deep. One that nests deeper, and one
that does not come to an end, is answered with an internal error. -/
def answer : (nesting : Nat) → World → Message → ExecutionResult × World
  | 0, w, _ => (.failure .internalError, w)
  | nesting + 1, w, message =>
    let fresh := { w with calls := [] }
    let (result, after) := match w.codes.find? message.codeAddress with
      | none => (w.base.callResult, fresh)
      | some code =>
        match @Vm.execute? World (answering (answer nesting)) w.vm fresh w.revision message code with
        | some finished => (finished.result, finished.host)
        | none => (.failure .internalError, fresh)
    (result, { after with calls := w.calls ++ (message, result) :: after.calls })

/-- How deep calls can nest below a message: the machine refuses those past its limit. -/
def nesting (w : World) (message : Message) : Nat :=
  (w.vm.config.maxCallDepth.toInt - message.depth.toInt).toNat + 1

/-- Executes the code of the account that a message names, none if it has none. -/
def execute? (w : World) (message : Message) : Option (ExecutionResult × World) :=
  let code := (w.codes.find? message.codeAddress).getD []
  let host := answering (answer (w.nesting message))
  (@Vm.execute? World host w.vm w w.revision message code).map fun finished =>
    (finished.result, finished.host)

end World

end StackMachine
