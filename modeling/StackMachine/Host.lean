import StackMachine.Message
import StackMachine.Status

/-!
# Hosts

Everything outside one execution belongs to a host: the storage of the accounts, the transaction,
and the execution of nested calls. An execution looks at its host only through these operations.
-/

namespace StackMachine

/-! ## Writes -/

/-- What a write did to a slot. -/
inductive StorageStatus where
  /-- The slot already had the value. -/
  | unchanged
  /-- One nonzero value replaced another. -/
  | modified
  /-- A zero slot became nonzero. -/
  | added
  /-- A nonzero slot became zero. -/
  | deleted
  deriving DecidableEq, Repr

namespace StorageStatus

/-- What a write of `new` over `current` does. -/
def ofWrite (current new : Word) : StorageStatus :=
  if current = new then unchanged
  else if current = 0 then added
  else if new = 0 then deleted
  else modified

/-- The name in documents. -/
def name : StorageStatus → String
  | unchanged => "unchanged"
  | modified => "modified"
  | added => "added"
  | deleted => "deleted"

end StorageStatus

/-! ## The operations of a host -/

/-- A host with states `σ`. -/
class Host (σ : Type) where
  /-- The value of a slot of an account, zero if it was never set. -/
  storage : σ → Address → Word → Word
  /-- Sets a slot of an account. -/
  setStorage : σ → Address → Word → Word → StorageStatus × σ
  /-- The block and the transaction. -/
  txContext : σ → TxContext
  /-- Carries out a nested call to its end. -/
  call : σ → Message → ExecutionResult × σ

end StackMachine
