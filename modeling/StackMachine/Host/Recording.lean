import StackMachine.Host
import StackMachine.OrderedMap

/-!
# The recording host

A host that keeps storage in maps and does not execute nested calls: it records each of them and
answers all with the same result.
-/

namespace StackMachine

/-- The slots of one account. A slot that was set to zero is still present. -/
abbrev Slots := OrderedMap Word Word

/-- The storage of several accounts. -/
abbrev StorageMap := OrderedMap Address Slots

namespace StorageMap

/-- The slots of an account, none if it is absent. -/
def slots (m : StorageMap) (address : Address) : Slots :=
  (m.find? address).getD ∅

/-- The value of a slot, zero if it is absent. -/
def read (m : StorageMap) (address : Address) (key : Word) : Word :=
  ((m.slots address).find? key).getD 0

/-- The storage with one slot set. -/
def write (m : StorageMap) (address : Address) (key value : Word) : StorageMap :=
  m.insert address ((m.slots address).insert key value)

theorem read_write (m : StorageMap) (address other : Address) (key slot value : Word) :
    (m.write address key value).read other slot =
      if other = address ∧ slot = key then value else m.read other slot := by
  by_cases ha : other = address
  · subst ha
    by_cases hk : slot = key <;> simp [read, write, slots, hk]
  · simp [read, write, slots, ha]

end StorageMap

/-- A host that records nested calls. -/
structure RecordingHost where
  accounts : StorageMap
  tx : TxContext
  /-- The answer to every nested call. -/
  callResult : ExecutionResult
  /-- The nested calls so far, in order. -/
  calls : List Message
  deriving DecidableEq, Repr

namespace RecordingHost

/-- No storage, and nested calls that succeed without output. -/
def empty : RecordingHost :=
  ⟨∅, .default, .success 0 [], []⟩

instance : Inhabited RecordingHost := ⟨empty⟩

/-- The value of a slot. -/
def storageAt (h : RecordingHost) (address : Address) (key : Word) : Word :=
  h.accounts.read address key

/-- The host with one slot set. -/
def setStorageAt (h : RecordingHost) (address : Address) (key value : Word) : RecordingHost :=
  { h with accounts := h.accounts.write address key value }

/-- The host with several slots set, one after another. -/
def seed (h : RecordingHost) (entries : List (Address × Word × Word)) : RecordingHost :=
  entries.foldl (fun h e => h.setStorageAt e.1 e.2.1 e.2.2) h

instance : Host RecordingHost where
  storage := storageAt
  setStorage h address key value :=
    (.ofWrite (h.storageAt address key) value, h.setStorageAt address key value)
  txContext := tx
  call h message := (h.callResult, { h with calls := h.calls ++ [message] })

end RecordingHost

end StackMachine
