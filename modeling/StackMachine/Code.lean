import StackMachine.Operation
import StackMachine.Status
import StackMachine.Word

/-!
# Code

Byte code and the places in it where instructions begin. Swept from its start, code is a sequence
of instructions, each an opcode followed by the bytes that belong to it; those bytes are never
instructions themselves, and a jump destination among them is none.
-/

namespace StackMachine

/-- The opcode that marks jump destinations. -/
def jumpDestOpcode : UInt8 := 0x5b

/-- Marks the jump destinations of code whose first `skip` bytes belong to an instruction that
began earlier. -/
def markJumpDests : (skip : Nat) → Bytes → List Bool
  | _, [] => []
  | skip + 1, _ :: rest => false :: markJumpDests skip rest
  | 0, b :: rest => (b == jumpDestOpcode) :: markJumpDests (Opcode.immediate b) rest

/-- Code with its jump destinations marked. -/
structure Code where
  bytes : Array UInt8
  /-- Which positions are jump destinations. -/
  jumpDests : Array Bool
  jumpDests_eq : jumpDests = (markJumpDests 0 bytes.toList).toArray

namespace Code

/-- The code that a byte string holds. -/
def ofBytes (bs : Bytes) : Code :=
  ⟨bs.toArray, (markJumpDests 0 bs).toArray, by simp⟩

/-- The number of bytes. -/
def size (c : Code) : Nat :=
  c.bytes.size

/-- Whether a position is a jump destination. -/
def isJumpDest (c : Code) (position : Nat) : Bool :=
  c.jumpDests.getD position false

/-- The position that a word names as the target of a jump. A target beyond the limit of sizes is
reported as the largest size. -/
def jumpTarget (c : Code) (target : Word) : Except VmError Nat :=
  if c.isJumpDest target.toNat then .ok target.toNat
  else .error (.badJumpDestination (min target.toNat (sizeLimit - 1)))

/-- The number that `n` bytes from a position on denote, code being followed by endless zeros. -/
def immediateAt (c : Code) (position n : Nat) : Word :=
  let bs : Bytes := (c.bytes.extract position (position + n)).toList
  Word.ofNat (bs.padRight n).toNat

/-- The positions where instructions begin: the start of the code, and what follows an instruction
with all of its bytes. -/
inductive IsBoundary (bs : Bytes) : Nat → Prop where
  | start : IsBoundary bs 0
  | next {position : Nat} {b : UInt8} (boundary : IsBoundary bs position) (opcode : bs[position]? = some b) :
    IsBoundary bs (position + 1 + Opcode.immediate b)

end Code

end StackMachine
