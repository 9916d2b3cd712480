import StackMachine.Revision
import StackMachine.Text.Hex

/-!
# Operations

The operations of the machine and what is fixed about each of them: its opcode, its name, the words
that it takes from the stack and puts there, the bytes of code that belong to it, its base gas and
the revision that it came with.
-/

namespace StackMachine

/-- Operations that replace one word. -/
inductive UnaryOp where
  | isZero
  | not
  deriving DecidableEq, Repr

/-- Operations that replace two words, the first of them on top, by one. -/
inductive BinaryOp where
  | add
  | mul
  | sub
  | div
  | mod
  | lt
  | gt
  | eq
  | and
  | or
  | xor
  deriving DecidableEq, Repr

/-- Quantities that an operation reads off the execution or its host and pushes. -/
inductive Quantity where
  | address
  | origin
  | caller
  | callValue
  | callDataSize
  | timestamp
  | number
  | chainId
  | position
  | memorySize
  | gas
  deriving DecidableEq, Repr

/-- The operations of the machine. -/
inductive Operation where
  | stop
  | unary (op : UnaryOp)
  | binary (op : BinaryOp)
  | keccak256
  | observe (quantity : Quantity)
  | callDataLoad
  | pop
  | mload
  | mstore
  | mstore8
  | sload
  | sstore
  | jump
  | jumpi
  | jumpDest
  /-- Pushes the number that the next `n` bytes of code denote. -/
  | push (n : Nat)
  /-- Pushes a copy of the `n`-th word, the top being the first. -/
  | dup (n : Nat)
  /-- Exchanges the top with the word `n` places below it. -/
  | swap (n : Nat)
  | call
  | ret
  | revert
  deriving DecidableEq, Repr

namespace Operation

/-! ## Opcodes -/

/-- The operations outside the three numbered families, by opcode. -/
def plain : List (UInt8 × Operation) :=
  [(0x00, stop), (0x01, binary .add), (0x02, binary .mul), (0x03, binary .sub),
    (0x04, binary .div), (0x06, binary .mod), (0x10, binary .lt), (0x11, binary .gt),
    (0x14, binary .eq), (0x15, unary .isZero), (0x16, binary .and), (0x17, binary .or),
    (0x18, binary .xor), (0x19, unary .not), (0x20, keccak256), (0x30, observe .address),
    (0x32, observe .origin), (0x33, observe .caller), (0x34, observe .callValue),
    (0x35, callDataLoad), (0x36, observe .callDataSize), (0x42, observe .timestamp),
    (0x43, observe .number), (0x46, observe .chainId), (0x50, pop), (0x51, mload), (0x52, mstore),
    (0x53, mstore8), (0x54, sload), (0x55, sstore), (0x56, jump), (0x57, jumpi),
    (0x58, observe .position), (0x59, observe .memorySize), (0x5a, observe .gas),
    (0x5b, jumpDest), (0xf1, call), (0xf3, ret), (0xfd, revert)]

/-- The operation of an opcode under the newest revision. Pushes begin at `0x5f` with the push of
no bytes, copies at `0x80` and exchanges at `0x90`. -/
def ofByte? (b : UInt8) : Option Operation :=
  if 0x5f ≤ b ∧ b ≤ 0x7f then some (push (b.toNat - 0x5f))
  else if 0x80 ≤ b ∧ b ≤ 0x8f then some (dup (b.toNat - 0x7f))
  else if 0x90 ≤ b ∧ b ≤ 0x9f then some (swap (b.toNat - 0x8f))
  else plain.lookup b

/-! ## Attributes -/

/-- The name in messages and events. -/
def name : Operation → String
  | stop => "STOP"
  | unary .isZero => "ISZERO"
  | unary .not => "NOT"
  | binary .add => "ADD"
  | binary .mul => "MUL"
  | binary .sub => "SUB"
  | binary .div => "DIV"
  | binary .mod => "MOD"
  | binary .lt => "LT"
  | binary .gt => "GT"
  | binary .eq => "EQ"
  | binary .and => "AND"
  | binary .or => "OR"
  | binary .xor => "XOR"
  | keccak256 => "KECCAK256"
  | observe .address => "ADDRESS"
  | observe .origin => "ORIGIN"
  | observe .caller => "CALLER"
  | observe .callValue => "CALLVALUE"
  | observe .callDataSize => "CALLDATASIZE"
  | observe .timestamp => "TIMESTAMP"
  | observe .number => "NUMBER"
  | observe .chainId => "CHAINID"
  | observe .position => "PC"
  | observe .memorySize => "MSIZE"
  | observe .gas => "GAS"
  | callDataLoad => "CALLDATALOAD"
  | pop => "POP"
  | mload => "MLOAD"
  | mstore => "MSTORE"
  | mstore8 => "MSTORE8"
  | sload => "SLOAD"
  | sstore => "SSTORE"
  | jump => "JUMP"
  | jumpi => "JUMPI"
  | jumpDest => "JUMPDEST"
  | push n => s!"PUSH{n}"
  | dup n => s!"DUP{n}"
  | swap n => s!"SWAP{n}"
  | call => "CALL"
  | ret => "RETURN"
  | revert => "REVERT"

/-- How many words the operation needs on the stack. -/
def inputs : Operation → Nat
  | stop | observe _ | jumpDest | push _ => 0
  | unary _ | callDataLoad | pop | mload | sload | jump => 1
  | binary _ | keccak256 | mstore | mstore8 | sstore | jumpi | ret | revert => 2
  | call => 7
  | dup n => n
  | swap n => n + 1

/-- How many words stand in their place afterwards. -/
def outputs : Operation → Nat
  | stop | pop | mstore | mstore8 | sstore | jump | jumpi | jumpDest | ret | revert => 0
  | unary _ | binary _ | keccak256 | observe _ | callDataLoad | mload | sload | push _ | call => 1
  | dup n => n + 1
  | swap n => n + 1

/-- How many bytes of code after the opcode belong to the operation. -/
def immediate : Operation → Nat
  | push n => n
  | _ => 0

/-- The base gas under the tiered schedule. -/
def baseGas : Operation → Nat
  | stop | ret | revert => 0
  | jumpDest => 1
  | observe _ | pop => 2
  | push n => if n = 0 then 2 else 3
  | binary .mul | binary .div | binary .mod => 5
  | unary _ | binary _ | callDataLoad | mload | mstore | mstore8 | dup _ | swap _ => 3
  | jump => 8
  | jumpi => 10
  | keccak256 => 30
  | sload => 100
  | call => 700
  | sstore => 5000

/-- The revision that the operation came with. -/
def since : Operation → Revision
  | revert => .byzantium
  | observe .chainId => .istanbul
  | push n => if n = 0 then .shanghai else .frontier
  | _ => .frontier

/-- The operation of an opcode under a revision. -/
def at? (r : Revision) (b : UInt8) : Option Operation :=
  (ofByte? b).filter fun op => r.includes op.since

/-- The attributes of the operation of an opcode, as text. -/
def describe (b : UInt8) (op : Operation) : String :=
  let name := op.name
  let opcode := b.toNat
  let arity := s!"inputs: {op.inputs}, outputs: {op.outputs}"
  let price := s!"immediate: {op.immediate}, base_gas: {op.baseGas}, since: {op.since.title}"
  s!"Instruction \x7b name: \"{name}\", opcode: {opcode}, {arity}, {price} \x7d"

end Operation

/-! ## Opcodes without an operation -/

namespace Opcode

/-- The name of an opcode under the newest revision. -/
def name (b : UInt8) : String :=
  match Operation.ofByte? b with
  | some op => op.name
  | none => "UNDEFINED"

/-- The name and the number of an opcode. -/
def describe (b : UInt8) : String :=
  let shown := Text.Hex.encode [b]
  s!"{name b}(0x{shown})"

/-- How many bytes of code after the opcode belong to it. -/
def immediate (b : UInt8) : Nat :=
  match Operation.ofByte? b with
  | some op => op.immediate
  | none => 0

end Opcode

end StackMachine
