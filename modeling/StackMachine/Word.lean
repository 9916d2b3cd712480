import StackMachine.Literal

/-!
# Words and addresses

Words are the 256-bit values of the machine, addresses the 160-bit names of accounts. Both are
written as their big-endian bytes in hexadecimal. Arithmetic on words is arithmetic modulo
`2 ^ 256`, with a zero divisor giving zero.
-/

namespace StackMachine

/-- The limit of sizes and positions, the 64th power of two: they are natural numbers below it. -/
def sizeLimit : Nat := 0x10000000000000000

/-- The largest amount of gas a message can carry, the largest signed number of 64 bits. -/
def maxGas : Nat := 0x7fffffffffffffff

/-- A value of the machine. -/
abbrev Word := BitVec 256

/-- The name of an account. -/
abbrev Address := BitVec 160

/-! ## Addresses -/

namespace Address

/-- The twenty bytes of an address, most significant first. -/
def toBytes (a : Address) : Bytes :=
  Bytes.ofNat 20 a.toNat

/-- The address with the given bytes; there must be twenty. -/
def ofBytes (bs : Bytes) : Except LiteralError Address :=
  (Literal.exactly 20 bs).map fun bs => BitVec.ofNat 160 bs.toNat

/-- Reads a literal of exactly twenty bytes. -/
def ofHex (s : String) : Except LiteralError Address :=
  Literal.digits s >>= ofBytes

/-- Writes all forty digits after `0x`. -/
def toHex (a : Address) : String :=
  "0x" ++ Text.Hex.encode a.toBytes

/-- The form that names the type as well. -/
def describe (a : Address) : String :=
  s!"Address({a.toHex})"

end Address

/-! ## Words -/

namespace Word

/-- The word of a natural number modulo `2 ^ 256`. -/
def ofNat (n : Nat) : Word :=
  BitVec.ofNat 256 n

/-- One for true and zero for false. -/
def ofBool (b : Bool) : Word :=
  if b then 1 else 0

/-- The word with the number of an address. -/
def ofAddress (a : Address) : Word :=
  ofNat a.toNat

/-- The address in the low twenty bytes. -/
def toAddress (w : Word) : Address :=
  BitVec.ofNat 160 w.toNat

/-! ### Bytes and text -/

/-- The thirty-two bytes of a word, most significant first. -/
def toBytes (w : Word) : Bytes :=
  Bytes.ofNat 32 w.toNat

/-- The byte at a place counted from the most significant one, zero past the last. -/
def byte (w : Word) (i : Nat) : UInt8 :=
  w.toBytes.getD i 0

/-- The word with the given bytes; there must be thirty-two. -/
def ofBytes (bs : Bytes) : Except LiteralError Word :=
  (Literal.exactly 32 bs).map fun bs => ofNat bs.toNat

/-- The word that at most thirty-two bytes denote. -/
def ofBigEndian (bs : Bytes) : Except LiteralError Word :=
  (Literal.atMost 32 bs).map fun bs => ofNat bs.toNat

/-- Reads a literal of at most thirty-two bytes. -/
def ofHex (s : String) : Except LiteralError Word :=
  Literal.digits s >>= ofBigEndian

/-- Writes all sixty-four digits after `0x`. -/
def toHex (w : Word) : String :=
  "0x" ++ Text.Hex.encode w.toBytes

/-- The form that names the type as well. -/
def describe (w : Word) : String :=
  s!"Word({w.toHex})"

/-! ### Sizes and amounts -/

/-- The word as a size or position, if it is below the limit of sizes. -/
def toSize? (w : Word) : Option Nat :=
  if w.toNat < sizeLimit then some w.toNat else none

/-- The word as an amount of gas, cut off at the largest amount. -/
def toGas (w : Word) : Nat :=
  min w.toNat maxGas

/-! ### Arithmetic -/

/-- The quotient, zero if the divisor is zero. -/
def quotient (a b : Word) : Word :=
  if b = 0 then 0 else a / b

/-- The remainder, zero if the divisor is zero. -/
def remainder (a b : Word) : Word :=
  if b = 0 then 0 else a % b

end Word

end StackMachine
