import StackMachine.Text.Quoted

/-!
# Literals

Hexadecimal literals of fixed size, the form in which words and addresses are written. A literal
may begin with `0x`. What is wrong with the digits is reported before what is wrong with the size.
-/

namespace StackMachine

open Text.Hex (HexError)

/-- Why bytes or text are not a value of fixed size. -/
inductive LiteralError where
  /-- The text is not hexadecimal. -/
  | invalidHex (cause : HexError)
  /-- The number of bytes does not fit the size. -/
  | invalidLength (expected got : Nat)
  deriving DecidableEq, Repr

/-- Says what is wrong with a literal. -/
def LiteralError.message : LiteralError → String
  | .invalidHex cause =>
    let why := cause.message
    s!"invalid hex string: {why}"
  | .invalidLength expected got => s!"invalid length: expected {expected} bytes, got {got}"

namespace Literal

/-- The bytes that a literal spells out. -/
def digits (s : String) : Except LiteralError Bytes :=
  (Text.Hex.decode (Text.Hex.dropMark (Bytes.ofText s))).mapError .invalidHex

/-- The bytes themselves, if there are exactly `size`. -/
def exactly (size : Nat) (bs : Bytes) : Except LiteralError Bytes :=
  if bs.length = size then .ok bs else .error (.invalidLength size bs.length)

/-- The bytes themselves, if there are no more than `size`. -/
def atMost (size : Nat) (bs : Bytes) : Except LiteralError Bytes :=
  if bs.length ≤ size then .ok bs else .error (.invalidLength size bs.length)

end Literal

end StackMachine
