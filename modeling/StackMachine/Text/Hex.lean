import StackMachine.Bytes

/-!
# Hexadecimal text

Byte strings written as pairs of hexadecimal digits. Reading takes the bytes of the text, so that
the place of a bad character is counted in bytes and text outside ASCII is rejected byte by byte.
-/

namespace StackMachine.Text.Hex

/-- Why a text is not the hexadecimal form of a byte string. -/
inductive HexError where
  /-- The text has an odd number of bytes. -/
  | oddLength
  /-- The first byte that is no hexadecimal digit, and its place. -/
  | badDigit (byte : UInt8) (position : Nat)
  deriving DecidableEq, Repr

/-! ## Digits -/

/-- The value of a hexadecimal digit of either case. -/
def digitValue? (b : UInt8) : Option Nat :=
  let n := b.toNat
  if 0x30 ≤ n ∧ n ≤ 0x39 then some (n - 0x30)
  else if 0x41 ≤ n ∧ n ≤ 0x46 then some (n - 0x41 + 10)
  else if 0x61 ≤ n ∧ n ≤ 0x66 then some (n - 0x61 + 10)
  else none

/-- The lowercase digit of a value below sixteen. -/
def digit (n : Nat) : Char :=
  if n < 10 then Char.ofNat (0x30 + n) else Char.ofNat (0x61 + (n - 10))

/-! ## Byte strings -/

/-- Two lowercase digits for every byte. -/
def encode (bs : Bytes) : String :=
  String.ofList (bs.flatMap fun b => [digit (b.toNat / 16), digit (b.toNat % 16)])

/-- Reads pairs of digits, the first of them at place `position` of the whole text. -/
def decodePairs (position : Nat) : Bytes → Except HexError Bytes
  | [] => .ok []
  | [_] => .error .oddLength
  | high :: low :: rest =>
    match digitValue? high with
    | none => .error (.badDigit high position)
    | some h =>
      match digitValue? low with
      | none => .error (.badDigit low (position + 1))
      | some l => (decodePairs (position + 2) rest).map (UInt8.ofNat (16 * h + l) :: ·)

/-- Reads a byte string. An odd length is found before any bad digit. -/
def decode (text : Bytes) : Except HexError Bytes :=
  if text.length % 2 = 1 then .error .oddLength else decodePairs 0 text

/-- The text without one leading `0x`. -/
def dropMark : Bytes → Bytes
  | 0x30 :: 0x78 :: rest => rest
  | text => text

end StackMachine.Text.Hex
