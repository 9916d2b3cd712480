import StackMachine.Text.Hex
import StackMachine.Text.Hidden

/-!
# Quoted text

Text and characters in quotation marks, as messages show them. Backslash, the quotation mark and
the common controls have escapes of two characters; every other hidden character is written as
`\u` and its number in braces.
-/

namespace StackMachine.Text

/-- The digits of a number in base sixteen, lowercase, without leading zeros. -/
def hexDigits (n : Nat) : List Char :=
  Nat.toDigits 16 n

/-- A character as it stands between two marks `mark`. -/
def escape (mark c : Char) : List Char :=
  if c = '\x00' then ['\\', '0']
  else if c = '\t' then ['\\', 't']
  else if c = '\n' then ['\\', 'n']
  else if c = '\r' then ['\\', 'r']
  else if c = '\\' ∨ c = mark then ['\\', c]
  else if isHidden c then ['\\', 'u', '\x7b'] ++ hexDigits c.toNat ++ ['\x7d']
  else [c]

/-- A text in double quotation marks. -/
def quote (s : String) : String :=
  String.ofList ('"' :: s.toList.flatMap (escape '"') ++ ['"'])

/-- A character in single quotation marks. -/
def quoteChar (c : Char) : String :=
  String.ofList ('\'' :: escape '\'' c ++ ['\''])

/-- Says why a text is not hexadecimal. A bad byte is shown as the character of the same number. -/
def Hex.HexError.message : Hex.HexError → String
  | .oddLength => "Odd number of digits"
  | .badDigit byte position =>
    let shown := quoteChar (Char.ofNat byte.toNat)
    s!"Invalid character {shown} at position {position}"

end StackMachine.Text
