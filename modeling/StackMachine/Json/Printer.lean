import StackMachine.Json

/-!
# Writing JSON

Compact text: no blanks, members in their order, and in strings only what must be escaped.
-/

namespace StackMachine.Json

/-! ## Strings -/

/-- Four hexadecimal digits of a number. -/
def fourDigits (n : Nat) : List Char :=
  [n / 4096 % 16, n / 256 % 16, n / 16 % 16, n % 16].map Nat.digitChar

/-- A character as it stands in a string. -/
def escapeChar (c : Char) : List Char :=
  if c = '"' then ['\\', '"']
  else if c = '\\' then ['\\', '\\']
  else if c = '\n' then ['\\', 'n']
  else if c = '\r' then ['\\', 'r']
  else if c = '\t' then ['\\', 't']
  else if c.toNat < 0x20 then '\\' :: 'u' :: fourDigits c.toNat
  else [c]

/-- The characters of a string with its quotation marks. -/
def stringChars (s : String) : List Char :=
  '"' :: s.toList.flatMap escapeChar ++ ['"']

/-- The characters of a string that denotes no text: a lone half of a surrogate pair. -/
def garbledChars : List Char :=
  ['"', '\\', 'u', 'd', '8', '0', '0', '"']

/-- The characters of the name of a member. -/
def nameChars : Option String → List Char
  | some name => stringChars name
  | none => garbledChars

/-! ## Values -/

mutual

/-- The characters of a value. -/
def chars : Json → List Char
  | .null => ['n', 'u', 'l', 'l']
  | .bool true => ['t', 'r', 'u', 'e']
  | .bool false => ['f', 'a', 'l', 's', 'e']
  | .int n => (toString n).toList
  | .real mantissa exponent => (toString mantissa).toList ++ 'e' :: (toString exponent).toList
  | .str s => stringChars s
  | .garbled => garbledChars
  | .arr items => '[' :: itemChars items ++ [']']
  | .obj members => '\x7b' :: memberChars members ++ ['\x7d']

/-- The characters of the items of an array, separated by commas. -/
def itemChars : List Json → List Char
  | [] => []
  | [item] => item.chars
  | item :: rest => item.chars ++ ',' :: itemChars rest

/-- The characters of the members of an object, separated by commas. -/
def memberChars : List (Option String × Json) → List Char
  | [] => []
  | [(name, value)] => nameChars name ++ ':' :: value.chars
  | (name, value) :: rest => nameChars name ++ ':' :: value.chars ++ ',' :: memberChars rest

end

/-- The text of a value. -/
def render (j : Json) : String :=
  String.ofList j.chars

end StackMachine.Json
