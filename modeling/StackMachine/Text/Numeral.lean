/-!
# Leading numerals

An integer at the start of a text: blanks, a sign, a radix mark, then the longest run of digits.
Whatever follows the digits is left unread. The integer is one of 64 bits: a numeral that is too
large for those is read as the largest of them.
-/

namespace StackMachine.Text

/-- The characters with the Unicode property White_Space. -/
def isBlank (c : Char) : Bool :=
  let n := c.toNat
  (0x09 ≤ n && n ≤ 0x0d) || n = 0x20 || n = 0x85 || n = 0xa0 || n = 0x1680 ||
    (0x2000 ≤ n && n ≤ 0x200a) || n = 0x2028 || n = 0x2029 || n = 0x202f || n = 0x205f || n = 0x3000

/-- The value of an ASCII letter or digit as a digit, below thirty-six. -/
def digitValue? (c : Char) : Option Nat :=
  let n := c.toNat
  if 0x30 ≤ n ∧ n ≤ 0x39 then some (n - 0x30)
  else if 0x41 ≤ n ∧ n ≤ 0x5a then some (n - 0x41 + 10)
  else if 0x61 ≤ n ∧ n ≤ 0x7a then some (n - 0x61 + 10)
  else none

/-- The value of a digit in a given radix. -/
def digitIn? (radix : Nat) (c : Char) : Option Nat :=
  (digitValue? c).filter (· < radix)

/-- The digit values of the longest run of digits at the start. -/
def leadingDigits (radix : Nat) : List Char → List Nat
  | [] => []
  | c :: rest =>
    match digitIn? radix c with
    | some d => d :: leadingDigits radix rest
    | none => []

/-- The number that digit values denote, most significant first. -/
def ofDigits (radix : Nat) (ds : List Nat) : Nat :=
  ds.foldl (fun n d => n * radix + d) 0

/-- The largest signed integer of 64 bits. -/
def largest : Nat := 0x7fffffffffffffff

/-- The number that digit values denote, computed in 64 bits. Products and sums that are too large
stop at the largest integer. -/
def ofDigitsWithin (radix : Nat) (ds : List Nat) : Nat :=
  ds.foldl (fun n d => min largest (min largest (n * radix) + d)) 0

/-- The numeral at the start: `0x` or `0X` and at least one hexadecimal digit; or octal digits
after a leading zero; or decimal digits. -/
def leadingNatural? (cs : List Char) : Option Nat :=
  let (radix, digits) := match cs with
    | '0' :: x :: d :: rest =>
      if (x = 'x' ∨ x = 'X') ∧ (digitIn? 16 d).isSome then (16, d :: rest)
      else (8, '0' :: x :: d :: rest)
    | '0' :: rest => (8, '0' :: rest)
    | cs => (10, cs)
  match leadingDigits radix digits with
  | [] => none
  | ds => some (ofDigitsWithin radix ds)

/-- The integer at the start of a text, after any blanks and at most one sign. -/
def leadingInteger? (s : String) : Option Int :=
  match s.toList.dropWhile isBlank with
  | '-' :: rest => (leadingNatural? rest).map fun n : Nat => -(n : Int)
  | '+' :: rest => (leadingNatural? rest).map Int.ofNat
  | cs => (leadingNatural? cs).map Int.ofNat

end StackMachine.Text
