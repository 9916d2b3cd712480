import StackMachine.Json
import StackMachine.Text.Numeral

/-!
# Tokens of JSON text

Text is read one character at a time by an automaton whose states say what the characters so far
have begun. Numbers and literal names are collected as bare words and judged when they end.
-/

namespace StackMachine.Json

/-- A token of JSON text. -/
inductive Token where
  | openArray
  | closeArray
  | openObject
  | closeObject
  | colon
  | comma
  /-- A string; `none` if it denotes no text. -/
  | text (content : Option String)
  /-- A number or one of the three names. -/
  | scalar (value : Json)
  deriving Repr

namespace Token

/-! ## Strings -/

/-- What stands in a string: a character as it is, or the code unit of a numeric escape. -/
inductive Piece where
  | char (c : Char)
  | unit (n : Nat)
  deriving Repr

/-- The characters of a string. The code units of a surrogate pair join; half a pair denotes
nothing, and neither does the string it stands in. -/
def join : List Piece → Option (List Char)
  | [] => some []
  | .char c :: rest => (join rest).map (c :: ·)
  | .unit high :: .unit low :: rest =>
    if 0xd800 ≤ high ∧ high < 0xdc00 ∧ 0xdc00 ≤ low ∧ low < 0xe000 then
      (join rest).map (Char.ofNat (0x10000 + (high - 0xd800) * 0x400 + (low - 0xdc00)) :: ·)
    else if 0xd800 ≤ high ∧ high < 0xe000 then none
    else (join (.unit low :: rest)).map (Char.ofNat high :: ·)
  | .unit n :: rest =>
    if 0xd800 ≤ n ∧ n < 0xe000 then none else (join rest).map (Char.ofNat n :: ·)

/-- The character that a backslash and a letter stand for. -/
def simpleEscape? : Char → Option Char
  | '"' => some '"'
  | '\\' => some '\\'
  | '/' => some '/'
  | 'b' => some '\x08'
  | 'f' => some '\x0c'
  | 'n' => some '\n'
  | 'r' => some '\r'
  | 't' => some '\t'
  | _ => none

/-! ## Numbers -/

/-- The number of a run of decimal digits. -/
def decimal (cs : List Char) : Nat :=
  Text.ofDigits 10 (Text.leadingDigits 10 cs)

/-- Appends digits to a number while it fits 64 bits. Gives the number, and how many digits are left
over. -/
def keepDigits (n : Nat) : List Nat → Nat × Nat
  | [] => (n, 0)
  | d :: rest =>
    if ((10 * n + d : Nat) : Int) ≤ maxInteger then keepDigits (10 * n + d) rest
    else (n, rest.length + 1)

/-- A number that is no integer, of its digits before and after the point and its exponent. A digit
that is not kept counts as a place if it stands before the point, and not at all after it. -/
def realOf (sign : Int) (whole fraction : List Char) (exponent : Int) : Json :=
  let (n, places) := keepDigits 0 (Text.leadingDigits 10 whole)
  let (n, dropped) := keepDigits n (Text.leadingDigits 10 fraction)
  .real (sign * n) (exponent + places - (fraction.length - dropped))

/-- The end of a number: an exponent or nothing. -/
def exponent? : List Char → Option Int
  | [] => some 0
  | e :: rest =>
    let (sign, digits) : Int × List Char := match rest with
      | '-' :: digits => (-1, digits)
      | '+' :: digits => (1, digits)
      | digits => (1, digits)
    if (e = 'e' ∨ e = 'E') ∧ digits ≠ [] ∧ digits.all Char.isDigit then some (sign * decimal digits)
    else none

/-- A number without its sign: digits with no needless zero in front, then a fraction and an
exponent, if any. -/
def magnitude? (negative : Bool) (cs : List Char) : Option Json :=
  let whole := cs.takeWhile Char.isDigit
  let rest := cs.dropWhile Char.isDigit
  let sign : Int := if negative then -1 else 1
  if whole = [] ∨ (whole.head? = some '0' ∧ whole.length > 1) then none
  else match rest with
    | [] =>
      let value := sign * decimal whole
      if (negative ∧ value = 0) ∨ value < minInteger ∨ maxInteger < value then
        some (realOf sign whole [] 0)
      else some (.int value)
    | '.' :: rest =>
      let fraction := rest.takeWhile Char.isDigit
      if fraction = [] then none
      else (exponent? (rest.dropWhile Char.isDigit)).map (realOf sign whole fraction)
    | rest => (exponent? rest).map (realOf sign whole [])

/-- The value of a bare word. -/
def scalar? (word : List Char) : Option Json :=
  if word = ['n', 'u', 'l', 'l'] then some .null
  else if word = ['t', 'r', 'u', 'e'] then some (.bool true)
  else if word = ['f', 'a', 'l', 's', 'e'] then some (.bool false)
  else match word with
    | '-' :: rest => magnitude? true rest
    | word => magnitude? false word

/-! ## The automaton -/

/-- What the characters read so far have begun. Collected parts stand in reverse. -/
inductive State where
  /-- Between tokens. -/
  | ready
  /-- In a bare word. -/
  | bare (word : List Char)
  /-- In a string. -/
  | string (pieces : List Piece)
  /-- In a string, after a backslash. -/
  | escape (pieces : List Piece)
  /-- In a numeric escape that lacks `missing + 1` digits. -/
  | unit (pieces : List Piece) (missing value : Nat)

/-- Whether a character can stand in a bare word. -/
def isBare (c : Char) : Bool :=
  c.isAlphanum || c = '-' || c = '+' || c = '.'

/-- The state after a character between tokens, and the token that the character makes. -/
def start (c : Char) : Option (State × List Token) :=
  if c = ' ' ∨ c = '\t' ∨ c = '\n' ∨ c = '\r' then some (.ready, [])
  else if c = '"' then some (.string [], [])
  else if c = '[' then some (.ready, [.openArray])
  else if c = ']' then some (.ready, [.closeArray])
  else if c = '\x7b' then some (.ready, [.openObject])
  else if c = '\x7d' then some (.ready, [.closeObject])
  else if c = ':' then some (.ready, [.colon])
  else if c = ',' then some (.ready, [.comma])
  else if isBare c then some (.bare [c], [])
  else none

/-- The state after one more character, and the tokens that it completes. -/
def next : State → Char → Option (State × List Token)
  | .ready, c => start c
  | .bare word, c =>
    if isBare c then some (.bare (c :: word), [])
    else do
      let value ← scalar? word.reverse
      let (state, tokens) ← start c
      return (state, .scalar value :: tokens)
  | .string pieces, c =>
    if c = '"' then some (.ready, [.text ((join pieces.reverse).map String.ofList)])
    else if c = '\\' then some (.escape pieces, [])
    else if c.toNat < 0x20 then none
    else some (.string (.char c :: pieces), [])
  | .escape pieces, c =>
    if c = 'u' then some (.unit pieces 3 0, [])
    else (simpleEscape? c).map fun c => (.string (.char c :: pieces), [])
  | .unit pieces missing value, c =>
    match Text.digitIn? 16 c, missing with
    | none, _ => none
    | some d, 0 => some (.string (.unit (16 * value + d) :: pieces), [])
    | some d, missing + 1 => some (.unit pieces missing (16 * value + d), [])

/-- The tokens that the end of the text completes. -/
def finish : State → Option (List Token)
  | .ready => some []
  | .bare word => (scalar? word.reverse).map fun value => [.scalar value]
  | _ => none

/-- The tokens of a text that is read from a given state, after those already complete, which stand
in reverse. -/
def scan (state : State) (complete : List Token) : List Char → Option (List Token)
  | [] => (finish state).map (complete.reverse ++ ·)
  | c :: rest =>
    match next state c with
    | none => none
    | some (state, tokens) => scan state (tokens.reverse ++ complete) rest

/-- The tokens of a text. -/
def ofText? (s : String) : Option (List Token) :=
  scan .ready [] s.toList

end Token

end StackMachine.Json
