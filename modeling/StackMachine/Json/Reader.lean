import StackMachine.Json.Token

/-!
# Reading JSON

A value is built from its tokens with a stack of the arrays and objects that are still open, so
that no text is too deep to be read.
-/

namespace StackMachine.Json

namespace Reader

/-- An array or object that is still open. Its contents so far stand in reverse. -/
inductive Open where
  | array (items : List Json)
  | object (members : List (Option String × Json))
  /-- An object that waits for the value of a member. -/
  | member (members : List (Option String × Json)) (name : Option String)

/-- What may come next. -/
inductive Expected where
  | value
  /-- The first item of an array, or its end. -/
  | itemOrEnd
  /-- The first member of an object, or its end. -/
  | memberOrEnd
  | memberName
  | colon
  | commaOrEnd
  | nothing

/-- The state of the reader: what is open, innermost first, what is expected, and the value that
the whole text denotes once it is complete. -/
structure State where
  opened : List Open
  expected : Expected
  result : Json

/-- The reader before the first token. -/
def State.initial : State := ⟨[], .value, .null⟩

/-- Hands a complete value to whatever is open. -/
def State.deliver (value : Json) : List Open → Option State
  | [] => some ⟨[], .nothing, value⟩
  | .array items :: outer => some ⟨.array (value :: items) :: outer, .commaOrEnd, .null⟩
  | .member members name :: outer =>
    some ⟨.object ((name, value) :: members) :: outer, .commaOrEnd, .null⟩
  | .object _ :: _ => none

/-- Takes a token where a value begins. -/
def State.begin (opened : List Open) : Token → Option State
  | .scalar value => deliver value opened
  | .text (some s) => deliver (.str s) opened
  | .text none => deliver .garbled opened
  | .openArray => some ⟨.array [] :: opened, .itemOrEnd, .null⟩
  | .openObject => some ⟨.object [] :: opened, .memberOrEnd, .null⟩
  | _ => none

/-- Takes one token. -/
def State.take (s : State) (token : Token) : Option State :=
  match s.expected, token, s.opened with
  | .value, token, opened => begin opened token
  | .itemOrEnd, .closeArray, .array items :: outer => deliver (.arr items.reverse) outer
  | .itemOrEnd, token, opened => begin opened token
  | .memberOrEnd, .closeObject, .object members :: outer => deliver (.obj members.reverse) outer
  | .memberOrEnd, .text name, .object members :: outer => some ⟨.member members name :: outer, .colon, .null⟩
  | .memberName, .text name, .object members :: outer => some ⟨.member members name :: outer, .colon, .null⟩
  | .colon, .colon, opened => some ⟨opened, .value, .null⟩
  | .commaOrEnd, .comma, .array items :: outer => some ⟨.array items :: outer, .value, .null⟩
  | .commaOrEnd, .comma, .object members :: outer => some ⟨.object members :: outer, .memberName, .null⟩
  | .commaOrEnd, .closeArray, .array items :: outer => deliver (.arr items.reverse) outer
  | .commaOrEnd, .closeObject, .object members :: outer => deliver (.obj members.reverse) outer
  | _, _, _ => none

/-- The value that the tokens complete. -/
def State.takeAll (s : State) : List Token → Option Json
  | [] => match s.expected with
    | .nothing => some s.result
    | _ => none
  | token :: rest => (s.take token).bind fun s => s.takeAll rest

end Reader

/-- Reads a JSON text. -/
def ofText? (s : String) : Option Json :=
  (Token.ofText? s).bind Reader.State.initial.takeAll

end StackMachine.Json
