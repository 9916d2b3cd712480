import StackMachine.Json

/-!
# Decoding JSON values

The forms in which documents state values: integers of a range, text, names of alternatives,
records and maps. A record is an object, in which unknown members are ignored and known ones may not
be repeated, or an array of its fields in order.
-/

namespace StackMachine.Json

/-- Why a JSON value is not the form of a value of the library. -/
inductive DecodeError where
  /-- The text is not JSON. -/
  | notJson
  /-- The value is of another kind than the one needed. -/
  | wrongKind
  /-- The integer is outside the range of its type. -/
  | outOfRange (value : Int)
  /-- No alternative has this name. -/
  | unknownName (name : String)
  /-- A field without a default is missing. -/
  | missingField (name : String)
  /-- A known field occurs twice. -/
  | repeatedField (name : String)
  /-- An array has items past the last field. -/
  | surplusItems
  /-- A part that is not read is not a value that can be held. -/
  | notHeld
  /-- The text of a value is malformed. -/
  | badText (reason : String)
  /-- The verbosity is no level that a machine can have. -/
  | badVerbosity (value : Int)
  deriving DecidableEq, Repr

/-- The result of decoding. -/
abbrev Decoded (α : Type) := Except DecodeError α

/-! ## Plain values -/

/-- An integer between two bounds. -/
def asInt (low high : Int) : Json → Decoded Int
  | .int n => if low ≤ n ∧ n ≤ high then .ok n else .error (.outOfRange n)
  | _ => .error .wrongKind

/-- An integer of 64 bits without sign. -/
def asUInt64 (j : Json) : Decoded UInt64 :=
  (j.asInt 0 maxInteger).map fun n => UInt64.ofNat n.toNat

/-- An integer of 32 bits with sign. -/
def asInt32 (j : Json) : Decoded Int32 :=
  (j.asInt (-0x80000000) 0x7fffffff).map Int32.ofInt

/-- An integer of 64 bits with sign. -/
def asInt64 (j : Json) : Decoded Int :=
  j.asInt minInteger maxSigned

/-- A truth value. -/
def asBool : Json → Decoded Bool
  | .bool b => .ok b
  | _ => .error .wrongKind

/-- A text. -/
def asText : Json → Decoded String
  | .str s => .ok s
  | _ => .error .wrongKind

/-- A value or `null`. -/
def asOption {α : Type} (decode : Json → Decoded α) : Json → Decoded (Option α)
  | .null => .ok none
  | j => (decode j).map some

/-- One of several names, alone or as the only member of an object, with the value `null`. -/
def asName {α : Type} (alternatives : List (String × α)) (j : Json) : Decoded α :=
  let byName (name : String) : Decoded α :=
    match alternatives.lookup name with
    | some a => .ok a
    | none => .error (.unknownName name)
  match j with
  | .str name => byName name
  | .obj [(some name, .null)] => byName name
  | _ => .error .wrongKind

/-! ## Records -/

/-- The fields of a record that are present. -/
abbrev Fields := List (String × Json)

/-- Picks the known members of an object. -/
def pickMembers (names : List String) : List (Option String × Json) → Decoded Fields
  | [] => .ok []
  | (none, _) :: _ => .error .wrongKind
  | (some name, value) :: rest => do
    let fields ← pickMembers names rest
    if name ∉ names then return fields
    else if (fields.lookup name).isSome then throw (.repeatedField name)
    else return (name, value) :: fields

/-- The fields of a record with the given field names, in order. -/
def fields (names : List String) : Json → Decoded Fields
  | .obj members => pickMembers names members
  | .arr items => if items.length ≤ names.length then .ok (names.zip items) else .error .surplusItems
  | _ => .error .wrongKind

/-- A field that must be present. -/
def Fields.required {α : Type} (fields : Fields) (name : String) (decode : Json → Decoded α) :
    Decoded α :=
  match fields.lookup name with
  | some j => decode j
  | none => .error (.missingField name)

/-- A field with a default. -/
def Fields.withDefault {α : Type} (fields : Fields) (name : String) (decode : Json → Decoded α)
    (default : α) : Decoded α :=
  match fields.lookup name with
  | some j => decode j
  | none => .ok default

/-! ## Maps -/

/-- The entries of a map from names, in the order of the text. -/
def asEntries {κ ν : Type} (key : String → Decoded κ) (value : Json → Decoded ν) :
    Json → Decoded (List (κ × ν))
  | .obj members => members.mapM fun (name, j) => do
    match name with
    | none => throw .wrongKind
    | some name => return (← key name, ← value j)
  | _ => .error .wrongKind

end StackMachine.Json
