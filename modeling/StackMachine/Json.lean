import StackMachine.Double

/-!
# JSON values

JSON as the documents of this library use it. Members keep the order and the repetitions of the
text they were read from; what repetition means is for the reader of a document to say.

An integer is a number written without fraction or exponent that fits 64 bits, signed or unsigned,
other than minus zero. Of every other number the first digits are kept, as many as fit 64 bits, and
an exponent.
-/

namespace StackMachine

/-- A JSON value. -/
inductive Json where
  | null
  | bool (value : Bool)
  /-- An integer of 64 bits, signed or unsigned. -/
  | int (value : Int)
  /-- Any other number: the digits that are kept of it, times ten to the power `exponent`. -/
  | real (mantissa exponent : Int)
  | str (text : String)
  /-- A string with an escape that stands for half of a surrogate pair. It denotes no text. -/
  | garbled
  | arr (items : List Json)
  /-- Members in order, repetitions included. A garbled name is `none`. -/
  | obj (members : List (Option String × Json))
  deriving Inhabited, Repr

namespace Json

/-! ## Integers -/

/-- The least integer of 64 bits. -/
def minInteger : Int := -0x8000000000000000

/-- The greatest integer of 64 bits with sign. -/
def maxSigned : Int := 0x7fffffffffffffff

/-- The greatest integer of 64 bits without sign. -/
def maxInteger : Int := 0xffffffffffffffff

/-! ## Objects -/

/-- An object with plain member names. -/
def ofMembers (members : List (String × Json)) : Json :=
  .obj (members.map fun m => (some m.1, m.2))

/-- The member of a name in an object, the last one if it is repeated. -/
def member? (name : String) : Json → Option Json
  | .obj members => (members.reverse.find? fun m => m.1 == some name).map (·.2)
  | _ => none

/-! ## Numbers beyond the doubles -/

/-- The exponent of the largest power of ten that is a finite double. -/
def maxExponent : Int := 308

/-- Whether a number is finite as the product of two doubles, the one nearest to its digits and the
one nearest to its power of ten. A negative power makes the digits, which fit 64 bits, only smaller. -/
def isFinite (mantissa exponent : Int) : Bool :=
  if mantissa = 0 ∨ exponent < 0 then true
  else if maxExponent < exponent then false
  else Double.isFinite
    (Double.nearest mantissa.natAbs * Double.nearest (Nat.pow 10 exponent.toNat))

/-! ## Values that can be held

A document may contain anything in the places that nobody reads. A value that has to be held, if
only for a while, must consist of text and finite numbers and must not nest too deeply. -/

/-- How deeply the values that are held may nest. -/
def maxNesting : Nat := 127

mutual

/-- Whether a value nests at most `depth` deep and every string and number in it denotes one. -/
def isHeldWithin : (depth : Nat) → Json → Bool
  | _, .garbled => false
  | _, .real mantissa exponent => isFinite mantissa exponent
  | 0, .arr _ => false
  | 0, .obj _ => false
  | depth + 1, .arr items => areHeldWithin depth items
  | depth + 1, .obj members => membersHeldWithin depth members
  | _, _ => true

/-- `isHeldWithin` for the items of an array. -/
def areHeldWithin (depth : Nat) : List Json → Bool
  | [] => true
  | item :: rest => item.isHeldWithin depth && areHeldWithin depth rest

/-- `isHeldWithin` for the members of an object. -/
def membersHeldWithin (depth : Nat) : List (Option String × Json) → Bool
  | [] => true
  | (name, value) :: rest => name.isSome && value.isHeldWithin depth && membersHeldWithin depth rest

end

end Json

end StackMachine
