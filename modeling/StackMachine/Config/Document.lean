import StackMachine.Config
import StackMachine.Json.Reader

/-!
# Configurations as documents

The JSON form of a configuration: a record of its five parts, each with a default. A schedule or
policy is an object that names its `kind` among its other members, or an array that begins with it.
-/

namespace StackMachine

open Json (Decoded DecodeError)

/-! ## Alternatives with a kind -/

namespace Json

/-- How deeply a part may nest that is held while its kind is looked for: it stands inside a record. -/
def maxPartNesting : Nat := maxNesting - 1

/-- The other members of an object, once the only member with the name `kind` is found. -/
def splitKind : List (Option String × Json) → Decoded (Json × List (Option String × Json))
  | [] => .error (.missingField "kind")
  | (some "kind", kind) :: rest =>
    if rest.any fun m => m.1 == some "kind" then .error (.repeatedField "kind") else .ok (kind, rest)
  | m :: rest => (splitKind rest).map fun (kind, others) => (kind, m :: others)

/-- The name of the kind of a value, and what is left of the value. -/
def kinded (j : Json) : Decoded (String × Json) :=
  if j.isHeldWithin maxPartNesting then
    match j with
    | .obj members => do
      let (kind, others) ← splitKind members
      return (← kind.asText, .obj others)
    | .arr (kind :: items) => do return (← kind.asText, .arr items)
    | .arr [] => .error (.missingField "kind")
    | _ => .error .wrongKind
  else .error .notHeld

/-- What is left of a value whose kind has no fields: any members, but no items. -/
def noFields : Json → Decoded Unit
  | .obj _ => .ok ()
  | .arr [] => .ok ()
  | _ => .error .surplusItems

end Json

/-! ## Schedules and policies -/

/-- The form of a schedule. -/
def GasSchedule.toJson : GasSchedule → Json
  | uniform perInstruction =>
    .ofMembers [("kind", .str "uniform"), ("per_instruction", .int perInstruction.toNat)]
  | tiered => .ofMembers [("kind", .str "tiered")]

/-- Reads a schedule. -/
def GasSchedule.ofJson (j : Json) : Decoded GasSchedule := do
  let (kind, rest) ← j.kinded
  match kind with
  | "uniform" =>
    let fields ← rest.fields ["per_instruction"]
    return .uniform (← fields.required "per_instruction" Json.asUInt64)
  | "tiered" =>
    rest.noFields
    return .tiered
  | kind => throw (.unknownName kind)

/-- The form of a policy. -/
def MemoryPolicy.toJson : MemoryPolicy → Json
  | free => .ofMembers [("kind", .str "free")]
  | linear perWord => .ofMembers [("kind", .str "linear"), ("per_word", .int perWord.toNat)]
  | quadratic => .ofMembers [("kind", .str "quadratic")]

/-- Reads a policy. -/
def MemoryPolicy.ofJson (j : Json) : Decoded MemoryPolicy := do
  let (kind, rest) ← j.kinded
  match kind with
  | "free" =>
    rest.noFields
    return .free
  | "linear" =>
    let fields ← rest.fields ["per_word"]
    return .linear (← fields.required "per_word" Json.asUInt64)
  | "quadratic" =>
    rest.noFields
    return .quadratic
  | kind => throw (.unknownName kind)

/-! ## Configurations -/

namespace Config

/-- The names of the parts, in order. -/
def fieldNames : List String :=
  ["verbosity", "gas_schedule", "memory_cost", "max_memory_size", "max_call_depth"]

/-- The form of a configuration. -/
def toJson (c : Config) : Json :=
  .ofMembers
    [("verbosity", .int c.verbosity),
      ("gas_schedule", c.gasSchedule.toJson),
      ("memory_cost", c.memoryPolicy.toJson),
      ("max_memory_size", .int c.maxMemorySize.toNat),
      ("max_call_depth", .int c.maxCallDepth.toInt)]

/-- Reads a verbosity: an integer of eight bits that a machine can have. -/
def verbosityOfJson (j : Json) : Decoded Int := do
  let v ← j.asInt (-128) 127
  if isVerbosity v then return v else throw (.badVerbosity v)

/-- Reads a configuration. The verbosity is the first item of an array and is judged first there;
in an object it is judged after the other parts. -/
def ofJson (j : Json) : Decoded Config := do
  if let .arr (v :: _) := j then
    let _ ← verbosityOfJson v
  let fields ← j.fields fieldNames
  let gasSchedule ← fields.withDefault "gas_schedule" GasSchedule.ofJson default.gasSchedule
  let maxCallDepth ← fields.withDefault "max_call_depth" Json.asInt32 default.maxCallDepth
  let maxMemorySize ← fields.withDefault "max_memory_size" Json.asUInt64 default.maxMemorySize
  let memoryPolicy ← fields.withDefault "memory_cost" MemoryPolicy.ofJson default.memoryPolicy
  let verbosity ← fields.withDefault "verbosity" verbosityOfJson default.verbosity
  return ⟨verbosity, gasSchedule, memoryPolicy, maxMemorySize, maxCallDepth⟩

/-- Reads a configuration from JSON text. -/
def ofText (s : String) : Decoded Config :=
  match Json.ofText? s with
  | some j => ofJson j
  | none => .error .notJson

end Config

/-- Says why a document was not accepted, where there is more to say than that it was not. -/
def Json.DecodeError.message? : DecodeError → Option String
  | .badVerbosity v =>
    some s!"verbosity {v} outside [{Config.minVerbosity}, {Config.maxVerbosity}]"
  | _ => none

end StackMachine
