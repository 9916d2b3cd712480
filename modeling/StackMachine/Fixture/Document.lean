import StackMachine.Config.Document
import StackMachine.Fixture

/-!
# Fixtures as documents

The JSON form of cases and of files of cases. Bytes, words and addresses are hexadecimal text with or
without `0x`; a word may have an odd number of digits. Keys of storage maps are written the same way,
and of two keys for one slot or account the later one counts.
-/

namespace StackMachine

open Json (Decoded Fields)

/-! ## Hexadecimal text -/

namespace Text.Hex

/-- Reads a byte string, with or without `0x`. -/
def bytesOfText (s : String) : Except HexError Bytes :=
  decode (dropMark (Bytes.ofText s))

/-- Reads a word of any number of digits, with or without `0x`: a zero goes in front of an odd
number. -/
def wordOfText (s : String) : Except LiteralError Word :=
  let digits := dropMark (Bytes.ofText s)
  let padded := if digits.length % 2 = 1 then 0x30 :: digits else digits
  ((decode (dropMark padded)).mapError .invalidHex) >>= Word.ofBigEndian

end Text.Hex

namespace Fixture

/-- A byte string as text. -/
def asBytes (j : Json) : Decoded Bytes := do
  (Text.Hex.bytesOfText (← j.asText)).mapError fun e => .badText e.message

/-- A word as text. -/
def wordOfName (s : String) : Decoded Word :=
  (Text.Hex.wordOfText s).mapError fun e => .badText e.message

/-- An address as text. -/
def addressOfName (s : String) : Decoded Address :=
  (Address.ofHex s).mapError fun e => .badText e.message

/-- A word as JSON text. -/
def asWord (j : Json) : Decoded Word := do
  wordOfName (← j.asText)

/-- An address as JSON text. -/
def asAddress (j : Json) : Decoded Address := do
  addressOfName (← j.asText)

/-! ## Parts of a case -/

/-- The slots of one account. -/
def slotsOfJson (j : Json) : Decoded Slots :=
  (j.asEntries wordOfName asWord).map OrderedMap.ofList

/-- The storage of several accounts. -/
def storageOfJson (j : Json) : Decoded StorageMap :=
  (j.asEntries addressOfName slotsOfJson).map OrderedMap.ofList

/-- What is executed. -/
def Exec.ofJson (j : Json) : Decoded Exec := do
  let fields ← j.fields ["address", "caller", "code", "data", "gas", "value", "static", "depth"]
  return {
    address := ← fields.withDefault "address" asAddress defaultDestination
    caller := ← fields.withDefault "caller" asAddress defaultSender
    code := ← fields.required "code" asBytes
    data := ← fields.withDefault "data" asBytes []
    gas := ← fields.required "gas" Json.asInt64
    value := ← fields.withDefault "value" asWord 0
    isStatic := ← fields.withDefault "static" Json.asBool false
    depth := ← fields.withDefault "depth" Json.asInt32 0 }

/-- The block and the transaction. -/
def Env.ofJson (j : Json) : Decoded Env := do
  let fields ← j.fields ["number", "timestamp", "origin", "chain_id"]
  return {
    number := ← fields.withDefault "number" Json.asUInt64 0
    timestamp := ← fields.withDefault "timestamp" Json.asUInt64 0
    origin := ← fields.withDefault "origin" asAddress 0
    chainId := ← fields.withDefault "chain_id" (Json.asOption asWord) none }

/-- The answer to nested calls. -/
def CallResult.ofJson (j : Json) : Decoded CallResult := do
  let fields ← j.fields ["status", "gas_left", "output"]
  return {
    status := ← fields.required "status" Status.ofJson
    gasLeft := ← fields.withDefault "gas_left" Json.asInt64 0
    output := ← fields.withDefault "output" asBytes [] }

/-- What is expected. -/
def Expect.ofJson (j : Json) : Decoded Expect := do
  let fields ← j.fields ["status", "gas_left", "output", "storage", "calls"]
  return {
    status := ← fields.required "status" Status.ofJson
    gasLeft := ← fields.required "gas_left" Json.asInt64
    output := ← fields.withDefault "output" asBytes []
    storage := ← fields.withDefault "storage" storageOfJson ∅
    calls := ← fields.withDefault "calls" (Json.asOption fun j => (j.asUInt64).map UInt64.toNat) none }

/-! ## Cases and files -/

/-- Reads a case. -/
def ofJson (j : Json) : Decoded Fixture := do
  let fields ← j.fields ["revision", "exec", "env", "call_result", "pre", "expect"]
  return {
    revision := ← fields.withDefault "revision" Revision.ofJson .latest
    exec := ← fields.required "exec" Exec.ofJson
    env := ← fields.withDefault "env" Env.ofJson .default
    callResult := ← fields.withDefault "call_result" (Json.asOption CallResult.ofJson) none
    pre := ← fields.withDefault "pre" storageOfJson ∅
    expect := ← fields.required "expect" Expect.ofJson }

/-- Reads a case from JSON text. -/
def ofText (s : String) : Decoded Fixture :=
  match Json.ofText? s with
  | some j => ofJson j
  | none => .error .notJson

/-- A file of cases by name. -/
abbrev File := OrderedMap String Fixture

/-- Reads a file of cases. Of two cases with one name the later counts. -/
def File.ofJson (j : Json) : Decoded File :=
  (j.asEntries .ok Fixture.ofJson).map OrderedMap.ofList

/-- Reads a file of cases from JSON text. -/
def File.ofText (s : String) : Decoded File :=
  match Json.ofText? s with
  | some j => File.ofJson j
  | none => .error .notJson

end Fixture

end StackMachine
