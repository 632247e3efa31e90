import Forecast.Json.Value
import Forecast.Keyed

/-!
# Records in documents

How values of fixed form are found in a document. A record may be written as an object, where
unknown names are passed over and a known name must not be repeated, or as an array of its fields
in order. A field that is missing may have a default; in an object, a field that may be `null` may
also be missing.

All readers answer with nothing where the document does not have the form.
-/

namespace Forecast.Json

/-- The largest unsigned 64-bit word, a bound for positions. -/
def maxIndex : Int := 18446744073709551615

/-- A text. -/
def asText : Json → Option String
  | .string s => some s
  | _ => none

/-- A Boolean. -/
def asBool : Json → Option Bool
  | .bool b => some b
  | _ => none

/-- A whole number that fits a signed 64-bit word. -/
def asWord : Json → Option Int
  | .int i => if Decimal.fitsWord i then some i else none
  | _ => none

/-- A whole number that fits an unsigned 64-bit word. -/
def asIndex : Json → Option Nat
  | .int i => if 0 ≤ i ∧ i ≤ maxIndex then some i.toNat else none
  | _ => none

/-- A number, which may be written as a whole number. -/
def asFloat : Json → Option Float
  | .int i => some (Float.ofInt i)
  | .float x => some x
  | _ => none

/-- One of a set of words: as a text, or as an object whose only name is the word and whose value
is `null`. -/
def asWordOf {α : Type} (ofWord? : String → Option α) : Json → Option α
  | .string s => ofWord? s
  | .object [(name, .null)] => ofWord? name
  | _ => none

/-- An array of values of one form. -/
def asList {α : Type} (item : Json → Option α) : Json → Option (List α)
  | .array js => js.mapM item
  | _ => none

/-- A map from names to values of one form; of two with one name the later counts. -/
def asKeyed {α : Type} (item : Json → Option α) : Json → Option (Keyed α)
  | .object es => (es.mapM fun e => (item e.2).map fun v => (e.1, v)).map Keyed.ofList
  | _ => none

/-- The fields that were found of a record. -/
structure Fields where
  /-- Whether the fields came with their names. -/
  named : Bool
  found : List (String × Json)

/-- Finds the fields of a record with the given names. -/
def asRecord (names : List String) : Json → Option Fields
  | .object es =>
    let known := es.filter fun e => names.contains e.1
    if (known.map (·.1)).Nodup then some ⟨true, known⟩ else none
  | .array js =>
    if js.length ≤ names.length then some ⟨false, names.zip js⟩ else none
  | _ => none

namespace Fields

variable {α : Type}

/-- A field that must be there. -/
def required (f : Fields) (name : String) (read : Json → Option α) : Option α :=
  (f.found.lookup name).bind read

/-- A field with a default for when it is missing. -/
def withDefault (f : Fields) (name : String) (default : α) (read : Json → Option α) : Option α :=
  match f.found.lookup name with
  | none => some default
  | some j => read j

/-- Reads a value that may be `null`. -/
def nullable (read : Json → Option α) : Json → Option (Option α)
  | .null => some none
  | j => (read j).map some

/-- A field that may be `null`, and missing in either form of the record. -/
def optional (f : Fields) (name : String) (read : Json → Option α) : Option (Option α) :=
  f.withDefault name none (nullable read)

/-- A field that may be `null`, and missing where the fields have names. -/
def nullableField (f : Fields) (name : String) (read : Json → Option α) : Option (Option α) :=
  match f.found.lookup name with
  | none => if f.named then some none else none
  | some j => nullable read j

end Fields

end Forecast.Json
