import Forecast.Decimal.Style

/-!
# Documents

The values of a JSON document. Whole numbers and binary numbers are kept apart, because a
timestamp must be written without a point; the entries of an object keep their order and their
repetitions, so that whoever reads the object decides what a repeated name means.

A string whose escapes name no character, or a number too large for any binary number, has no
value. Such a place is `unusable`: a document may hold it where nobody looks, and every reader of
a value fails on it.
-/

namespace Forecast

/-- A JSON document. -/
inductive Json where
  | null
  | bool (value : Bool)
  | int (value : Int)
  | float (value : Float)
  | string (value : String)
  | unusable
  | array (items : List Json)
  | object (entries : List (String × Json))
  deriving Inhabited

namespace Json

/-- The value of the last entry with a name. -/
def lastNamed? (name : String) (entries : List (String × Json)) : Option Json :=
  entries.reverse.lookup name

/-- The value at the end of a path of names, each looked up in the object before it. -/
def atPath? : List String → Json → Option Json
  | [], j => some j
  | name :: path, .object entries => (lastNamed? name entries).bind (atPath? path)
  | _ :: _, _ => none

mutual

/-- Whether the document has a value throughout and nests at most `room` levels of arrays and
objects. -/
def isSound : Nat → Json → Bool
  | _, .unusable => false
  | 0, .array _ => false
  | 0, .object _ => false
  | room + 1, .array items => areSound room items
  | room + 1, .object entries => entriesSound room entries
  | _, .null => true
  | _, .bool _ => true
  | _, .int _ => true
  | _, .float _ => true
  | _, .string _ => true

/-- `isSound` for every item. -/
def areSound : Nat → List Json → Bool
  | _, [] => true
  | room, j :: js => isSound room j && areSound room js

/-- `isSound` for every entry. -/
def entriesSound : Nat → List (String × Json) → Bool
  | _, [] => true
  | room, (_, j) :: es => isSound room j && entriesSound room es

end

/-- The deepest nesting of arrays and objects that a reader follows. -/
def maxNesting : Nat := 127

end Json

end Forecast
