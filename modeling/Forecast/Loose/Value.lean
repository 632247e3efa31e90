import Forecast.Loose.Part

/-!
# Loose documents

A database takes more for a document than a strict reader does: comments, single quotes, names
without quotes, a comma after the last item, numbers of base 16, a missing digit beside a point, a
plus sign, and words for infinity. Such a document is kept with the spelling of its numbers and
texts.
-/

namespace Forecast

/-- A number of base ten as it is spelled. -/
structure Loose.Numeral where
  negative : Bool
  whole : List Char
  fraction : Option (List Char)
  /-- The exponent with its letter; empty if there is none. -/
  exponent : List Char
  deriving Repr, DecidableEq

/-- A loose document. -/
inductive Loose where
  | null
  | bool (value : Bool)
  | number (n : Loose.Numeral)
  /-- A number of base 16. -/
  | hexadecimal (negative : Bool) (digits : List Char)
  | text (t : Loose.Text)
  | array (items : List Loose)
  | object (entries : List (Loose.Text × Loose))

namespace Loose

/-- Infinity, spelled as a number beyond all others. -/
def infinity (negative : Bool) : Loose :=
  .number ⟨negative, ['9'], none, "e999".toList⟩

/-- The value of the first entry with a name, if the document is an object that has one. -/
def named? (name : String) : Loose → Option Loose
  | .object entries => (entries.find? fun e => isName name e.1).map (·.2)
  | _ => none

end Loose

end Forecast
