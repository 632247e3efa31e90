import Forecast.Json.Quoted

/-!
# Writing documents

Two layouts: `print` without any blanks, for storage, and `pretty` with an entry a line, for
people. Numbers are written in the stored style; a number that is not finite has no written form
and becomes `null`.
-/

namespace Forecast.Json

/-- The written form of a binary number. -/
def printFloat (x : Float) : List Char :=
  if x.isFinite then Decimal.stored.write x else "null".toList

/-- The written form of a whole number. -/
def printInt (i : Int) : List Char :=
  (toString i).toList

/-- The written form of a value without parts; an unusable value is written `null`. -/
def printLeaf : Json → List Char
  | .bool true => "true".toList
  | .bool false => "false".toList
  | .int i => printInt i
  | .float x => printFloat x
  | .string s => quote s.toList
  | _ => "null".toList

mutual

/-- Writes a document without blanks. -/
def print : Json → List Char
  | .array items => '[' :: printItems items
  | .object entries => '\x7b' :: printEntries entries
  | j => printLeaf j

/-- Writes the items of an array and its closing bracket. -/
def printItems : List Json → List Char
  | [] => [']']
  | [j] => print j ++ [']']
  | j :: js => print j ++ ',' :: printItems js

/-- Writes the entries of an object and its closing brace. -/
def printEntries : List (String × Json) → List Char
  | [] => ['\x7d']
  | [(name, j)] => quote name.toList ++ ':' :: (print j ++ ['\x7d'])
  | (name, j) :: es => quote name.toList ++ ':' :: (print j ++ ',' :: printEntries es)

end

/-- A new line, indented by two spaces a level. -/
def newLine (level : Nat) : List Char :=
  '\n' :: List.replicate (2 * level) ' '

mutual

/-- Writes a document with every item and entry on a line of its own. -/
def prettyAt (level : Nat) : Json → List Char
  | .array [] => ['[', ']']
  | .object [] => ['\x7b', '\x7d']
  | .array (j :: js) =>
    '[' :: newLine (level + 1) ++ prettyAt (level + 1) j ++ prettyItems level js
  | .object ((name, j) :: es) =>
    '\x7b' :: newLine (level + 1) ++ quote name.toList ++ ':' :: ' ' :: prettyAt (level + 1) j ++
      prettyEntries level es
  | j => printLeaf j

/-- Writes the items after the first and the closing bracket. -/
def prettyItems (level : Nat) : List Json → List Char
  | [] => newLine level ++ [']']
  | j :: js => ',' :: newLine (level + 1) ++ prettyAt (level + 1) j ++ prettyItems level js

/-- Writes the entries after the first and the closing brace. -/
def prettyEntries (level : Nat) : List (String × Json) → List Char
  | [] => newLine level ++ ['\x7d']
  | (name, j) :: es =>
    ',' :: newLine (level + 1) ++ quote name.toList ++ ':' :: ' ' :: prettyAt (level + 1) j ++
      prettyEntries level es

end

/-- Writes a document for storage. -/
def compress (j : Json) : String :=
  String.ofList (print j)

/-- Writes a document for people. -/
def pretty (j : Json) : String :=
  String.ofList (prettyAt 0 j)

end Forecast.Json
