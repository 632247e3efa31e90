import Forecast.Json.Number
import Forecast.Json.Quoted

/-!
# Tokens of a document

A document is cut into tokens: punctuation, names and other strings, numbers, and the three words.
A token other than punctuation carries the value it stands for.
-/

namespace Forecast.Json

/-- A token of a document. -/
inductive Token where
  | openArray
  | closeArray
  | openObject
  | closeObject
  | colon
  | comma
  /-- A string, which may be a name or a value; absent if its escapes name no character. -/
  | text (value : Option String)
  /-- Any other value that has no parts. -/
  | leaf (value : Json)

/-- The blanks of a document. -/
def isGap (c : Char) : Bool :=
  c == ' ' || c == '\n' || c == '\t' || c == '\r'

/-- Reads the token at the front of a text that does not begin with a blank. -/
def scanToken : List Char → Option (Token × List Char)
  | '[' :: cs => some (.openArray, cs)
  | ']' :: cs => some (.closeArray, cs)
  | '\x7b' :: cs => some (.openObject, cs)
  | '\x7d' :: cs => some (.closeObject, cs)
  | ':' :: cs => some (.colon, cs)
  | ',' :: cs => some (.comma, cs)
  | 'n' :: 'u' :: 'l' :: 'l' :: cs => some (.leaf .null, cs)
  | 't' :: 'r' :: 'u' :: 'e' :: cs => some (.leaf (.bool true), cs)
  | 'f' :: 'a' :: 'l' :: 's' :: 'e' :: cs => some (.leaf (.bool false), cs)
  | '"' :: cs =>
    (scanQuoted Reading.start cs).map fun (text, rest) => (.text (text.map String.ofList), rest)
  | cs => (scanNumeral cs).map fun (n, rest) => (.leaf n.value, rest)

/-- Cuts a text into tokens; `fuel` bounds their number and its length always suffices, since a
token has at least one character. -/
def scanTokens : (fuel : Nat) → List Char → Option (List Token)
  | 0, cs => if cs.dropWhile isGap = [] then some [] else none
  | fuel + 1, cs =>
    match cs.dropWhile isGap with
    | [] => some []
    | c :: rest =>
      match scanToken (c :: rest) with
      | some (t, rest) => (scanTokens fuel rest).map (t :: ·)
      | none => none

/-- The tokens of a text. -/
def tokens? (cs : List Char) : Option (List Token) :=
  scanTokens cs.length cs

end Forecast.Json
