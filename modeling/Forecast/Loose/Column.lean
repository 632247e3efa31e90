import Forecast.Decimal.Significant
import Forecast.Json.Number
import Forecast.Loose.Value

/-!
# Loose documents in a column

A value of a loose document is compared with the text in a column of a database. Whole numbers are
signed 64-bit words there, and decimals where they do not fit; an array or object is its strict
spelling without blanks; and null agrees with every text, because nothing follows from it.
-/

namespace Forecast.Loose

/-! ### Strict spelling -/

/-- The sign of a number. -/
def sign (negative : Bool) : List Char :=
  if negative then ['-'] else []

/-- The strict spelling of a number of base ten: a zero where a digit is missing beside the point. -/
def Numeral.strict (n : Numeral) : List Char :=
  let whole := if n.whole.isEmpty then ['0'] else n.whole
  let fraction :=
    match n.fraction with
    | none => []
    | some ds => '.' :: (if ds.isEmpty then ['0'] else ds)
  sign n.negative ++ whole ++ fraction ++ n.exponent

/-- The value of digits of base 16. -/
def hexNat (digits : List Char) : Nat :=
  digits.foldl (fun n d => 16 * n + (Json.hexValue d).getD 0) 0

/-- The strict spelling of a number of base 16; one that does not fit a 64-bit word is beyond all
others. -/
def strictHexadecimal (negative : Bool) (digits : List Char) : List Char :=
  let n := hexNat digits
  sign negative ++ (if n ≤ Json.maxUnsigned then Decimal.natDigits n else "9.0e999".toList)

mutual

/-- Spells a document strictly and without blanks. -/
def print : Loose → List Char
  | .null => "null".toList
  | .bool true => "true".toList
  | .bool false => "false".toList
  | .number n => n.strict
  | .hexadecimal negative digits => strictHexadecimal negative digits
  | .text t => strictText t
  | .array items => '[' :: printItems items
  | .object entries => '\x7b' :: printEntries entries

/-- Spells the items of an array and its closing bracket. -/
def printItems : List Loose → List Char
  | [] => [']']
  | [v] => print v ++ [']']
  | v :: vs => print v ++ ',' :: printItems vs

/-- Spells the entries of an object and its closing brace. -/
def printEntries : List (Text × Loose) → List Char
  | [] => ['\x7d']
  | [(name, v)] => strictText name ++ ':' :: (print v ++ ['\x7d'])
  | (name, v) :: es => strictText name ++ ':' :: (print v ++ ',' :: printEntries es)

end

/-! ### Columns -/

/-- The number in a column that a number of base ten stands for where it is no word. -/
def Numeral.columnValue (n : Numeral) : Float :=
  let exponent := (Decimal.readExponent n.exponent.tail).getD 0
  let x := (⟨n.whole, n.fraction.getD [], exponent⟩ : Decimal.Unsigned).columnValue
  if n.negative then -x else x

/-- The word that a number of base ten stands for, if it is one. -/
def Numeral.word? (n : Numeral) : Option Int :=
  if n.fraction.isSome || !n.exponent.isEmpty then none
  else
    let value : Int := Decimal.digitsValue n.whole
    some (if n.negative then -value else value) |>.filter Decimal.fitsWord

/-- The text of a number of base ten in a column. -/
def Numeral.columnText (n : Numeral) : String :=
  match n.word? with
  | some i => toString i
  | none => Decimal.columnText n.columnValue

/-- The text of a number of base 16 in a column: its last 64 bits are a signed word, and no more may
be set. -/
def hexColumnText? (negative : Bool) (digits : List Char) : Option String :=
  let n := hexNat digits
  if Json.maxUnsigned < n then none
  else
    let words := Json.maxUnsigned + 1
    let word := Int.bmod n words
    some (toString (if negative then Int.bmod (-word) words else word))

/-- Whether a value agrees with a text in a column. -/
def agrees (s : String) : Loose → Bool
  | .null => true
  | .bool b => (if b then "1" else "0") == s
  | .number n => n.columnText == s
  | .hexadecimal negative digits => hexColumnText? negative digits == some s
  | .text t => isText s t
  | v => String.ofList (print v) == s

end Forecast.Loose
