import Forecast.Decimal.Shortest

/-!
# How numbers are written

Three written forms of a number occur: the plain text that people read (in messages, keys and
summaries), the form in stored documents, and the form in a column of a database. The first two use
the shortest digits that read back. Otherwise the forms differ only in the choices recorded in a
`Style`.
-/

namespace Forecast.Decimal

/-- The choices of a written form of numbers. -/
structure Style where
  /-- Which of two equally near shortest decimals is written. -/
  tie : Tie
  /-- The decimal exponents (of the leading digit) that are written without an exponent; all of
  them if absent. -/
  positional : Option (Int × Int)
  /-- What follows a number without a fractional part. -/
  wholeSuffix : List Char
  /-- What follows the only digit in front of an exponent. -/
  digitSuffix : List Char
  /-- The least number of digits of an exponent. -/
  exponentWidth : Nat
  deriving Repr

/-- Plain text: never an exponent, and nothing after a whole number. -/
def plain : Style := ⟨.up, none, [], [], 1⟩

/-- Stored documents: an exponent outside of `10 ^ -5` to `10 ^ 15`, and a fraction where there is
none, so that a number is never mistaken for a whole one. -/
def stored : Style := ⟨.even, some (-5, 15), ['.', '0'], [], 1⟩

/-- Columns: an exponent of two digits or more outside of `10 ^ -4` to `10 ^ 14`, and always a
fraction. -/
def column : Style := ⟨.up, some (-4, 14), ['.', '0'], ['.', '0'], 2⟩

/-- Writes `digits * 10 ^ exponent` with all its zeros. -/
def writePositional (style : Style) (digits : List Char) (exponent : Int) : List Char :=
  if 0 ≤ exponent then
    digits ++ List.replicate exponent.toNat '0' ++ style.wholeSuffix
  else
    let places := (-exponent).toNat
    if places < digits.length then
      digits.take (digits.length - places) ++ '.' :: digits.drop (digits.length - places)
    else
      '0' :: '.' :: (List.replicate (places - digits.length) '0' ++ digits)

/-- Writes one digit, the other digits as its fraction, and the exponent with its sign. -/
def writeScientific (style : Style) (digits : List Char) (leading : Int) : List Char :=
  let fraction :=
    match digits with
    | [] => []
    | [d] => d :: style.digitSuffix
    | d :: ds => d :: '.' :: ds
  let sign := if leading < 0 then '-' else '+'
  fraction ++ 'e' :: sign :: padZeros style.exponentWidth leading.natAbs

/-- Writes a decimal number other than zero. -/
def Style.writeScaled (style : Style) (s : Scaled) : List Char :=
  let digits := natDigits s.digits
  let leading := s.exponent + digits.length - 1
  match style.positional with
  | none => writePositional style digits s.exponent
  | some (low, high) =>
    if low ≤ leading ∧ leading ≤ high then writePositional style digits s.exponent
    else writeScientific style digits leading

/-- The written form of a number. Zero keeps its sign. -/
def Style.write (style : Style) (x : Float) : List Char :=
  if x.isNaN then "NaN".toList
  else
    let sign := if isNegative x then ['-'] else []
    if x.isInf then sign ++ "inf".toList
    else if x == 0 then sign ++ '0' :: style.wholeSuffix
    else sign ++ style.writeScaled ((Binary.ofFloat x).shortest style.tie)

/-- The plain text of a number. -/
def text (x : Float) : String :=
  String.ofList (plain.write x)

end Forecast.Decimal
