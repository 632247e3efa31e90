import Forecast.Decimal.Integer

/-!
# Reading numbers

The number an author writes (in an operand, in a candle file) is the binary number nearest to the
decimal: digits with an optional point among or around them, an optional exponent, an optional
sign; or one of the words for infinity and for "not a number". Nothing may surround it.

`scale` finds the nearest binary number to `digits * 10 ^ exponent`. Exponents far outside of the
range of the binary numbers are answered at once, so the work is bounded by the length of the
text and not by the exponent written in it.
-/

namespace Forecast.Decimal

/-- Not a number. -/
def nan : Float := 0 / 0

/-- Positive infinity. -/
def infinity : Float := 1 / 0

/-- The binary number nearest to `digits * 10 ^ exponent`, infinity when it is too large. -/
def scale (digits : Nat) (exponent : Int) : Float :=
  if digits = 0 then 0
  else
    let leading := exponent + (natDigits digits).length
    if 320 < leading then infinity
    else if leading < -340 then 0
    else Float.ofScientific digits (exponent < 0) exponent.natAbs

/-- The parts of a number without its sign: the digits before and after the point, and the
exponent. -/
structure Unsigned where
  whole : List Char
  fraction : List Char
  exponent : Int

/-- Reads the exponent after its letter: an optional sign and at least one digit, up to the end. -/
def readExponent (cs : List Char) : Option Int :=
  readInt cs

/-- Splits a number without its sign into its parts; at least one digit must stand before or after
the point. -/
def readUnsigned (cs : List Char) : Option Unsigned :=
  let whole := cs.takeWhile Char.isDigit
  let afterWhole := cs.dropWhile Char.isDigit
  let (fraction, rest) :=
    match afterWhole with
    | '.' :: ds => (ds.takeWhile Char.isDigit, ds.dropWhile Char.isDigit)
    | ds => ([], ds)
  if whole = [] ∧ fraction = [] then none
  else
    match rest with
    | [] => some ⟨whole, fraction, 0⟩
    | 'e' :: ds => (readExponent ds).map (⟨whole, fraction, ·⟩)
    | 'E' :: ds => (readExponent ds).map (⟨whole, fraction, ·⟩)
    | _ => none

/-- The binary number nearest to the parts of a number. -/
def Unsigned.value (u : Unsigned) : Float :=
  scale (digitsValue (u.whole ++ u.fraction)) (u.exponent - u.fraction.length)

/-- Reads a number without a sign, words included; the words may be in any case. -/
def readMagnitude (cs : List Char) : Option Float :=
  let word := cs.map Char.toLower
  if word = "inf".toList ∨ word = "infinity".toList then some infinity
  else if word = "nan".toList then some nan
  else (readUnsigned cs).map Unsigned.value

/-- Reads a number with an optional sign. -/
def readFloat : List Char → Option Float
  | '+' :: cs => readMagnitude cs
  | '-' :: cs => (readMagnitude cs).map (- ·)
  | cs => readMagnitude cs

end Forecast.Decimal
