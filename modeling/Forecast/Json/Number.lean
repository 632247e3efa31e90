import Forecast.Json.Value
import Forecast.Decimal.Reading

/-!
# Numbers in documents

A number without point and exponent is whole if it fits a 64-bit word (signed, or unsigned when it
is not negative); minus zero is not whole. Every other number is binary. It is found with at most
two roundings: the leading digits that fit an unsigned word are rounded to a binary number, which
is then multiplied or divided by a power of ten. The result is the nearest binary number for up to
15 digits with small exponents, and can be a neighbour of it beyond.
-/

namespace Forecast.Json

/-- A number as it is written: sign, digits of the whole part and of the fraction, and the
exponent if there is one. -/
structure Numeral where
  negative : Bool
  whole : List Char
  fraction : Option (List Char)
  exponent : Option Int
  deriving Repr, DecidableEq

/-- The largest unsigned 64-bit word. -/
def maxUnsigned : Nat := 18446744073709551615

/-- Appends digits to a significand until the next one would not fit an unsigned word. Yields the
significand and the digits left over. -/
def absorb : Nat → List Char → Nat × List Char
  | significand, [] => (significand, [])
  | significand, d :: ds =>
    let next := significand * 10 + (d.toNat - '0'.toNat)
    if maxUnsigned < next then (significand, d :: ds) else absorb next ds

/-- The largest power of ten below the limit of the binary numbers. -/
def topPower : Int := 308

/-- A power of ten as a binary number, for exponents up to `topPower`. -/
def powerOfTen (n : Nat) : Float :=
  Float.ofScientific 1 false n

/-- Multiplies or divides by a power of ten. A number is out of range if it grows too large; a
number that shrinks below all others becomes zero after at most `attempts` large divisions. -/
def shiftDecimal : (attempts : Nat) → Float → Int → Option Float
  | attempts, x, e =>
    if e.natAbs ≤ topPower.toNat then
      if 0 ≤ e then
        let y := x * powerOfTen e.toNat
        if y.isInf then none else some y
      else some (x / powerOfTen e.natAbs)
    else if x == 0 then some x
    else if 0 ≤ e then none
    else
      match attempts with
      | 0 => some 0
      | attempts + 1 => shiftDecimal attempts (x / powerOfTen topPower.toNat) (e + topPower)

/-- The largest exponent that is read as a number of its own. -/
def maxExponent : Int := 2147483647

/-- The binary number of a significand and an exponent, without the sign. -/
def magnitude (significand : Nat) (before : Int) (exponent : Int) : Option Float :=
  if maxExponent < exponent then (if significand = 0 then some 0 else none)
  else if exponent < -maxExponent then some 0
  else shiftDecimal 3 (Float.ofNat significand) (before + exponent)

/-- The binary number of a numeral. -/
def Numeral.binary (n : Numeral) : Option Float :=
  let (significand, skipped) := absorb 0 n.whole
  let fraction := n.fraction.getD []
  let (significand, dropped) := absorb significand fraction
  let before : Int := (skipped.length : Int) - ((fraction.length : Int) - dropped.length)
  (magnitude significand before (n.exponent.getD 0)).map fun x => if n.negative then -x else x

/-- The whole number of a numeral, if it is one. -/
def Numeral.whole? (n : Numeral) : Option Int :=
  if n.fraction.isSome ∨ n.exponent.isSome then none
  else
    let value := Decimal.digitsValue n.whole
    if n.negative then
      if 0 < value ∧ value ≤ 9223372036854775808 then some (-(value : Int)) else none
    else if value ≤ maxUnsigned then some value
    else none

/-- The value of a numeral: whole, binary, or out of range. -/
def Numeral.value (n : Numeral) : Json :=
  match n.whole? with
  | some i => .int i
  | none =>
    match n.binary with
    | some x => .float x
    | none => .unusable

/-- Reads the digits of a whole part: a single zero, or digits that do not begin with zero. -/
def scanWhole : List Char → Option (List Char × List Char)
  | '0' :: cs => some (['0'], cs)
  | cs =>
    let ds := cs.takeWhile Char.isDigit
    if ds = [] then none else some (ds, cs.drop ds.length)

/-- Reads at least one digit. -/
def scanDigits (cs : List Char) : Option (List Char × List Char) :=
  let ds := cs.takeWhile Char.isDigit
  if ds = [] then none else some (ds, cs.drop ds.length)

/-- Reads the fraction if a point announces one. -/
def scanFraction : List Char → Option (Option (List Char) × List Char)
  | '.' :: cs => (scanDigits cs).map fun (ds, rest) => (some ds, rest)
  | cs => some (none, cs)

/-- Reads the digits of an exponent after its sign. -/
def scanExponentDigits (sign : Int) (cs : List Char) : Option (Option Int × List Char) :=
  (scanDigits cs).map fun (ds, rest) => (some (sign * Decimal.digitsValue ds), rest)

/-- Reads what follows the letter of an exponent. -/
def scanSignedExponent : List Char → Option (Option Int × List Char)
  | '+' :: cs => scanExponentDigits 1 cs
  | '-' :: cs => scanExponentDigits (-1) cs
  | cs => scanExponentDigits 1 cs

/-- Reads the exponent if its letter announces one. -/
def scanExponent : List Char → Option (Option Int × List Char)
  | 'e' :: cs => scanSignedExponent cs
  | 'E' :: cs => scanSignedExponent cs
  | cs => some (none, cs)

/-- Reads a numeral without its sign. -/
def scanUnsigned (negative : Bool) (cs : List Char) : Option (Numeral × List Char) := do
  let (whole, cs) ← scanWhole cs
  let (fraction, cs) ← scanFraction cs
  let (exponent, cs) ← scanExponent cs
  return (⟨negative, whole, fraction, exponent⟩, cs)

/-- Reads a numeral. -/
def scanNumeral : List Char → Option (Numeral × List Char)
  | '-' :: cs => scanUnsigned true cs
  | cs => scanUnsigned false cs

end Forecast.Json
