import Forecast.Decimal.Reading
import Forecast.Decimal.Style

/-!
# Numbers in a column

A column of a database shows a number with at most 15 significant digits, so numbers that differ
further behind have one text. A decimal above the largest binary number is infinite, also where the
nearest binary number would be the largest.
-/

namespace Forecast.Decimal

/-- The decimal with a count of significant digits that is nearest to a number, without zeros at its
end; half way between two of them, the larger one. -/
def Binary.rounded (b : Binary) (count : Nat) : Scaled :=
  let step := b.magnitude + 1 - count
  let part := twoTo b.exponent.toNat * tenTo (-step).toNat
  let unit := twoTo (-b.exponent).toNat * tenTo step.toNat
  Scaled.stripZeros (count + 1) ⟨(2 * b.mantissa * part + unit) / (2 * unit), step⟩

/-- The number of significant digits in a column. -/
def columnDigits : Nat := 15

/-- The text of a number in a column. Zero has no sign. -/
def columnText (x : Float) : String :=
  let sign := if x < 0 then "-" else ""
  if x.isInf then sign ++ "Inf"
  else if x == 0 then "0.0"
  else sign ++ String.ofList (column.writeScaled ((Binary.ofFloat x).rounded columnDigits))

/-- The largest binary number, `(2 ^ 53 - 1) * 2 ^ 971`. -/
def largest : Nat :=
  (twoTo 53 - 1) * twoTo 971

/-- Whether a decimal is above the largest binary number. -/
def Unsigned.isAboveAll (u : Unsigned) : Bool :=
  let exponent := u.exponent - u.fraction.length
  largest * tenTo (-exponent).toNat < digitsValue (u.whole ++ u.fraction) * tenTo exponent.toNat

/-- The number in a column that a decimal stands for. The exact comparison is made only where it can
matter, so no large power is computed for a large exponent. -/
def Unsigned.columnValue (u : Unsigned) : Float :=
  let x := u.value
  if x == Float.ofNat largest && u.isAboveAll then infinity else x

end Forecast.Decimal
