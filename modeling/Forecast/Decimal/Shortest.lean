import Forecast.Decimal.Integer

/-!
# The shortest decimal that reads back

A finite positive binary number `m * 2 ^ q` stands for every real number that rounds to it: an
interval whose ends lie half way to its two neighbours. The decimal written for it has the fewest
digits of all decimals in that interval, and of those it is the one nearest to the number.

For 1, 2, … 17 digits the number's two neighbours on the grid of decimals with that many digits
are tested in exact arithmetic. The first grid with a neighbour inside the interval wins; of two
neighbours inside, the nearer. If a grid has any point in the interval then one of the two
neighbours of the number is in it, so nothing shorter is missed; and 17 digits always suffice.
-/

namespace Forecast.Decimal

/-- A decimal number `digits * 10 ^ exponent`. -/
structure Scaled where
  digits : Nat
  exponent : Int
  deriving Repr, DecidableEq

/-- A positive binary number `mantissa * 2 ^ exponent`, with a note whether the number below it is
only half as far away as the number above (it is a power of two above the least normal one). -/
structure Binary where
  mantissa : Nat
  exponent : Int
  narrowBelow : Bool
  deriving Repr, DecidableEq

/-- Which of two equally near decimals is written. -/
inductive Tie where
  /-- The larger one. -/
  | up
  /-- The one whose last digit is even. -/
  | even
  deriving Repr, DecidableEq

/-- The number, the lower end and the upper end of its interval, as multiples of a quarter of the
distance to the number above. -/
def Binary.quarters (b : Binary) : Nat × Nat × Nat :=
  (4 * b.mantissa, 4 * b.mantissa - (if b.narrowBelow then 1 else 2), 4 * b.mantissa + 2)

/-- The ends of the interval belong to it exactly if the mantissa is even, because a tie between
two binary numbers goes to the even mantissa. -/
def Binary.closed (b : Binary) : Bool :=
  b.mantissa % 2 == 0

/-- `10 ^ magnitude b ≤ b < 10 ^ (magnitude b + 1)`, read off the number of digits of the whole
part of the number shifted far enough to the left. -/
def Binary.magnitude (b : Binary) : Int :=
  let shift : Nat := 360
  let scaled := b.mantissa * tenTo shift * twoTo b.exponent.toNat / twoTo (-b.exponent).toNat
  ((natDigits scaled).length : Int) - 1 - shift

/-- The decimal in the interval on the grid with step `10 ^ step`, if there is one. Both sides are
brought to whole numbers: a grid point `d` is `d * unit` and the binary number `value * part`. -/
def Binary.onGrid (b : Binary) (tie : Tie) (step : Int) : Option Scaled :=
  let (value, low, high) := b.quarters
  let q := b.exponent - 2
  let part := twoTo q.toNat * tenTo (-step).toNat
  let unit := twoTo (-q).toNat * tenTo step.toNat
  let inside (d : Nat) : Bool :=
    if b.closed then low * part ≤ d * unit && d * unit ≤ high * part
    else low * part < d * unit && d * unit < high * part
  let below := value * part / unit
  let above := below + 1
  match inside below, inside above with
  | true, false => some ⟨below, step⟩
  | false, true => some ⟨above, step⟩
  | false, false => none
  | true, true =>
    let toBelow := value * part - below * unit
    let toAbove := above * unit - value * part
    let pickAbove : Bool :=
      if toAbove = toBelow then
        match tie with
        | .up => true
        | .even => below % 2 == 1
      else toAbove < toBelow
    some ⟨if pickAbove then above else below, step⟩

/-- Tries grids of `count`, `count + 1`, … digits, at most `attempts` of them. -/
def Binary.search (b : Binary) (tie : Tie) (top : Int) : (attempts count : Nat) → Scaled
  | 0, count => ⟨b.mantissa, top - count⟩
  | attempts + 1, count =>
    match b.onGrid tie (top + 1 - count) with
    | some s => s
    | none => b.search tie top attempts (count + 1)

/-- Removes zeros at the end of the digits; `fuel` bounds how many. -/
def Scaled.stripZeros : (fuel : Nat) → Scaled → Scaled
  | 0, s => s
  | fuel + 1, s =>
    if s.digits ≠ 0 ∧ s.digits % 10 = 0 then
      stripZeros fuel ⟨s.digits / 10, s.exponent + 1⟩
    else s

/-- The shortest decimal that reads back as the number, without zeros at its end. -/
def Binary.shortest (b : Binary) (tie : Tie) : Scaled :=
  (b.search tie b.magnitude 17 1).stripZeros 18

/-- The magnitude of a finite number other than zero as a binary number. -/
def Binary.ofFloat (x : Float) : Binary :=
  let bits := x.toBits.toNat
  let fraction : Nat := bits % twoTo 52
  let field : Nat := bits / twoTo 52 % twoTo 11
  if field = 0 then ⟨fraction, -1074, false⟩
  else ⟨twoTo 52 + fraction, (field : Int) - 1075, fraction == 0 && 1 < field⟩

/-- Whether the sign bit is set; negative zero has it. -/
def isNegative (x : Float) : Bool :=
  x.toBits.toNat / twoTo 63 == 1

end Forecast.Decimal
