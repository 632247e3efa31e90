/-!
# Quantities

Prices, thresholds and error margins are numbers of one kind, compared with a small fixed
tolerance. Everything that conditions need of these numbers is gathered in the class `Quantity`, so
that a condition means the same over the binary numbers that candles carry and over exact
fractions.
-/

namespace Forecast

/-- Numbers that prices can be compared in. -/
class Quantity (α : Type) where
  add : α → α → α
  sub : α → α → α
  mul : α → α → α
  abs : α → α
  lt : α → α → Bool
  le : α → α → Bool
  /-- How far apart two numbers may be and still count as equal. -/
  tolerance : α

/-- The number type of candles and stored predictions. -/
abbrev Price : Type := Float

instance : Quantity Price where
  add x y := x + y
  sub x y := x - y
  mul x y := x * y
  abs x := x.abs
  lt x y := x < y
  le x y := x ≤ y
  tolerance := 1e-9

instance : Quantity Rat where
  add x y := x + y
  sub x y := x - y
  mul x y := x * y
  abs x := x.abs
  lt x y := x < y
  le x y := x ≤ y
  tolerance := 1 / 1000000000

end Forecast
