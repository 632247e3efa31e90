import Forecast.Text.Words
import Forecast.Quantity

/-!
# Comparisons

The six ways to compare a market value with one or two thresholds, and when each holds. An error
margin loosens a comparison by a fraction of the threshold, in the direction that makes it easier
to meet; comparisons that include the threshold also allow the fixed tolerance.
-/

namespace Forecast

/-- How a market value is compared. -/
inductive Comparison where
  | equal
  | above
  | below
  | atLeast
  | atMost
  | between
  deriving Repr, DecidableEq, Inhabited

namespace Comparison

/-- Every comparison. -/
def all : List Comparison := [.equal, .above, .below, .atLeast, .atMost, .between]

/-- The sign or word of a comparison. -/
def symbol : Comparison → String
  | .equal => "=="
  | .above => ">"
  | .below => "<"
  | .atLeast => ">="
  | .atMost => "<="
  | .between => "BETWEEN"

/-- The comparison of a sign or word. -/
def ofSymbol? (s : String) : Option Comparison :=
  all.find? (·.symbol == s)

/-- Reads a sign or word in any case. -/
def parse? (s : String) : Option Comparison :=
  ofSymbol? (Text.upper s)

/-- How many operands a comparison takes. -/
def arity : Comparison → Nat
  | .between => 3
  | _ => 2

/-! ### When a comparison holds -/

variable {α : Type} [Quantity α]

/-- A threshold lowered by a fraction of its size. -/
def lowered (threshold ratio : α) : α :=
  Quantity.sub threshold (Quantity.mul (Quantity.abs threshold) ratio)

/-- A threshold raised by a fraction of its size. -/
def raised (threshold ratio : α) : α :=
  Quantity.add threshold (Quantity.mul (Quantity.abs threshold) ratio)

/-- Whether a value reaches a threshold from below, error margin and tolerance allowed for. -/
def reaches (value threshold ratio : α) : Bool :=
  Quantity.le (Quantity.sub (lowered threshold ratio) Quantity.tolerance) value

/-- Whether a value stays within a threshold from above, error margin and tolerance allowed for. -/
def staysWithin (value threshold ratio : α) : Bool :=
  Quantity.le value (Quantity.add (raised threshold ratio) Quantity.tolerance)

/-- Whether a comparison with an error margin holds of the values of its operands, in the order in
which they are written. Too few values never satisfy it. -/
def holds : Comparison → α → List α → Bool
  | .above, ratio, v :: t :: _ => Quantity.lt (lowered t ratio) v
  | .atLeast, ratio, v :: t :: _ => reaches v t ratio
  | .below, ratio, v :: t :: _ => Quantity.lt v (raised t ratio)
  | .atMost, ratio, v :: t :: _ => staysWithin v t ratio
  | .equal, ratio, v :: t :: _ => reaches v t ratio && staysWithin v t ratio
  | .between, ratio, v :: s :: t :: _ =>
    let (low, high) := if Quantity.le s t then (s, t) else (t, s)
    reaches v low ratio && staysWithin v high ratio
  | _, _, _ => false

@[simp] theorem ofSymbol?_symbol (c : Comparison) : ofSymbol? c.symbol = some c := by
  cases c <;> rfl

end Comparison

end Forecast
