/-!
# Spans of code points

Character properties and case mappings above ASCII are data of the Unicode standard. They are kept
as spans: runs of consecutive code points for a property, and runs with a common distance for a
mapping. This module holds the two kinds of run and the look-ups on them.
-/

namespace Forecast.Text

/-- A run of code points, both ends included. -/
structure Span where
  first : Nat
  last : Nat
  deriving Repr, DecidableEq

/-- Whether a code point lies in the run. -/
def Span.contains (s : Span) (n : Nat) : Bool :=
  s.first ≤ n && n ≤ s.last

/-- Whether a character lies in one of the runs. -/
def inSpans (spans : List Span) (c : Char) : Bool :=
  spans.any (·.contains c.toNat)

/-- A run of every `step`-th code point from `first` to `last`, each of which maps to the code
point `delta` further on. -/
structure Shift where
  first : Nat
  last : Nat
  step : Nat
  delta : Int
  deriving Repr, DecidableEq

/-- Whether a code point lies in the run. -/
def Shift.contains (s : Shift) (n : Nat) : Bool :=
  s.first ≤ n && n ≤ s.last && (n - s.first) % s.step == 0

/-- The image of a character: its expansion if it has one, the shifted character if a run contains
it, and otherwise the character itself. -/
def shifted (shifts : List Shift) (expansions : List (Nat × List Nat)) (c : Char) : List Char :=
  match expansions.lookup c.toNat with
  | some points => points.map Char.ofNat
  | none =>
    match shifts.find? (·.contains c.toNat) with
    | some s => [Char.ofNat (Int.toNat (c.toNat + s.delta))]
    | none => [c]

end Forecast.Text
