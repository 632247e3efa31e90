import Forecast.Calendar.Instant
import Forecast.Condition
import Forecast.Phase

/-!
# Predictions

A prediction owns the conditions that its clauses mention, its two phases, and a state derived
from the conditions. The conditions are fed ticks one by one; evaluation then derives the state
anew. The second phase is consulted once the first is passed.

The conditions that are worth feeding are the undecided ones of the phase that is active.
-/

namespace Forecast

/-- The recognised shapes of predictions. They drive how a prediction is summarised and nothing
else. -/
inductive Shape where
  | unsupported
  /-- A coin against a number by a deadline. -/
  | deadline
  /-- A coin within a range by a deadline. -/
  | range
  /-- One level is reached before another, or else the prediction is wrong. -/
  | raceOrWrong
  /-- One level is reached before another, or else the prediction is annulled. -/
  | raceOrAnnulled
  deriving Repr, DecidableEq, Inhabited

/-- The state derived from the conditions. -/
structure PredictionState where
  status : Status
  lastTs : Int
  outcome : Outcome
  deriving Repr, BEq, DecidableEq

/-- The state before the first evaluation. -/
def PredictionState.initial : PredictionState := ⟨.unstarted, 0, .waiting⟩

/-- A prediction with its conditions. -/
structure Prediction where
  id : String
  createdAt : Calendar.Instant
  postedAt : Calendar.Instant
  reporter : String
  postAuthor : String
  postUrl : String
  postText : String
  /-- The conditions; the leaves of clauses are positions in this list. -/
  given : List (Condition Price)
  pre : PrePhase
  main : MainPhase
  state : PredictionState
  shape : Shape
  deriving BEq

namespace Prediction

/-- The value of the condition at a position. -/
def valueAt (p : Prediction) (i : Nat) : Option Trilean :=
  p.given[i]?.map Condition.value

/-- The name of the condition at a position. -/
def nameAt (p : Prediction) (i : Nat) : Option String :=
  p.given[i]?.map (·.name)

/-- The position of the first condition with a name, letters of ASCII compared without case. -/
def positionOf? (p : Prediction) (name : String) : Option Nat :=
  p.given.findIdx? fun c => Text.sameLetters c.name name

/-- A clause in words, with the names of the conditions. -/
def render (p : Prediction) (c : Clause) : String :=
  c.render p.nameAt

/-- The outcome that follows from the conditions as they are. -/
def outcome (p : Prediction) : Outcome :=
  match p.pre.evaluate p.valueAt with
  | .running => p.main.evaluate p.valueAt
  | o => o

/-- The latest time that any condition has seen, 0 without conditions. -/
def latest (p : Prediction) : Int :=
  match (p.given.map (·.state.lastTs)).max? with
  | some ts => ts
  | none => 0

/-- Derives the state from the conditions. Its time never goes back. -/
def evaluated (p : Prediction) : Prediction :=
  { p with
    state :=
      { status := if p.outcome.isFinal then .finished else .started
        lastTs := max p.state.lastTs p.latest
        outcome := p.outcome } }

/-- Whether the stored state is final. -/
def isFinal (p : Prediction) : Bool :=
  p.state.outcome.isFinal

/-- The positions of the conditions that the active phase still needs, each once, in the order in
which its clauses mention them. None are left once the outcome is final. -/
def actionable (p : Prediction) : List Nat :=
  match p.outcome with
  | .waiting => (p.pre.undecided p.valueAt).eraseDups
  | .running => (p.main.undecided p.valueAt).eraseDups
  | _ => []

/-- Puts another condition at a position. -/
def setCondition (p : Prediction) (i : Nat) (c : Condition Price) : Prediction :=
  { p with given := p.given.set i c }

/-- Clears the conditions that the first phase mentions. -/
def clearedPre (p : Prediction) : Prediction :=
  { p with given := clearMentioned Condition.cleared p.pre.clauses p.given }

/-- Clears the conditions that the second phase mentions. -/
def clearedMain (p : Prediction) : Prediction :=
  { p with given := clearMentioned Condition.cleared p.main.clauses p.given }

/-- Forgets everything seen so far. -/
def cleared (p : Prediction) : Prediction :=
  { p with given := p.given.map Condition.cleared, state := .initial }

end Prediction

end Forecast
