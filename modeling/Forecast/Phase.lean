import Forecast.Clause
import Forecast.Outcome

/-!
# Phases

A prediction has two phases. The first decides whether the prediction takes place at all, the
second whether it comes true. Each combines up to three clauses into an outcome: a clause that
annuls it is looked at first and overrides everything when it holds, then a clause that makes it
wrong, then the main clause. A side clause that is missing counts as failing, and a missing main
clause of the first phase as holding.

An open side clause keeps the phase open, even if the main clause is settled, unless the policy
says to ignore open side clauses from then on.
-/

namespace Forecast

/-- The two choices that an author can make in each phase. -/
structure Policy where
  /-- Whether open side clauses count as failing once the main clause is settled. -/
  ignoreUndecided : Bool
  /-- Whether a main clause that fails annuls the prediction instead of making it wrong. -/
  annulIfNo : Bool
  deriving Repr, DecidableEq, Inhabited

namespace Policy

/-- Neither choice made. -/
def default : Policy := ⟨false, false⟩

/-- A side clause's value after the policy on open side clauses has been applied. -/
def settle (policy : Policy) (main side : Trilean) : Trilean :=
  if policy.ignoreUndecided && main.isDecided then side.orNo else side

/-- What a main clause that fails leads to. -/
def onNo (policy : Policy) : Outcome :=
  if policy.annulIfNo then .annulled else .incorrect

/-- The outcome of the second phase while nothing annuls it or makes it wrong: a main clause that
holds still waits for the clause that could make it wrong. -/
def mainOutcome (policy : Policy) (wrong : Trilean) : Trilean → Outcome
  | .no => policy.onNo
  | .yes => if wrong = .no then .correct else .running
  | .undecided => .running

/-- The outcome of the second phase. A pending annulment keeps it open. -/
def resolveMain (policy : Policy) (main wrongIf annulledIf : Trilean) : Outcome :=
  let wrong := policy.settle main wrongIf
  let annulled := policy.settle main annulledIf
  if annulled = .yes then .annulled
  else if wrong = .yes then .incorrect
  else
    let outcome := policy.mainOutcome wrong main
    if annulled = .undecided ∧ outcome.isFinal then .running else outcome

/-- The outcome of the first phase; `running` means that the second phase may begin. -/
def resolvePre (policy : Policy) (main wrongIf annulledIf : Trilean) : Outcome :=
  let wrong := policy.settle main wrongIf
  let annulled := policy.settle main annulledIf
  if annulled = .yes then .annulled
  else if wrong = .yes then .incorrect
  else if main = .undecided ∨ wrong = .undecided ∨ annulled = .undecided then .waiting
  else if main = .no then policy.onNo
  else .running

end Policy

/-- The value of a side clause: a missing one fails. -/
def sideValue (valueAt : Nat → Option Trilean) : Option Clause → Trilean
  | some c => c.evaluate valueAt
  | none => .no

/-- The positions of undecided conditions in the clauses that are there, in their order. -/
def undecidedIn (valueAt : Nat → Option Trilean) (clauses : List (Option Clause)) : List Nat :=
  (clauses.filterMap id).flatMap (Clause.undecided valueAt)

/-- The first phase. -/
structure PrePhase where
  wrongIf : Option Clause
  annulledIf : Option Clause
  predictIf : Option Clause
  policy : Policy
  deriving BEq

namespace PrePhase

/-- A phase without clauses, which is passed at once. -/
def none : PrePhase := ⟨.none, .none, .none, .default⟩

/-- Whether the phase has no clauses. -/
def isEmpty (p : PrePhase) : Bool :=
  p.wrongIf.isNone && p.annulledIf.isNone && p.predictIf.isNone

/-- The clauses in the order in which they are consulted for open conditions. -/
def clauses (p : PrePhase) : List (Option Clause) :=
  [p.wrongIf, p.annulledIf, p.predictIf]

/-- The outcome of the phase. -/
def evaluate (p : PrePhase) (valueAt : Nat → Option Trilean) : Outcome :=
  p.policy.resolvePre (Clause.evaluateOptional valueAt p.predictIf)
    (sideValue valueAt p.wrongIf) (sideValue valueAt p.annulledIf)

/-- The positions of undecided conditions, repetitions included. -/
def undecided (p : PrePhase) (valueAt : Nat → Option Trilean) : List Nat :=
  undecidedIn valueAt p.clauses

end PrePhase

/-- The second phase. -/
structure MainPhase where
  wrongIf : Option Clause
  annulledIf : Option Clause
  predict : Clause
  policy : Policy
  deriving BEq

namespace MainPhase

/-- A phase with a main clause only. -/
def ofClause (predict : Clause) : MainPhase := ⟨none, none, predict, .default⟩

/-- The clauses in the order in which they are consulted for open conditions. -/
def clauses (p : MainPhase) : List (Option Clause) :=
  [p.wrongIf, p.annulledIf, some p.predict]

/-- The outcome of the phase. -/
def evaluate (p : MainPhase) (valueAt : Nat → Option Trilean) : Outcome :=
  p.policy.resolveMain (p.predict.evaluate valueAt)
    (sideValue valueAt p.wrongIf) (sideValue valueAt p.annulledIf)

/-- The positions of undecided conditions, repetitions included. -/
def undecided (p : MainPhase) (valueAt : Nat → Option Trilean) : List Nat :=
  undecidedIn valueAt p.clauses

end MainPhase

/-- Clears the conditions that some clauses mention. -/
def clearMentioned {α : Type} (clear : α → α) (clauses : List (Option Clause)) (xs : List α) :
    List α :=
  (clauses.filterMap id).foldl (fun ys c => c.modify clear ys) xs

end Forecast
