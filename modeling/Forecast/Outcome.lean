import Forecast.Text.Words

/-!
# Outcomes

Where a prediction stands. It waits for its preconditions, then it runs, and in the end it is
correct, incorrect or annulled. The last three are final.
-/

namespace Forecast

/-- Where a prediction stands. -/
inductive Outcome where
  /-- The preconditions are not settled yet. -/
  | waiting
  /-- The preconditions are met and the prediction itself is not settled yet. -/
  | running
  | correct
  | incorrect
  | annulled
  deriving Repr, DecidableEq, Inhabited

namespace Outcome

/-- Every outcome. -/
def all : List Outcome := [.waiting, .running, .correct, .incorrect, .annulled]

/-- The outcomes that are not final. -/
def ongoing : List Outcome := [.waiting, .running]

/-- Whether nothing can change the outcome any more. -/
def isFinal (o : Outcome) : Bool :=
  !ongoing.contains o

/-- The word for an outcome in documents and messages. -/
def word : Outcome → String
  | .waiting => "ONGOING_PRE_PREDICTION"
  | .running => "ONGOING_PREDICTION"
  | .correct => "CORRECT"
  | .incorrect => "INCORRECT"
  | .annulled => "ANNULLED"

/-- The outcome that a word stands for. -/
def ofWord? (s : String) : Option Outcome :=
  all.find? (·.word == s)

/-- A text that names no outcome. -/
structure UnknownState where
  text : String

/-- The wording of the error. -/
def UnknownState.message (e : UnknownState) : String :=
  "unknown prediction state '" ++ e.text ++ "'"

/-- Reads the word for an outcome in any case, blanks around it aside. -/
def parse (s : String) : Except UnknownState Outcome :=
  match ofWord? (Text.upper (Text.trim s)) with
  | some o => .ok o
  | none => .error ⟨s⟩

@[simp] theorem ofWord?_word (o : Outcome) : ofWord? o.word = some o := by
  cases o <;> rfl

end Outcome

end Forecast
