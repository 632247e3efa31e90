import Forecast.Prediction

/-!
# Shapes of predictions

Some predictions have a shape that can be told in one sentence: a coin against a number by a
deadline, a coin within a range, or a race between two levels. The shape is inferred once, when a
prediction is compiled; a summary is then written from the conditions that the shape is about.
-/

namespace Forecast

namespace Shape

/-- Every shape. -/
def all : List Shape := [.unsupported, .deadline, .range, .raceOrWrong, .raceOrAnnulled]

/-- The word for a shape in documents. -/
def word : Shape → String
  | .unsupported => "UNSUPPORTED"
  | .deadline => "COIN_OPERATOR_FLOAT_DEADLINE"
  | .range => "COIN_WILL_RANGE"
  | .raceOrWrong => "COIN_WILL_REACH_BEFORE_IT_REACHES"
  | .raceOrAnnulled => "COIN_WILL_REACH_INVALIDATED_IF_IT_REACHES"

/-- The name of a shape shown to people. -/
def title : Shape → String
  | .unsupported => "Unsupported"
  | .deadline => "CoinOperatorFloatDeadline"
  | .range => "CoinWillRange"
  | .raceOrWrong => "CoinWillReachBeforeItReaches"
  | .raceOrAnnulled => "CoinWillReachInvalidatedIfItReaches"

/-- The shape that a word stands for. -/
def ofWord? (s : String) : Option Shape :=
  all.find? (·.word == s)

@[simp] theorem ofWord?_word (s : Shape) : ofWord? s.word = some s := by
  cases s <;> rfl

end Shape

/-- Whether an operand is the price of a coin. -/
def Operand.isCoin {α : Type} : Operand α → Bool
  | .market (.coin _ _ _) => true
  | _ => false

/-- Whether a condition compares a coin with numbers only. -/
def Condition.isCoinAgainstNumbers {α : Type} (c : Condition α) : Bool :=
  match c.operands with
  | [] => false
  | o :: os => o.isCoin && os.all Operand.isNumber

namespace Prediction

/-- The condition behind a clause that is a single condition comparing a coin with numbers. -/
def coinCondition? (p : Prediction) : Option Clause → Option (Condition Price)
  | some (.literal i) => p.given[i]?.filter Condition.isCoinAgainstNumbers
  | _ => none

/-- Whether two conditions are levels of the same coin, neither of them a range. -/
def areRivals (main other : Condition Price) : Bool :=
  main.comparison ≠ .between && other.comparison ≠ .between &&
    main.operands.head? == other.operands.head?

/-- The shape of a prediction. -/
def inferShape (p : Prediction) : Shape :=
  if !p.pre.isEmpty then .unsupported
  else
    match p.coinCondition? (some p.main.predict) with
    | none => .unsupported
    | some main =>
      match p.main.wrongIf, p.main.annulledIf with
      | none, none => if main.comparison = .between then .range else .deadline
      | some wrong, none =>
        if (p.coinCondition? (some wrong)).any (areRivals main) then .raceOrWrong
        else .unsupported
      | none, some annulled =>
        if (p.coinCondition? (some annulled)).any (areRivals main) then .raceOrAnnulled
        else .unsupported
      | some _, some _ => .unsupported

/-- An operand that a sentence is to be written from and that a condition does not have. -/
structure MissingOperand where
  /-- The name of the condition. -/
  condition : String
  position : Nat
  deriving Repr, DecidableEq

/-- The operand of a condition at a position, in words; it must be there. -/
def operandText (c : Condition Price) (i : Nat) : Except MissingOperand String :=
  match c.operands[i]? with
  | some o => .ok o.text
  | none => .error ⟨c.name, i⟩

/-- The sentence for the shape of a prediction, written from the conditions and operands that the
shape is about. There is none for a prediction of no shape, or if one of the conditions is not
there; an operand that is not there is a fault. -/
def sentence (p : Prediction) : Except MissingOperand (Option String) :=
  match p.shape, p.coinCondition? (some p.main.predict),
      p.coinCondition? (p.main.wrongIf <|> p.main.annulledIf) with
  | .deadline, some main, _ => do
    let coin ← operandText main 0
    let level ← operandText main 1
    return some (coin ++ " " ++ main.comparison.symbol ++ " " ++ level ++ " by " ++
      Calendar.minuteText main.toTs)
  | .range, some main, _ => do
    let coin ← operandText main 0
    let low ← operandText main 1
    let high ← operandText main 2
    return some (coin ++ " will be between " ++ low ++ " and " ++ high ++ " by " ++
      Calendar.minuteText main.toTs)
  | .raceOrWrong, some main, some rival => do
    let coin ← operandText main 0
    let level ← operandText main 1
    let other ← operandText rival 1
    return some (coin ++ " will reach " ++ level ++ " before it reaches " ++ other ++ ", by " ++
      Calendar.minuteText main.toTs)
  | .raceOrAnnulled, some main, some rival => do
    let coin ← operandText main 0
    let level ← operandText main 1
    let other ← operandText rival 1
    return some (coin ++ " will reach " ++ level ++ " by " ++ Calendar.minuteText main.toTs ++
      ", annulled if it reaches " ++ other ++ " first")
  | _, _, _ => return none

/-- The prediction in one line: its sentence, or else its main clause. -/
def summary (p : Prediction) : String :=
  match p.sentence with
  | .ok (some s) => s
  | _ => "predict: " ++ p.render p.main.predict

end Prediction

end Forecast
