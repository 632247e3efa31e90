import Forecast.Calendar.Reading
import Forecast.Json.Reader
import Forecast.Json.Record
import Forecast.Stored.Writing

/-!
# Stored Predictions: Reading

A stored prediction is read back from its document. Any record may also be written as an array of
its fields in order. Names that no record knows are passed over, and what a prediction can do
without may be missing: the texts about the post, the first phase, the two choices of a phase, the
state of a prediction or of a condition, and the shape.

A document that nests more than `Json.maxNesting` levels of arrays and objects is refused. Only
clauses nest without a bound of their own, so the readers of tagged values are given the `room`
that is left at their place. The tag of an operand may stand after its fields, and the tag of a
clause after its arguments; what is read before the tag is known must be sound throughout.
-/

namespace Forecast

/-! ### Operands and ticks -/

/-- The levels that are left for an operand in a stored prediction. -/
def Operand.room : Nat := Json.maxNesting - 4

/-- Finds the tag of an operand, which must be there exactly once, and what belongs to it. -/
def Operand.untag? : Json → Option (String × Json)
  | .object es =>
    match es.filter (·.1 == "type") with
    | [(_, .string tag)] => some (tag, .object (es.filter (·.1 != "type")))
    | _ => none
  | .array (.string tag :: js) => some (tag, .array js)
  | _ => none

/-- Reads the fields of an operand with a given tag. -/
def Operand.ofFields? (tag : String) (j : Json) : Option (Operand Price) :=
  match tag with
  | "NUMBER" => do
    let f ← j.asRecord ["value"]
    let value ← f.required "value" Json.asFloat
    return .number value
  | "COIN" => do
    let f ← j.asRecord ["provider", "base_asset", "quote_asset"]
    let provider ← f.required "provider" Json.asText
    let base ← f.required "base_asset" Json.asText
    let quote ← f.required "quote_asset" Json.asText
    return .market (.coin provider base quote)
  | "MARKETCAP" => do
    let f ← j.asRecord ["provider", "base_asset"]
    let provider ← f.required "provider" Json.asText
    let base ← f.required "base_asset" Json.asText
    return .market (.marketcap provider base)
  | _ => none

/-- Reads an operand. -/
def Operand.ofJson? (j : Json) : Option (Operand Price) :=
  if j.isSound Operand.room then do
    let (tag, fields) ← Operand.untag? j
    Operand.ofFields? tag fields
  else none

/-- Reads a tick. -/
def Tick.ofJson? (j : Json) : Option (Tick Price) := do
  let f ← j.asRecord ["timestamp", "value"]
  let timestamp ← f.required "timestamp" Json.asWord
  let value ← f.required "value" Json.asFloat
  return { timestamp, value }

/-! ### Conditions -/

/-- Reads what a condition has seen. -/
def Progress.ofJson? (j : Json) : Option (Progress Price) := do
  let f ← j.asRecord ["status", "last_ts", "last_ticks", "value"]
  let status ← f.required "status" (Json.asWordOf Status.ofWord?)
  let lastTs ← f.required "last_ts" Json.asWord
  let lastTicks ← f.required "last_ticks" (Json.asKeyed Tick.ofJson?)
  let value ← f.required "value" (Json.asWordOf Trilean.ofWord?)
  return { status, lastTs, lastTicks, value }

/-- The names of the fields of a condition. -/
def Condition.fields : List String :=
  ["name", "operator", "operands", "from_ts", "to_ts", "error_margin_ratio", "state"]

/-- Reads a condition. -/
def Condition.ofJson? (j : Json) : Option (Condition Price) := do
  let f ← j.asRecord Condition.fields
  let name ← f.required "name" Json.asText
  let comparison ← f.required "operator" (Json.asWordOf Comparison.ofSymbol?)
  let operands ← f.required "operands" (Json.asList Operand.ofJson?)
  let fromTs ← f.required "from_ts" Json.asWord
  let toTs ← f.required "to_ts" Json.asWord
  let margin ← f.required "error_margin_ratio" Json.asFloat
  let state ← f.withDefault "state" .initial Progress.ofJson?
  return { name, comparison, operands, fromTs, toTs, margin, state }

/-! ### Clauses -/

namespace Clause

/-- The operators of clauses. -/
inductive Tag where
  | literal
  | conj
  | disj
  | neg
  deriving Repr, DecidableEq

/-- The operator that a word stands for. -/
def Tag.ofWord? : String → Option Tag
  | "LITERAL" => some .literal
  | "AND" => some .conj
  | "OR" => some .disj
  | "NOT" => some .neg
  | _ => none

/-- The operator and the arguments of a clause, each there exactly once. Arguments that stand
before their operator must be sound. -/
def untag? (room : Nat) : Json → Option (Tag × Json)
  | .object es =>
    match es.filter fun e => e.1 == "op" || e.1 == "args" with
    | [("op", op), ("args", args)] => (op.asWordOf Tag.ofWord?).map (·, args)
    | [("args", args), ("op", op)] =>
      if args.isSound room then (op.asWordOf Tag.ofWord?).map (·, args) else none
    | _ => none
  | .array [op, args] => (op.asWordOf Tag.ofWord?).map (·, args)
  | _ => none

/-- Reads a clause that nests at most `room` levels of arrays and objects. -/
def ofJson? : (room : Nat) → Json → Option Clause
  | 0, _ => none
  | room + 1, j =>
    match untag? room j with
    | some (.literal, args) => args.asIndex.map .literal
    | some (.neg, args) => (ofJson? room args).map .neg
    | some (.conj, args) => (members? room args).map .conj
    | some (.disj, args) => (members? room args).map .disj
    | none => none
where
  /-- Reads the members of a chain. -/
  members? : (room : Nat) → Json → Option (List Clause)
    | 0, _ => none
    | room + 1, args => args.asList (ofJson? room)

/-- The levels that are left for a clause in a stored prediction. -/
def room : Nat := Json.maxNesting - 2

end Clause

/-! ### Phases -/

/-- Reads the two choices of a phase. -/
def Policy.ofFields? (f : Json.Fields) : Option Policy := do
  let ignoreUndecided ←
    f.withDefault "ignore_undecided_if_predict_is_defined" false Json.asBool
  let annulIfNo ← f.withDefault "annulled_if_predict_is_false" false Json.asBool
  return { ignoreUndecided, annulIfNo }

/-- The names of the fields of a phase with a given main clause. -/
def phaseFields (main : String) : List String :=
  ["wrong_if", "annulled_if", main, "ignore_undecided_if_predict_is_defined",
    "annulled_if_predict_is_false"]

/-- Reads a first phase. -/
def PrePhase.ofJson? (j : Json) : Option PrePhase := do
  let f ← j.asRecord (phaseFields "predict_if")
  let wrongIf ← f.nullableField "wrong_if" (Clause.ofJson? Clause.room)
  let annulledIf ← f.nullableField "annulled_if" (Clause.ofJson? Clause.room)
  let predictIf ← f.nullableField "predict_if" (Clause.ofJson? Clause.room)
  let policy ← Policy.ofFields? f
  return { wrongIf, annulledIf, predictIf, policy }

/-- Reads a second phase. -/
def MainPhase.ofJson? (j : Json) : Option MainPhase := do
  let f ← j.asRecord (phaseFields "predict")
  let wrongIf ← f.nullableField "wrong_if" (Clause.ofJson? Clause.room)
  let annulledIf ← f.nullableField "annulled_if" (Clause.ofJson? Clause.room)
  let predict ← f.required "predict" (Clause.ofJson? Clause.room)
  let policy ← Policy.ofFields? f
  return { wrongIf, annulledIf, predict, policy }

/-! ### Predictions -/

/-- Reads the state of a prediction. -/
def PredictionState.ofJson? (j : Json) : Option PredictionState := do
  let f ← j.asRecord ["status", "last_ts", "value"]
  let status ← f.required "status" (Json.asWordOf Status.ofWord?)
  let lastTs ← f.required "last_ts" Json.asWord
  let outcome ← f.required "value" (Json.asWordOf Outcome.ofWord?)
  return { status, lastTs, outcome }

/-- Reads a time. -/
def Json.asInstant (j : Json) : Option Calendar.Instant :=
  j.asText.bind fun s => Calendar.readStored s.toList

namespace Prediction

/-- The names of the fields of a prediction. -/
def fields : List String :=
  ["id", "created_at", "posted_at", "reporter", "post_author", "post_url", "post_text", "given",
    "pre_predict", "predict", "state", "prediction_type"]

/-- Reads a prediction. -/
def ofJson? (j : Json) : Option Prediction := do
  let f ← j.asRecord fields
  let id ← f.required "id" Json.asText
  let createdAt ← f.required "created_at" Json.asInstant
  let postedAt ← f.required "posted_at" Json.asInstant
  let reporter ← f.withDefault "reporter" "" Json.asText
  let postAuthor ← f.withDefault "post_author" "" Json.asText
  let postUrl ← f.withDefault "post_url" "" Json.asText
  let postText ← f.withDefault "post_text" "" Json.asText
  let given ← f.required "given" (Json.asList Condition.ofJson?)
  let pre ← f.withDefault "pre_predict" .none PrePhase.ofJson?
  let main ← f.required "predict" MainPhase.ofJson?
  let state ← f.withDefault "state" .initial PredictionState.ofJson?
  let shape ← f.withDefault "prediction_type" .unsupported (Json.asWordOf Shape.ofWord?)
  return { id, createdAt, postedAt, reporter, postAuthor, postUrl, postText, given, pre, main,
           state, shape }

/-- Reads a prediction from the text in which it is stored. -/
def ofStored? (text : String) : Option Prediction :=
  (Json.read text).bind ofJson?

end Prediction

end Forecast
