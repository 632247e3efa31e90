import Forecast.Json.Printer
import Forecast.Shape

/-!
# Stored Predictions: Writing

The document in which a prediction is stored: an object with a fixed order of fields, down to the
conditions with everything they have seen. Two kinds of value are written with a tag: an operand is
an object whose `type` says what its other fields are, and a clause is an object of an `op` and its
`args`. What a condition has seen is written under the keys of its operands in their order.

A number that is not finite has no written form and becomes `null`, which is not read back.
-/

namespace Forecast

/-- The document of an operand. -/
def Operand.toJson : Operand Price → Json
  | .number v => .object [("type", .string "NUMBER"), ("value", .float v)]
  | .market (.coin provider base quote) =>
    .object [("type", .string "COIN"), ("provider", .string provider),
      ("base_asset", .string base), ("quote_asset", .string quote)]
  | .market (.marketcap provider base) =>
    .object [("type", .string "MARKETCAP"), ("provider", .string provider),
      ("base_asset", .string base)]

/-- The document of a tick. -/
def Tick.toJson (t : Tick Price) : Json :=
  .object [("timestamp", .int t.timestamp), ("value", .float t.value)]

/-- The document of a tick set. -/
def TickSet.toJson (ticks : TickSet Price) : Json :=
  .object (ticks.map Tick.toJson).entries

/-- The document of what a condition has seen. -/
def Progress.toJson (p : Progress Price) : Json :=
  .object [("status", .string p.status.word), ("last_ts", .int p.lastTs),
    ("last_ticks", TickSet.toJson p.lastTicks), ("value", .string p.value.word)]

/-- The document of a condition. -/
def Condition.toJson (c : Condition Price) : Json :=
  .object [("name", .string c.name), ("operator", .string c.comparison.symbol),
    ("operands", .array (c.operands.map Operand.toJson)), ("from_ts", .int c.fromTs),
    ("to_ts", .int c.toTs), ("error_margin_ratio", .float c.margin),
    ("state", c.state.toJson)]

namespace Clause

/-- An object of an operator and its arguments. -/
def tagged (op : String) (args : Json) : Json :=
  .object [("op", .string op), ("args", args)]

mutual

/-- The document of a clause. -/
def toJson : Clause → Json
  | .literal i => tagged "LITERAL" (.int i)
  | .conj cs => tagged "AND" (.array (toJsons cs))
  | .disj cs => tagged "OR" (.array (toJsons cs))
  | .neg c => tagged "NOT" (toJson c)

/-- The documents of a list of clauses. -/
def toJsons : List Clause → List Json
  | [] => []
  | c :: cs => toJson c :: toJsons cs

end

/-- The document of a clause that may be missing. -/
def optionalToJson : Option Clause → Json
  | some c => c.toJson
  | none => .null

end Clause

/-- The fields of the two choices of a phase. -/
def Policy.toEntries (p : Policy) : List (String × Json) :=
  [("ignore_undecided_if_predict_is_defined", .bool p.ignoreUndecided),
    ("annulled_if_predict_is_false", .bool p.annulIfNo)]

/-- The document of a first phase. -/
def PrePhase.toJson (p : PrePhase) : Json :=
  .object ([("wrong_if", Clause.optionalToJson p.wrongIf),
    ("annulled_if", Clause.optionalToJson p.annulledIf),
    ("predict_if", Clause.optionalToJson p.predictIf)] ++ p.policy.toEntries)

/-- The document of a second phase. -/
def MainPhase.toJson (p : MainPhase) : Json :=
  .object ([("wrong_if", Clause.optionalToJson p.wrongIf),
    ("annulled_if", Clause.optionalToJson p.annulledIf),
    ("predict", p.predict.toJson)] ++ p.policy.toEntries)

/-- The document of the state of a prediction. -/
def PredictionState.toJson (s : PredictionState) : Json :=
  .object [("status", .string s.status.word), ("last_ts", .int s.lastTs),
    ("value", .string s.outcome.word)]

namespace Prediction

/-- The document of a prediction. -/
def toJson (p : Prediction) : Json :=
  .object [("id", .string p.id), ("created_at", .string p.createdAt.storedText),
    ("posted_at", .string p.postedAt.storedText), ("reporter", .string p.reporter),
    ("post_author", .string p.postAuthor), ("post_url", .string p.postUrl),
    ("post_text", .string p.postText), ("given", .array (p.given.map Condition.toJson)),
    ("pre_predict", p.pre.toJson), ("predict", p.main.toJson), ("state", p.state.toJson),
    ("prediction_type", .string p.shape.word)]

/-- The text in which a prediction is stored. -/
def stored (p : Prediction) : String :=
  Json.compress p.toJson

end Prediction

end Forecast
