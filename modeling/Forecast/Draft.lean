import Forecast.Json.Reader
import Forecast.Json.Record
import Forecast.Quantity

/-!
# Drafts

What an author writes: a document with who posted the prediction and when, the conditions under
their names, and the clauses of the two phases. A draft holds its texts as they are written;
compiling it decides what they mean.

Conditions come in the order of their names as written, and of two with one name the later counts.
-/

namespace Forecast

/-- A condition as an author writes it. -/
structure ConditionDraft where
  /-- The comparison, such as `COIN:BINANCE:BTC-USDT > 60k`. -/
  condition : String
  fromTime : Option String
  toTime : Option String
  toDuration : Option String
  margin : Option Price

/-- The first phase as an author writes it. -/
structure PreDraft where
  wrongIf : Option String
  annulledIf : Option String
  predictIf : Option String
  ignoreUndecided : Bool
  annulIfNo : Bool

/-- The second phase as an author writes it. -/
structure MainDraft where
  wrongIf : Option String
  annulledIf : Option String
  predict : String
  ignoreUndecided : Bool
  annulIfNo : Bool

/-- A prediction as an author writes it. -/
structure Draft where
  id : Option String
  postedAt : String
  reporter : String
  postAuthor : String
  postUrl : String
  postText : String
  given : Keyed ConditionDraft
  pre : Option PreDraft
  main : MainDraft

namespace ConditionDraft

/-- The names of the fields. -/
def fields : List String :=
  ["condition", "fromIso8601", "toIso8601", "toDuration", "errorMarginRatio"]

/-- Reads a condition from a document. -/
def ofJson? (j : Json) : Option ConditionDraft := do
  let f ← j.asRecord fields
  let condition ← f.required "condition" Json.asText
  let fromTime ← f.optional "fromIso8601" Json.asText
  let toTime ← f.optional "toIso8601" Json.asText
  let toDuration ← f.optional "toDuration" Json.asText
  let margin ← f.optional "errorMarginRatio" Json.asFloat
  return { condition, fromTime, toTime, toDuration, margin }

end ConditionDraft

namespace PreDraft

/-- The names of the fields. -/
def fields : List String :=
  ["wrongIf", "annulledIf", "predictIf", "ignoreUndecidedIfPredictIsDefined",
    "annulledIfPredictIsFalse"]

/-- Reads a first phase from a document. -/
def ofJson? (j : Json) : Option PreDraft := do
  let f ← j.asRecord fields
  let wrongIf ← f.optional "wrongIf" Json.asText
  let annulledIf ← f.optional "annulledIf" Json.asText
  let predictIf ← f.optional "predictIf" Json.asText
  let ignoreUndecided ← f.withDefault "ignoreUndecidedIfPredictIsDefined" false Json.asBool
  let annulIfNo ← f.withDefault "annulledIfPredictIsFalse" false Json.asBool
  return { wrongIf, annulledIf, predictIf, ignoreUndecided, annulIfNo }

end PreDraft

namespace MainDraft

/-- The names of the fields. -/
def fields : List String :=
  ["wrongIf", "annulledIf", "predict", "ignoreUndecidedIfPredictIsDefined",
    "annulledIfPredictIsFalse"]

/-- Reads a second phase from a document. -/
def ofJson? (j : Json) : Option MainDraft := do
  let f ← j.asRecord fields
  let wrongIf ← f.optional "wrongIf" Json.asText
  let annulledIf ← f.optional "annulledIf" Json.asText
  let predict ← f.withDefault "predict" "" Json.asText
  let ignoreUndecided ← f.withDefault "ignoreUndecidedIfPredictIsDefined" false Json.asBool
  let annulIfNo ← f.withDefault "annulledIfPredictIsFalse" false Json.asBool
  return { wrongIf, annulledIf, predict, ignoreUndecided, annulIfNo }

end MainDraft

namespace Draft

/-- The names of the fields. -/
def fields : List String :=
  ["id", "postedAt", "reporter", "postAuthor", "postUrl", "postText", "given", "prePredict",
    "predict"]

/-- Reads a draft from a document. -/
def ofJson? (j : Json) : Option Draft := do
  let f ← j.asRecord fields
  let id ← f.optional "id" Json.asText
  let postedAt ← f.required "postedAt" Json.asText
  let reporter ← f.withDefault "reporter" "" Json.asText
  let postAuthor ← f.withDefault "postAuthor" "" Json.asText
  let postUrl ← f.withDefault "postUrl" "" Json.asText
  let postText ← f.withDefault "postText" "" Json.asText
  let given ← f.required "given" (Json.asKeyed ConditionDraft.ofJson?)
  let pre ← f.optional "prePredict" PreDraft.ofJson?
  let main ← f.required "predict" MainDraft.ofJson?
  return { id, postedAt, reporter, postAuthor, postUrl, postText, given, pre, main }

/-- Reads a draft from its text. -/
def read? (text : String) : Option Draft :=
  (Json.read text).bind ofJson?

end Draft

end Forecast
