import Forecast.Batch
import Forecast.Shape

/-!
# Reports

What people are told about predictions: the full description of one, a line for each of several,
and the outcome of a batch.
-/

namespace Forecast

/-! ### Description of a prediction -/

namespace Prediction

/-- A labelled line of a description. -/
def labelled (label text : String) : String :=
  Text.padRight 10 (label ++ ":") ++ text ++ "\n"

/-- The line of a condition: its name, what it says, its window and its value. -/
def conditionLine (c : Condition Price) : String :=
  "  " ++ Text.padRight 12 c.name ++ " " ++ c.text ++ "  [" ++ toString c.fromTs ++ " .. " ++
    toString c.toTs ++ "]  " ++ c.value.word ++ "\n"

/-- The clauses of a prediction with the names of their places. -/
def namedClauses (p : Prediction) : List (String × Option Clause) :=
  [("prePredict.wrongIf", p.pre.wrongIf), ("prePredict.annulledIf", p.pre.annulledIf),
    ("prePredict.predictIf", p.pre.predictIf), ("predict.wrongIf", p.main.wrongIf),
    ("predict.annulledIf", p.main.annulledIf), ("predict.predict", some p.main.predict)]

/-- The line of a clause. -/
def clauseLine (p : Prediction) : String × Option Clause → String
  | (name, some c) => Text.padRight 22 name ++ " " ++ p.render c ++ "\n"
  | (_, none) => ""

/-- The full description. -/
def describe (p : Prediction) : String :=
  labelled "id" p.id ++ labelled "type" p.shape.title ++ labelled "summary" p.summary ++
    labelled "state" (p.state.outcome.word ++ " (" ++ p.state.status.word ++ ")") ++
    "given:\n" ++ "".intercalate (p.given.map conditionLine) ++
    "".intercalate (p.namedClauses.map p.clauseLine)

/-- The prediction in a line of a list. -/
def listLine (p : Prediction) : String :=
  Text.padRight 24 p.id ++ " " ++ p.state.outcome.word ++ " " ++ p.summary ++ "\n"

end Prediction

/-! ### Outcome of a batch -/

namespace Batch

/-- The lines of the predictions that changed. -/
def Report.lines (r : Report) : String :=
  "".intercalate (r.changed.values.map Prediction.listLine)

/-- The line of a fault. -/
def faultLine (e : RunError) : String :=
  "failed: " ++ e.message ++ "\n"

/-- The faults, and how many predictions there were of each kind. -/
def Report.tallyLines (r : Report) : String :=
  "".intercalate (r.errors.map faultLine) ++ toString r.loaded ++ " ongoing, " ++
    toString r.changed.size ++ " changed, " ++ toString r.resolved.length ++ " resolved, " ++
    toString r.errors.length ++ " failed\n"

end Batch

end Forecast
