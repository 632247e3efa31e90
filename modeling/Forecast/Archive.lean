import Forecast.Failure
import Forecast.Prediction

/-!
# Archives

Where predictions are kept between runs. An archive hands out the predictions whose outcome is one
of those asked for, under their ids, and takes in predictions all or none. Either may fail.

`Shelf` is the archive in memory. It can be told to refuse reads or writes, for whatever reason.
-/

namespace Forecast

/-- A place where predictions are kept. -/
class Archive (σ : Type) where
  /-- The predictions with one of some outcomes; all predictions if none is named. -/
  load : σ → List Outcome → Except Failure (Keyed Prediction)
  /-- Keeps predictions under their names, over what was there, or fails and keeps none. -/
  save : σ → Keyed Prediction → Except Failure σ

/-- Whether an outcome is asked for by a list in which no outcome means all. -/
def Outcome.isAmong (outcomes : List Outcome) (o : Outcome) : Bool :=
  outcomes.isEmpty || outcomes.contains o

/-- Predictions in memory. -/
structure Shelf where
  predictions : Keyed Prediction
  /-- Why reads are refused, while they are. -/
  readFault : Option String
  /-- Why writes are refused, while they are. -/
  writeFault : Option String
  /-- How many times predictions were taken in. -/
  writes : Nat

namespace Shelf

/-- A shelf that holds some predictions and does not fail. -/
def ofPredictions (predictions : Keyed Prediction) : Shelf := ⟨predictions, none, none, 0⟩

/-- The predictions with one of some outcomes. -/
def load (s : Shelf) (outcomes : List Outcome) : Except Failure (Keyed Prediction) :=
  match s.readFault with
  | some reason => .error (.databaseQuery reason)
  | none => .ok (s.predictions.filter fun _ p => p.state.outcome.isAmong outcomes)

/-- Takes in predictions. -/
def save (s : Shelf) (ps : Keyed Prediction) : Except Failure Shelf :=
  match s.writeFault with
  | some reason => .error (.databaseQuery reason)
  | none => .ok { s with
    predictions := ps.entries.foldl (fun m e => m.insert e.1 e.2) s.predictions
    writes := s.writes + 1 }

instance : Archive Shelf := ⟨load, save⟩

end Shelf

end Forecast
