import Forecast.Archive
import Forecast.Session

/-!
# Batches

A batch brings every ongoing prediction of an archive forward to a second. All sessions take their
passes in turn until none is active or the limit on passes is reached; then the predictions that
have changed are kept, in one go. A prediction that cannot even be begun is reported and left as it
is, and a fault of one prediction does not touch the others.

A failing archive ends the batch, and then nothing has been kept.
-/

namespace Forecast

namespace Batch

/-- The limit on passes where none is given. -/
def defaultLimit : Nat := 100000

/-- What came of a batch. -/
structure Report where
  /-- How many predictions were ongoing. -/
  loaded : Nat
  passes : Nat
  errors : List RunError
  /-- The predictions that changed, under their ids. -/
  changed : Keyed Prediction
  /-- What was requested from the source of candles, in order. -/
  opened : List Opening

/-- The predictions that became final. -/
def Report.resolved (r : Report) : List Prediction :=
  r.changed.values.filter Prediction.isFinal

/-- Begins a session for every prediction; also the errors of those that cannot be begun. -/
def begin (m : Market) (now : Int) : List Prediction → List RunError × List Session
  | [] => ([], [])
  | p :: ps =>
    let (errors, sessions) := begin m now ps
    match Session.start m p now with
    | .error e => (e :: errors, sessions)
    | .ok s => (errors, s :: sessions)

/-- How far a batch has come. -/
structure Tally where
  passes : Nat
  errors : List RunError
  opened : List Opening
  /-- The sessions that have ended, in the order in which they ended. -/
  ended : List Session
  active : List Session

/-- One pass of every active session. -/
def Tally.advance (m : Market) (t : Tally) : Tally :=
  let done := t.active.map (Session.pass m)
  let (ended, active) := (done.map (·.session)).partition (·.inactive)
  { passes := t.passes + 1
    errors := t.errors ++ done.flatMap (·.errors)
    opened := t.opened ++ done.flatMap (·.opened)
    ended := t.ended ++ ended
    active }

/-- Passes until no session is active, but at most `limit`. -/
def Tally.run (m : Market) : (limit : Nat) → Tally → Tally
  | 0, t => t
  | limit + 1, t => if t.active.isEmpty then t else run m limit (t.advance m)

/-- The sessions of a batch, those that have ended first. -/
def Tally.sessions (t : Tally) : List Session :=
  t.ended ++ t.active

/-- The predictions that have changed, under their ids. -/
def changes (sessions : List Session) : Keyed Prediction :=
  .ofList ((sessions.filter Session.hasChanged).map fun s => (s.prediction.id, s.prediction))

/-- Brings predictions forward. At least one pass is made. -/
def advance (m : Market) (now : Int) (limit : Nat) (predictions : Keyed Prediction) : Report :=
  let (errors, sessions) := begin m now predictions.values
  let t := Tally.run m (max limit 1) ⟨0, errors, [], [], sessions⟩
  { loaded := predictions.size
    passes := t.passes
    errors := t.errors
    changed := changes t.sessions
    opened := t.opened }

/-- Keeps what a batch has changed. A batch that changed nothing writes nothing. -/
def keep {σ : Type} [Archive σ] (archive : σ) (r : Report) : Except Failure σ :=
  if r.changed.isEmpty then .ok archive else Archive.save archive r.changed

/-- Brings the ongoing predictions of an archive forward and keeps what has changed. -/
def run {σ : Type} [Archive σ] (archive : σ) (m : Market) (now : Int) (limit : Nat) :
    Except Failure (Report × σ) := do
  let predictions ← Archive.load archive Outcome.ongoing
  let report := advance m now limit predictions
  let archive ← keep archive report
  return (report, archive)

end Batch

end Forecast
