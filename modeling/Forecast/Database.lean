import Forecast.Archive
import Forecast.Loose.Column
import Forecast.Loose.Reader
import Forecast.Session
import Forecast.Stored.Reading

/-!
# Databases

A database holds stored predictions as rows, and candles. A row has the id, the word for the
outcome, by which rows are selected, and the stored text; a row whose text names another id is
refused. A set of rows or candles is kept as a whole or not at all.

Nothing can be looked up before the tables are there. Numbers that are not a number cannot be kept,
infinite ones can, and zero loses its sign. A candle with an infinite price is refused when it is
fetched.
-/

namespace Forecast

/-- A stored prediction. -/
structure Row where
  /-- The word for the outcome. -/
  state : String
  /-- The stored text. -/
  body : String
  deriving Repr, DecidableEq

/-- What a database holds. -/
structure Tables where
  /-- The rows by id. -/
  rows : Keyed Row
  /-- The candles of every key, in strictly increasing order of their times. -/
  candles : Keyed (List Candle)

/-- A database, which has no tables at first. -/
structure Database where
  tables : Option Tables

namespace Database

/-- A database without tables. -/
def blank : Database := ⟨none⟩

instance : Inhabited Database := ⟨blank⟩

/-- The database with its tables made, unless they are there already. -/
def withTables (d : Database) : Database :=
  ⟨some (d.tables.getD ⟨.empty, .empty⟩)⟩

/-- The tables, which must be there. -/
def required (d : Database) : Except Failure Tables :=
  match d.tables with
  | some t => .ok t
  | none => .error (.databaseQuery "no such table")

/-! ### Predictions -/

/-- Whether a row with a stored text may stand under an id: the text must be a document, and the id
that it names, if it names one, must agree with the row's. -/
def admits (id body : String) : Bool :=
  match Loose.read body with
  | some v => (v.named? "id").all (Loose.agrees id)
  | none => false

/-- Puts one row, over the row of the same id. -/
def putRow (rows : Keyed Row) (id state body : String) : Except Failure (Keyed Row) :=
  if admits id body then .ok (rows.insert id ⟨state, body⟩)
  else .error (.databaseQuery "the stored text names another id")

/-- Puts predictions one by one. -/
def putEach : Keyed Row → List (String × Prediction) → Except Failure (Keyed Row)
  | rows, [] => .ok rows
  | rows, (id, p) :: ps =>
    match putRow rows id p.state.outcome.word p.stored with
    | .ok rows => putEach rows ps
    | .error e => .error e

/-- Keeps predictions; no tables are needed to keep none. -/
def save (d : Database) (ps : Keyed Prediction) : Except Failure Database :=
  if ps.isEmpty then .ok d
  else do
    let t ← d.required
    let rows ← putEach t.rows ps.entries
    return ⟨some { t with rows }⟩

/-- Whether a row has one of some outcomes. -/
def Row.isAmong (outcomes : List Outcome) (r : Row) : Bool :=
  outcomes.isEmpty || outcomes.any (·.word == r.state)

/-- Reads a row back. -/
def decode (id : String) (r : Row) : Except Failure Prediction :=
  match Prediction.ofStored? r.body with
  | some p => .ok p
  | none => .error (.serialization ("prediction " ++ id ++ ": not a stored prediction"))

/-- The predictions with one of some outcomes, under the ids of their rows. -/
def load (d : Database) (outcomes : List Outcome) : Except Failure (Keyed Prediction) := do
  let t ← d.required
  let selected := t.rows.entries.filter fun e => Row.isAmong outcomes e.2
  let ps ← selected.mapM fun e => (decode e.1 e.2).map fun p => (e.1, p)
  return .ofList ps

instance : Archive Database := ⟨load, save⟩

/-! ### Candles -/

/-- A number as it is kept: zero has no sign. -/
def keptNumber (x : Price) : Price :=
  if x == 0 then 0 else x

/-- A candle as it is kept, unless one of its numbers cannot be kept. -/
def keptCandle? (c : Candle) : Option Candle :=
  if c.opened.isNaN || c.high.isNaN || c.low.isNaN || c.closed.isNaN || c.volume.isNaN then none
  else
    some ⟨c.timestamp, keptNumber c.opened, keptNumber c.high, keptNumber c.low,
      keptNumber c.closed, keptNumber c.volume⟩

/-- Puts a candle at its place in the order of times, over a candle of the same time. -/
def insertCandle (c : Candle) : List Candle → List Candle
  | [] => [c]
  | d :: ds =>
    if c.timestamp < d.timestamp then c :: d :: ds
    else if c.timestamp = d.timestamp then c :: ds
    else d :: insertCandle c ds

/-- Keeps candles under a key, all or none; no tables are needed to keep none. -/
def insertCandles (d : Database) (key : String) (cs : List Candle) : Except Failure Database :=
  if cs.isEmpty then .ok d
  else do
    let t ← d.required
    match cs.mapM keptCandle? with
    | none => .error (.databaseQuery "a number is missing")
    | some kept =>
      let candles := kept.foldl (fun ds c => insertCandle c ds) ((t.candles.get? key).getD [])
      return ⟨some { t with candles := t.candles.insert key candles }⟩

/-- The candles under a key from a second on, in the order of their times; all their prices must be
finite. -/
def fetchCandles (d : Database) (key : String) (start : Int) : Except Failure (List Candle) := do
  let t ← d.required
  let found := ((t.candles.get? key).getD []).filter fun c => start ≤ c.timestamp
  match found.find? (!·.hasFinitePrices) with
  | some c =>
    .error (.databaseQuery
      ("candle " ++ key ++ " at " ++ toString c.timestamp ++ " has a non-finite price"))
  | none => .ok found

/-- The database as a source of candles. -/
def source (d : Database) (key : String) (start : Int) : Except MarketError Feed :=
  match d.fetchCandles key start with
  | .ok cs => .ok (.ofCandles cs)
  | .error e => .error (.sourceFailed key e.message)

end Database

end Forecast
