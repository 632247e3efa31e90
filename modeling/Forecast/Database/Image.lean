import Forecast.Database

/-!
# Images of Databases

A database is kept in a file as one document: its rows under their ids and its candles under their
keys. The numbers of candles are written as texts, since an infinite one has no other form in a
document.
-/

namespace Forecast

/-- The document of a number. -/
def numberImage (x : Price) : Json :=
  .string (Decimal.text x)

/-- Reads a number. -/
def readNumberImage (j : Json) : Option Price :=
  j.asText.bind fun s => Decimal.readFloat s.toList

/-- The document of a candle. -/
def Candle.image (c : Candle) : Json :=
  .array [.int c.timestamp, numberImage c.opened, numberImage c.high, numberImage c.low,
    numberImage c.closed, numberImage c.volume]

/-- Reads a candle. -/
def Candle.ofImage? : Json → Option Candle
  | .array [t, o, h, l, c, v] => do
    let timestamp ← t.asWord
    let opened ← readNumberImage o
    let high ← readNumberImage h
    let low ← readNumberImage l
    let closed ← readNumberImage c
    let volume ← readNumberImage v
    return { timestamp, opened, high, low, closed, volume }
  | _ => none

/-- The document of a row. -/
def Row.image (r : Row) : Json :=
  .array [.string r.state, .string r.body]

/-- Reads a row. -/
def Row.ofImage? : Json → Option Row
  | .array [.string state, .string body] => some ⟨state, body⟩
  | _ => none

/-- The document of the tables. -/
def Tables.image (t : Tables) : Json :=
  .object [("predictions", .object (t.rows.map Row.image).entries),
    ("candles", .object (t.candles.map fun cs => .array (cs.map Candle.image)).entries)]

/-- Reads tables. -/
def Tables.ofImage? (j : Json) : Option Tables := do
  let f ← j.asRecord ["predictions", "candles"]
  let rows ← f.required "predictions" (Json.asKeyed Row.ofImage?)
  let candles ← f.required "candles" (Json.asKeyed (Json.asList Candle.ofImage?))
  return ⟨rows, candles.map fun cs => cs.foldl (fun ds c => Database.insertCandle c ds) []⟩

namespace Database

/-- The text in which a database is kept; empty while it has no tables. -/
def image (d : Database) : String :=
  match d.tables with
  | some t => Json.compress t.image
  | none => ""

/-- Reads a database from its text. -/
def ofImage? (text : String) : Option Database :=
  if text = "" then some .blank
  else ((Json.read text).bind Tables.ofImage?).map fun t => ⟨some t⟩

end Database

end Forecast
