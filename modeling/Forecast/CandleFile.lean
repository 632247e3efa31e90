import Forecast.Calendar.Reading
import Forecast.Csv
import Forecast.Decimal.Reading
import Forecast.Feed

/-!
# Candle Files

Candles on disk: one file for each key in a directory, named after the key with `_` for `:`. The
columns are the time, the four prices and the volume; the first line only names them. A time is a
count of seconds or a time as an author writes it. Prices must be finite numbers. A volume that is
none counts as zero.

Rows before the second from which candles are wanted are passed over as soon as their time is
known, so the rest of such a row may be anything.
-/

namespace Forecast

/-- Why a text file cannot be read. -/
inductive FileError where
  | missing
  /-- The path is that of a directory. -/
  | directory
  /-- The path leads through a file. -/
  | notDirectory
  | nameTooLong
  /-- The path holds the character with the number 0. -/
  | nulInName
  | denied
  | notText
  deriving Repr, DecidableEq

/-- The wording of a file error. -/
def FileError.message : FileError → String
  | .missing => "No such file or directory (os error 2)"
  | .directory => "Is a directory (os error 21)"
  | .notDirectory => "Not a directory (os error 20)"
  | .nameTooLong => "File name too long (os error 36)"
  | .nulInName => "file name contained an unexpected NUL byte"
  | .denied => "Permission denied (os error 13)"
  | .notText => "stream did not contain valid UTF-8"

namespace CandleFile

/-- A name within a directory. A name that begins at the root stands for itself. -/
def within (directory name : String) : String :=
  if directory = "" ∨ name.toList.head? = some '/' then name
  else if directory.toList.getLast? = some '/' then directory ++ name
  else directory ++ "/" ++ name

/-- The name of the file for a key. -/
def name (key : String) : String :=
  String.ofList (key.toList.map fun c => if c = ':' then '_' else c) ++ ".csv"

/-- The path of the file for a key. -/
def path (directory key : String) : String :=
  within directory (name key)

/-- Why a row is no candle. -/
inductive RowFault where
  | missing (column : String)
  | notANumber (column : String)
  | notFinite (column : String)
  | badTime (error : Calendar.TimeError)
  deriving Repr

/-- The wording of a fault. -/
def RowFault.message : RowFault → String
  | .missing column => "missing " ++ column ++ " column"
  | .notANumber column => "invalid " ++ column ++ " value: invalid float literal"
  | .notFinite column => "non-finite " ++ column ++ " value"
  | .badTime e => e.message

/-- The text in a column, which must be there and not be empty. -/
def column (fields : List String) (i : Nat) (name : String) : Except RowFault String :=
  match fields[i]?.filter (· ≠ "") with
  | some s => .ok s
  | none => .error (.missing name)

/-- The finite number in a column. -/
def number (fields : List String) (i : Nat) (name : String) : Except RowFault Price := do
  let s ← column fields i name
  match Decimal.readFloat s.toList with
  | none => .error (.notANumber name)
  | some x => if x.isFinite then .ok x else .error (.notFinite name)

/-- Reads a time as a count of seconds. -/
def readSeconds (s : String) : Except RowFault Int :=
  match Decimal.readWord s with
  | some n => .ok n
  | none =>
    match Calendar.readTime s with
    | .ok t => .ok t.seconds
    | .error e => .error (.badTime e)

/-- A number, or zero where there is none. -/
def orZero (x : Except RowFault Price) : Price :=
  match x with
  | .ok v => v
  | .error _ => 0

/-- The candle in a row, unless it begins too early. -/
def readRow (start : Int) (fields : List String) : Except RowFault (Option Candle) := do
  let timestamp ← readSeconds (← column fields 0 "timestamp")
  if timestamp < start then return none
  else
    let opened ← number fields 1 "open"
    let high ← number fields 2 "high"
    let low ← number fields 3 "low"
    let closed ← number fields 4 "close"
    let volume := orZero (number fields 5 "volume")
    return some { timestamp, opened, high, low, closed, volume }

/-- The candles in rows, the first of which has the number `n`. -/
def readRows (start : Int) :
    (n : Nat) → List (Except Csv.LengthError (List String)) → Except String (List Candle)
  | _, [] => .ok []
  | _, .error e :: _ => .error ("CSV parse error: " ++ e.message)
  | n, .ok fields :: rest =>
    match readRow start fields with
    | .error fault => .error ("row " ++ toString n ++ ": " ++ fault.message)
    | .ok none => readRows start (n + 1) rest
    | .ok (some c) => (readRows start (n + 1) rest).map (c :: ·)

/-- The candles of a file from a second on, in the order of their times. -/
def candles (text : String) (start : Int) : Except String (List Candle) :=
  (readRows start 1 (Csv.rows text)).map Candle.sortByTime

/-- What is read of a file, or why it cannot be read. -/
abbrev Files : Type := String → Except FileError String

/-- The candles under a key from a second on. -/
def read (files : Files) (directory key : String) (start : Int) :
    Except MarketError (List Candle) :=
  let file := path directory key
  match files file with
  | .error e => .error (.sourceFailed key ("failed to read " ++ file ++ ": " ++ e.message))
  | .ok text => (candles text start).mapError (.sourceFailed key)

/-- The files in a directory as a source of candles. -/
def source (files : Files) (directory key : String) (start : Int) : Except MarketError Feed :=
  (read files directory key start).map .ofCandles

end CandleFile

end Forecast
