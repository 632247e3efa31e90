import Forecast.Batch
import Forecast.CandleFile
import Forecast.Decimal.Integer
import Forecast.Ini

/-!
# Setups

A setup is what a configuration asks for: the providers and the length of candles, where candles
come from, where predictions are kept, and the limits of a run. `validate` looks at every setting
and names the first that is missing or wrong; a setup is then read from the same settings.

Whole numbers are read in two ways. `positive` refuses what is no positive number; `numberOr` takes
a default for it.
-/

namespace Forecast

namespace Ini

/-- The pieces of a setting between commas, without the blanks around them; empty ones are left
out. -/
def list (ini : Ini) (group key : String) : List String :=
  match ini.get? group key with
  | some v => ((Text.splitAt ',' v).map Text.trim).filter (· ≠ "")
  | none => []

/-- A whole number, or a default where there is none. -/
def numberOr (ini : Ini) (group key : String) (default : Int) : Int :=
  ((ini.get? group key).bind Decimal.readWord).getD default

/-- A text that must be there and not be blank, without the blanks around it. -/
def required (ini : Ini) (group key : String) : Except Failure String :=
  match (ini.get? group key).map Text.trim with
  | some v => if v = "" then .error (.configMissing group key) else .ok v
  | none => .error (.configMissing group key)

/-- A positive whole number, or a default where there is no setting. -/
def positive (ini : Ini) (group key : String) (default : Int) : Except Failure Int := do
  let value ←
    match (ini.get? group key).map Text.trim with
    | none => pure default
    | some v =>
      match Decimal.readWord v with
      | some n => pure n
      | none => .error (.configInvalid group key ("'" ++ v ++ "' is not an integer"))
  if value ≤ 0 then .error (.configInvalid group key (key ++ " must be positive"))
  else return value

end Ini

/-- The length of a candle in seconds where none is given. -/
def defaultInterval : Int := 60

/-- The seconds between two batches where none are given. -/
def defaultPollSeconds : Int := 60

/-- The number of connections to a database where none is given. -/
def defaultPoolSize : Int := 4

/-- The settings of a market. At least one provider must be in use, and a candle must be long enough
for its ticks. -/
def MarketConfig.ofIni (ini : Ini) : Except Failure MarketConfig :=
  match ini.list "market" "providers" with
  | [] => .error (.configMissing "market" "providers")
  | providers =>
    let interval := ini.numberOr "market" "candle_interval_secs" defaultInterval
    if interval < minInterval then
      .error (.configInvalid "market" "candle_interval_secs"
        ("candle_interval_secs must be at least " ++ toString minInterval))
    else .ok ⟨providers.map Text.upper, interval⟩

/-- Where candles come from. -/
inductive CandleOrigin where
  | files
  | database
  deriving Repr, DecidableEq

/-- The word for an origin in a configuration. -/
def CandleOrigin.word : CandleOrigin → String
  | .files => "csv"
  | .database => "sqlite"

/-- The origin of candles that a configuration asks for; files if it asks for none. -/
def CandleOrigin.ofIni (ini : Ini) : Except Failure CandleOrigin :=
  match Text.lower (Text.trim ((ini.get? "market" "source").getD "csv")) with
  | "csv" => .ok .files
  | "sqlite" => .ok .database
  | other =>
    .error (.configInvalid "market" "source"
      ("unknown source '" ++ other ++ "', expected csv or sqlite"))

/-- The number of connections to a database. It is kept in an unsigned 32-bit word. -/
def poolSize (ini : Ini) : UInt32 :=
  UInt32.ofNat (max (ini.numberOr "sqlite" "pool_size" defaultPoolSize) 1).toNat

/-- Looks at every setting. -/
def Ini.validate (ini : Ini) : Except Failure Unit := do
  if ini.list "market" "providers" = [] then
    .error (.configMissing "market" "providers")
  let interval ← ini.positive "market" "candle_interval_secs" defaultInterval
  if interval < minInterval then
    .error (.configInvalid "market" "candle_interval_secs"
      ("candle_interval_secs must be at least " ++ toString minInterval))
  match ← CandleOrigin.ofIni ini with
  | .files => discard (ini.required "csv" "path")
  | .database => pure ()
  discard (ini.required "sqlite" "path")
  discard (ini.positive "sqlite" "pool_size" defaultPoolSize)
  discard (ini.positive "runner" "poll_interval_secs" defaultPollSeconds)
  discard (ini.positive "runner" "max_passes" Batch.defaultLimit)

/-- Where candles come from, in full. -/
inductive CandleSource where
  | directory (path : String)
  | database
  deriving Repr, DecidableEq

/-- The source of candles that a configuration asks for. -/
def CandleSource.ofIni (ini : Ini) : Except Failure CandleSource := do
  match ← CandleOrigin.ofIni ini with
  | .files => return .directory (← ini.required "csv" "path")
  | .database => return .database

/-- What a configuration asks for. -/
structure Setup where
  market : MarketConfig
  candles : CandleSource
  /-- The path of the database. -/
  databasePath : String
  /-- The limit on the passes of a batch. -/
  limit : Nat
  /-- The seconds between two batches. -/
  pollSeconds : Nat
  deriving Repr

/-- The path of the database that a configuration asks for. -/
def Ini.databasePath (ini : Ini) : Except Failure String :=
  match ini.get? "sqlite" "path" with
  | some path => .ok path
  | none => .error (.configMissing "sqlite" "path")

/-- Reads a setup after looking at every setting. -/
def Setup.ofIni (ini : Ini) : Except Failure Setup := do
  ini.validate
  let market ← MarketConfig.ofIni ini
  let candles ← CandleSource.ofIni ini
  let databasePath ← ini.databasePath
  let limit ← ini.positive "runner" "max_passes" Batch.defaultLimit
  let pollSeconds ← ini.positive "runner" "poll_interval_secs" defaultPollSeconds
  return { market, candles, databasePath, limit := limit.toNat, pollSeconds := pollSeconds.toNat }

/-- Reads a setup from the text of a configuration file. -/
def Setup.read (path : String) (content : Except FileError String) : Except Failure Setup :=
  match content with
  | .error e => .error (.configParse path e.message)
  | .ok text =>
    match Ini.read text with
    | .error reason => .error (.configParse path reason)
    | .ok ini => ofIni ini

/-- Whether a configuration file has a setup, but asks for a database without connections. -/
def Setup.lacksConnections (content : Except FileError String) : Bool :=
  match content with
  | .error _ => false
  | .ok text =>
    match Ini.read text with
    | .error _ => false
    | .ok ini => (ofIni ini).isOk && poolSize ini == 0

end Forecast
