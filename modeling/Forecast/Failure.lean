import Forecast.Compile
import Forecast.Market

/-!
# Failures

What can stop a whole command, as against the faults of single predictions, which are collected and
reported. Each kind of failure has an exit code of its own.
-/

namespace Forecast

/-- Why a command failed. -/
inductive Failure where
  /-- A file could not be read. -/
  | file (reason : String)
  | configParse (path reason : String)
  | configMissing (group key : String)
  | configInvalid (group key reason : String)
  /-- The database cannot be reached. -/
  | database (reason : String)
  /-- The database refused a request. -/
  | databaseQuery (reason : String)
  | compile (error : CompileError)
  | unknownPrediction (id : String)
  | market (error : MarketError)
  /-- A stored prediction cannot be read back. -/
  | serialization (reason : String)

namespace Failure

/-- The wording of a failure. -/
def message : Failure → String
  | .file reason => reason
  | .configParse path reason => "config parse error in " ++ path ++ ": " ++ reason
  | .configMissing group key => "missing config key [" ++ group ++ "] " ++ key
  | .configInvalid group key reason =>
    "invalid config value [" ++ group ++ "] " ++ key ++ ": " ++ reason
  | .database reason => "database error: " ++ reason
  | .databaseQuery reason => "database query error: " ++ reason
  | .compile e => e.message
  | .unknownPrediction id => "no prediction with id '" ++ id ++ "'"
  | .market e => e.message
  | .serialization reason => "serialization error: " ++ reason

/-- The exit code of a failure. -/
def exitCode : Failure → Nat
  | .file _ => 1
  | .configParse _ _ => 2
  | .configMissing _ _ => 2
  | .configInvalid _ _ _ => 2
  | .database _ => 3
  | .databaseQuery _ => 3
  | .compile _ => 4
  | .unknownPrediction _ => 4
  | .market _ => 5
  | .serialization _ => 6

end Failure

end Forecast
