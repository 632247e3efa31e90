import Forecast.CommandLine
import Forecast.Database.Location
import Forecast.Report
import Forecast.Setup

/-!
# Executing Commands

What a command says and keeps, given the files and databases that it can see. A command reads its
configuration, opens its database, and does its work; the first failure ends it, and is told last.
Of a database only what was kept before the failure stays, and of one in memory nothing.

A crash is no failure: nothing is told of it. There is one cause of crashes (`Command.crashes`).
-/

namespace Forecast

/-- The file with the configuration of a command, if it has one. -/
def Command.config? : Command → Option String
  | .compile _ _ => none
  | .add config _ => some config
  | .run config _ => some config
  | .watch config => some config
  | .list config _ => some config
  | .reset config _ => some config

/-- The file with the draft of a command, if it has one. -/
def Command.input? : Command → Option String
  | .compile input _ => some input
  | .add _ input => some input
  | _ => none

/-- What a command can see. -/
structure Environment where
  files : CandleFile.Files
  /-- What is found at the simplified path of a database. -/
  found : String → Found

/-- What came of a command. -/
structure Execution where
  /-- What it answers. -/
  output : String
  /-- What it says about its work. -/
  notes : String
  failure : Option Failure
  /-- The database that it opened, with its path, as it is afterwards. -/
  kept : Option (String × Database)

namespace Execution

/-- The exit code: 0 without a failure. -/
def exitCode (e : Execution) : Nat :=
  match e.failure with
  | none => 0
  | some f => f.exitCode

/-- A command that did its work. -/
def done (output notes : String) (kept : Option (String × Database)) : Execution :=
  ⟨output, notes, none, kept⟩

/-- A command that failed. The failure is told after what was said before. -/
def failed (notes : String) (f : Failure) (kept : Option (String × Database)) : Execution :=
  ⟨"", notes ++ "error: " ++ f.message ++ "\n", some f, kept⟩

end Execution

/-! ### Drafts in files -/

/-- The text of the clause with a name such as `predict.wrongIf` in the text of a draft; empty if it
cannot be found. -/
def clauseText (content name : String) : String :=
  match Json.read content with
  | some j =>
    if j.isSound Json.maxNesting then
      ((j.atPath? (Text.splitAt '.' name)).bind Json.asText).elim "" Text.trim
    else ""
  | none => ""

/-- What is said of a clause that cannot be read: the clause, and where the fault lies. -/
def clauseNote (content : String) : CompileError → String
  | .clause name e => e.inContext (clauseText content name) ++ "\n"
  | _ => ""

/-- Compiles the draft in a file; also what is said meanwhile. -/
def readDraft (env : Environment) (path : String) (created : Calendar.Instant) :
    String × Except Failure Prediction :=
  match env.files path with
  | .error e => ("", .error (.file e.message))
  | .ok content =>
    match Compile.text content created with
    | .ok p => ("", .ok p)
    | .error e => (clauseNote content e, .error (.compile e))

/-! ### Contexts -/

/-- A setup with its database open. -/
structure Context where
  setup : Setup
  location : Location
  database : Database

namespace Context

/-- Reads a configuration file and opens the database that it names. -/
def load (env : Environment) (config : String) : Except Failure Context := do
  let setup ← Setup.read config (env.files config)
  let location ← (Location.read setup.databasePath).mapError Location.unopened
  let database ← location.openTables env.found setup.databasePath
  return ⟨setup, location, database⟩

/-- The database with its path, if it is to be kept. -/
def kept (c : Context) : Option (String × Database) :=
  match c.location with
  | .file _ .reading => none
  | .file path _ => some (path, c.database)
  | .memory => none

/-- Keeps predictions, which needs a database that may be written if there are any. -/
def save (c : Context) (ps : Keyed Prediction) : Except Failure Context :=
  match c.location with
  | .file _ .reading => if ps.isEmpty then .ok c else .error Location.readOnly
  | _ => (c.database.save ps).map fun database => { c with database }

instance : Archive Context := ⟨fun c => c.database.load, save⟩

/-- The market of a setup. -/
def market (env : Environment) (c : Context) : Market :=
  ⟨c.setup.market,
    match c.setup.candles with
    | .directory path => CandleFile.source env.files path
    | .database => c.database.source⟩

/-- The files that a batch may ask for. -/
def candleFiles (c : Context) : List String :=
  match c.setup.candles, c.database.load Outcome.ongoing with
  | .directory path, .ok ps =>
    let keys := ps.values.flatMap fun p => p.given.flatMap fun g => g.instruments.map Instrument.key
    keys.eraseDups.map (CandleFile.path path)
  | _, _ => []

/-- A batch over the database. -/
def batch (env : Environment) (c : Context) (now : Calendar.Instant) :
    Except Failure (Batch.Report × Context) :=
  Batch.run c (c.market env) now.seconds c.setup.limit

end Context

/-! ### Commands -/

namespace Execution

/-- Compiles a draft and shows the prediction. -/
def compile (env : Environment) (created : Calendar.Instant) (input : String) (json : Bool) :
    Execution :=
  let notes := "Compiling " ++ input ++ "\n"
  match readDraft env input created with
  | (more, .error f) => failed (notes ++ more) f none
  | (more, .ok p) =>
    done (if json then Json.pretty p.toJson ++ "\n" else p.describe) (notes ++ more) none

/-- Keeps a new prediction after its first evaluation; its id must not be taken. -/
def addNew (c : Context) (p : Prediction) : Except Failure (Prediction × Context) := do
  let existing ← c.database.load []
  if existing.contains p.id then .error (.compile (.alreadyStored p.id))
  else
    let p := p.evaluated
    let c ← c.save (Keyed.empty.insert p.id p)
    return (p, c)

/-- Compiles a draft and keeps the prediction. -/
def add (env : Environment) (created : Calendar.Instant) (config input : String) : Execution :=
  match Context.load env config with
  | .error f => failed "" f none
  | .ok c =>
    match readDraft env input created with
    | (notes, .error f) => failed notes f c.kept
    | (notes, .ok p) =>
      match addNew c p with
      | .error f => failed notes f c.kept
      | .ok (p, c) => done p.describe notes c.kept

/-- Brings the ongoing predictions forward. -/
def run (env : Environment) (config : String) (now : Calendar.Instant) : Execution :=
  match Context.load env config with
  | .error f => failed "" f none
  | .ok c =>
    let notes := "Evaluating predictions as of " ++ now.text ++ "\n"
    match c.batch env now with
    | .error f => failed notes f c.kept
    | .ok (r, c) => done r.lines (notes ++ r.tallyLines) c.kept

/-- One round of watching: like a run, but a failure of the batch is left to the next round. -/
def watchRound (env : Environment) (c : Context) (now : Calendar.Instant) : Execution :=
  match c.batch env now with
  | .error _ => done "" "" c.kept
  | .ok (r, c) => done r.lines r.tallyLines c.kept

/-- Lists predictions with one of some outcomes. -/
def list (env : Environment) (config : String) (outcomes : List Outcome) : Execution :=
  match Context.load env config with
  | .error f => failed "" f none
  | .ok c =>
    match c.database.load outcomes with
    | .error f => failed "" f c.kept
    | .ok ps =>
      if ps.isEmpty then done "" "No predictions found\n" c.kept
      else
        done ("".intercalate (ps.values.map Prediction.listLine))
          (toString ps.size ++ " predictions\n") c.kept

/-- Clears the prediction with an id. -/
def resetStored (c : Context) (id : String) : Except Failure Context := do
  match (← c.database.load []).get? id with
  | none => .error (.unknownPrediction id)
  | some p => c.save (Keyed.empty.insert p.id p.cleared)

/-- Makes a prediction forget what it has seen. -/
def reset (env : Environment) (config id : String) : Execution :=
  match Context.load env config with
  | .error f => failed "" f none
  | .ok c =>
    match resetStored c id with
    | .error f => failed "" f c.kept
    | .ok c => done "" ("Reset prediction " ++ id ++ "\n") c.kept

end Execution

/-- Executes a command at a time. Watching begins with its first round. -/
def Command.execute (env : Environment) (now : Calendar.Instant) : Command → Execution
  | .compile input json => .compile env now input json
  | .add config input => .add env now config input
  | .run config time => .run env config (time.getD now)
  | .watch config =>
    match Context.load env config with
    | .error f => .failed "" f none
    | .ok c => .watchRound env c now
  | .list config outcomes => .list env config outcomes
  | .reset config id => .reset env config id

/-- Whether a command crashes. A pool must not be made of no connections; it is made before the
database is opened, so that a command that crashes says and keeps nothing. -/
def Command.crashes (env : Environment) (c : Command) : Bool :=
  c.config?.any fun config => Setup.lacksConnections (env.files config)

/-- Executes a command at a time, unless it crashes. -/
def Command.execute? (env : Environment) (now : Calendar.Instant) (c : Command) :
    Option Execution :=
  if c.crashes env then none else some (c.execute env now)

/-- A command that does not crash does what it does without crashes. -/
theorem Command.execute?_eq_some_iff {env : Environment} {now : Calendar.Instant} {c : Command}
    {e : Execution} :
    c.execute? env now = some e ↔ c.crashes env = false ∧ c.execute env now = e := by
  rw [execute?]
  cases c.crashes env <;> simp

end Forecast
