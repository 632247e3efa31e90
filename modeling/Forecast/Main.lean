import Forecast.Database.Image
import Forecast.Execution
import Std.Time.DateTime

/-!
# The Program

The outermost layer: it reads the files that a command may look at, executes the command, prints
what it says, and writes the database that it kept. What is said and kept is decided by
`Command.execute?` and `Execution.watchRound`.
-/

namespace Forecast.Program

/-- Reads a file. -/
def readFile (path : String) : IO (Except FileError String) := do
  if path.toList.contains (Char.ofNat 0) then return .error .nulInName
  try
    match String.fromUTF8? (← IO.FS.readBinFile path) with
    | some text => return .ok text
    | none => return .error .notText
  catch
    | .inappropriateType _ code _ =>
      return .error (if code = 21 then .directory else .notDirectory)
    | .invalidArgument _ _ _ => return .error .nameTooLong
    | .permissionDenied _ _ _ => return .error .denied
    | _ => return .error .missing

/-- Reads files. -/
def readFiles (paths : List String) : IO CandleFile.Files := do
  let found ← paths.mapM fun path => do return (path, ← readFile path)
  return fun path => (found.lookup path).getD (.error .missing)

/-- Looks for a database at a path. -/
def lookFor (path : String) : IO Found := do
  match ← readFile path with
  | .ok text =>
    match Database.ofImage? text with
    | some d => return .database d
    | none => return .foreign
  | .error .notText => return .foreign
  | .error .missing =>
    match ← readFile (Location.directory path) with
    | .error .directory => return .nothing
    | _ => return .unreachable
  | .error _ => return .unreachable

/-- The current time. -/
def currentTime : IO Calendar.Instant := do
  let nanos := (← Std.Time.Timestamp.now).toNanosecondsSinceUnixEpoch.val
  return ⟨nanos / Calendar.nanosPerSecond, (nanos % Calendar.nanosPerSecond).toNat⟩

/-- Prints what a command says and writes the database that it kept. -/
def finish (e : Execution) : IO UInt32 := do
  (← IO.getStderr).putStr e.notes
  (← IO.getStdout).putStr e.output
  match e.kept with
  | some (path, d) => IO.FS.writeFile path d.image
  | none => pure ()
  return UInt32.ofNat e.exitCode

/-- What is found where a setup keeps its database. -/
def findDatabase (setup : Setup) : IO Found := do
  match Location.read setup.databasePath with
  | .ok (.file path _) => lookFor path
  | _ => return .nothing

/-- The files of a command, those of its candles included, and its database. -/
def survey (command : Command) : IO Environment := do
  let paths := command.config?.toList ++ command.input?.toList
  let files ← readFiles paths
  match command.config?.map fun config => (config, Setup.read config (files config)) with
  | some (config, .ok setup) =>
    let found ← findDatabase setup
    match Context.load ⟨files, fun _ => found⟩ config with
    | .ok context => return ⟨← readFiles (paths ++ context.candleFiles), fun _ => found⟩
    | .error _ => return ⟨files, fun _ => found⟩
  | _ => return ⟨files, fun _ => .nothing⟩

/-- Executes a command once, unless it crashes. -/
def executeOnce (command : Command) : IO (Option UInt32) := do
  (command.execute? (← survey command) (← currentTime)).mapM finish

/-- The exit code of a crash. -/
def crashCode : UInt32 := 101

/-- Executes a command, and goes on for ever if it is to watch and its configuration can be read. -/
partial def execute (command : Command) : IO UInt32 := do
  match ← executeOnce command, command with
  | none, _ =>
    (← IO.getStderr).putStr "a pool of no connections cannot be made\n"
    return crashCode
  | some code, .watch config =>
    match Setup.read config (← readFile config) with
    | .ok setup =>
      IO.sleep (UInt32.ofNat (1000 * setup.pollSeconds))
      execute command
    | .error _ => return code
  | some code, _ => return code

end Forecast.Program

open Forecast in
/-- Reads the command line and executes the command. -/
def main (args : List String) : IO UInt32 := do
  match CommandLine.parse args with
  | .ok invocation => Program.execute invocation.command
  | .error e =>
    if e.isHelp then
      (← IO.getStdout).putStr CommandLine.usage
      return 0
    else
      (← IO.getStderr).putStr ("error: " ++ e.message ++ "\n\n" ++ CommandLine.usage)
      return 2
