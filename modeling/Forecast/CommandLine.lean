import Forecast.Calendar.Reading
import Forecast.Outcome

/-!
# Command Lines

A command line is a command with its options: `-v` may stand before or after the command, every
other option after it. A long option has its value in the next word or after `=`; a short option
has it in the next word or in the rest of its own word, with or without `=`. Options without a
value may share a word. After `--` nothing is an option.

A value that stands in a word of its own is looked at only when the next known option, or the end,
shows that the option is complete. So of two faults, an unknown option is reported before a bad
value in front of it.
-/

namespace Forecast

/-- What the program can be asked to do. -/
inductive Command where
  | compile (input : String) (json : Bool)
  | add (config input : String)
  | run (config : String) (now : Option Calendar.Instant)
  | watch (config : String)
  | list (config : String) (states : List Outcome)
  | reset (config id : String)
  deriving Repr

/-- A command with the option that goes with every command. -/
structure Invocation where
  verbose : Bool
  command : Command
  deriving Repr

/-- Why a command line is no invocation. -/
inductive UsageError where
  /-- Help was asked for. -/
  | help
  /-- There is nothing on the line. -/
  | helpForNothing
  /-- There are options but no command. -/
  | missingCommand
  | unknownCommand
  | unknownArgument
  /-- An option has no value. -/
  | missingValue
  /-- The value of an option is not of its kind. -/
  | invalidValue
  /-- An option that has no value is given one. -/
  | unexpectedValue
  /-- An option is given twice. -/
  | repeated
  /-- An option that must be there is not. -/
  | missingOption
  deriving Repr, DecidableEq

/-- The wording of a usage error. -/
def UsageError.message : UsageError → String
  | .help => "help was asked for"
  | .helpForNothing => "a command is required"
  | .missingCommand => "a command is required"
  | .unknownCommand => "unknown command"
  | .unknownArgument => "unexpected argument"
  | .missingValue => "an option lacks its value"
  | .invalidValue => "an option has an invalid value"
  | .unexpectedValue => "an option that takes no value is given one"
  | .repeated => "an option is given twice"
  | .missingOption => "a required option is not given"

/-- Whether the error is a wish for help and no mistake. -/
def UsageError.isHelp (e : UsageError) : Bool :=
  e = .help

namespace CommandLine

/-- What help says. -/
def usage : String :=
  "Evaluates market price predictions against candle data\n\n" ++
    "Commands:\n" ++
    "  compile -i FILE [--json]                  compile a draft and show it\n" ++
    "  add     -c FILE -i FILE                   compile a draft and keep it\n" ++
    "  run     -c FILE [--now TIME]              bring ongoing predictions forward\n" ++
    "  watch   -c FILE                           run again and again\n" ++
    "  list    -c FILE [--state STATE]...        list predictions\n" ++
    "  reset   -c FILE --id ID                   make a prediction start again\n" ++
    "\nOptions:\n" ++
    "  -v, --verbose\n" ++
    "  -h, --help\n"

/-! ### Options -/

/-- What the value of an option must be. -/
inductive ValueKind where
  /-- There is no value. -/
  | none
  /-- There is no value, and giving the option asks for help. -/
  | help
  /-- A path, which is not empty. -/
  | path
  | text
  | time
  | outcome
  deriving Repr, DecidableEq

/-- An option. -/
structure Flag where
  long : String
  short : Option Char
  kind : ValueKind
  /-- Whether the option may be given more than once. -/
  repeatable : Bool
  /-- Whether the option must be given. -/
  required : Bool
  deriving Repr, DecidableEq

/-- Whether the option has a value. -/
def Flag.takesValue (f : Flag) : Bool :=
  f.kind ≠ .none && f.kind ≠ .help

/-- The options that go with every command. -/
def everywhere : List Flag :=
  [⟨"verbose", some 'v', .none, false, false⟩, ⟨"help", some 'h', .help, false, false⟩]

/-- The configuration file. -/
def config : Flag := ⟨"config", some 'c', .path, false, true⟩

/-- The file with a draft. -/
def input : Flag := ⟨"input", some 'i', .path, false, true⟩

/-- The commands with the options of their own. -/
def commands : List (String × List Flag) :=
  [("compile", [input, ⟨"json", none, .none, false, false⟩]),
    ("add", [config, input]),
    ("run", [config, ⟨"now", none, .time, false, false⟩]),
    ("watch", [config]),
    ("list", [config, ⟨"state", none, .outcome, true, false⟩]),
    ("reset", [config, ⟨"id", none, .text, false, true⟩])]

/-- Whether a text can be the value of an option. -/
def ValueKind.check (kind : ValueKind) (value : String) : Except UsageError Unit :=
  match kind with
  | .path => if value = "" then .error .missingValue else .ok ()
  | .time =>
    match Calendar.readTime value with
    | .ok _ => .ok ()
    | .error _ => .error .invalidValue
  | .outcome =>
    match Outcome.parse value with
    | .ok _ => .ok ()
    | .error _ => .error .invalidValue
  | _ => .ok ()

/-! ### Reading words -/

/-- What has been read: the options that are complete, with their values, and an option that may not
be complete yet. -/
structure Reading where
  given : List (Flag × String)
  pending : Option (Flag × Option String)

namespace Reading

/-- Nothing read yet. -/
def start : Reading := ⟨[], none⟩

/-- Whether an option is complete. -/
def has (r : Reading) (f : Flag) : Bool :=
  r.given.any (·.1 == f)

/-- Completes an option. -/
def complete (r : Reading) (f : Flag) (value : String) : Except UsageError Reading :=
  if r.has f && !f.repeatable then .error .repeated
  else (f.kind.check value).map fun _ => { r with given := r.given ++ [(f, value)] }

/-- Completes the option that may not be complete. -/
def settle (r : Reading) : Except UsageError Reading :=
  match r.pending with
  | none => .ok r
  | some (_, none) => .error .missingValue
  | some (f, some value) => complete { r with pending := none } f value

/-- Reads an option with the value that is attached to it, if there is one. -/
def take (r : Reading) (f : Flag) (attached : Option String) : Except UsageError Reading := do
  match attached with
  | some value =>
    if f.takesValue then (← r.settle).complete f value else .error .unexpectedValue
  | none =>
    let r ← r.settle
    match f.kind with
    | .help => .error .help
    | .none => r.complete f ""
    | _ => return { r with pending := some (f, none) }

/-- Reads a word that is no option: it must be the value that an option waits for. -/
def takeWord (r : Reading) (word : String) : Except UsageError Reading :=
  match r.pending with
  | some (f, none) => .ok { r with pending := some (f, some word) }
  | _ => .error .unknownArgument

/-- Reads a long option without its dashes. -/
def takeLong (flags : List Flag) (r : Reading) (cs : List Char) : Except UsageError Reading :=
  let name := String.ofList (cs.takeWhile (· ≠ '='))
  match flags.find? (·.long == name) with
  | none => .error .unknownArgument
  | some f => r.take f ((Text.cutAt '=' cs).map fun p => String.ofList p.2)

/-- The value in the rest of a word after a short option. -/
def attachedTo : List Char → Option String
  | [] => none
  | '=' :: cs => some (String.ofList cs)
  | cs => some (String.ofList cs)

/-- Reads the short options of a word. -/
def takeShort (flags : List Flag) : Reading → List Char → Except UsageError Reading
  | r, [] => .ok r
  | r, c :: cs =>
    match flags.find? (·.short == some c) with
    | none => .error .unknownArgument
    | some f =>
      if f.takesValue then r.take f (attachedTo cs)
      else
        match r.take f none with
        | .ok r => takeShort flags r cs
        | .error e => .error e

end Reading

/-- A word by its form. -/
inductive Form where
  | endOfOptions
  | long (cs : List Char)
  | short (cs : List Char)
  | plain
  deriving Repr, DecidableEq

/-- The form of a word. -/
def formOf : List Char → Form
  | ['-', '-'] => .endOfOptions
  | '-' :: '-' :: cs => .long cs
  | '-' :: c :: cs => .short (c :: cs)
  | _ => .plain

/-- Reads the words after a command. -/
def readOptions (flags : List Flag) : Reading → List String → Except UsageError Reading
  | r, [] => r.settle
  | r, w :: ws =>
    match formOf w.toList with
    | .endOfOptions => if ws.isEmpty then r.settle else .error .unknownArgument
    | .long cs =>
      match r.takeLong flags cs with
      | .ok r => readOptions flags r ws
      | .error e => .error e
    | .short cs =>
      match r.takeShort flags cs with
      | .ok r => readOptions flags r ws
      | .error e => .error e
    | .plain =>
      match r.takeWord w with
      | .ok r => readOptions flags r ws
      | .error e => .error e

/-! ### Commands -/

/-- The values of an option. -/
def valuesOf (r : Reading) (long : String) : List String :=
  (r.given.filter (·.1.long == long)).map (·.2)

/-- The value of an option, empty if it is not given. -/
def valueOf (r : Reading) (long : String) : String :=
  (valuesOf r long).head?.getD ""

/-- Whether an option is given. -/
def isGiven (r : Reading) (long : String) : Bool :=
  r.given.any (·.1.long == long)

/-- The command with a name and its options. -/
def commandOf (name : String) (r : Reading) : Option Command :=
  match name with
  | "compile" => some (.compile (valueOf r "input") (isGiven r "json"))
  | "add" => some (.add (valueOf r "config") (valueOf r "input"))
  | "run" =>
    some (.run (valueOf r "config")
      ((valuesOf r "now").head?.bind fun s => (Calendar.readTime s).toOption))
  | "watch" => some (.watch (valueOf r "config"))
  | "list" =>
    some (.list (valueOf r "config")
      ((valuesOf r "state").filterMap fun s => (Outcome.parse s).toOption))
  | "reset" => some (.reset (valueOf r "config") (valueOf r "id"))
  | _ => none

/-- Reads a command from its name and the words after it; `before` says whether `-v` stood before
it. -/
def readCommand (before : Bool) (name : String) (own : List Flag) (words : List String) :
    Except UsageError Invocation := do
  let flags := own ++ everywhere
  let r ← readOptions flags .start words
  if flags.any fun f => f.required && !r.has f then .error .missingOption
  else
    match commandOf name r with
    | some command => return ⟨before || isGiven r "verbose", command⟩
    | none => .error .unknownCommand

/-- What the words after `help` lead to. Help is there for the program, for every command and for
`help` itself. -/
def readHelp : List String → UsageError
  | [] => .help
  | [name] => if name = "help" ∨ (commands.lookup name).isSome then .help else .unknownCommand
  | _ => .unknownCommand

/-- Whether a word names a command. -/
def isCommand (word : String) : Bool :=
  word == "help" || (commands.lookup word).isSome

/-- What a line without a command is refused for. -/
def withoutCommand (r : Reading) : UsageError :=
  if r.given.isEmpty then .helpForNothing else .missingCommand

/-- Reads the words up to the command, and then the command. -/
def readWords : Reading → List String → Except UsageError Invocation
  | r, [] => .error (withoutCommand r)
  | r, w :: ws =>
    match commands.lookup w with
    | some own => readCommand (isGiven r "verbose") w own ws
    | none =>
      if w = "help" then .error (readHelp ws)
      else
        match formOf w.toList with
        | .endOfOptions =>
          match ws with
          | [] => .error (withoutCommand r)
          | next :: _ =>
            .error (if isCommand next then .unknownArgument else .unknownCommand)
        | .long cs =>
          match r.takeLong everywhere cs with
          | .ok r => readWords r ws
          | .error e => .error e
        | .short cs =>
          match r.takeShort everywhere cs with
          | .ok r => readWords r ws
          | .error e => .error e
        | .plain => .error .unknownCommand

/-- Reads a command line, the name of the program left out. -/
def parse (words : List String) : Except UsageError Invocation :=
  readWords .start words

end CommandLine

end Forecast
