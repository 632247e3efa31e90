import Forecast.Keyed
import Forecast.Text.Words

/-!
# Configuration Texts

A configuration is a text of lines: `[group]` begins a group of settings, `key = value` or
`key: value` is a setting, and a key alone is a setting without a value. What follows a `;` or `#`
is a comment. Names of groups and keys do not depend on case. A setting that is written twice has
its last value, and a group may be continued later. Settings before the first group belong to the
group `default`.
-/

namespace Forecast

/-- Groups of settings. -/
structure Ini where
  groups : Keyed (Keyed (Option String))

namespace Ini

/-- A configuration without settings. -/
def empty : Ini := ⟨.empty⟩

/-- Whether a character begins a comment. -/
def isComment (c : Char) : Bool :=
  c == ';' || c == '#'

/-- Whether a character ends a key. -/
def isDelimiter (c : Char) : Bool :=
  c == '=' || c == ':'

/-- What a line says. -/
inductive Line where
  | nothing
  | group (name : String)
  | setting (key : String) (value : Option String)
  deriving Repr, DecidableEq

/-- Why a line cannot be read. -/
inductive Fault where
  /-- The name of a group is not closed. -/
  | unclosedGroup
  /-- Nothing stands before the delimiter. -/
  | emptyKey
  deriving Repr, DecidableEq

/-- The wording of a fault in a line, counted from 1. -/
def Fault.message (line : Nat) : Fault → String
  | .unclosedGroup => "line " ++ toString line ++ ": section name is not closed"
  | .emptyKey => "line " ++ toString line ++ ": key is empty"

/-- A name without blanks around it and in lower case. -/
def nameOf (cs : List Char) : String :=
  Text.lower (String.ofList (Text.trimChars cs))

/-- The text before the last closing bracket. -/
def beforeBracket (cs : List Char) : Option (List Char) :=
  match cs.reverse.dropWhile (· ≠ ']') with
  | [] => none
  | _ :: before => some before.reverse

/-- Reads what is left of a line without its comment and the blanks around it. -/
def readContent : List Char → Except Fault Line
  | [] => .ok .nothing
  | '[' :: cs =>
    match beforeBracket cs with
    | some name => .ok (.group (nameOf name))
    | none => .error .unclosedGroup
  | cs =>
    let key := cs.takeWhile (!isDelimiter ·)
    match cs.dropWhile (!isDelimiter ·) with
    | [] => .ok (.setting (nameOf key) none)
    | _ :: value =>
      if Text.trimChars key = [] then .error .emptyKey
      else .ok (.setting (nameOf key) (some (String.ofList (Text.trimChars value))))

/-- Reads a line. -/
def readLine (cs : List Char) : Except Fault Line :=
  readContent (Text.trimChars (cs.takeWhile (!isComment ·)))

/-- Adds a setting to a group. -/
def insert (ini : Ini) (group key : String) (value : Option String) : Ini :=
  ⟨ini.groups.insert group (((ini.groups.get? group).getD .empty).insert key value)⟩

/-- Adds a group, which stays as it is if it is there. -/
def withGroup (ini : Ini) (group : String) : Ini :=
  ⟨ini.groups.insert group ((ini.groups.get? group).getD .empty)⟩

/-- Reads lines, the first of which is line `n`, into a group. -/
def readLines : (n : Nat) → (group : String) → Ini → List (List Char) → Except String Ini
  | _, _, ini, [] => .ok ini
  | n, group, ini, cs :: rest =>
    match readLine cs with
    | .error fault => .error (fault.message n)
    | .ok .nothing => readLines (n + 1) group ini rest
    | .ok (.group name) => readLines (n + 1) name (ini.withGroup name) rest
    | .ok (.setting key value) => readLines (n + 1) group (ini.insert group key value) rest

/-- Reads a configuration. -/
def read (text : String) : Except String Ini :=
  readLines 1 "default" .empty (Text.pieces (· == '\n') text.toList)

/-! ### Look-ups -/

/-- The value of a setting, if it has one. -/
def get? (ini : Ini) (group key : String) : Option String :=
  ((ini.groups.get? (Text.lower group)).bind fun g => g.get? (Text.lower key)).join

end Ini

end Forecast
