import Forecast.Execution

/-!
# Workplaces

A workplace is a directory with files and databases in memory, in which commands are performed one
after the other. A path is followed part by part from the workplace or, if it begins with a slash,
from the root: every part but the last must be a directory, and so must what a slash follows. Of
the rest of the machine a workplace shows the usual directories and the empty device.

`read` and `find` are what a command sees of a workplace, and `perform` is what it makes of it.
-/

namespace Forecast

/-- What a file holds: a text, unless it cannot be read as one, or a database. -/
inductive Content where
  | text (read : Except FileError String)
  | database (d : Database)

/-- The files of a workplace by their simplified paths in it. -/
structure Workplace where
  files : Keyed Content

namespace Workplace

/-- A workplace without files. -/
def empty : Workplace := ⟨.empty⟩

/-- Where a workplace is, from the root on. -/
def home : List String := ["tmp", "workplace"]

/-- The directories at the root of a machine. -/
def rootDirectories : List String :=
  ["bin", "boot", "dev", "etc", "home", "lib", "lib64", "media", "mnt", "opt", "proc", "root",
    "run", "sbin", "srv", "sys", "tmp", "usr", "var"]

/-- What is at a place. -/
inductive Node where
  | nothing
  | directory
  | file (content : Content)

/-- Whether a path leads into a directory. -/
def leadsInto (directory path : String) : Bool :=
  (directory ++ "/").toList.isPrefixOf path.toList

/-- What is at a place in the workplace, given by its path there. A directory of the workplace is
there as long as it has files. -/
def nodeWithin (w : Workplace) (path : String) : Node :=
  match w.files.get? path with
  | some content => .file content
  | none => if w.files.entries.any (leadsInto path ·.1) then .directory else .nothing

/-- What is at a place, given by the names that lead to it from the root. -/
def node (w : Workplace) (place : List String) : Node :=
  if place = ["dev", "null"] then .file (.text (.ok ""))
  else if place.isPrefixOf home then .directory
  else if home.isPrefixOf place then
    w.nodeWithin ("/".intercalate (place.drop home.length))
  else
    match place with
    | [name] => if rootDirectories.contains name then .directory else .nothing
    | _ => .nothing

/-! ### Paths -/

/-- The largest number of bytes in the name of a file. -/
def maxName : Nat := 255

/-- The largest number of bytes in a path. -/
def maxPath : Nat := 4095

/-- Goes from a place along the parts of a path. -/
def walk (w : Workplace) : (place : List String) → List String → Except FileError (List String)
  | place, [] => .ok place
  | place, part :: parts =>
    match w.node place with
    | .nothing => .error .missing
    | .file _ => .error .notDirectory
    | .directory =>
      if part = "" ∨ part = "." then walk w place parts
      else if part = ".." then walk w place.dropLast parts
      else if maxName < part.utf8ByteSize then .error .nameTooLong
      else walk w (place ++ [part]) parts

/-- The place that a path leads to. -/
def follow (w : Workplace) (path : String) : Except FileError (List String) :=
  if path.toList.contains (Char.ofNat 0) then .error .nulInName
  else if maxPath < path.utf8ByteSize then .error .nameTooLong
  else if path = "" then .error .missing
  else
    let start := if path.toList.head? == some '/' then [] else home
    w.walk start (Text.splitAt '/' path)

/-- Reads the file at a path. A database is no text. -/
def read (w : Workplace) (path : String) : Except FileError String := do
  match w.node (← w.follow path) with
  | .nothing => .error .missing
  | .directory => .error .directory
  | .file (.text text) => text
  | .file (.database _) => .error .notText

/-- Looks for a database at a path. An empty file is a database without tables. -/
def find (w : Workplace) (path : String) : Found :=
  match w.follow path with
  | .error _ => .unreachable
  | .ok place =>
    match w.node place with
    | .nothing => if home.isPrefixOf place then .nothing else .unreachable
    | .directory => .unreachable
    | .file (.text (.ok "")) => .database .blank
    | .file (.text _) => .foreign
    | .file (.database d) => .database d

/-! ### Commands -/

/-- The path in the workplace of a path that leads into it. -/
def within (path : String) : String :=
  let absolute := path.toList.head? == some '/'
  let parts := (Text.splitAt '/' (Location.simplified path)).filter (· ≠ "")
  "/".intercalate (if absolute then parts.drop home.length else parts)

/-- The workplace with a file, over the one that was there. -/
def put (w : Workplace) (path : String) (content : Content) : Workplace :=
  ⟨w.files.insert (within path) content⟩

/-- The workplace with some files written. -/
def withFiles (w : Workplace) (files : List (String × Except FileError String)) : Workplace :=
  files.foldl (fun w e => w.put e.1 (.text e.2)) w

/-- What a command can see of a workplace. -/
def environment (w : Workplace) : Environment :=
  ⟨w.read, w.find⟩

/-- The workplace after a command, in which the database that it kept is written. -/
def after (w : Workplace) (e : Execution) : Workplace :=
  match e.kept with
  | some (path, d) => w.put path (.database d)
  | none => w

/-- Performs a command at a time, unless it crashes. -/
def perform (w : Workplace) (now : Calendar.Instant) (c : Command) :
    Option (Execution × Workplace) :=
  (c.execute? w.environment now).map fun e => (e, w.after e)

end Workplace

end Forecast
