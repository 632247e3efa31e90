import Forecast.Database
import Forecast.Json.Quoted
import Forecast.Text.Words

/-!
# Where a database is kept

A configuration names a database by a path or by an address. The empty path and `:memory:` stand for
a database in memory. An address is `file:` with a path, in which characters may be given as bytes
of base 16 behind a percent sign, and with options: `mode` says whether the file may be made and
written, or that there is no file at all; `cache` and `vfs` say how it is worked on. What follows a
number sign does not count.

A path is simplified by its spelling alone, so a part that is followed by `..` need not exist.
-/

namespace Forecast

/-- What may be done with the file of a database. -/
inductive Access where
  | reading
  | writing
  /-- Writing, and the file is made if there is none. -/
  | making
  deriving Repr, DecidableEq

/-- Where a database is kept. -/
inductive Location where
  /-- In memory: blank at first, and forgotten in the end. -/
  | memory
  | file (path : String) (access : Access)
  deriving Repr, DecidableEq

/-- What a path leads to when a database is looked for. -/
inductive Found where
  /-- No file, though there could be one. -/
  | nothing
  | database (d : Database)
  /-- A file that is no database. -/
  | foreign
  /-- No place for a file. -/
  | unreachable

namespace Location

/-! ### Paths -/

/-- Puts a part of a path behind the parts before it, which are in reverse. -/
def addPart (absolute : Bool) (before : List String) (part : String) : List String :=
  if part = "" ∨ part = "." then before
  else if part = ".." then
    match before with
    | [] => if absolute then [] else [".."]
    | last :: rest => if last = ".." then ".." :: before else rest
  else part :: before

/-- A path without the parts that lead nowhere or back. -/
def simplified (path : String) : String :=
  let absolute := path.toList.head? == some '/'
  let parts := ((Text.splitAt '/' path).foldl (addPart absolute) []).reverse
  if absolute then "/" ++ "/".intercalate parts
  else if parts.isEmpty then "."
  else "/".intercalate parts

/-- The directory of a simplified path. -/
def directory (path : String) : String :=
  simplified (path ++ "/..")

/-- The location with a path. -/
def ofPath (path : String) (access : Access) : Location :=
  if path = "" ∨ path = ":memory:" then .memory else .file (simplified path) access

/-! ### Addresses -/

/-- Puts the bytes that are given by their digits. A byte 0 ends the text. -/
def decodeBytes : List UInt8 → List UInt8
  | [] => []
  | p :: a :: b :: rest =>
    match Json.codeUnit '0' '0' (Char.ofNat a.toNat) (Char.ofNat b.toNat) with
    | some n =>
      if p ≠ 37 then p :: decodeBytes (a :: b :: rest)
      else if n = 0 then []
      else UInt8.ofNat n :: decodeBytes rest
    | none => p :: decodeBytes (a :: b :: rest)
  | p :: rest => p :: decodeBytes rest

/-- A piece of an address with its bytes put, if they are a text. -/
def decoded (s : List Char) : Except String String :=
  match String.fromUTF8? ⟨(decodeBytes (String.ofList s).toUTF8.toList).toArray⟩ with
  | some t => .ok t
  | none => .error ("unable to open database file: " ++ String.ofList s)

/-- The part of an address behind its authority, which must be empty or this machine. -/
def afterAuthority : List Char → Except String (List Char)
  | '/' :: '/' :: cs =>
    let authority := String.ofList (cs.takeWhile (· ≠ '/'))
    if authority = "" ∨ authority = "localhost" then .ok (cs.dropWhile (· ≠ '/'))
    else .error ("invalid uri authority: " ++ authority)
  | cs => .ok cs

/-- The name and value of an option. -/
def readOption (s : List Char) : Except String (String × String) :=
  match Text.cutAt '=' s with
  | some (name, value) => do return (← decoded name, ← decoded value)
  | none => do return (← decoded s, "")

/-- What the options of an address come to. -/
structure Options where
  inMemory : Bool
  access : Access
  vfs : String

/-- Follows an option; one that is not known does not count. -/
def Options.follow (o : Options) : String × String → Except String Options
  | ("mode", "memory") => .ok { o with inMemory := true }
  | ("mode", "ro") => .ok { o with inMemory := false, access := .reading }
  | ("mode", "rw") => .ok { o with inMemory := false, access := .writing }
  | ("mode", "rwc") => .ok { o with inMemory := false, access := .making }
  | ("mode", mode) => .error ("no such access mode: " ++ mode)
  | ("cache", "shared") => .ok o
  | ("cache", "private") => .ok o
  | ("cache", mode) => .error ("no such cache mode: " ++ mode)
  | ("vfs", vfs) => .ok { o with vfs }
  | _ => .ok o

/-- The ways of working on files. -/
def fileSystems : List String :=
  ["unix", "unix-none", "unix-dotfile", "unix-excl"]

/-- The location of an address without `file:`. -/
def ofAddress (cs : List Char) : Except String Location := do
  let cs := (← afterAuthority cs).takeWhile (· ≠ '#')
  let (path, query) := (Text.cutAt '?' cs).getD (cs, [])
  let options ← ((Text.pieces (· == '&') query).filter (!·.isEmpty)).mapM readOption
  let o ← (options.filter (·.1 ≠ "")).foldlM Options.follow ⟨false, .making, "unix"⟩
  if o.inMemory ∨ o.vfs = "memdb" then return .memory
  else if o.vfs ∈ fileSystems then return ofPath (← decoded path) o.access
  else .error ("no such vfs: " ++ o.vfs)

/-- The location that a configuration names. -/
def read (name : String) : Except String Location :=
  match name.toList with
  | 'f' :: 'i' :: 'l' :: 'e' :: ':' :: cs => ofAddress cs
  | _ => .ok (ofPath name .making)

/-! ### Opening -/

/-- The failure of a database that cannot be opened. Opening is tried again and again for a while. -/
def unopened (reason : String) : Failure :=
  .database ("timed out waiting for connection: " ++ reason)

/-- The failure of writing where only reading is possible. -/
def readOnly : Failure :=
  .databaseQuery "attempt to write a readonly database"

/-- The database that is found at a location with a name, with its tables made. -/
def openTables (found : String → Found) (name : String) : Location → Except Failure Database
  | .memory => .ok Database.blank.withTables
  | .file path access =>
    match found path, access with
    | .database d, .reading => if d.tables.isSome then .ok d else .error readOnly
    | .database d, _ => .ok d.withTables
    | .nothing, .making => .ok Database.blank.withTables
    | .foreign, _ => .error (.databaseQuery "file is not a database")
    | _, _ => .error (unopened ("unable to open database file: " ++ name))

end Location

end Forecast
