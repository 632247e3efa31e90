import Forecast.Calendar.Instant

/-!
# Reading times

Three written forms of a time are read.

* A *strict timestamp*: date, `T` or `t` or a space, time of day, and an offset from UTC, every
  field in its full width (`2024-01-01T02:00:00+02:00`).
* A *bare date*, which means its midnight in UTC. Fields may be shorter than usual, blanks may
  stand before a number, and a year with a sign may have any number of digits.
* A *stored timestamp*, as read back from a document: like a strict timestamp, but with the leeway
  of a bare date, blanks around the punctuation, and `UTC` as a possible offset.

An author writes a strict timestamp or a bare date (`readTime`).
-/

namespace Forecast.Calendar

/-- What a reader of a prefix yields: a value and the text after it. -/
abbrev Scan (α : Type) := Option (α × List Char)

/-- Reads a run of at least `least` and at most `most` digits. -/
def scanDigits (least most : Nat) (cs : List Char) : Scan Nat :=
  let ds := (cs.take most).takeWhile Char.isDigit
  if ds.length < least then none
  else some (Decimal.digitsValue ds, cs.drop ds.length)

/-- Reads a number of one or more digits, however many there are. -/
def scanNumber (cs : List Char) : Scan Nat :=
  scanDigits 1 cs.length cs

/-- Reads one given character. -/
def scanChar (c : Char) : List Char → Option (List Char)
  | d :: cs => if d = c then some cs else none
  | [] => none

/-- Reads a year: with a sign any number of digits, without a sign one to four. -/
def scanYear : List Char → Scan Int
  | '-' :: cs => (scanNumber cs).map fun (n, rest) => (-(n : Int), rest)
  | '+' :: cs => (scanNumber cs).map fun (n, rest) => ((n : Int), rest)
  | cs => (scanDigits 1 4 cs).map fun (n, rest) => ((n : Int), rest)

/-- The character between date and time of day. -/
def scanSeparator : List Char → Option (List Char)
  | c :: cs => if c = 'T' ∨ c = 't' ∨ c = ' ' then some cs else none
  | [] => none

/-- Reads the digits of a fraction of a second; those after the ninth are dropped. -/
def scanNanos (cs : List Char) : Scan Nat :=
  let ds := cs.takeWhile Char.isDigit
  if ds = [] then none
  else
    let kept := ds.take 9
    some (Decimal.digitsValue kept * Decimal.tenTo (9 - kept.length), cs.drop ds.length)

/-- Reads the fraction of a second if a point announces one. -/
def scanFraction : List Char → Scan Nat
  | '.' :: cs => scanNanos cs
  | cs => some (0, cs)

/-- Reads an offset from UTC in seconds: `Z`, or a sign (the minus sign of typography included),
two digits of hours and two of minutes; `colon` reads what stands between hours and minutes. -/
def scanOffset (colon : List Char → Option (List Char)) (cs : List Char) :
    Option (Int × List Char) := do
  let signed (sign : Int) (ds : List Char) : Option (Int × List Char) := do
    let (hours, ds) ← scanDigits 2 2 ds
    let ds ← colon ds
    let (minutes, ds) ← scanDigits 2 2 ds
    if 23 < hours ∨ 59 < minutes then none
    else some (sign * (hours * 3600 + minutes * 60), ds)
  match cs with
  | 'Z' :: rest => some (0, rest)
  | 'z' :: rest => some (0, rest)
  | '+' :: ds => signed 1 ds
  | '-' :: ds => signed (-1) ds
  | '−' :: ds => signed (-1) ds
  | _ => none

/-- The fields of a timestamp as they are written. -/
structure Fields where
  date : Date
  hour : Nat
  minute : Nat
  second : Nat
  nanos : Nat
  offset : Int

/-- The instant that the fields of a timestamp name, if they name one: second 60 is a leap second
in any minute, and the offset is taken off. -/
def Fields.instant (f : Fields) : Option Instant :=
  if f.date.exists && f.hour ≤ 23 && f.minute ≤ 59 && f.second ≤ 60 then
    let leap := f.second == 60
    let second := if leap then 59 else f.second
    let nanos := f.nanos + (if leap then nanosPerSecond else 0)
    let clock : Int := f.hour * 3600 + f.minute * 60 + second
    let t := Instant.ofDay f.date.toDays (clock - f.offset) nanos
    if t.exists then some t else none
  else none

/-- Reads a strict timestamp. -/
def readTimestamp (cs : List Char) : Option Instant := do
  let (year, cs) ← scanDigits 4 4 cs
  let cs ← scanChar '-' cs
  let (month, cs) ← scanDigits 2 2 cs
  let cs ← scanChar '-' cs
  let (day, cs) ← scanDigits 2 2 cs
  let cs ← scanSeparator cs
  let (hour, cs) ← scanDigits 2 2 cs
  let cs ← scanChar ':' cs
  let (minute, cs) ← scanDigits 2 2 cs
  let cs ← scanChar ':' cs
  let (second, cs) ← scanDigits 2 2 cs
  let (nanos, cs) ← scanFraction cs
  let (offset, cs) ← scanOffset (scanChar ':') cs
  if cs = [] then Fields.instant ⟨⟨year, month, day⟩, hour, minute, second, nanos, offset⟩
  else none

/-- Reads a date, with `gap` applied before each dash. -/
def scanDate (gap : List Char → List Char) (cs : List Char) :
    Option (Date × List Char) := do
  let (year, cs) ← scanYear (Text.trimStart cs)
  let cs ← scanChar '-' (gap cs)
  let (month, cs) ← scanDigits 1 2 (Text.trimStart cs)
  let cs ← scanChar '-' (gap cs)
  let (day, cs) ← scanDigits 1 2 (Text.trimStart cs)
  return (⟨year, month, day⟩, cs)

/-- Reads a bare date as its midnight in UTC. -/
def readDate (cs : List Char) : Option Instant := do
  let (date, cs) ← scanDate id cs
  if cs = [] ∧ date.exists then some date.midnight else none

/-- Reads the offset of a stored timestamp: `UTC` in any case, or an offset whose colon may be
missing or surrounded by blanks. -/
def scanStoredOffset (cs : List Char) : Scan Int :=
  if (cs.take 3).map Char.toUpper = ['U', 'T', 'C'] then some (0, cs.drop 3)
  else scanOffset (fun ds => some (ds.dropWhile fun c => c == ':' || Text.isBlank c)) cs

/-- Reads a stored timestamp. -/
def readStored (cs : List Char) : Option Instant := do
  let (date, cs) ← scanDate Text.trimStart cs
  let cs ← scanSeparator cs
  let (hour, cs) ← scanDigits 1 2 (Text.trimStart cs)
  let cs ← scanChar ':' (Text.trimStart cs)
  let (minute, cs) ← scanDigits 1 2 (Text.trimStart cs)
  let cs ← scanChar ':' (Text.trimStart cs)
  let (second, cs) ← scanDigits 1 2 (Text.trimStart cs)
  let (nanos, cs) ← scanFraction cs
  let (offset, cs) ← scanStoredOffset (Text.trimStart cs)
  if Text.trimStart cs = [] then Fields.instant ⟨date, hour, minute, second, nanos, offset⟩
  else none

/-- Why a time could not be used. -/
inductive TimeError where
  /-- The text is neither a timestamp nor a date. -/
  | unreadable (text : String)
  deriving Repr, DecidableEq

/-- The wording of a time error. -/
def TimeError.message : TimeError → String
  | .unreadable text => "invalid ISO8601 timestamp '" ++ text ++ "'"

/-- Reads a time as an author writes it, blanks around it aside: a strict timestamp or else a bare
date. -/
def readTime (s : String) : Except TimeError Instant :=
  let cs := Text.trimChars s.toList
  match readTimestamp cs with
  | some t => .ok t
  | none =>
    match readDate cs with
    | some t => .ok t
    | none => .error (.unreadable s)

end Forecast.Calendar
