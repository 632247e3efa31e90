import Forecast.Text.Words

/-!
# Comma-Separated Records

A text of records, one a line, with fields separated by commas. A field that begins with a quote
may hold commas, line ends and, written twice, quotes. A line ends with a line feed, a carriage
return, or both; empty lines are no records. Every record must have as many fields as the first.

Errors name the place where a record begins. The place is taken right after the record before it,
so it lies before the line feed that completes a line end of two characters, and before empty
lines.
-/

namespace Forecast.Csv

/-- A place in a text. -/
structure Place where
  /-- How many records begin before it. -/
  record : Nat
  /-- The line, counted from 1 by line feeds. -/
  line : Nat
  /-- The offset in bytes of UTF-8. -/
  byte : Nat
  deriving Repr, DecidableEq

/-- The place after a character. -/
def Place.after (p : Place) (c : Char) : Place :=
  { p with line := if c = '\n' then p.line + 1 else p.line, byte := p.byte + c.utf8Size }

/-- A record with the place where it begins. -/
structure Record where
  place : Place
  fields : List (List Char)
  deriving Repr, DecidableEq

/-- Where a scan stands. -/
inductive Mode where
  /-- Before a record. -/
  | recordStart
  /-- After a carriage return that ended a record. -/
  | afterReturn
  /-- Before a field. -/
  | fieldStart
  | inField
  | inQuotes
  /-- After a quote that closes the field, or is the first of two. -/
  | afterQuote
  deriving Repr, DecidableEq

/-- What a character does to the record being read. -/
inductive Effect where
  | skip
  | keep
  | endField
  | endRecord
  deriving Repr, DecidableEq

/-- What a character does outside of quotes, within or at the end of a field. -/
def Mode.moveInField (c : Char) : Mode × Effect :=
  if c = ',' then (.fieldStart, .endField)
  else if c = '\r' then (.afterReturn, .endRecord)
  else if c = '\n' then (.recordStart, .endRecord)
  else (.inField, .keep)

/-- What a character does before a field. -/
def Mode.moveAtField (c : Char) : Mode × Effect :=
  if c = '"' then (.inQuotes, .skip) else moveInField c

/-- What a character does before a record. -/
def Mode.moveAtRecord (c : Char) : Mode × Effect :=
  if c = '\r' ∨ c = '\n' then (.recordStart, .skip) else moveAtField c

/-- What a character does. -/
def Mode.move : Mode → Char → Mode × Effect
  | .recordStart, c => moveAtRecord c
  | .afterReturn, c => if c = '\n' then (.recordStart, .skip) else moveAtRecord c
  | .fieldStart, c => moveAtField c
  | .inField, c => moveInField c
  | .inQuotes, c => if c = '"' then (.afterQuote, .skip) else (.inQuotes, .keep)
  | .afterQuote, c => if c = '"' then (.inQuotes, .keep) else moveInField c

/-- Whether the end of the text leaves a record to be completed. -/
def Mode.isInRecord : Mode → Bool
  | .recordStart => false
  | .afterReturn => false
  | _ => true

/-- What has been read of a record: complete fields and the field under way, both in reverse. -/
structure Draft where
  start : Place
  fields : List (List Char)
  field : List Char

/-- A record of which nothing has been read. -/
def Draft.at (p : Place) : Draft := ⟨p, [], []⟩

/-- The record with its last field completed. -/
def Draft.finish (d : Draft) : Record :=
  ⟨d.start, (d.field.reverse :: d.fields).reverse⟩

/-- The place where the record after one that ends at `p` begins. -/
def Place.nextRecord (p : Place) : Place :=
  { p with record := p.record + 1 }

/-- Reads records to the end of the text. -/
def scan (mode : Mode) (here : Place) (d : Draft) : List Char → List Record
  | [] => if mode.isInRecord then [d.finish] else []
  | c :: cs =>
    let next := here.after c
    match mode.move c with
    | (mode, .skip) => scan mode next d cs
    | (mode, .keep) => scan mode next { d with field := c :: d.field } cs
    | (mode, .endField) => scan mode next ⟨d.start, d.field.reverse :: d.fields, []⟩ cs
    | (mode, .endRecord) => d.finish :: scan mode next.nextRecord (.at next.nextRecord) cs

/-- The beginning of a text. -/
def Place.origin : Place := ⟨0, 1, 0⟩

/-- The records of a text. A byte order mark at its beginning is passed over. -/
def records : List Char → List Record
  | '\uFEFF' :: cs => scan .recordStart (Place.origin.after '\uFEFF') (.at .origin) cs
  | cs => scan .recordStart .origin (.at .origin) cs

/-- A record with another number of fields than the first. -/
structure LengthError where
  place : Place
  expected : Nat
  found : Nat
  deriving Repr, DecidableEq

/-- The wording of a length error. -/
def LengthError.message (e : LengthError) : String :=
  "CSV error: record " ++ toString e.place.record ++ " (line: " ++ toString e.place.line ++
    ", byte: " ++ toString e.place.byte ++ "): found record with " ++ toString e.found ++
    " fields, but the previous record has " ++ toString e.expected ++ " fields"

/-- The fields of a record, which must be of the expected number, without the blanks around them. -/
def Record.check (expected : Nat) (r : Record) : Except LengthError (List String) :=
  if r.fields.length = expected then
    .ok (r.fields.map fun f => String.ofList (Text.trimChars f))
  else .error ⟨r.place, expected, r.fields.length⟩

/-- The rows of a text: the records after the first, which only names the fields. -/
def rows (text : String) : List (Except LengthError (List String)) :=
  match records text.toList with
  | [] => []
  | header :: rest => rest.map (Record.check header.fields.length)

end Forecast.Csv
