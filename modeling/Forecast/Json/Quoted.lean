import Forecast.Json.Value

/-!
# Quoted text

How a string stands in a document: between quotes, with a backslash in front of quotes and
backslashes, and with escapes for control characters. On reading, any character may be escaped by
its UTF-16 code units.

An escape of half a surrogate pair names no character. The text around it can still be passed
over, so `scanQuoted` tells such a text apart from a malformed one.
-/

namespace Forecast.Json

/-- A digit of base 16 in lower case. -/
def hexDigit (n : Nat) : Char :=
  if n < 10 then Char.ofNat (48 + n) else Char.ofNat (87 + n)

/-- How one character is written inside quotes. -/
def escapeChar (c : Char) : List Char :=
  if c = '"' then ['\\', '"']
  else if c = '\\' then ['\\', '\\']
  else if c = '\n' then ['\\', 'n']
  else if c = '\t' then ['\\', 't']
  else if c = '\r' then ['\\', 'r']
  else if c.toNat = 8 then ['\\', 'b']
  else if c.toNat = 12 then ['\\', 'f']
  else if c.toNat < 32 then
    ['\\', 'u', '0', '0', hexDigit (c.toNat / 16), hexDigit (c.toNat % 16)]
  else [c]

/-- A text inside quotes. -/
def quote (cs : List Char) : List Char :=
  '"' :: cs.flatMap escapeChar ++ ['"']

/-- The value of a digit of base 16, in either case. -/
def hexValue (c : Char) : Option Nat :=
  if c.isDigit then some (c.toNat - 48)
  else if 97 ≤ c.toNat ∧ c.toNat ≤ 102 then some (c.toNat - 87)
  else if 65 ≤ c.toNat ∧ c.toNat ≤ 70 then some (c.toNat - 55)
  else none

/-- The code unit of four digits of base 16. -/
def codeUnit (a b c d : Char) : Option Nat := do
  let a ← hexValue a
  let b ← hexValue b
  let c ← hexValue c
  let d ← hexValue d
  return ((a * 16 + b) * 16 + c) * 16 + d

/-- The character of an escape other than by code unit. -/
def shortEscape (c : Char) : Option Char :=
  match c with
  | '"' => some '"'
  | '\\' => some '\\'
  | '/' => some '/'
  | 'b' => some (Char.ofNat 8)
  | 'f' => some (Char.ofNat 12)
  | 'n' => some '\n'
  | 'r' => some '\r'
  | 't' => some '\t'
  | _ => none

/-- What has been read of a quoted text: its characters in reverse, the first half of a surrogate
pair if one has just been read, and whether every escape so far names a character. -/
structure Reading where
  seen : List Char
  half : Option Nat
  sound : Bool

namespace Reading

/-- Nothing read yet. -/
def start : Reading := ⟨[], none, true⟩

/-- Reads a character that is no code unit; a half pair before it stays incomplete. -/
def push (r : Reading) (c : Char) : Reading :=
  ⟨c :: r.seen, none, r.sound && r.half.isNone⟩

/-- Reads a code unit: a character, or half of a surrogate pair. -/
def pushUnit (r : Reading) (unit : Nat) : Reading :=
  if 0xD800 ≤ unit ∧ unit < 0xDC00 then
    ⟨r.seen, some unit, r.sound && r.half.isNone⟩
  else if 0xDC00 ≤ unit ∧ unit < 0xE000 then
    match r.half with
    | some high => ⟨Char.ofNat (0x10000 + (high - 0xD800) * 0x400 + (unit - 0xDC00)) :: r.seen,
        none, r.sound⟩
    | none => ⟨r.seen, none, false⟩
  else r.push (Char.ofNat unit)

/-- The text, if every escape names a character. -/
def text? (r : Reading) : Option (List Char) :=
  if r.sound && r.half.isNone then some r.seen.reverse else none

end Reading

/-- Reads a text up to its closing quote. Yields the text, or nothing if an escape names no
character, and what follows the quote; fails where the text is malformed. -/
def scanQuoted : Reading → List Char → Option (Option (List Char) × List Char)
  | _, [] => none
  | r, '"' :: cs => some (r.text?, cs)
  | r, '\\' :: 'u' :: a :: b :: c :: d :: cs =>
    match codeUnit a b c d with
    | some unit => scanQuoted (r.pushUnit unit) cs
    | none => none
  | r, '\\' :: e :: cs =>
    match shortEscape e with
    | some c => scanQuoted (r.push c) cs
    | none => none
  | r, c :: cs => if c.toNat < 32 ∨ c = '\\' then none else scanQuoted (r.push c) cs

end Forecast.Json
