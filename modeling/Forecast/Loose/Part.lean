import Forecast.Json.Quoted

/-!
# Texts in loose documents

A loose document may have its texts in single or in double quotes. Inside, control characters stand
for themselves, more characters may be escaped, and an escaped line end is left out.

A text is kept as its parts, because it is printed the way it was spelled, so far as a strict
document allows that spelling.
-/

namespace Forecast.Loose

/-- A part of a text. -/
inductive Part where
  /-- A character that stands for itself. -/
  | plain (c : Char)
  /-- A character behind a backslash. -/
  | escaped (c : Char)
  /-- A code unit, by four digits of base 16. -/
  | unit (a b c d : Char)
  /-- One of the first 256 characters, by two digits of base 16. -/
  | byte (a b : Char)
  /-- An escaped line end. -/
  | lineEnd
  deriving Repr, DecidableEq

/-- A text as it is spelled. -/
abbrev Text : Type := List Part

/-- The characters that end a line. -/
def isLineEnd (c : Char) : Bool :=
  c == '\n' || c == '\r' || c.toNat == 0x2028 || c.toNat == 0x2029

/-- Whether a character is a digit of base 16. -/
def isHexDigit (c : Char) : Bool :=
  (Json.hexValue c).isSome

/-- The characters that may stand behind a backslash and name one character. -/
def isEscapable (c : Char) : Bool :=
  (Json.shortEscape c).isSome || c == '\'' || c == 'v' || c == '0'

/-- Puts a part in front of what has been read. -/
def consPart (p : Part) (read : Option (Text × List Char)) : Option (Text × List Char) :=
  read.map fun (ps, rest) => (p :: ps, rest)

/-- Reads a text up to its closing quote. -/
def scanText (quote : Char) : List Char → Option (Text × List Char)
  | [] => none
  | '\\' :: 'u' :: a :: b :: c :: d :: cs =>
    if [a, b, c, d].all isHexDigit then consPart (.unit a b c d) (scanText quote cs) else none
  | '\\' :: 'x' :: a :: b :: cs =>
    if [a, b].all isHexDigit then consPart (.byte a b) (scanText quote cs) else none
  | '\\' :: '\r' :: '\n' :: cs => consPart .lineEnd (scanText quote cs)
  | '\\' :: c :: cs =>
    if isLineEnd c then consPart .lineEnd (scanText quote cs)
    else if isEscapable c then consPart (.escaped c) (scanText quote cs)
    else none
  | c :: cs =>
    if c = quote then some ([], cs)
    else if c = '\\' then none
    else consPart (.plain c) (scanText quote cs)

/-! ### The characters of a text -/

/-- The character with the number 0. -/
def nul : Char := Char.ofNat 0

/-- The character that an escape names. -/
def escapedChar (c : Char) : Char :=
  if c = 'v' then Char.ofNat 11
  else if c = '0' then nul
  else (Json.shortEscape c).getD c

/-- What a half of a surrogate pair amounts to that has stayed alone: no character. -/
def alone (half : Option Nat) : List (Option Char) :=
  half.toList.map fun _ => none

/-- The characters of a text after a half of a surrogate pair, if one has just been read. A half
without the other is no character. A line end is left out, but at the end of the text it is taken
for the character with the number 0. -/
def charactersAfter : (half : Option Nat) → Text → List (Option Char)
  | half, [] => alone half
  | half, .plain c :: ps => alone half ++ some c :: charactersAfter none ps
  | half, .escaped c :: ps => alone half ++ some (escapedChar c) :: charactersAfter none ps
  | half, .byte a b :: ps =>
    alone half ++ (Json.codeUnit '0' '0' a b).map Char.ofNat :: charactersAfter none ps
  | half, [.lineEnd] => alone half ++ [some nul]
  | half, .lineEnd :: ps => alone half ++ charactersAfter none ps
  | half, .unit a b c d :: ps =>
    let n := (Json.codeUnit a b c d).getD 0
    if 0xD800 ≤ n ∧ n < 0xDC00 then alone half ++ charactersAfter (some n) ps
    else if 0xDC00 ≤ n ∧ n < 0xE000 then
      half.map (fun high => Char.ofNat (0x10000 + (high - 0xD800) * 0x400 + (n - 0xDC00))) ::
        charactersAfter none ps
    else alone half ++ some (Char.ofNat n) :: charactersAfter none ps

/-- The characters of a text. -/
def characters (t : Text) : List (Option Char) :=
  charactersAfter none t

/-- Whether a text consists of some characters. -/
def isText (s : String) (t : Text) : Bool :=
  characters t == s.toList.map some

/-- Whether a text is a name. Names are compared up to the character with the number 0. -/
def isName (name : String) (t : Text) : Bool :=
  (characters t).takeWhile (· != some nul) == name.toList.map some

/-! ### The strict spelling of a text -/

/-- The strict spelling of a part. The vertical tab is spelled like the other one. -/
def Part.strict : Part → List Char
  | .plain c => Json.escapeChar c
  | .escaped c =>
    if c = '\'' then ['\'']
    else if c = 'v' then ['\\', 'u', '0', '0', '0', '9']
    else if c = '0' then ['\\', 'u', '0', '0', '0', '0']
    else ['\\', c]
  | .unit a b c d => ['\\', 'u', a, b, c, d]
  | .byte a b => ['\\', 'u', '0', '0', a, b]
  | .lineEnd => []

/-- A text between quotes in its strict spelling. -/
def strictText (t : Text) : List Char :=
  '"' :: t.flatMap Part.strict ++ ['"']

end Forecast.Loose
