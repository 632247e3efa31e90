import Forecast.Loose.Value
import Forecast.Text.Words

/-!
# Tokens of loose documents

A loose document is cut into tokens with gaps between them; a gap is made of blanks and comments. A
word that stands for no value may still be a name.

A document ends before the first character with the number 0.
-/

namespace Forecast.Loose

/-- A token of a loose document. -/
inductive Token where
  | openArray
  | closeArray
  | openObject
  | closeObject
  | colon
  | comma
  /-- A text in quotes, which may be a name or a value. -/
  | quoted (t : Text)
  /-- A word that can only be a name. -/
  | word (t : Text)
  /-- Any other value that has no parts. -/
  | leaf (v : Loose)

/-! ### Gaps -/

/-- The blanks of a loose document: all but the next-line character, and the byte order mark. -/
def isGap (c : Char) : Bool :=
  (Text.isBlank c && c.toNat != 0x85) || c.toNat == 0xFEFF

/-- What follows a comment that ends with its line. -/
def afterLine (cs : List Char) : List Char :=
  (cs.dropWhile fun c => !isLineEnd c).tail

/-- What follows a comment that ends with a star and a slash. -/
def afterBlock : List Char → Option (List Char)
  | [] => none
  | '*' :: '/' :: cs => some cs
  | _ :: cs => afterBlock cs

/-- Passes over a gap; `fuel` bounds its pieces. A comment without an end is no gap. -/
def skipGap : (fuel : Nat) → List Char → List Char
  | 0, cs => cs
  | fuel + 1, '/' :: '/' :: cs => skipGap fuel (afterLine cs)
  | fuel + 1, '/' :: '*' :: cs =>
    match afterBlock cs with
    | some rest => skipGap fuel rest
    | none => '/' :: '*' :: cs
  | fuel + 1, c :: cs => if isGap c then skipGap fuel cs else c :: cs
  | _ + 1, [] => []

/-! ### Numbers -/

/-- Reads the exponent with its letter, if there is one; a letter must be followed by digits. -/
def scanExponent (cs : List Char) : Option (List Char × List Char) :=
  let digits (mark : List Char) (ds : List Char) : Option (List Char × List Char) :=
    let run := ds.takeWhile Char.isDigit
    if run.isEmpty then none else some (mark ++ run, ds.dropWhile Char.isDigit)
  let signed (e : Char) (ds : List Char) : Option (List Char × List Char) :=
    match ds with
    | '+' :: ds => digits [e, '+'] ds
    | '-' :: ds => digits [e, '-'] ds
    | ds => digits [e] ds
  match cs with
  | 'e' :: ds => signed 'e' ds
  | 'E' :: ds => signed 'E' ds
  | ds => some ([], ds)

/-- Reads a number of base ten without its sign. A digit must stand before or after the point, and
no zero before another digit. -/
def scanDecimal (negative : Bool) (cs : List Char) : Option (Loose × List Char) := do
  let whole := cs.takeWhile Char.isDigit
  let (fraction, rest) :=
    match cs.dropWhile Char.isDigit with
    | '.' :: ds => (some (ds.takeWhile Char.isDigit), ds.dropWhile Char.isDigit)
    | ds => (none, ds)
  if whole.isEmpty && (fraction.getD []).isEmpty then none
  else if whole.head? == some '0' && whole.length != 1 then none
  else
    let (exponent, rest) ← scanExponent rest
    return (.number ⟨negative, whole, fraction, exponent⟩, rest)

/-- Reads a number without its sign. -/
def scanUnsigned (negative : Bool) : List Char → Option (Loose × List Char)
  | '0' :: x :: d :: cs =>
    if (x == 'x' || x == 'X') && isHexDigit d then
      some (.hexadecimal negative (d :: cs.takeWhile isHexDigit), cs.dropWhile isHexDigit)
    else scanDecimal negative ('0' :: x :: d :: cs)
  | cs => scanDecimal negative cs

/-- Whether a text begins with a word in lower or upper case. -/
def beginsWith (word : String) (cs : List Char) : Bool :=
  (cs.take word.length).map Char.toLower == word.toList

/-- Reads what follows a sign: a number or infinity. -/
def scanSigned (negative : Bool) (cs : List Char) : Option (Loose × List Char) :=
  if beginsWith "infinity" cs then some (infinity negative, cs.drop 8)
  else if beginsWith "inf" cs then some (infinity negative, cs.drop 3)
  else scanUnsigned negative cs

/-! ### Words -/

/-- The characters of a name without quotes, other than digits. -/
def isNameStart (c : Char) : Bool :=
  c.isAlpha || c == '_' || c == '$' || (0x80 ≤ c.toNat && !isGap c)

/-- The characters of a name without quotes. -/
def isNamePart (c : Char) : Bool :=
  isNameStart c || c.isDigit

/-- Reads the rest of a name without quotes; its characters may be given as code units. -/
def scanName : List Char → Text × List Char
  | '\\' :: 'u' :: a :: b :: c :: d :: cs =>
    if [a, b, c, d].all isHexDigit then
      let (ps, rest) := scanName cs
      (.unit a b c d :: ps, rest)
    else ([], '\\' :: 'u' :: a :: b :: c :: d :: cs)
  | c :: cs =>
    if isNamePart c then
      let (ps, rest) := scanName cs
      (.plain c :: ps, rest)
    else ([], c :: cs)
  | [] => ([], [])

/-- The value that a word of letters and digits stands for. -/
def wordValue? (word : String) : Option Loose :=
  if word = "null" then some .null
  else if word = "true" then some (.bool true)
  else if word = "false" then some (.bool false)
  else
    match word.map Char.toLower with
    | "inf" => some (infinity false)
    | "infinity" => some (infinity false)
    | "nan" => some .null
    | "qnan" => some .null
    | "snan" => some .null
    | _ => none

/-- Reads a word: a value if its leading letters and digits spell one, and else a name. -/
def scanWord (cs : List Char) : Option (Token × List Char) :=
  match wordValue? (String.ofList (cs.takeWhile Char.isAlphanum)) with
  | some v => some (.leaf v, cs.dropWhile Char.isAlphanum)
  | none =>
    match scanName cs with
    | ([], _) => none
    | (t, rest) => some (.word t, rest)

/-! ### Tokens -/

/-- Reads the token at the front of a text that does not begin with a gap. -/
def scanToken : List Char → Option (Token × List Char)
  | '[' :: cs => some (.openArray, cs)
  | ']' :: cs => some (.closeArray, cs)
  | '\x7b' :: cs => some (.openObject, cs)
  | '\x7d' :: cs => some (.closeObject, cs)
  | ':' :: cs => some (.colon, cs)
  | ',' :: cs => some (.comma, cs)
  | '"' :: cs => (scanText '"' cs).map fun (t, rest) => (.quoted t, rest)
  | '\'' :: cs => (scanText '\'' cs).map fun (t, rest) => (.quoted t, rest)
  | '+' :: cs => (scanSigned false cs).map fun (v, rest) => (.leaf v, rest)
  | '-' :: cs => (scanSigned true cs).map fun (v, rest) => (.leaf v, rest)
  | c :: cs =>
    if c.isDigit || c == '.' then
      (scanUnsigned false (c :: cs)).map fun (v, rest) => (.leaf v, rest)
    else scanWord (c :: cs)
  | [] => none

/-- Cuts a text into tokens; `fuel` bounds its length. -/
def scanTokens : (fuel : Nat) → List Char → Option (List Token)
  | 0, cs => if cs.isEmpty then some [] else none
  | fuel + 1, cs =>
    match skipGap (fuel + 1) cs with
    | [] => some []
    | c :: rest =>
      match scanToken (c :: rest) with
      | some (t, rest) => (scanTokens fuel rest).map (t :: ·)
      | none => none

/-- The tokens of a text. -/
def tokens? (cs : List Char) : Option (List Token) :=
  let cs := cs.takeWhile (· ≠ nul)
  scanTokens cs.length cs

end Forecast.Loose
