import Forecast.Text.Words

/-!
# Tokens of a clause

A written clause is cut into parentheses and words; blanks of ASCII between them are skipped. A
word is a maximal run of alphanumeric characters and underscores, read in lower case: `and`, `or`
and `not` are keywords, every other word is a name. Any other character ends the tokens.

Each token is kept with its position in bytes of UTF-8, which is what error messages point at.
-/

namespace Forecast.Clause

/-- A token of a written clause. -/
inductive Token where
  | name (word : String)
  | and
  | or
  | not
  | openParen
  | closeParen
  deriving Repr, DecidableEq

/-- The tokens of a text with their positions. The text either ends, or continues with a character
that belongs to no token. -/
inductive Tokens where
  | finish (position : Nat)
  | stray (character : Char) (position : Nat)
  | token (head : Token) (position : Nat) (rest : Tokens)
  deriving Repr

namespace Tokens

/-- Where the next token, the stray character or the end is. -/
def position : Tokens → Nat
  | .finish p => p
  | .stray _ p => p
  | .token _ p _ => p

/-- The number of tokens. -/
def length : Tokens → Nat
  | .finish _ => 0
  | .stray _ _ => 0
  | .token _ _ rest => rest.length + 1

/-- The tokens without their positions, if no stray character ends them. -/
def toList? : Tokens → Option (List Token)
  | .finish _ => some []
  | .stray _ _ => none
  | .token t _ rest => rest.toList?.map (t :: ·)

end Tokens

/-- The blanks that may stand between tokens: those of ASCII. -/
def isGap (c : Char) : Bool :=
  c == ' ' || c == '\t' || c == '\n' || c == '\r' || c == '\x0c'

/-- The characters of words. -/
def isWordChar (c : Char) : Bool :=
  Text.isAlphanumeric c || c == '_'

/-- The keywords. -/
def keywords : List String := ["and", "or", "not"]

/-- The token of a word in lower case. -/
def ofWord (word : String) : Token :=
  match word with
  | "and" => .and
  | "or" => .or
  | "not" => .not
  | _ => .name word

/-- Whether a text can be the name of a condition. -/
def isName (s : String) : Bool :=
  s ≠ "" && s.toList.all isWordChar && !keywords.contains (Text.lower s)

/-- Cuts a text that begins at a byte position into tokens. -/
def tokensFrom (position : Nat) : List Char → Tokens
  | [] => .finish position
  | c :: cs =>
    if isGap c then tokensFrom (position + 1) cs
    else if c = '(' then .token .openParen position (tokensFrom (position + 1) cs)
    else if c = ')' then .token .closeParen position (tokensFrom (position + 1) cs)
    else if isWordChar c then
      let word := c :: cs.takeWhile isWordChar
      .token (ofWord (String.ofList (Text.lowerChars word))) position
        (tokensFrom (position + Text.byteLength word) (cs.dropWhile isWordChar))
    else .stray c position
  termination_by cs => cs.length
  decreasing_by
    · simp
    · simp
    · simp
    · have := (List.dropWhile_sublist (l := cs) isWordChar).length_le
      simp only [List.length_cons]
      omega

/-- The tokens of a text. -/
def tokens (s : String) : Tokens :=
  tokensFrom 0 s.toList

/-- A token as it is shown in messages. -/
def Token.text : Token → String
  | .name word => "'" ++ word ++ "'"
  | .and => "'and'"
  | .or => "'or'"
  | .not => "'not'"
  | .openParen => "'('"
  | .closeParen => "')'"

end Forecast.Clause
