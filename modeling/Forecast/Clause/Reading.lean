import Forecast.Clause
import Forecast.Clause.Token

/-!
# Reading clauses

The grammar of written clauses:

* a clause is a primary, or two or more primaries joined by `and`, or two or more joined by `or`;
* a primary is the name of a declared condition, `not` and a primary, or a clause in parentheses.

`and` and `or` do not mix without parentheses, and a primary is enclosed by at most 31 openings
of `not` and `(`. Stored clauses nest two levels for each opening at most, so they stay well
within what a reader of documents follows.

Each reader takes the tokens and yields a clause and the tokens after it, which are fewer. An
error is reported at the first token that cannot be part of any clause.
-/

namespace Forecast

/-- What is found at the place of an error: a token, or the end of the text. -/
inductive Clause.Found where
  | token (t : Clause.Token)
  | ending
  deriving Repr, DecidableEq

/-- What is found, as it is shown in messages. -/
def Clause.Found.text : Clause.Found → String
  | .token t => t.text
  | .ending => "end of input"

/-- Why a text is no clause. -/
inductive ClauseFault where
  /-- A character that belongs to no token. -/
  | strayCharacter (c : Char)
  /-- `and` after `or`, or the other way round, at one level. -/
  | mixedJoiners
  /-- More openings than a clause may have. -/
  | tooDeep
  /-- A name that no condition has. -/
  | undeclared (name : String)
  /-- Something else where a parenthesis has to be closed. -/
  | unclosed (found : Clause.Found)
  /-- Something else where a primary has to begin. -/
  | noPrimary (found : Clause.Found)
  /-- A token after the end of the clause. -/
  | trailing (found : Clause.Found)
  deriving Repr, DecidableEq

/-- A fault and where it is, in bytes. -/
structure ClauseError where
  fault : ClauseFault
  position : Nat
  deriving Repr, DecidableEq

/-- The wording of a fault. -/
def ClauseFault.message : ClauseFault → String
  | .strayCharacter c => "unexpected character '" ++ String.singleton c ++ "'"
  | .mixedJoiners => "cannot mix 'and' and 'or' without parentheses"
  | .tooDeep => "expression nested too deeply"
  | .undeclared name => "undeclared identifier '" ++ name ++ "'"
  | .unclosed found => "expected ')', found " ++ found.text
  | .noPrimary found => "expected identifier, 'not' or '(', found " ++ found.text
  | .trailing found => "unexpected input " ++ found.text

/-- The wording of an error with its position. -/
def ClauseError.message (e : ClauseError) : String :=
  "parse error at position " ++ toString e.position ++ ": " ++ e.fault.message

/-- The text with a mark under the place of the error and the error below it. -/
def ClauseError.inContext (e : ClauseError) (text : String) : String :=
  text ++ "\n" ++ String.ofList (List.replicate e.position ' ') ++ "^\n" ++ e.message

namespace Clause

/-- The most openings of `not` and `(` around a primary, the primary itself counted. -/
def maxNesting : Nat := 32

/-- The two words that join primaries. -/
inductive Joiner where
  | and
  | or
  deriving Repr, DecidableEq

/-- The chain of a joiner. -/
def Joiner.chain : Joiner → List Clause → Clause
  | .and, cs => .conj cs
  | .or, cs => .disj cs

/-- The joiner that a token is. -/
def Token.joiner? : Token → Option Joiner
  | .and => some .and
  | .or => some .or
  | _ => none

/-- A clause and the tokens after it, which are fewer than `n`. -/
abbrev Read (n : Nat) := Clause × { rest : Tokens // rest.length < n }

/-- A reader of one primary. -/
abbrev PrimaryReader := (ts : Tokens) → Except ClauseError (Read ts.length)

/-- Reads the further members of a chain after its first, each with the joiner before it. -/
def readMembers (primary : PrimaryReader) (joiner : Joiner) (ts : Tokens) :
    Except ClauseError (List Clause × { rest : Tokens // rest.length ≤ ts.length }) :=
  match ts with
  | .finish p => .ok ([], ⟨.finish p, Nat.le_refl _⟩)
  | .stray c p => .error ⟨.strayCharacter c, p⟩
  | .token t p rest =>
    match t.joiner? with
    | none => .ok ([], ⟨.token t p rest, Nat.le_refl _⟩)
    | some j =>
      if j = joiner then
        match primary rest with
        | .error e => .error e
        | .ok (c, ⟨after, hafter⟩) =>
          match readMembers primary joiner after with
          | .error e => .error e
          | .ok (cs, ⟨last, hlast⟩) =>
            .ok (c :: cs, ⟨last, by simp only [Tokens.length]; omega⟩)
      else .error ⟨.mixedJoiners, p⟩
  termination_by ts.length
  decreasing_by simp only [Tokens.length]; omega

/-- Reads a clause: one primary, or a chain. -/
def readChain (primary : PrimaryReader) : PrimaryReader := fun ts =>
  match primary ts with
  | .error e => .error e
  | .ok (first, ⟨rest, hrest⟩) =>
    match rest, hrest with
    | .stray c p, _ => .error ⟨.strayCharacter c, p⟩
    | .finish p, h => .ok (first, ⟨.finish p, h⟩)
    | .token t p rest', h =>
      match t.joiner? with
      | none => .ok (first, ⟨.token t p rest', h⟩)
      | some j =>
        match readMembers primary j (.token t p rest') with
        | .error e => .error e
        | .ok (cs, ⟨last, hlast⟩) =>
          .ok (j.chain (first :: cs), ⟨last, Nat.lt_of_le_of_lt hlast h⟩)

/-- Reads a primary in which `room` openings are left, the primary itself counted. -/
def readPrimary (declared : String → Option Nat) : (room : Nat) → PrimaryReader
  | 0, .stray c p => .error ⟨.strayCharacter c, p⟩
  | 0, ts => .error ⟨.tooDeep, ts.position⟩
  | _ + 1, .finish p => .error ⟨.noPrimary .ending, p⟩
  | _ + 1, .stray c p => .error ⟨.strayCharacter c, p⟩
  | room + 1, .token t p rest =>
    match t with
    | .name word =>
      match declared word with
      | some i => .ok (.literal i, ⟨rest, Nat.lt_succ_self _⟩)
      | none => .error ⟨.undeclared word, p⟩
    | .not =>
      match readPrimary declared room rest with
      | .error e => .error e
      | .ok (c, ⟨after, h⟩) => .ok (.neg c, ⟨after, Nat.lt_succ_of_lt h⟩)
    | .openParen =>
      match readChain (readPrimary declared room) rest with
      | .error e => .error e
      | .ok (c, ⟨after, h⟩) =>
        match after, h with
        | .token .closeParen _ last, h =>
          .ok (c, ⟨last, by simp only [Tokens.length] at h ⊢; omega⟩)
        | .token t p _, _ => .error ⟨.unclosed (.token t), p⟩
        | .finish p, _ => .error ⟨.unclosed .ending, p⟩
        | .stray c p, _ => .error ⟨.strayCharacter c, p⟩
    | t => .error ⟨.noPrimary (.token t), p⟩

/-- Reads tokens that are one clause from beginning to end. -/
def ofTokens (declared : String → Option Nat) (ts : Tokens) : Except ClauseError Clause :=
  match readChain (readPrimary declared maxNesting) ts with
  | .error e => .error e
  | .ok (c, ⟨.finish _, _⟩) => .ok c
  | .ok (_, ⟨.stray c p, _⟩) => .error ⟨.strayCharacter c, p⟩
  | .ok (_, ⟨.token t p _, _⟩) => .error ⟨.trailing (.token t), p⟩

/-- Reads a written clause. `declared` gives the position of the condition with a name in lower
case. -/
def parse (declared : String → Option Nat) (text : String) : Except ClauseError Clause :=
  ofTokens declared (tokens text)

end Clause

end Forecast
