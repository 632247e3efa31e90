import Forecast.Json.Token

/-!
# Reading documents

The tokens of a document are read from left to right with a stack of the arrays and objects that
are still open. Each token is looked at once, and what is allowed next is given by the top of the
stack and by a `Stage`.

A name whose escapes name no character does not make the document malformed, but an object with
such a name has no value.
-/

namespace Forecast.Json

/-- The value of a string, if its escapes name characters. -/
def ofText (text : Option String) : Json :=
  match text with
  | some s => .string s
  | none => .unusable

/-- Names with their values; a name whose escapes name no character is absent. -/
abbrev Entries : Type := List (Option String × Json)

/-- The object of some entries, which has a value if all names are there. -/
def ofEntries (entries : Entries) : Json :=
  match entries.mapM fun e => e.1.map (·, e.2) with
  | some es => .object es
  | none => .unusable

/-- An array or object that is still open, with what it holds so far in reverse. -/
inductive Frame where
  | array (items : List Json)
  | object (entries : Entries) (name : Option String)

/-- What may come next. -/
inductive Stage where
  /-- A value. -/
  | value
  /-- The first item of an array, or its end. -/
  | itemOrEnd
  /-- The first name of an object, or its end. -/
  | nameOrEnd (entries : Entries)
  /-- A name. -/
  | name (entries : Entries)
  /-- The colon after a name. -/
  | colon (entries : Entries) (name : Option String)
  /-- A comma or the end of what is open, after a complete value. -/
  | after (value : Json)

/-- Reads tokens to the end of the document. In the stages before a name, the open object is held
by the stage and not yet on the stack. -/
def readTokens : Stage → List Frame → List Token → Option Json
  | .after v, [], [] => some v
  | _, _, [] => none
  | .value, stack, t :: ts =>
    match t with
    | .leaf v => readTokens (.after v) stack ts
    | .text s => readTokens (.after (ofText s)) stack ts
    | .openArray => readTokens .itemOrEnd (.array [] :: stack) ts
    | .openObject => readTokens (.nameOrEnd []) stack ts
    | _ => none
  | .itemOrEnd, stack, t :: ts =>
    match t with
    | .leaf v => readTokens (.after v) stack ts
    | .text s => readTokens (.after (ofText s)) stack ts
    | .openArray => readTokens .itemOrEnd (.array [] :: stack) ts
    | .openObject => readTokens (.nameOrEnd []) stack ts
    | .closeArray => readTokens (.after (.array [])) stack.tail ts
    | _ => none
  | .nameOrEnd entries, stack, t :: ts =>
    match t with
    | .text s => readTokens (.colon entries s) stack ts
    | .closeObject => readTokens (.after (ofEntries entries.reverse)) stack ts
    | _ => none
  | .name entries, stack, t :: ts =>
    match t with
    | .text s => readTokens (.colon entries s) stack ts
    | _ => none
  | .colon entries name, stack, t :: ts =>
    match t with
    | .colon => readTokens .value (.object entries name :: stack) ts
    | _ => none
  | .after v, .array items :: stack, t :: ts =>
    match t with
    | .comma => readTokens .value (.array (v :: items) :: stack) ts
    | .closeArray => readTokens (.after (.array (v :: items).reverse)) stack ts
    | _ => none
  | .after v, .object entries name :: stack, t :: ts =>
    match t with
    | .comma => readTokens (.name ((name, v) :: entries)) stack ts
    | .closeObject => readTokens (.after (ofEntries ((name, v) :: entries).reverse)) stack ts
    | _ => none
  | .after _, [], _ :: _ => none

/-- Reads a document: one value with blanks around it. -/
def readChars (cs : List Char) : Option Json :=
  (tokens? cs).bind (readTokens .value [])

/-- Reads a document. -/
def read (s : String) : Option Json :=
  readChars s.toList

end Forecast.Json
