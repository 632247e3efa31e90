import Forecast.Loose.Token

/-!
# Reading loose documents

The tokens are read from left to right with a stack of the arrays and objects that are still open,
which is limited. After a comma an array or object may also end.
-/

namespace Forecast.Loose

/-- An array or object that is still open, with what it holds so far in reverse. -/
inductive Frame where
  | array (items : List Loose)
  | object (entries : List (Text × Loose)) (name : Text)

/-- What may come next. -/
inductive Stage where
  /-- A value. -/
  | value
  /-- An item of the array on top of the stack, or its end. -/
  | item
  /-- A name of an object, or its end. -/
  | name (entries : List (Text × Loose))
  /-- The colon after a name. -/
  | colon (entries : List (Text × Loose)) (name : Text)
  /-- A comma or the end of what is open, after a complete value. -/
  | after (value : Loose)

/-- How many arrays and objects may be open at once. -/
def maxNesting : Nat := 1000

/-- Reads tokens to the end of the document. In the stages before a value, the open object is held
by the stage and not yet on the stack. -/
def readTokens : Stage → List Frame → List Token → Option Loose
  | .after v, [], [] => some v
  | _, _, [] => none
  | .value, stack, t :: ts =>
    match t with
    | .leaf v => readTokens (.after v) stack ts
    | .quoted s => readTokens (.after (.text s)) stack ts
    | .openArray =>
      if stack.length < maxNesting then readTokens .item (.array [] :: stack) ts else none
    | .openObject => if stack.length < maxNesting then readTokens (.name []) stack ts else none
    | _ => none
  | .item, stack, t :: ts =>
    match t with
    | .leaf v => readTokens (.after v) stack ts
    | .quoted s => readTokens (.after (.text s)) stack ts
    | .openArray =>
      if stack.length < maxNesting then readTokens .item (.array [] :: stack) ts else none
    | .openObject => if stack.length < maxNesting then readTokens (.name []) stack ts else none
    | .closeArray =>
      match stack with
      | .array items :: stack => readTokens (.after (.array items.reverse)) stack ts
      | _ => none
    | _ => none
  | .name entries, stack, t :: ts =>
    match t with
    | .quoted s => readTokens (.colon entries s) stack ts
    | .word s => readTokens (.colon entries s) stack ts
    | .closeObject => readTokens (.after (.object entries.reverse)) stack ts
    | _ => none
  | .colon entries name, stack, t :: ts =>
    match t with
    | .colon => readTokens .value (.object entries name :: stack) ts
    | _ => none
  | .after v, .array items :: stack, t :: ts =>
    match t with
    | .comma => readTokens .item (.array (v :: items) :: stack) ts
    | .closeArray => readTokens (.after (.array (v :: items).reverse)) stack ts
    | _ => none
  | .after v, .object entries name :: stack, t :: ts =>
    match t with
    | .comma => readTokens (.name ((name, v) :: entries)) stack ts
    | .closeObject => readTokens (.after (.object ((name, v) :: entries).reverse)) stack ts
    | _ => none
  | .after _, [], _ :: _ => none

/-- Reads a document: one value with gaps around it. -/
def read (s : String) : Option Loose :=
  (tokens? s.toList).bind (readTokens .value [])

end Forecast.Loose
