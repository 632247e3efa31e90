import Forecast.Calendar.Deadline
import Forecast.Clause.Reading
import Forecast.Draft
import Forecast.Shape

/-!
# Compiling drafts

Compilation turns a draft into a prediction or into the first error it meets: the time of posting,
then the conditions in the order of their names in lower case, then the clauses. Names of
conditions do not depend on case or on blanks around them, and clauses refer to conditions by
position in that order.

A comparison is written as two operands with a sign between them, or as `a BETWEEN b AND c`. At
least one operand must be quoted by the market. The window of a condition begins at its own start
or else at the time of posting, and ends at a time or after a duration, exactly one of which must
be given; the end must come after the beginning.
-/

namespace Forecast

/-- Why a draft cannot be compiled. -/
inductive CompileError where
  | unknownOperator (name operator : String)
  | operandCount (name : String) (expected found : Nat)
  | invalidOperand (name operand : String) (reason : OperandError)
  | invalidCondition (name reason : String)
  | invalidTime (name reason : String)
  | marginOutOfRange (name : String) (ratio : Price)
  | duplicateCondition (name : String)
  | invalidPostedAt (reason : Calendar.TimeError)
  | missingPredict
  | clause (name : String) (error : ClauseError)
  /-- The text is no draft at all. -/
  | unreadable
  /-- The store already holds a prediction with the id. -/
  | alreadyStored (id : String)

/-- The largest error margin. -/
def maxMargin : Price := 0.3

/-- The beginning of a message about a condition. -/
def aboutCondition (name : String) : String :=
  "condition '" ++ name ++ "': "

/-- The wording of a compile error. -/
def CompileError.message : CompileError → String
  | .unknownOperator name operator =>
    aboutCondition name ++ "unknown operator '" ++ operator ++ "'"
  | .operandCount name expected found =>
    aboutCondition name ++ "expected " ++ toString expected ++ " operands, found " ++
      toString found
  | .invalidOperand name operand reason =>
    aboutCondition name ++ "invalid operand '" ++ operand ++ "': " ++ reason.message
  | .invalidCondition name reason => aboutCondition name ++ reason
  | .invalidTime name reason => aboutCondition name ++ "invalid time: " ++ reason
  | .marginOutOfRange name ratio =>
    aboutCondition name ++ "error margin ratio " ++ Decimal.text ratio ++ " outside [0, " ++
      Decimal.text maxMargin ++ "]"
  | .duplicateCondition name => "duplicate condition name '" ++ name ++ "'"
  | .invalidPostedAt reason => "invalid postedAt: " ++ reason.message
  | .missingPredict => "predict clause is required"
  | .clause name error => "clause '" ++ name ++ "': " ++ error.message
  | .unreadable => "invalid prediction input: not a prediction document"
  | .alreadyStored id =>
    "invalid prediction input: a prediction with id '" ++ id ++ "' already exists"

namespace Compile

/-! ### Comparisons -/

/-- Counts the words of a comparison that are not one of its two keywords. -/
def countOperands (words : List String) : Nat :=
  (words.filter fun w => !Text.sameLetters w "between" && !Text.sameLetters w "and").length

/-- What a comparison without the right number of words is refused for. -/
def refuseWords (name text : String) (words : List String) : CompileError :=
  if words.any (Text.sameLetters · "between") then
    .operandCount name 3 (countOperands words)
  else
    match words with
    | _ :: op :: rest =>
      if (Comparison.parse? op).isSome then .operandCount name 2 (words.length - 1)
      else if rest = [] then
        .invalidCondition name
          ("expected '<operand> <operator> <operand>', found '" ++ Text.trim text ++ "'")
      else .unknownOperator name op
    | _ =>
      .invalidCondition name
        ("expected '<operand> <operator> <operand>', found '" ++ Text.trim text ++ "'")

/-- Splits a comparison into its sign and its operands in the order in which they are written. -/
def splitComparison (name text : String) : Except CompileError (Comparison × List String) :=
  let words := (Text.words text.toList).map String.ofList
  match words with
  | [a, between, b, and, c] =>
    if Text.sameLetters between "between" && Text.sameLetters and "and" then
      .ok (.between, [a, b, c])
    else .error (refuseWords name text words)
  | [a, op, b] =>
    match Comparison.parse? op with
    | some .between => .error (.operandCount name 3 2)
    | some comparison => .ok (comparison, [a, b])
    | none => .error (.unknownOperator name op)
  | _ => .error (refuseWords name text words)

/-- Reads the operands of a condition. -/
def readOperands (name : String) : List String → Except CompileError (List (Operand Price))
  | [] => .ok []
  | text :: rest =>
    match Operand.parse text with
    | .error reason => .error (.invalidOperand name text reason)
    | .ok o => (readOperands name rest).map (o :: ·)

/-! ### Windows -/

/-- A text that is given and not blank, without the blanks around it. -/
def given? (text : Option String) : Option String :=
  (text.map Text.trim).filter (· ≠ "")

/-- The beginning of the window. -/
def windowStart (name : String) (draft : ConditionDraft) (postedAt : Calendar.Instant) :
    Except CompileError Calendar.Instant :=
  match given? draft.fromTime with
  | none => .ok postedAt
  | some text => (Calendar.readTime text).mapError fun e => .invalidTime name e.message

/-- The end of the window. -/
def windowEnd (name : String) (draft : ConditionDraft) (start : Calendar.Instant) :
    Except CompileError Calendar.Instant :=
  match given? draft.toTime, given? draft.toDuration with
  | some _, some _ => .error (.invalidTime name "specify only one of toIso8601 and toDuration")
  | some text, none => (Calendar.readTime text).mapError fun e => .invalidTime name e.message
  | none, some text => (start.deadline text).mapError fun e => .invalidTime name e.message
  | none, none => .error (.invalidTime name "one of toIso8601 or toDuration is required")

/-- Whether an error margin is allowed. -/
def isMargin (ratio : Price) : Bool :=
  0 ≤ ratio && ratio ≤ maxMargin

/-- Compiles one condition. -/
def condition (name : String) (draft : ConditionDraft) (postedAt : Calendar.Instant) :
    Except CompileError (Condition Price) := do
  let (comparison, texts) ← splitComparison name draft.condition
  let operands ← readOperands name texts
  if operands.all Operand.isNumber then
    .error (.invalidCondition name "at least one operand must be a market operand")
  else
    let start ← windowStart name draft postedAt
    let stop ← windowEnd name draft start
    let ratio := draft.margin.getD 0
    if !start.before stop then
      .error (.invalidTime name
        ("from " ++ start.text ++ " is not before to " ++ stop.text))
    else if !isMargin ratio then
      .error (.marginOutOfRange name ratio)
    else
      .ok (.fresh name comparison operands start.seconds stop.seconds ratio)

/-! ### Conditions by name -/

/-- A condition draft with its name as written and its name in lower case. -/
structure Entry where
  name : String
  written : String
  draft : ConditionDraft

/-- The condition drafts in the order of their names in lower case; entries of one name keep the
order of their names as written. -/
def entries (given : Keyed ConditionDraft) : List Entry :=
  (given.entries.map fun e => Entry.mk (Text.lower (Text.trim e.1)) e.1 e.2).mergeSort
    fun a b => a.name ≤ b.name

/-- Compiles the conditions in order, refusing names that cannot be used or are taken. -/
def conditions (postedAt : Calendar.Instant) :
    (taken : List String) → List Entry → Except CompileError (List (Condition Price))
  | _, [] => .ok []
  | taken, e :: es =>
    if !Clause.isName e.name then
      .error (.invalidCondition e.written
        "names must be alphanumeric or '_' and not a keyword")
    else if taken.contains e.name then .error (.duplicateCondition e.name)
    else
      match condition e.name e.draft postedAt with
      | .error err => .error err
      | .ok c => (conditions postedAt (e.name :: taken) es).map (c :: ·)

/-! ### Clauses -/

/-- Compiles a clause that may be missing or blank. -/
def clause? (declared : String → Option Nat) (name : String) (text : Option String) :
    Except CompileError (Option Clause) :=
  match given? text with
  | none => .ok none
  | some t =>
    match Clause.parse declared t with
    | .ok c => .ok (some c)
    | .error e => .error (.clause name e)

/-- Compiles the first phase. -/
def prePhase (declared : String → Option Nat) : Option PreDraft → Except CompileError PrePhase
  | none => .ok .none
  | some d => do
    let wrongIf ← clause? declared "prePredict.wrongIf" d.wrongIf
    let annulledIf ← clause? declared "prePredict.annulledIf" d.annulledIf
    let predictIf ← clause? declared "prePredict.predictIf" d.predictIf
    return ⟨wrongIf, annulledIf, predictIf, ⟨d.ignoreUndecided, d.annulIfNo⟩⟩

/-- Compiles the second phase, its main clause first. -/
def mainPhase (declared : String → Option Nat) (d : MainDraft) :
    Except CompileError MainPhase := do
  match ← clause? declared "predict.predict" (some d.predict) with
  | none => .error .missingPredict
  | some predict =>
    let wrongIf ← clause? declared "predict.wrongIf" d.wrongIf
    let annulledIf ← clause? declared "predict.annulledIf" d.annulledIf
    return ⟨wrongIf, annulledIf, predict, ⟨d.ignoreUndecided, d.annulIfNo⟩⟩

/-! ### Predictions -/

/-- An ASCII letter or digit in lower case, or a dash for any other character. -/
def idChar (c : Char) : Char :=
  if c.isAlphanum then c.toLower else '-'

/-- The id of a prediction whose draft has none: who reported or posted it, and when. -/
def derivedId (draft : Draft) (postedAt : Calendar.Instant) : String :=
  let who :=
    match [draft.reporter, draft.postAuthor].find? (!Text.isBlankText ·) with
    | some s => String.ofList ((Text.trim s).toList.map idChar)
    | none => "anon"
  who ++ "-" ++ toString postedAt.seconds

/-- Compiles a draft. -/
def prediction (draft : Draft) (createdAt : Calendar.Instant) :
    Except CompileError Prediction := do
  let postedAt ← (Calendar.readTime draft.postedAt).mapError .invalidPostedAt
  let given ← conditions postedAt [] (entries draft.given)
  let declared := fun name => given.findIdx? (·.name == name)
  let pre ← prePhase declared draft.pre
  let main ← mainPhase declared draft.main
  let unshaped : Prediction :=
    { id := (given? draft.id).getD (derivedId draft postedAt)
      createdAt
      postedAt
      reporter := draft.reporter
      postAuthor := draft.postAuthor
      postUrl := draft.postUrl
      postText := draft.postText
      given
      pre
      main
      state := .initial
      shape := .unsupported }
  return { unshaped with shape := unshaped.inferShape }

/-- Compiles the text of a draft. -/
def text (s : String) (createdAt : Calendar.Instant) : Except CompileError Prediction :=
  match Draft.read? s with
  | none => .error .unreadable
  | some draft => prediction draft createdAt

end Compile

end Forecast
