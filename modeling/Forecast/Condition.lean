import Forecast.Comparison
import Forecast.Keyed
import Forecast.Operand
import Forecast.Tick
import Forecast.Trilean

/-!
# Conditions

A condition compares operands within a window of time. It begins unstarted, is started by the
first tick inside its window, and finishes with the first tick at which the comparison holds
(then it holds) or that lies past the window (then it fails). Once finished it never changes.

Ticks are fed in sets, one tick for every quoted operand, all of one time. A set that is
incomplete, of several times, or older than the last one is refused, and the condition stays as it
was.
-/

namespace Forecast

/-- How far a condition, or a prediction, has come. -/
inductive Status where
  | unstarted
  | started
  | finished
  deriving Repr, DecidableEq, Inhabited

/-- Every status. -/
def Status.all : List Status := [.unstarted, .started, .finished]

/-- The word for a status in documents and messages. -/
def Status.word : Status → String
  | .unstarted => "UNSTARTED"
  | .started => "STARTED"
  | .finished => "FINISHED"

/-- The status that a word stands for. -/
def Status.ofWord? (s : String) : Option Status :=
  Status.all.find? (·.word == s)

@[simp] theorem Status.ofWord?_word (s : Status) : Status.ofWord? s.word = some s := by
  cases s <;> rfl

/-- Ticks of one moment under the keys of their operands. -/
abbrev TickSet (α : Type) := Keyed (Tick α)

/-- What a condition has seen so far. -/
structure Progress (α : Type) where
  status : Status
  /-- The time of the last tick set within or past the window. -/
  lastTs : Int
  lastTicks : TickSet α
  value : Trilean
  deriving BEq

/-- Nothing seen yet. -/
def Progress.initial {α : Type} : Progress α :=
  ⟨.unstarted, 0, .empty, .undecided⟩

/-- A comparison of operands within a window of time. -/
structure Condition (α : Type) where
  name : String
  comparison : Comparison
  operands : List (Operand α)
  fromTs : Int
  toTs : Int
  /-- By which fraction a threshold may be missed. -/
  margin : α
  state : Progress α
  deriving BEq

/-- Why a set of ticks was refused. Each carries the name of the condition. -/
inductive FeedError where
  | noTicks (name : String)
  | mismatchedTimestamps (name : String)
  | missingTick (name key : String)
  | stale (name : String) (timestamp lastTs : Int)
  deriving Repr, DecidableEq

/-- The wording of a feed error. -/
def FeedError.message : FeedError → String
  | .noTicks name => "condition '" ++ name ++ "': no ticks supplied"
  | .mismatchedTimestamps name => "condition '" ++ name ++ "': ticks carry mismatched timestamps"
  | .missingTick name key => "condition '" ++ name ++ "': missing tick for operand " ++ key
  | .stale name timestamp lastTs =>
    "condition '" ++ name ++ "': tick at " ++ toString timestamp ++ " is older than last seen " ++
      toString lastTs

namespace Condition

variable {α : Type}

/-- A condition that has seen nothing. -/
def fresh (name : String) (comparison : Comparison) (operands : List (Operand α))
    (fromTs toTs : Int) (margin : α) : Condition α :=
  ⟨name, comparison, operands, fromTs, toTs, margin, .initial⟩

/-- The truth value so far. -/
def value (c : Condition α) : Trilean :=
  c.state.value

/-- Whether the condition is settled for good. -/
def isFinished (c : Condition α) : Bool :=
  c.state.status == .finished

/-- Forgets what has been seen. -/
def cleared (c : Condition α) : Condition α :=
  { c with state := .initial }

/-- What the operands quote, in the order in which they are written; numbers are left out. -/
def instruments (c : Condition α) : List Instrument :=
  c.operands.filterMap Operand.instrument?

/-- The value of an operand in a tick set. -/
def resolve (ticks : TickSet α) : Operand α → Option α
  | .number v => some v
  | .market i => (ticks.get? i.key).map (·.value)

/-- Whether the comparison holds of a tick set. -/
def holdsAt [Quantity α] (c : Condition α) (ticks : TickSet α) : Bool :=
  match c.operands.mapM (resolve ticks) with
  | some vs => c.comparison.holds c.margin vs
  | none => false

/-- The time of a tick set that the condition accepts: there are ticks, they are of one time, every
quoted operand has one, and they are no older than the last set. -/
def accepts (c : Condition α) (ticks : TickSet α) : Except FeedError Int :=
  match ticks.values with
  | [] => .error (.noTicks c.name)
  | t :: ts =>
    if ts.any (·.timestamp != t.timestamp) then .error (.mismatchedTimestamps c.name)
    else
      match c.instruments.find? (fun i => !ticks.contains i.key) with
      | some i => .error (.missingTick c.name i.key)
      | none =>
        if t.timestamp < c.state.lastTs then
          .error (.stale c.name t.timestamp c.state.lastTs)
        else .ok t.timestamp

/-- What the condition has seen after an accepted tick set of time `ts`. -/
def advance [Quantity α] (c : Condition α) (ts : Int) (ticks : TickSet α) : Progress α :=
  if ts < c.fromTs then c.state
  else if c.toTs < ts then ⟨.finished, ts, ticks, .no⟩
  else if c.holdsAt ticks then ⟨.finished, ts, ticks, .yes⟩
  else ⟨.started, ts, ticks, c.state.value⟩

/-- Feeds one tick set. A finished condition accepts everything and stays as it is. -/
def feed [Quantity α] (c : Condition α) (ticks : TickSet α) : Except FeedError (Condition α) :=
  if c.isFinished then .ok c
  else (c.accepts ticks).map fun ts => { c with state := c.advance ts ticks }

/-- The condition as people read it. -/
def text (c : Condition Price) : String :=
  let body :=
    match c.comparison, c.operands with
    | .between, [a, b, d] => a.text ++ " BETWEEN " ++ b.text ++ " AND " ++ d.text
    | op, [a, b] => a.text ++ " " ++ op.symbol ++ " " ++ b.text
    | op, operands => op.symbol ++ " " ++ " ".intercalate (operands.map Operand.text)
  if 0 < c.margin then body ++ " (±" ++ Decimal.text (c.margin * 100) ++ "%)" else body

end Condition

end Forecast
