import Forecast.Market
import Forecast.Prediction

/-!
# Sessions

A session brings one prediction forward. Each pass feeds at most one tick set to every condition
that the active phase needed when the pass began. The streams of a condition are opened when the
condition is first needed, from where the condition stands, and kept from then on.

A condition is fed only when every one of its streams has a tick. Streams that have yielded a tick
before another one ran dry are not set back; the condition can no longer be fed anyway.

The session ends when the prediction is final, when a pass has fed nothing, or with its first
error.
-/

namespace Forecast

/-- Why a prediction could not be brought forward. -/
inductive RunFault where
  | market (error : MarketError)
  | feed (error : FeedError)
  deriving Repr

/-- The wording of a fault. -/
def RunFault.message : RunFault → String
  | .market e => e.message
  | .feed e => e.message

/-- A fault with the id of its prediction. -/
structure RunError where
  id : String
  fault : RunFault
  deriving Repr

/-- The wording of a run error. -/
def RunError.message (e : RunError) : String :=
  "prediction " ++ e.id ++ ": " ++ e.fault.message

/-- A request for a feed: a key, and the second from which candles are wanted. -/
structure Opening where
  key : String
  start : Int
  deriving Repr, DecidableEq

/-- A prediction on its way. -/
structure Session where
  /-- The prediction as it was at the beginning. -/
  initial : Prediction
  prediction : Prediction
  /-- The last second that may be looked at. -/
  now : Int
  /-- For every condition its streams, once they have been opened. -/
  streams : List (Option (List TickStream))
  inactive : Bool

namespace Session

/-- Begins a session. The market must serve every operand of every condition that it can quote. -/
def start (m : Market) (p : Prediction) (now : Int) : Except RunError Session :=
  match (p.given.flatMap Condition.instruments).mapM fun i => m.check (.market i) with
  | .error e => .error ⟨p.id, .market e⟩
  | .ok _ => .ok ⟨p, p, now, p.given.map fun _ => none, false⟩

/-- Whether the prediction is no longer what it was at the beginning. -/
def hasChanged (s : Session) : Bool :=
  s.prediction != s.initial

/-! ### Streams of a condition -/

/-- Opens the streams of some instruments, up to the first that cannot be opened; also what was
requested. -/
def openStreams (m : Market) (start now : Int) :
    List Instrument → List Opening × Except MarketError (List TickStream)
  | [] => ([], .ok [])
  | i :: is =>
    match m.check (.market i) with
    | .error e => ([], .error e)
    | .ok i =>
      let opening : Opening := ⟨i.key, intervalStart m.interval start⟩
      match m.openStream i start now with
      | .error e => ([opening], .error e)
      | .ok stream =>
        let (openings, rest) := openStreams m start now is
        (opening :: openings, rest.map (stream :: ·))

/-- What one tick from each of several streams amounts to. -/
inductive Drawn where
  | ticks (ticks : TickSet Price)
  /-- A stream has run dry. -/
  | dry
  | failed (error : MarketError)

/-- Takes one tick from each stream in order, up to the first that has none; also the streams
afterwards. -/
def drawEach : TickSet Price → List TickStream → Drawn × List TickStream
  | ticks, [] => (.ticks ticks, [])
  | ticks, s :: ss =>
    match s.next with
    | (.ok t, s) =>
      let (drawn, ss) := drawEach (ticks.insert s.key t) ss
      (drawn, s :: ss)
    | (.error (.exhausted _), s) => (.dry, s :: ss)
    | (.error e, s) => (.failed e, s :: ss)

/-- One tick from each stream, unless one is known to be exhausted. -/
def drawAll (streams : List TickStream) : Drawn × List TickStream :=
  if streams.any (·.exhausted) then (.dry, streams) else drawEach .empty streams

/-! ### Steps and passes -/

/-- What came of looking after one condition. -/
structure Step where
  session : Session
  opened : List Opening
  /-- Whether the condition was fed, or why the session must end. -/
  result : Except RunFault Bool

/-- Feeds a condition from its open streams. -/
def feedFrom (s : Session) (i : Nat) (c : Condition Price) (streams : List TickStream) :
    Session × Except RunFault Bool :=
  let (drawn, streams) := drawAll streams
  let s := { s with streams := s.streams.set i (some streams) }
  match drawn with
  | .dry => (s, .ok false)
  | .failed e => (s, .error (.market e))
  | .ticks ticks =>
    match c.feed ticks with
    | .error e => (s, .error (.feed e))
    | .ok c => ({ s with prediction := s.prediction.setCondition i c }, .ok true)

/-- Looks after the condition at a position: opens its streams if need be and feeds it. -/
def step (m : Market) (s : Session) (i : Nat) : Step :=
  match s.prediction.given[i]? with
  | none => ⟨s, [], .ok false⟩
  | some c =>
    match s.streams[i]?.join with
    | some streams =>
      let (s, result) := s.feedFrom i c streams
      ⟨s, [], result⟩
    | none =>
      match openStreams m (max c.fromTs c.state.lastTs) s.now c.instruments with
      | (openings, .error e) => ⟨s, openings, .error (.market e)⟩
      | (openings, .ok streams) =>
        let (s, result) := s.feedFrom i c streams
        ⟨s, openings, result⟩

/-- What came of a round over some conditions. -/
structure Round where
  session : Session
  opened : List Opening
  /-- How many conditions were fed. -/
  fed : Nat
  fault : Option RunFault

/-- Looks after the conditions at some positions in order, up to the first fault. -/
def round (m : Market) (s : Session) : List Nat → Round
  | [] => ⟨s, [], 0, none⟩
  | i :: is =>
    let done := s.step m i
    match done.result with
    | .error fault => ⟨done.session, done.opened, 0, some fault⟩
    | .ok fed =>
      let rest := done.session.round m is
      ⟨rest.session, done.opened ++ rest.opened, rest.fed + (if fed then 1 else 0), rest.fault⟩

/-- What came of a pass. -/
structure Pass where
  session : Session
  opened : List Opening
  errors : List RunError

/-- One pass over the conditions that the active phase needs. The state of the prediction is
derived anew, also after a fault. -/
def pass (m : Market) (s : Session) : Pass :=
  if s.inactive then ⟨s, [], []⟩
  else if s.prediction.isFinal then ⟨{ s with inactive := true }, [], []⟩
  else
    let r := s.round m s.prediction.actionable
    let p := r.session.prediction.evaluated
    match r.fault with
    | some fault =>
      ⟨{ r.session with prediction := p, inactive := true }, r.opened, [⟨p.id, fault⟩]⟩
    | none =>
      ⟨{ r.session with prediction := p, inactive := p.isFinal || r.fed == 0 }, r.opened, []⟩

/-- Passes until the session ends, but at most `limit`; also the errors. -/
def drain (m : Market) : (limit : Nat) → Session → Session × List RunError
  | 0, s => (s, [])
  | limit + 1, s =>
    if s.inactive then (s, [])
    else
      let done := s.pass m
      let (s, errors) := drain m limit done.session
      (s, done.errors ++ errors)

end Session

end Forecast
