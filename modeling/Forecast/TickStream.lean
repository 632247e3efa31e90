import Forecast.Feed

/-!
# Tick Streams

A tick stream turns the candles of a feed into ticks, one at a time. It yields only ticks from
`start` to `now`, and each tick is later than the one before it: whatever the feed repeats or
delivers out of order is passed over. The first tick after `now` ends the stream.

Once a stream is exhausted it stays so and keeps reporting the last tick it yielded. Any other
failure of the feed is reported once and leaves the stream usable. A candle with a price that is
not finite counts as such a failure, and none of its ticks is seen.
-/

namespace Forecast

/-- The ticks of one operand within a span of time. -/
structure TickStream where
  /-- The key of the operand. -/
  key : String
  /-- The length of a candle in seconds. -/
  interval : Int
  start : Int
  now : Int
  /-- The ticks of the current candle that have not been looked at. -/
  buffer : List (Tick Price)
  feed : Feed
  lastTick : Option (Tick Price)
  exhausted : Bool

namespace TickStream

/-- A stream that has yielded nothing. -/
def ofFeed (key : String) (feed : Feed) (interval start now : Int) : TickStream :=
  ⟨key, interval, start, now, [], feed, none, false⟩

/-- What is found among the ticks of a candle. -/
inductive Found where
  /-- A tick to yield, and the ticks after it. -/
  | tick (t : Tick Price) (rest : List (Tick Price))
  /-- A tick after the end of the stream. -/
  | ending
  | nothing

/-- Whether a tick is no later than the last one that was yielded. -/
def isRepeat (s : TickStream) (t : Tick Price) : Bool :=
  s.lastTick.any fun last => t.timestamp ≤ last.timestamp

/-- Looks for a tick to yield. -/
def search (s : TickStream) : List (Tick Price) → Found
  | [] => .nothing
  | t :: ts =>
    if s.now < t.timestamp then .ending
    else if t.timestamp < s.start ∨ s.isRepeat t then s.search ts
    else .tick t ts

/-- The stream with nothing more to yield, and its last report. -/
def finish (s : TickStream) (feed : Feed) : Except MarketError (Tick Price) × TickStream :=
  (.error (.exhausted s.lastTick), { s with buffer := [], feed, exhausted := true })

/-- The stream after a tick has been yielded. -/
def yielding (s : TickStream) (t : Tick Price) (buffer : List (Tick Price)) (feed : Feed) :
    Except MarketError (Tick Price) × TickStream :=
  (.ok t, { s with buffer, feed, lastTick := some t })

/-- The failure that a candle with a price that is not finite counts as. -/
def badCandle (s : TickStream) (c : Candle) : MarketError :=
  .sourceFailed s.key ("candle at " ++ toString c.timestamp ++ " has a non-finite price")

/-- Draws candles from a feed until a tick is found. -/
def draw (s : TickStream) : Feed → Except MarketError (Tick Price) × TickStream
  | [] => s.finish []
  | .error (.exhausted _) :: feed => s.finish feed
  | .error e :: feed => (.error e, { s with buffer := [], feed })
  | .ok c :: feed =>
    if c.hasFinitePrices then
      match s.search (c.ticks s.interval) with
      | .tick t buffer => s.yielding t buffer feed
      | .ending => s.finish feed
      | .nothing => s.draw feed
    else (.error (s.badCandle c), { s with buffer := [], feed })

/-- The next tick, or why there is none, and the stream after it. -/
def next (s : TickStream) : Except MarketError (Tick Price) × TickStream :=
  if s.exhausted then (.error (.exhausted s.lastTick), s)
  else
    match s.search s.buffer with
    | .tick t buffer => s.yielding t buffer s.feed
    | .ending => s.finish s.feed
    | .nothing => s.draw s.feed

end TickStream

end Forecast
