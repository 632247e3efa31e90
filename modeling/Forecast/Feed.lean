import Forecast.Tick

/-!
# Feeds

A feed is what a source of candles delivers for one instrument: candles, with failures among them,
and then nothing more. A failure concerns one delivery only; the next one may succeed.

Most sources hold their candles ready and deliver them in the order of their times
(`Feed.ofCandles`), but nothing is assumed of the order by those who read a feed.
-/

namespace Forecast

/-- Why the market does not deliver. -/
inductive MarketError where
  /-- The operand is a number. -/
  | unsupportedOperand (key : String)
  /-- The provider of the operand is not among those in use. -/
  | unsupportedProvider (provider key : String)
  /-- Everything has been delivered; the last tick, if there was one. -/
  | exhausted (lastTick : Option (Tick Price))
  /-- The source failed. -/
  | sourceFailed (key reason : String)
  deriving Repr

/-- The wording of a market error. -/
def MarketError.message : MarketError → String
  | .unsupportedOperand key => "operand " ++ key ++ " has no market stream"
  | .unsupportedProvider provider key =>
    "provider " ++ provider ++ " is not supported (operand " ++ key ++ ")"
  | .exhausted _ => "stream exhausted"
  | .sourceFailed key reason => "upstream error for " ++ key ++ ": " ++ reason

/-- What a source still has to deliver. -/
abbrev Feed : Type := List (Except MarketError Candle)

/-- Delivers candles in the order of their times. -/
def Feed.ofCandles (candles : List Candle) : Feed :=
  (Candle.sortByTime candles).map .ok

/-- The next candle and what is left; at the end, and ever after, the feed is exhausted. -/
def Feed.next : Feed → Except MarketError Candle × Feed
  | [] => (.error (.exhausted none), [])
  | e :: rest => (e, rest)

end Forecast
