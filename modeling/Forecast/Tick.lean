import Forecast.Decimal.Integer
import Forecast.Quantity

/-!
# Ticks and candles

A tick is one observed price. The market delivers candles: the first, highest, lowest and last
price of an interval. A candle stands for four ticks spread over its interval, at quarters of it.
A candle that closes no lower than it opened is taken to have visited its low before its high, and
any other its high before its low, so that both extremes are seen in a plausible order.

In an interval of fewer than four seconds the ticks of a candle reach beyond its end, which is why
a market configuration must not have one.

Times are signed 64-bit words, whose sums are not checked. In the last interval of all, a tick that
would lie beyond the last second that a word holds lies before all others instead.
-/

namespace Forecast

/-- A price at a time in seconds since 1970. -/
structure Tick (α : Type) where
  timestamp : Int
  value : α
  deriving Repr, BEq, DecidableEq

/-- The prices of one interval. -/
structure Candle where
  /-- When the interval begins, in seconds since 1970. -/
  timestamp : Int
  opened : Price
  high : Price
  low : Price
  closed : Price
  volume : Price
  deriving Repr, BEq

/-- The shortest interval whose four ticks are at distinct seconds within it. -/
def minInterval : Int := 4

namespace Candle

/-- Whether the candle closes no lower than it opened. -/
def isBullish (c : Candle) : Bool :=
  c.opened ≤ c.closed

/-- Whether all four prices are finite. -/
def hasFinitePrices (c : Candle) : Bool :=
  c.opened.isFinite && c.high.isFinite && c.low.isFinite && c.closed.isFinite

/-- The distance between two ticks of a candle: a quarter of the interval, but at least a second. -/
def tickStep (interval : Int) : Int :=
  max (interval.tdiv 4) 1

/-- The ticks that the candle stands for, one after the other. -/
def ticks (interval : Int) (c : Candle) : List (Tick Price) :=
  let step := tickStep interval
  let (first, second) := if c.isBullish then (c.low, c.high) else (c.high, c.low)
  [⟨c.timestamp, c.opened⟩, ⟨Decimal.wrap (c.timestamp + step), first⟩,
    ⟨Decimal.wrap (c.timestamp + 2 * step), second⟩,
    ⟨Decimal.wrap (c.timestamp + 3 * step), c.closed⟩]

/-- Candles in the order of their times; candles of one time keep their order. -/
def sortByTime (cs : List Candle) : List Candle :=
  cs.mergeSort fun a b => a.timestamp ≤ b.timestamp

theorem one_le_tickStep (interval : Int) : 1 ≤ tickStep interval :=
  Int.le_max_right _ _

@[simp] theorem length_ticks (interval : Int) (c : Candle) : (c.ticks interval).length = 4 := by
  simp [ticks]

/-- The ticks of a candle that begins at a word are at words. -/
theorem fitsWord_of_mem_ticks {interval : Int} {c : Candle}
    (h : Decimal.fitsWord c.timestamp = true) :
    ∀ t ∈ c.ticks interval, Decimal.fitsWord t.timestamp = true := by
  simp [ticks, h, Decimal.fitsWord_wrap]

end Candle

end Forecast
