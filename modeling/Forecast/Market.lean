import Forecast.Operand
import Forecast.TickStream

/-!
# Markets

A market serves the operands of some providers from a source of candles. It opens a stream of ticks
for an operand at any second; the source is asked for candles from the beginning of the interval
that the second falls into, since the candle under way holds ticks after it. Seconds are signed
64-bit words: the beginning of the first interval of all may lie before all of them, and a second
near their other end is asked for instead.
-/

namespace Forecast

/-- Which operands are served, and how long a candle is. -/
structure MarketConfig where
  /-- The providers in use, in upper case. -/
  providers : List String
  /-- The length of a candle in seconds. -/
  interval : Int
  deriving Repr, DecidableEq

namespace MarketConfig

/-- A configuration with providers named in any case and with blanks around them. -/
def ofNames (providers : List String) (interval : Int) : MarketConfig :=
  ⟨providers.map fun p => Text.upper (Text.trim p), interval⟩

/-- Whether a provider is in use, letters of ASCII compared without case. -/
def supports (m : MarketConfig) (provider : String) : Bool :=
  m.providers.any (Text.sameLetters · provider)

end MarketConfig

/-- The beginning of the interval that a second falls into, as a word. -/
def intervalStart (interval second : Int) : Int :=
  Decimal.wrap (second - second % interval)

/-- A market: its configuration, and what its source delivers under a key from a second on. -/
structure Market extends MarketConfig where
  source : String → Int → Except MarketError Feed

namespace Market

/-- What the market serves an operand from; numbers and other providers are refused. -/
def check (m : Market) (o : Operand Price) : Except MarketError Instrument :=
  match o with
  | .number _ => .error (.unsupportedOperand o.key)
  | .market i =>
    if m.supports i.provider then .ok i else .error (.unsupportedProvider i.provider o.key)

/-- Opens the stream of an instrument that is served. -/
def openStream (m : Market) (i : Instrument) (start now : Int) : Except MarketError TickStream :=
  (m.source i.key (intervalStart m.interval start)).map fun feed =>
    .ofFeed i.key feed m.interval start now

/-- The ticks of an operand from a second to another. -/
def ticks (m : Market) (o : Operand Price) (start now : Int) : Except MarketError TickStream := do
  let i ← m.check o
  m.openStream i start now

end Market

end Forecast
