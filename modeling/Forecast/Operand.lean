import Forecast.Decimal.Reading
import Forecast.Decimal.Style
import Forecast.Quantity

/-!
# Operands

What a condition compares: a number, or something the market quotes. An author writes
`COIN:<PROVIDER>:<BASE>-<QUOTE>`, `MARKETCAP:<PROVIDER>:<BASE>`, or a number, which may have `_`
and `,` among its digits and end in `k`, `m` or `b` for thousands, millions and billions. Case
does not matter: an operand is read in upper case.

Every operand has a key. The key of a quoted operand names its stream of candles.
-/

namespace Forecast

/-- Something the market quotes. -/
inductive Instrument where
  /-- The price of a coin in terms of another. -/
  | coin (provider base quote : String)
  /-- The market capitalisation of a coin. -/
  | marketcap (provider base : String)
  deriving Repr, DecidableEq

namespace Instrument

/-- Who quotes it. -/
def provider : Instrument → String
  | .coin p _ _ => p
  | .marketcap p _ => p

/-- The name of its stream of candles. -/
def key : Instrument → String
  | .coin p b q => "COIN:" ++ p ++ ":" ++ b ++ "-" ++ q
  | .marketcap p b => "MARKETCAP:" ++ p ++ ":" ++ b

/-- A coin named in any case. -/
def coinOf (provider base quote : String) : Instrument :=
  .coin (Text.upper provider) (Text.upper base) (Text.upper quote)

/-- A market capitalisation named in any case. -/
def marketcapOf (provider base : String) : Instrument :=
  .marketcap (Text.upper provider) (Text.upper base)

end Instrument

/-- A number, or something the market quotes. -/
inductive Operand (α : Type) where
  | number (value : α)
  | market (instrument : Instrument)
  deriving Repr, BEq, DecidableEq

namespace Operand

variable {α : Type}

/-- Whether the operand is a number. -/
def isNumber : Operand α → Bool
  | .number _ => true
  | .market _ => false

/-- What the market quotes for the operand, if it is not a number. -/
def instrument? : Operand α → Option Instrument
  | .number _ => none
  | .market i => some i

/-- Who quotes the operand, if it is not a number. -/
def provider? (o : Operand α) : Option String :=
  o.instrument?.map Instrument.provider

/-- The key of the operand. -/
def key : Operand Price → String
  | .number v => "NUMBER:" ++ Decimal.text v
  | .market i => i.key

/-- The operand as people read it. -/
def text : Operand Price → String
  | .number v => Decimal.text v
  | .market i => i.key

end Operand

/-! ### Reading operands -/

/-- Why a text is no operand. -/
inductive OperandError where
  | empty
  /-- A coin without the dash between its two assets. -/
  | noPair (found : String)
  /-- A provider or asset that is empty or has other characters than ASCII letters and digits. -/
  | badSymbol (symbol : String)
  | badNumber (text : String)
  /-- A text with colons that is neither a coin nor a market capitalisation. -/
  | unrecognised (text : String)
  deriving Repr, DecidableEq

/-- The wording of an operand error. -/
def OperandError.message : OperandError → String
  | .empty => "empty operand"
  | .noPair found => "expected BASE-QUOTE pair, found '" ++ found ++ "'"
  | .badSymbol symbol => "invalid symbol '" ++ symbol ++ "'"
  | .badNumber text => "invalid number '" ++ text ++ "'"
  | .unrecognised text => "unrecognised operand '" ++ text ++ "'"

namespace Operand

/-- Whether a text can name a provider or an asset. -/
def isSymbol (cs : List Char) : Bool :=
  !cs.isEmpty && cs.all Char.isAlphanum

/-- Reads the name of a provider or an asset. -/
def readSymbol (cs : List Char) : Except OperandError String :=
  if isSymbol cs then .ok (String.ofList cs) else .error (.badSymbol (String.ofList cs))

/-- The factor that the last letter of a number stands for. -/
def multiplier? (c : Char) : Option Float :=
  match c with
  | 'K' => some 1e3
  | 'M' => some 1e6
  | 'B' => some 1e9
  | _ => none

/-- Splits a number into its digits and the factor of its last letter. -/
def splitMultiplier (cs : List Char) : List Char × Float :=
  match cs.getLast?.bind multiplier? with
  | some factor => (cs.dropLast, factor)
  | none => (cs, 1)

/-- Reads a number in upper case. It must be finite before its factor is applied. -/
def readNumber (cs : List Char) : Except OperandError Price :=
  let (digits, factor) := splitMultiplier (cs.filter fun c => c ≠ '_' ∧ c ≠ ',')
  match (Decimal.readFloat digits).filter Float.isFinite with
  | some v => .ok (v * factor)
  | none => .error (.badNumber (String.ofList cs))

/-- Reads a coin after its provider: two assets with a dash between them. -/
def readCoin (provider pair : List Char) : Except OperandError Instrument :=
  match Text.cutAt '-' pair with
  | none => .error (.noPair (String.ofList pair))
  | some (base, quote) => do
    let provider ← readSymbol provider
    let base ← readSymbol base
    let quote ← readSymbol quote
    return .coinOf provider base quote

/-- Reads a market capitalisation after its provider. -/
def readMarketcap (provider base : List Char) : Except OperandError Instrument := do
  let provider ← readSymbol provider
  let base ← readSymbol base
  return .marketcapOf provider base

/-- Reads the pieces between the colons of an operand in upper case; `text` is what the author
wrote. -/
def ofPieces (text : String) : List (List Char) → Except OperandError (Operand Price)
  | [single] => (readNumber single).map .number
  | [kind, provider, rest] =>
    if kind = "COIN".toList then (readCoin provider rest).map .market
    else if kind = "MARKETCAP".toList then (readMarketcap provider rest).map .market
    else .error (.unrecognised text)
  | _ => .error (.unrecognised text)

/-- Reads an operand, blanks around it aside. -/
def parse (s : String) : Except OperandError (Operand Price) :=
  let cs := Text.trimChars s.toList
  if cs.isEmpty then .error .empty
  else ofPieces (String.ofList cs) (Text.pieces (· == ':') (Text.upperChars cs))

end Operand

end Forecast
