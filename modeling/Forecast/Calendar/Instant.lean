import Forecast.Calendar.Date

/-!
# Instants

A point in time: whole seconds since 1970-01-01T00:00:00 in UTC, and nanoseconds. A leap second
is written as second 60; it shares the count of seconds of the second before it, and its
nanoseconds run from `10 ^ 9` upwards, so that instants are still ordered by seconds first and
nanoseconds second.
-/

namespace Forecast.Calendar

/-- Seconds since 1970-01-01 in UTC, and nanoseconds below `2 * 10 ^ 9` (from `10 ^ 9` on within a
leap second). -/
structure Instant where
  seconds : Int
  nanos : Nat
  deriving Repr, DecidableEq, BEq

/-- The nanoseconds of one second. -/
def nanosPerSecond : Nat := 1000000000

/-- The seconds of one day. -/
def secondsPerDay : Int := 86400

/-- Days since 1970-01-01. -/
def Instant.days (t : Instant) : Int :=
  t.seconds / secondsPerDay

/-- Seconds since midnight. -/
def Instant.secondOfDay (t : Instant) : Int :=
  t.seconds % secondsPerDay

/-- The date in UTC. -/
def Instant.date (t : Instant) : Date :=
  Date.ofDays t.days

/-- Whether the instant falls on a date of the calendar. -/
def Instant.exists (t : Instant) : Bool :=
  inCalendar t.days

/-- The instant at a second of a day. -/
def Instant.ofDay (days secondOfDay : Int) (nanos : Nat) : Instant :=
  ⟨days * secondsPerDay + secondOfDay, nanos⟩

/-- Midnight of a date. -/
def Date.midnight (d : Date) : Instant :=
  Instant.ofDay d.toDays 0 0

/-- The last whole second of a day. -/
def endOfDay (days : Int) : Instant :=
  Instant.ofDay days 86399 0

/-- Whether one instant comes strictly before another. -/
def Instant.before (s t : Instant) : Bool :=
  s.seconds < t.seconds || (s.seconds == t.seconds && s.nanos < t.nanos)

/-! ### Written forms -/

/-- Hours, minutes and seconds; the second of a leap second is 60. -/
def clockText (secondOfDay : Int) (nanos : Nat) : List Char :=
  let s := secondOfDay.toNat
  let second := s % 60 + (if nanosPerSecond ≤ nanos then 1 else 0)
  Decimal.padZeros 2 (s / 3600) ++ ':' :: Decimal.padZeros 2 (s / 60 % 60) ++
    ':' :: Decimal.padZeros 2 second

/-- The fraction of a second: none, or 3, 6 or 9 digits, as few as hold it exactly. -/
def fractionText (nanos : Nat) : List Char :=
  let n := nanos % nanosPerSecond
  if n = 0 then []
  else if n % 1000000 = 0 then '.' :: Decimal.padZeros 3 (n / 1000000)
  else if n % 1000 = 0 then '.' :: Decimal.padZeros 6 (n / 1000)
  else '.' :: Decimal.padZeros 9 n

/-- Date and time of day with a `T` between them. -/
def Instant.localText (t : Instant) : List Char :=
  t.date.text ++ 'T' :: clockText t.secondOfDay t.nanos ++ fractionText t.nanos

/-- The form shown to people: with the offset of UTC in full. -/
def Instant.text (t : Instant) : String :=
  String.ofList (t.localText ++ "+00:00".toList)

/-- The form in stored documents: with `Z` for the offset. -/
def Instant.storedText (t : Instant) : String :=
  String.ofList (t.localText ++ ['Z'])

/-- Date, hours and minutes of a count of seconds; the bare count where the calendar ends. -/
def minuteText (seconds : Int) : String :=
  let t : Instant := ⟨seconds, 0⟩
  if t.exists then
    let s := t.secondOfDay.toNat
    String.ofList (t.date.text ++ ' ' :: Decimal.padZeros 2 (s / 3600) ++
      ':' :: Decimal.padZeros 2 (s / 60 % 60) ++ " UTC".toList)
  else toString seconds

end Forecast.Calendar
