import Forecast.Decimal.Integer

/-!
# Dates

The proleptic Gregorian calendar: dates as year, month and day, and the count of days since
1970-01-01. The count is a whole number of any sign; a year may be zero or negative (year 0 is the
year before year 1).

Years are grouped into eras of 400, each of 146097 days, and a year is taken to begin in March, so
that the leap day is its last day. Both directions of the conversion then need only division.

The calendar is bounded (`Date.first`, `Date.last`): a date outside of the bounds does not exist,
and arithmetic that leaves them fails.
-/

namespace Forecast.Calendar

/-- A year, a month from 1 to 12, and a day of the month from 1. -/
structure Date where
  year : Int
  month : Nat
  day : Nat
  deriving Repr, DecidableEq

/-- Leap years are divisible by 4, but of the centuries only those divisible by 400. -/
def isLeap (year : Int) : Bool :=
  year % 4 == 0 && (year % 100 != 0 || year % 400 == 0)

/-- The number of days in a month. -/
def daysInMonth (year : Int) (month : Nat) : Nat :=
  match month with
  | 2 => if isLeap year then 29 else 28
  | 4 | 6 | 9 | 11 => 30
  | _ => 31

/-- The first year of the calendar. -/
def firstYear : Int := -262143

/-- The last year of the calendar. -/
def lastYear : Int := 262142

/-- Whether the date exists: its month and day do, and its year is within the calendar. -/
def Date.exists (d : Date) : Bool :=
  firstYear ≤ d.year && d.year ≤ lastYear && 1 ≤ d.month && d.month ≤ 12 &&
    1 ≤ d.day && d.day ≤ daysInMonth d.year d.month

/-- Days since 1970-01-01. -/
def Date.toDays (d : Date) : Int :=
  let year := if d.month ≤ 2 then d.year - 1 else d.year
  let era := year / 400
  let yearOfEra := year % 400
  let monthFromMarch : Int := (d.month + 9) % 12
  let dayOfYear := (153 * monthFromMarch + 2) / 5 + d.day - 1
  let dayOfEra := yearOfEra * 365 + yearOfEra / 4 - yearOfEra / 100 + dayOfYear
  era * 146097 + dayOfEra - 719468

/-- The date of a count of days since 1970-01-01. -/
def Date.ofDays (days : Int) : Date :=
  let shifted := days + 719468
  let era := shifted / 146097
  let dayOfEra := shifted % 146097
  let yearOfEra :=
    (dayOfEra - dayOfEra / 1460 + dayOfEra / 36524 - dayOfEra / 146096) / 365
  let dayOfYear := dayOfEra - (365 * yearOfEra + yearOfEra / 4 - yearOfEra / 100)
  let monthFromMarch := (5 * dayOfYear + 2) / 153
  let day := dayOfYear - (153 * monthFromMarch + 2) / 5 + 1
  let month := if monthFromMarch < 10 then monthFromMarch + 3 else monthFromMarch - 9
  let year := yearOfEra + era * 400 + (if month ≤ 2 then 1 else 0)
  ⟨year, month.toNat, day.toNat⟩

/-- Whether a count of days names a date of the calendar. -/
def inCalendar (days : Int) : Bool :=
  (Date.mk firstYear 1 1).toDays ≤ days && days ≤ (Date.mk lastYear 12 31).toDays

/-- Days since the Monday on or before the day; 1970-01-01 was a Thursday. -/
def daysFromMonday (days : Int) : Int :=
  (days + 3) % 7

/-- The year as text: four digits, or a sign and at least four digits outside of 0 to 9999. -/
def yearText (year : Int) : List Char :=
  if 0 ≤ year ∧ year ≤ 9999 then Decimal.padZeros 4 year.toNat
  else (if year < 0 then '-' else '+') :: Decimal.padZeros 4 year.natAbs

/-- Year, month and day with dashes between them. -/
def Date.text (d : Date) : List Char :=
  yearText d.year ++ '-' :: Decimal.padZeros 2 d.month ++ '-' :: Decimal.padZeros 2 d.day

end Forecast.Calendar
