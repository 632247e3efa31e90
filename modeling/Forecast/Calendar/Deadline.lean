import Forecast.Calendar.Reading

/-!
# Relative deadlines

A deadline may be given relative to an instant: a number of hours, days, weeks, months or years
(`12h`, `3d`, `2w`, `1m`, `1y`; `m` is months), or the end of the current day, week, month or year
(`eod`, `eow`, `eom`, `eoy`). Weeks end on Sunday. The number is between 1 and 10000.

Hours, days and weeks are exact multiples of a second. Months and years keep the day of the month,
or take the last day of a month that is too short, and keep the time of day.
-/

namespace Forecast.Calendar

/-- Why a relative deadline could not be resolved. Each carries the text as it was written. -/
inductive DeadlineError where
  /-- A number without a unit. -/
  | noUnit (text : String)
  /-- No number, or one that is far too long. -/
  | invalid (text : String)
  /-- A number outside of 1 to 10000, or a deadline beyond the calendar. -/
  | outOfRange (text : String)
  /-- A unit that is not `h`, `d`, `w`, `m` or `y`; in lower case. -/
  | unknownUnit (unit : String)
  /-- A week or month whose end is beyond the calendar. -/
  | unresolvable (text : String)
  deriving Repr, DecidableEq

/-- The wording of a deadline error. -/
def DeadlineError.message : DeadlineError → String
  | .noUnit text => "duration '" ++ text ++ "' has no unit"
  | .invalid text => "invalid duration '" ++ text ++ "'"
  | .outOfRange text => "duration '" ++ text ++ "' out of range"
  | .unknownUnit unit => "unknown duration unit '" ++ unit ++ "'"
  | .unresolvable text => "cannot resolve duration '" ++ text ++ "'"

/-- The largest number of units. -/
def maxUnits : Int := 10000

/-- Moves an instant by a number of seconds. A leap second is left when the clock moves on. -/
def Instant.plusSeconds (t : Instant) (seconds : Int) : Option Instant :=
  let moved : Instant := ⟨t.seconds + seconds, t.nanos % nanosPerSecond⟩
  if moved.exists then some moved else none

/-- Months counted from the beginning of year 0. -/
def Date.monthCount (d : Date) : Int :=
  d.year * 12 + ((d.month : Int) - 1)

/-- The same day some months later, or the last day of that month if the day does not exist. -/
def Date.plusMonths (d : Date) (months : Int) : Date :=
  let count := d.monthCount + months
  let year := count / 12
  let month := (count % 12).toNat + 1
  ⟨year, month, min d.day (daysInMonth year month)⟩

/-- Moves an instant by a number of months at the same time of day. -/
def Instant.plusMonths (t : Instant) (months : Int) : Option Instant :=
  let date := t.date.plusMonths months
  if date.exists then some (Instant.ofDay date.toDays t.secondOfDay t.nanos) else none

/-- The first day of the month after a date. -/
def Date.nextMonth (d : Date) : Date :=
  if d.month = 12 then ⟨d.year + 1, 1, 1⟩ else ⟨d.year, d.month + 1, 1⟩

/-- The last second of a day of the calendar. -/
def endOf (days : Int) : Option Instant :=
  if inCalendar days then some (endOfDay days) else none

/-- The end of the period that a word names, if it is one of the four words. -/
def Instant.endOfPeriod (t : Instant) (word : String) : Option (Option Instant) :=
  match word with
  | "eod" => some (endOf t.days)
  | "eow" => some (endOf (t.days + (6 - daysFromMonday t.days)))
  | "eom" =>
    let next := t.date.nextMonth
    some (if next.exists then endOf (next.toDays - 1) else none)
  | "eoy" => some (endOf (Date.mk t.date.year 12 31).toDays)
  | _ => none

/-- Moves an instant by a number of the units that a letter names, if it names one. -/
def Instant.plusUnits (t : Instant) (n : Int) (unit : String) : Option (Option Instant) :=
  match unit with
  | "h" => some (t.plusSeconds (n * 3600))
  | "d" => some (t.plusSeconds (n * 86400))
  | "w" => some (t.plusSeconds (n * 604800))
  | "m" => some (t.plusMonths n)
  | "y" => some (t.plusMonths (n * 12))
  | _ => none

/-- Resolves a relative deadline, in any case and with blanks around it, from an instant. -/
def Instant.deadline (t : Instant) (text : String) : Except DeadlineError Instant :=
  let word := Text.lower (Text.trim text)
  match t.endOfPeriod word with
  | some (some e) => .ok e
  | some none => .error (.unresolvable text)
  | none =>
    let digits := word.toList.takeWhile Char.isDigit
    let unit := word.toList.dropWhile Char.isDigit
    if unit = [] then .error (.noUnit text)
    else
      match (Decimal.readNat digits).filter (fun n => Decimal.fitsWord n) with
      | none => .error (.invalid text)
      | some n =>
        if n = 0 ∨ maxUnits < n then .error (.outOfRange text)
        else
          match t.plusUnits n (String.ofList unit) with
          | some (some e) => .ok e
          | some none => .error (.outOfRange text)
          | none => .error (.unknownUnit (String.ofList unit))

end Forecast.Calendar
