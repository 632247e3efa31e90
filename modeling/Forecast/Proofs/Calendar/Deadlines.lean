import Forecast.Calendar.Deadline
import Forecast.Proofs.Calendar.StoredTimes
import Forecast.Proofs.Calendar.Succession

/-!
# Relative Deadlines on the Calendar

A relative deadline counts units or names a period (`Counts`, `Names`), and what it means is said
here on the calendar, without the arithmetic by which it is resolved:

* some hours, days or weeks later is so many seconds later;
* some months or years later is the same day of a month that is so many months later, or its last
  day if it is too short, at the same time of day (`Date.IsMonthsAfter`);
* the end of a period is the last second of its last day (`Instant.IsEndOf`), where weeks end on
  Sunday.

A deadline is resolved exactly if its meaning exists (`deadline_eq_ok_iff`), with one exception: the
end of the last month of the calendar is not found, since it is looked for before the first day of
the next month.

## Main results

* `seconds_lt_of_deadline`: a resolved deadline that is later at all is later by a second or more.
* `deadline_on_calendar`: what resolved deadlines are.
-/

namespace Forecast.Calendar

open Decimal (AreDigits BeginsApart digitsValue takeWhile_digits)

/-! ### Written deadlines -/

/-- The units that a deadline may count. -/
inductive TimeUnit where
  | hour
  | day
  | week
  | month
  | year
  deriving DecidableEq

/-- The periods whose end may be a deadline. -/
inductive Period where
  | day
  | week
  | month
  | year
  deriving DecidableEq

/-- The letter of a unit. -/
def TimeUnit.letter : TimeUnit → Char
  | .hour => 'h'
  | .day => 'd'
  | .week => 'w'
  | .month => 'm'
  | .year => 'y'

/-- The word for the end of a period. -/
def Period.word : Period → String
  | .day => "eod"
  | .week => "eow"
  | .month => "eom"
  | .year => "eoy"

/-- Whether a text counts some units: digits and the letter of the unit, in any case and with blanks
around them. -/
def Counts (text : String) (n : Nat) (unit : TimeUnit) : Prop :=
  ∃ ds, ds ≠ [] ∧ AreDigits ds ∧ digitsValue ds = n ∧
    (Text.lower (Text.trim text)).toList = ds ++ [unit.letter]

/-- Whether a text names the end of a period, in any case and with blanks around it. -/
def Names (text : String) (period : Period) : Prop :=
  Text.lower (Text.trim text) = period.word

/-! ### Their meaning -/

/-- Whether a date is some months after another: in the month that is so many months later, and
there on the same day, or on the last one if the month is too short. -/
structure Date.IsMonthsAfter (d : Date) (months : Int) (e : Date) : Prop where
  months : e.year * 12 + e.month = d.year * 12 + d.month + months
  day : e.day = min d.day (daysInMonth e.year e.month)

/-- Whether an instant is so many seconds after another, at the same fraction of a second; a leap
second is not kept. -/
structure Instant.IsSecondsAfter (t : Instant) (seconds : Int) (e : Instant) : Prop where
  seconds : e.seconds = t.seconds + seconds
  nanos : e.nanos = t.nanos % nanosPerSecond

/-- Whether an instant is some months after another, at the same time of day. -/
structure Instant.IsMonthsAfter (t : Instant) (months : Int) (e : Instant) : Prop where
  date : t.date.IsMonthsAfter months e.date
  clock : e.secondOfDay = t.secondOfDay
  nanos : e.nanos = t.nanos

/-- Whether an instant is some units after another. -/
def Instant.IsAfter (t : Instant) (n : Nat) : TimeUnit → Instant → Prop
  | .hour => t.IsSecondsAfter (n * 3600)
  | .day => t.IsSecondsAfter (n * 86400)
  | .week => t.IsSecondsAfter (n * 604800)
  | .month => t.IsMonthsAfter n
  | .year => t.IsMonthsAfter (12 * n)

/-- Whether a day is the last one of the period that a day is in; a Sunday is six days from
Monday. -/
def Period.IsLastDay (day : Int) : Period → Int → Prop
  | .day, last => last = day
  | .week, last => day ≤ last ∧ last < day + 7 ∧ daysFromMonday last = 6
  | .month, last =>
    Date.ofDays last = ⟨(Date.ofDays day).year, (Date.ofDays day).month,
      daysInMonth (Date.ofDays day).year (Date.ofDays day).month⟩
  | .year, last => Date.ofDays last = ⟨(Date.ofDays day).year, 12, 31⟩

/-- Whether an instant is the last second of the period that an instant is in. -/
structure Instant.IsEndOf (t : Instant) (period : Period) (e : Instant) : Prop where
  day : period.IsLastDay t.days e.days
  clock : e.secondOfDay = 23 * 3600 + 59 * 60 + 59
  nanos : e.nanos = 0

/-! ### Days and the time of day -/

/-- An instant is known from its day and the time of day. -/
theorem Instant.eq_ofDay_iff {e : Instant} {day second : Int} {nanos : Nat}
    (h : 0 ≤ second ∧ second < 86400) :
    e = Instant.ofDay day second nanos ↔
      e.days = day ∧ e.secondOfDay = second ∧ e.nanos = nanos := by
  constructor
  · rintro rfl
    refine ⟨?_, ?_, rfl⟩
    · simp only [days, ofDay, secondsPerDay]
      omega
    · simp only [secondOfDay, ofDay, secondsPerDay]
      omega
  · rintro ⟨rfl, rfl, rfl⟩
    exact e.ofDay_days.symm

/-- The count of a date that exists is known from the date. -/
theorem Date.ofDays_eq_iff {days : Int} {d : Date} (h : d.IsProper) :
    ofDays days = d ↔ days = d.toDays := by
  constructor
  · rintro rfl
    exact (toDays_ofDays days).symm
  · rintro rfl
    exact ofDays_toDays h

/-- Instants are in the order of their seconds first and their nanoseconds second. -/
theorem Instant.before_iff {s t : Instant} :
    s.before t = true ↔ s.seconds < t.seconds ∨ s.seconds = t.seconds ∧ s.nanos < t.nanos := by
  simp [before]

/-! ### Some units later -/

/-- The months of a date by the number of its month. -/
theorem Date.isMonthsAfter_iff {d e : Date} {months : Int} (he : 1 ≤ e.month ∧ e.month ≤ 12) :
    d.IsMonthsAfter months e ↔ e = d.plusMonths months := by
  have hcount : d.year * 12 + d.month + months = d.monthCount + months + 1 := by
    simp only [monthCount]
    omega
  constructor
  · rintro ⟨hmonths, hday⟩
    obtain ⟨year, month, day⟩ := e
    dsimp only at he hmonths hday
    have hyear : (d.monthCount + months) / 12 = year := by omega
    have hmonth : ((d.monthCount + months) % 12).toNat + 1 = month := by omega
    rw [plusMonths, hyear, hmonth, hday]
  · rintro rfl
    refine ⟨?_, rfl⟩
    simp only [plusMonths]
    omega

/-- The number of the month some months later. -/
theorem Date.IsMonthsAfter.monthCount {d e : Date} {months : Int} (h : d.IsMonthsAfter months e) :
    e.monthCount = d.monthCount + months := by
  have hmonths := h.months
  simp only [Date.monthCount]
  omega

namespace Instant

/-- An instant is moved by seconds exactly if the calendar goes so far. -/
theorem plusSeconds_eq_some_iff {t e : Instant} {seconds : Int} :
    t.plusSeconds seconds = some e ↔ e.exists = true ∧ t.IsSecondsAfter seconds e := by
  rw [plusSeconds]
  constructor
  · intro h
    split at h
    · next hexists =>
        obtain rfl := Option.some.inj h
        exact ⟨hexists, rfl, rfl⟩
    · cases h
  · rintro ⟨hexists, hseconds, hnanos⟩
    obtain ⟨_, _⟩ := e
    dsimp only at hseconds hnanos
    rw [← hseconds, ← hnanos, if_pos hexists]

/-- An instant is moved by months exactly to the same time of day of the date so many months
later. -/
theorem plusMonths_eq_some_iff {t e : Instant} {months : Int} :
    t.plusMonths months = some e ↔ e.exists = true ∧ t.IsMonthsAfter months e := by
  have hproper : e.date.IsProper := Date.isProper_ofDays e.days
  rw [plusMonths]
  constructor
  · intro h
    split at h
    · next hexists =>
        have hplus := Date.exists_iff.1 hexists
        obtain ⟨hdays, hsecond, hnanos⟩ :=
          (eq_ofDay_iff t.secondOfDay_bounds).1 (Option.some.inj h).symm
        have hdate : e.date = t.date.plusMonths months :=
          (Date.ofDays_eq_iff hplus.2.2).2 hdays
        have hwithin : e.exists = true := by
          rw [Instant.exists, hdays]
          exact Date.inCalendar_toDays hexists
        exact ⟨hwithin, (Date.isMonthsAfter_iff hproper.month).2 hdate, hsecond, hnanos⟩
    · cases h
  · rintro ⟨hexists, hafter, hsecond, hnanos⟩
    have hdate := (Date.isMonthsAfter_iff hproper.month).1 hafter
    have hplus : (t.date.plusMonths months).exists = true := by
      rw [← hdate]
      exact Date.exists_ofDays hexists
    have hdays : e.days = (t.date.plusMonths months).toDays := by
      rw [← hdate]
      exact (Date.toDays_ofDays e.days).symm
    rw [if_pos hplus, (eq_ofDay_iff t.secondOfDay_bounds).2 ⟨hdays, hsecond, hnanos⟩]

/-- The letter of a unit moves an instant by the unit. -/
theorem plusUnits_letter {t : Instant} (n : Nat) (unit : TimeUnit) :
    ∃ moved, t.plusUnits n (String.ofList [unit.letter]) = some moved ∧
      ∀ e, moved = some e ↔ e.exists = true ∧ t.IsAfter n unit e := by
  cases unit with
  | hour => exact ⟨_, rfl, fun _ => plusSeconds_eq_some_iff⟩
  | day => exact ⟨_, rfl, fun _ => plusSeconds_eq_some_iff⟩
  | week => exact ⟨_, rfl, fun _ => plusSeconds_eq_some_iff⟩
  | month => exact ⟨_, rfl, fun _ => plusMonths_eq_some_iff⟩
  | year =>
      refine ⟨_, rfl, fun _ => ?_⟩
      rw [Int.mul_comm]
      exact plusMonths_eq_some_iff

/-- No other text moves an instant. -/
theorem exists_letter_of_plusUnits {t : Instant} {n : Int} {text : String}
    {moved : Option Instant} (h : t.plusUnits n text = some moved) :
    ∃ unit : TimeUnit, text.toList = [unit.letter] := by
  rw [plusUnits.eq_def] at h
  split at h
  · exact ⟨.hour, rfl⟩
  · exact ⟨.day, rfl⟩
  · exact ⟨.week, rfl⟩
  · exact ⟨.month, rfl⟩
  · exact ⟨.year, rfl⟩
  · cases h

/-- A later month is a later day. -/
theorem IsMonthsAfter.seconds_lt {t e : Instant} {months : Int} (h : t.IsMonthsAfter months e)
    (hpos : 0 < months) : t.seconds < e.seconds := by
  have hcount : t.date.monthCount < e.date.monthCount := by
    rw [h.date.monthCount]
    omega
  have hdays : t.date.toDays < e.date.toDays :=
    Date.toDays_lt_of_monthCount_lt (Date.isProper_ofDays _) (Date.isProper_ofDays _) hcount
  have hlater : t.days < e.days := by
    rwa [Instant.date, Date.toDays_ofDays, Instant.date, Date.toDays_ofDays] at hdays
  simp only [Instant.days, secondsPerDay] at hlater
  omega

/-- **Some units later is later by a second or more.** -/
theorem IsAfter.seconds_lt {t e : Instant} {n : Nat} {unit : TimeUnit} (h : t.IsAfter n unit e)
    (hpos : 1 ≤ n) : t.seconds < e.seconds := by
  cases unit with
  | hour =>
      have hseconds := h.seconds
      omega
  | day =>
      have hseconds := h.seconds
      omega
  | week =>
      have hseconds := h.seconds
      omega
  | month => exact IsMonthsAfter.seconds_lt h (by omega)
  | year => exact IsMonthsAfter.seconds_lt h (by omega)

/-! ### The end of a period -/

/-- The last second of a day is found exactly if the calendar has the day. -/
theorem endOf_eq_some_iff {days : Int} {e : Instant} :
    endOf days = some e ↔
      e.exists = true ∧ e.days = days ∧ e.secondOfDay = 23 * 3600 + 59 * 60 + 59 ∧ e.nanos = 0 := by
  have hday : e = endOfDay days ↔ e.days = days ∧ e.secondOfDay = 86399 ∧ e.nanos = 0 :=
    eq_ofDay_iff (by decide)
  have hclock : (23 * 3600 + 59 * 60 + 59 : Int) = 86399 := by decide
  rw [endOf, hclock, ← hday]
  constructor
  · intro h
    split at h
    · next hwithin =>
        have he := (Option.some.inj h).symm
        refine ⟨?_, he⟩
        rw [Instant.exists, (hday.1 he).1]
        exact hwithin
    · cases h
  · rintro ⟨hexists, he⟩
    have hwithin : inCalendar days = true := by
      rw [← (hday.1 he).1]
      exact hexists
    rw [if_pos hwithin, he]

end Instant

/-- The first day of the next month, the months counted from the beginning of year 0. -/
theorem Date.IsProper.toDays_nextMonth_eq {d : Date} (h : d.IsProper) :
    d.nextMonth.toDays = monthStart (d.monthCount + 1) := by
  obtain ⟨hnext, hday⟩ := h.nextMonth
  rw [toDays_eq_monthStart hnext.month, monthCount_nextMonth, hday]
  omega

/-- A year ends on a day of its own. -/
theorem Date.isProper_lastDay (year : Int) : (Date.mk year 12 31).IsProper :=
  ⟨⟨by simp, by simp⟩, by simp, Nat.le_refl 31⟩

/-- The last day of the period that a day is in. -/
def Period.lastDay (day : Int) : Period → Int
  | .day => day
  | .week => day + (6 - daysFromMonday day)
  | .month => (Date.ofDays day).nextMonth.toDays - 1
  | .year => (Date.mk (Date.ofDays day).year 12 31).toDays

theorem Period.isLastDay_iff {day last : Int} (period : Period) :
    period.IsLastDay day last ↔ last = period.lastDay day := by
  have hday := Date.isProper_ofDays day
  cases period with
  | day => exact Iff.rfl
  | week =>
      simp only [IsLastDay, lastDay, daysFromMonday]
      omega
  | month =>
      have hproper : (Date.mk (Date.ofDays day).year (Date.ofDays day).month
          (daysInMonth (Date.ofDays day).year (Date.ofDays day).month)).IsProper :=
        ⟨hday.month, hday.day.1.trans hday.day.2, Nat.le_refl _⟩
      have hnext := Date.toDays_nextMonth hproper.month
      dsimp only at hnext
      have hsame : (Date.ofDays day).nextMonth = (Date.mk (Date.ofDays day).year
          (Date.ofDays day).month
          (daysInMonth (Date.ofDays day).year (Date.ofDays day).month)).nextMonth := rfl
      rw [IsLastDay, Date.ofDays_eq_iff hproper, lastDay, hsame, hnext]
      omega
  | year => exact Date.ofDays_eq_iff (Date.isProper_lastDay _)

/-- Which periods end no later than others. -/
inductive Period.Within : Period → Period → Prop where
  | day (period : Period) : Within .day period
  | month : Within .month .year

/-- A period within another ends no later. -/
theorem Period.Within.lastDay_le {p q : Period} (h : p.Within q) (day : Int) :
    p.lastDay day ≤ q.lastDay day := by
  have hday := Date.isProper_ofDays day
  have hcount := Date.toDays_ofDays day
  have hmonth : day ≤ Period.month.lastDay day := by
    have hnext := Date.toDays_nextMonth hday.month
    have hlength := hday.day.2
    rw [lastDay, hnext, hcount]
    omega
  have hyear : Period.month.lastDay day ≤ Period.year.lastDay day := by
    have hlast := Date.isProper_lastDay (Date.ofDays day).year
    have hnext : (Date.mk (Date.ofDays day).year 12 31).nextMonth.toDays =
        (Date.mk (Date.ofDays day).year 12 31).toDays - 31 + 31 + 1 :=
      Date.toDays_nextMonth hlast.month
    have hmonths : (Date.ofDays day).monthCount + 1 ≤
        (Date.mk (Date.ofDays day).year 12 31).monthCount + 1 := by
      have htwelve := hday.month.2
      simp only [Date.monthCount]
      omega
    have hstart := monthStart_le_of_le hmonths
    rw [← hday.toDays_nextMonth_eq, ← hlast.toDays_nextMonth_eq] at hstart
    rw [lastDay, lastDay]
    omega
  cases h with
  | day q =>
      cases q with
      | day => exact Int.le_refl day
      | week =>
          simp only [lastDay, daysFromMonday]
          omega
      | month => exact hmonth
      | year => exact hmonth.trans hyear
  | month => exact hyear

/-- The word of a period finds its end, if the calendar goes so far; the end of a month is looked
for before the next one. -/
theorem Instant.endOfPeriod_word (t : Instant) (period : Period) :
    ∃ found, t.endOfPeriod period.word = some found ∧
      ∀ e, found = some e ↔ e.exists = true ∧ t.IsEndOf period e ∧
        (period = .month → t.date.nextMonth.exists = true) := by
  have hend (e : Instant) : endOf (period.lastDay t.days) = some e ↔
      e.exists = true ∧ t.IsEndOf period e := by
    rw [endOf_eq_some_iff, ← period.isLastDay_iff]
    exact and_congr_right fun _ =>
      ⟨fun ⟨hday, hclock, hnanos⟩ => ⟨hday, hclock, hnanos⟩,
        fun ⟨hday, hclock, hnanos⟩ => ⟨hday, hclock, hnanos⟩⟩
  cases period with
  | day => exact ⟨_, rfl, fun e => (hend e).trans (by simp)⟩
  | week => exact ⟨_, rfl, fun e => (hend e).trans (by simp)⟩
  | month =>
      refine ⟨_, rfl, fun e => ?_⟩
      by_cases hnext : t.date.nextMonth.exists = true
      · rw [if_pos hnext]
        exact (hend e).trans (by simp [hnext])
      · simp [hnext]
  | year => exact ⟨_, rfl, fun e => (hend e).trans (by simp)⟩

/-- No other text names the end of a period. -/
theorem Instant.exists_word_of_endOfPeriod {t : Instant} {text : String}
    {found : Option Instant} (h : t.endOfPeriod text = some found) :
    ∃ period : Period, text = period.word := by
  rw [endOfPeriod.eq_def] at h
  split at h
  · exact ⟨.day, rfl⟩
  · exact ⟨.week, rfl⟩
  · exact ⟨.month, rfl⟩
  · exact ⟨.year, rfl⟩
  · cases h

/-! ### Deadlines -/

/-- A text is split into digits and a unit in one way. -/
theorem counts_iff {text : String} {n : Nat} {unit : TimeUnit} :
    Counts text n unit ↔
      (Text.lower (Text.trim text)).toList.takeWhile Char.isDigit ≠ [] ∧
      digitsValue ((Text.lower (Text.trim text)).toList.takeWhile Char.isDigit) = n ∧
      (Text.lower (Text.trim text)).toList.dropWhile Char.isDigit = [unit.letter] := by
  constructor
  · rintro ⟨ds, hne, hds, hvalue, htext⟩
    have hletter : BeginsApart [unit.letter] := beginsApart_cons (by cases unit <;> rfl) []
    obtain ⟨htake, hdrop⟩ := takeWhile_digits hds hletter
    rw [htext, htake, hdrop]
    exact ⟨hne, hvalue, rfl⟩
  · rintro ⟨hne, hvalue, hunit⟩
    refine ⟨_, hne, fun c hc => List.mem_takeWhile_imp hc, hvalue, ?_⟩
    rw [← hunit, List.takeWhile_append_dropWhile]

/-- No text does both. -/
theorem Names.not_counts {text : String} {period : Period} (h : Names text period) (n : Nat)
    (unit : TimeUnit) : ¬ Counts text n unit := by
  intro hcounts
  have hdigits := (counts_iff.1 hcounts).1
  rw [h] at hdigits
  cases period <;> exact hdigits rfl

namespace Instant

/-- Reading the digits of a deadline. -/
theorem readNat_takeWhile {cs : List Char} (h : cs.takeWhile Char.isDigit ≠ []) :
    Decimal.readNat (cs.takeWhile Char.isDigit) =
      some (digitsValue (cs.takeWhile Char.isDigit)) := by
  rw [Decimal.readNat, if_pos ⟨h, List.all_takeWhile⟩]

theorem deadline_of_names {t e : Instant} {text : String} {period : Period}
    (h : Names text period) :
    t.deadline text = .ok e ↔ e.exists = true ∧ t.IsEndOf period e ∧
      (period = .month → t.date.nextMonth.exists = true) := by
  obtain ⟨found, hfound, hiff⟩ := t.endOfPeriod_word period
  rw [← hiff, deadline]
  dsimp only
  rw [h, hfound]
  cases found with
  | none => simp
  | some found => simp

theorem deadline_of_counts {t e : Instant} {text : String} {n : Nat} {unit : TimeUnit}
    (h : Counts text n unit) :
    t.deadline text = .ok e ↔ (1 ≤ n ∧ n ≤ 10000) ∧ e.exists = true ∧ t.IsAfter n unit e := by
  have hnone : t.endOfPeriod (Text.lower (Text.trim text)) = none := by
    rw [Option.eq_none_iff_forall_ne_some]
    intro found hfound
    obtain ⟨period, hword⟩ := exists_word_of_endOfPeriod hfound
    exact Names.not_counts hword n unit h
  obtain ⟨hne, hvalue, hunit⟩ := counts_iff.1 h
  obtain ⟨moved, hmoved, hiff⟩ := t.plusUnits_letter n unit
  rw [← hiff, deadline]
  dsimp only
  rw [hnone, hunit, readNat_takeWhile hne, hvalue]
  simp only [Option.bind_eq_bind, Option.bind_some, Option.pure_def, Option.filter_some]
  rw [if_neg (List.cons_ne_nil _ _)]
  by_cases hrange : 1 ≤ n ∧ n ≤ 10000
  · have hfits : Decimal.fitsWord n = true := Decimal.fitsWord_iff.2 (by omega)
    have hwithin : ¬ ((n : Int) = 0 ∨ maxUnits < n) := by
      simp only [maxUnits]
      omega
    rw [if_pos hfits]
    dsimp only
    rw [if_neg hwithin, hmoved]
    cases moved with
    | none => simp
    | some moved => simp [hrange]
  · have hbeyond : (n : Int) = 0 ∨ maxUnits < n := by
      simp only [maxUnits]
      omega
    by_cases hfits : Decimal.fitsWord n = true
    · rw [if_pos hfits]
      dsimp only
      rw [if_pos hbeyond]
      simp [hrange]
    · rw [if_neg hfits]
      simp [hrange]

theorem deadline_ne_ok {t e : Instant} {text : String} (hnames : ∀ period, ¬ Names text period)
    (hcounts : ∀ n unit, ¬ Counts text n unit) : t.deadline text ≠ .ok e := by
  intro h
  rw [deadline] at h
  dsimp only at h
  split at h
  · next hfound =>
      obtain ⟨period, hword⟩ := exists_word_of_endOfPeriod hfound
      exact hnames period hword
  · cases h
  · split at h
    · cases h
    split at h
    · cases h
    next n hn =>
    split at h
    · cases h
    split at h
    · next hmoved =>
        obtain ⟨unit, hunit⟩ := exists_letter_of_plusUnits hmoved
        rw [String.toList_ofList] at hunit
        refine hcounts _ unit (counts_iff.2 ⟨fun hdigits => ?_, rfl, hunit⟩)
        rw [hdigits] at hn
        cases hn
    · cases h
    · cases h

/-- **A deadline is resolved exactly to what it means.** -/
theorem deadline_eq_ok_iff {t e : Instant} {text : String} :
    t.deadline text = .ok e ↔ e.exists = true ∧
      ((∃ n unit, Counts text n unit ∧ (1 ≤ n ∧ n ≤ 10000) ∧ t.IsAfter n unit e) ∨
        ∃ period, Names text period ∧ t.IsEndOf period e ∧
          (period = .month → t.date.nextMonth.exists = true)) := by
  constructor
  · intro h
    by_cases hnames : ∃ period, Names text period
    · obtain ⟨period, hnames⟩ := hnames
      obtain ⟨hexists, hend⟩ := (deadline_of_names hnames).1 h
      exact ⟨hexists, Or.inr ⟨period, hnames, hend⟩⟩
    by_cases hcounts : ∃ n unit, Counts text n unit
    · obtain ⟨n, unit, hcounts⟩ := hcounts
      obtain ⟨hrange, hexists, hafter⟩ := (deadline_of_counts hcounts).1 h
      exact ⟨hexists, Or.inl ⟨n, unit, hcounts, hrange, hafter⟩⟩
    · exact absurd h (deadline_ne_ok (not_exists.1 hnames)
        fun n unit hunit => hcounts ⟨n, unit, hunit⟩)
  · rintro ⟨hexists, ⟨n, unit, hcounts, hrange, hafter⟩ | ⟨period, hnames, hend⟩⟩
    · exact (deadline_of_counts hcounts).2 ⟨hrange, hexists, hafter⟩
    · exact (deadline_of_names hnames).2 ⟨hexists, hend⟩

/-- **A deadline that is later at all is later by a second or more**, also from within a leap
second. -/
theorem seconds_lt_of_deadline {t e : Instant} {text : String} (h : t.deadline text = .ok e)
    (hlater : t.before e = true) : t.seconds < e.seconds := by
  obtain ⟨-, ⟨n, unit, -, hrange, hafter⟩ | ⟨period, -, hend, -⟩⟩ := deadline_eq_ok_iff.1 h
  · exact hafter.seconds_lt hrange.1
  · rw [before_iff, hend.nanos] at hlater
    exact hlater.resolve_right fun hwithin => Nat.not_lt_zero _ hwithin.2

/-- The end of a period within another is no later. -/
theorem IsEndOf.le {t e e' : Instant} {p q : Period} (hpq : p.Within q) (h : t.IsEndOf p e)
    (h' : t.IsEndOf q e') : e = e' ∨ e.before e' = true := by
  have hdays : e.days ≤ e'.days := by
    rw [p.isLastDay_iff.1 h.day, q.isLastDay_iff.1 h'.day]
    exact hpq.lastDay_le t.days
  have hseconds : e.seconds ≤ e'.seconds := by
    have hclock := h.clock
    have hclock' := h'.clock
    simp only [secondOfDay, days, secondsPerDay] at hclock hclock' hdays
    omega
  obtain ⟨seconds, nanos⟩ := e
  obtain ⟨seconds', nanos'⟩ := e'
  obtain rfl : nanos = 0 := h.nanos
  obtain rfl : nanos' = 0 := h'.nanos
  rcases hseconds.eq_or_lt with heq | hlt
  · exact Or.inl (by rw [show seconds = seconds' from heq])
  · exact Or.inr (before_iff.2 (Or.inl hlt))

end Instant

/-- **Relative deadlines on the calendar.** A deadline that is resolved is some units later, which
is strictly later, or it is the last second of a period, and the ends of periods within each other
are in order. -/
theorem deadline_on_calendar (t : Instant) :
    (∀ text e, t.deadline text = .ok e ↔ e.exists = true ∧
      ((∃ n unit, Counts text n unit ∧ (1 ≤ n ∧ n ≤ 10000) ∧ t.IsAfter n unit e) ∨
        ∃ period, Names text period ∧ t.IsEndOf period e ∧
          (period = .month → t.date.nextMonth.exists = true))) ∧
    (∀ text n unit e, Counts text n unit → t.deadline text = .ok e → t.before e = true) ∧
    ∀ p q text text' e e', p.Within q → Names text p → Names text' q →
      t.deadline text = .ok e → t.deadline text' = .ok e' → e = e' ∨ e.before e' = true := by
  refine ⟨fun text e => Instant.deadline_eq_ok_iff, ?_, ?_⟩
  · intro text n unit e hcounts h
    obtain ⟨hrange, -, hafter⟩ := (Instant.deadline_of_counts hcounts).1 h
    exact Instant.before_iff.2 (Or.inl (hafter.seconds_lt hrange.1))
  · intro p q text text' e e' hpq hnames hnames' h h'
    obtain ⟨-, hend, -⟩ := (Instant.deadline_of_names hnames).1 h
    obtain ⟨-, hend', -⟩ := (Instant.deadline_of_names hnames').1 h'
    exact hend.le hpq hend'

/-- From ten o'clock on Wednesday, 2024-01-31: a month later is the leap day, and the end of the day
comes before the end of the week, which is on Sunday, 2024-02-04. -/
theorem deadline_on_calendar_january :
    (⟨1706695200, 0⟩ : Instant).date = ⟨2024, 1, 31⟩ ∧
    (⟨1706695200, 0⟩ : Instant).deadline " 1M" = .ok ⟨1709200800, 0⟩ ∧
    (⟨1709200800, 0⟩ : Instant).date = ⟨2024, 2, 29⟩ ∧
    (⟨1706695200, 0⟩ : Instant).before ⟨1709200800, 0⟩ = true ∧
    (⟨1706695200, 0⟩ : Instant).deadline "EOD" = .ok ⟨1706745599, 0⟩ ∧
    (⟨1706695200, 0⟩ : Instant).deadline "eow" = .ok ⟨1707091199, 0⟩ ∧
    (⟨1707091199, 0⟩ : Instant).date = ⟨2024, 2, 4⟩ ∧
    ((⟨1706745599, 0⟩ : Instant) = ⟨1707091199, 0⟩ ∨
      (⟨1706745599, 0⟩ : Instant).before ⟨1707091199, 0⟩ = true) := by
  obtain ⟨hiff, hlater, horder⟩ := deadline_on_calendar ⟨1706695200, 0⟩
  have hone : Counts " 1M" 1 .month :=
    ⟨['1'], List.cons_ne_nil _ _, by simp [AreDigits], rfl, by decide +kernel⟩
  have hday : Names "EOD" .day := by
    rw [Names]
    decide +kernel
  have hweek : Names "eow" .week := by
    rw [Names]
    decide +kernel
  have hmonthLater := (hiff " 1M" ⟨1709200800, 0⟩).2
    ⟨by decide, Or.inl ⟨1, .month, hone, by decide, ⟨by decide, by decide⟩, by decide, rfl⟩⟩
  have hendOfDay := (hiff "EOD" ⟨1706745599, 0⟩).2
    ⟨by decide, Or.inr ⟨.day, hday, ⟨rfl, by decide, rfl⟩, by decide⟩⟩
  have hendOfWeek := (hiff "eow" ⟨1707091199, 0⟩).2
    ⟨by decide, Or.inr ⟨.week, hweek, ⟨⟨by decide, by decide, by decide⟩, by decide, rfl⟩,
      by decide⟩⟩
  exact ⟨by decide, hmonthLater, by decide, hlater " 1M" 1 .month _ hone hmonthLater, hendOfDay,
    hendOfWeek, by decide, horder .day .week "EOD" "eow" _ _ (.day .week) hday hweek hendOfDay
      hendOfWeek⟩

end Forecast.Calendar
