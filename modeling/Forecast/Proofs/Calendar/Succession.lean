import Mathlib.Data.Int.Order.Basic
import Mathlib.Order.Monotone.Basic
import Forecast.Calendar.Deadline
import Forecast.Proofs.Calendar.Dates

/-!
# The Succession of Days

Counting days agrees with turning the leaves of a calendar: after the last day of a month comes the
first day of the next month, after every other day the next one of the same month, and the count of
the date goes up by one (`Date.ofDays_succ`). With the date of day zero this says what the calendar
is, and the divisions of the definitions are not looked at again.

What carries this is that months follow each other without a gap. A month is known by its number
from the beginning of year 0 (`Date.monthCount`); it begins on a day of its own (`monthStart`), and
the month after it begins as many days later as it has (`monthStart_succ`). So dates are ordered by
their months first and their days second, and no two dates have one count of days.

## Main results

* `Date.toDays_lt_of_monthCount_lt`: a date of a later month is later.
* `Date.ofDays_toDays`: the date of the days of a date.
* `Date.ofDays_succ`: the date after a date.
-/

namespace Forecast.Calendar

/-! ### Years -/

/-- The days before a year that begins in March, counted from March of year 0. -/
def yearStart (year : Int) : Int :=
  365 * year + year / 4 - year / 100 + year / 400

/-- A year that ends with a leap day has one day more. -/
theorem yearStart_succ (year : Int) :
    yearStart (year + 1) = yearStart year + 365 + if isLeap (year + 1) then 1 else 0 := by
  by_cases h : isLeap (year + 1) = true
  · rw [if_pos h]
    simp only [isLeap, Bool.and_eq_true, Bool.or_eq_true, beq_iff_eq, bne_iff_ne] at h
    simp only [yearStart]
    omega
  · rw [if_neg h]
    simp only [isLeap, Bool.and_eq_true, Bool.or_eq_true, beq_iff_eq, bne_iff_ne] at h
    simp only [yearStart]
    omega

/-- The count of a date by the year that began in March. -/
theorem Date.toDays_eq (d : Date) :
    d.toDays = yearStart (if d.month ≤ 2 then d.year - 1 else d.year) +
      (153 * (((d.month : Int) + 9) % 12) + 2) / 5 + d.day - 719469 := by
  have hera (year : Int) :
      year / 400 * 146097 + (year % 400 * 365 + year % 400 / 4 - year % 400 / 100) =
        yearStart year := by
    simp only [yearStart]
    omega
  rw [toDays, ← hera]
  omega

/-! ### Months -/

theorem le_daysInMonth (year : Int) (month : Nat) : 28 ≤ daysInMonth year month := by
  unfold daysInMonth
  split
  · split <;> omega
  all_goals omega

/-- The next month begins after the last day of a month. -/
theorem Date.toDays_nextMonth {d : Date} (h : 1 ≤ d.month ∧ d.month ≤ 12) :
    d.nextMonth.toDays = d.toDays - d.day + daysInMonth d.year d.month + 1 := by
  obtain ⟨year, month, day⟩ := d
  have hfebruary := yearStart_succ (year - 1)
  rw [Int.sub_add_cancel] at hfebruary
  obtain ⟨hfirst, hlast⟩ := h
  dsimp only at hfirst hlast
  rw [toDays_eq, toDays_eq]
  interval_cases month
  case «2» =>
    simp only [nextMonth, daysInMonth]
    split at hfebruary <;> simp_all <;> omega
  all_goals
    simp [nextMonth, daysInMonth]
    omega

/-- The next month is one month later. -/
theorem Date.monthCount_nextMonth (d : Date) : d.nextMonth.monthCount = d.monthCount + 1 := by
  rw [nextMonth]
  split
  · simp only [monthCount]
    omega
  · simp only [monthCount]
    omega

/-- A month begins with its first day. -/
theorem Date.isProper_firstDay (year : Int) {month : Nat} (h : 1 ≤ month ∧ month ≤ 12) :
    (Date.mk year month 1).IsProper :=
  ⟨h, Nat.le_refl 1, Nat.le_of_succ_le ((le_daysInMonth year month).trans' (by decide : 2 ≤ 28))⟩

/-- The next month begins with its first day. -/
theorem Date.IsProper.nextMonth {d : Date} (h : d.IsProper) :
    d.nextMonth.IsProper ∧ d.nextMonth.day = 1 := by
  have hmonth := h.month
  rw [Date.nextMonth]
  split
  · exact ⟨isProper_firstDay _ (by decide), rfl⟩
  · exact ⟨isProper_firstDay _ (by omega), rfl⟩

/-- The first day of a month, the months counted from the beginning of year 0. -/
def monthStart (count : Int) : Int :=
  (Date.mk (count / 12) ((count % 12).toNat + 1) 1).toDays

/-- A month is known from its number. -/
theorem Date.year_month_of_monthCount {d : Date} (h : 1 ≤ d.month ∧ d.month ≤ 12) :
    d.monthCount / 12 = d.year ∧ (d.monthCount % 12).toNat + 1 = d.month := by
  simp only [monthCount]
  omega

/-- A day is counted from the first day of its month. -/
theorem Date.toDays_eq_monthStart {d : Date} (h : 1 ≤ d.month ∧ d.month ≤ 12) :
    d.toDays = monthStart d.monthCount + d.day - 1 := by
  obtain ⟨hyear, hmonth⟩ := year_month_of_monthCount h
  rw [monthStart, hyear, hmonth, toDays_eq, toDays_eq]
  dsimp only
  omega

/-- **Months follow each other without a gap.** -/
theorem monthStart_succ (count : Int) :
    monthStart (count + 1) =
      monthStart count + daysInMonth (count / 12) ((count % 12).toNat + 1) := by
  obtain ⟨d, hd⟩ : ∃ d : Date, d = ⟨count / 12, (count % 12).toNat + 1, 1⟩ := ⟨_, rfl⟩
  have hmonth : 1 ≤ d.month ∧ d.month ≤ 12 := by
    rw [hd]
    dsimp only
    omega
  have hproper : d.IsProper := by
    rw [hd] at hmonth ⊢
    exact Date.isProper_firstDay _ hmonth
  have hcount : d.monthCount = count := by
    rw [hd, Date.monthCount]
    dsimp only
    omega
  obtain ⟨hnext, hday⟩ := hproper.nextMonth
  calc monthStart (count + 1)
      = d.nextMonth.toDays := by
        rw [Date.toDays_eq_monthStart hnext.month, Date.monthCount_nextMonth, hcount, hday]
        omega
    _ = d.toDays - d.day + daysInMonth d.year d.month + 1 := Date.toDays_nextMonth hmonth
    _ = monthStart count + daysInMonth (count / 12) ((count % 12).toNat + 1) := by
        rw [hd, monthStart]
        dsimp only
        omega

/-- A later month begins later. -/
theorem monthStart_le_of_le {count count' : Int} (h : count ≤ count') :
    monthStart count ≤ monthStart count' := by
  have hmonotone : Monotone monthStart := monotone_int_of_le_succ fun n => by
    have hlength := le_daysInMonth (n / 12) ((n % 12).toNat + 1)
    rw [monthStart_succ]
    omega
  exact hmonotone h

/-! ### Dates -/

namespace Date

/-- A date lies in its month. -/
theorem IsProper.toDays_bounds {d : Date} (h : d.IsProper) :
    monthStart d.monthCount ≤ d.toDays ∧ d.toDays < monthStart (d.monthCount + 1) := by
  obtain ⟨hyear, hmonth⟩ := year_month_of_monthCount h.month
  have hday := h.day
  rw [toDays_eq_monthStart h.month, monthStart_succ, hyear, hmonth]
  omega

/-- **A date of a later month is later.** -/
theorem toDays_lt_of_monthCount_lt {d e : Date} (hd : d.IsProper) (he : e.IsProper)
    (h : d.monthCount < e.monthCount) : d.toDays < e.toDays :=
  calc d.toDays
      < monthStart (d.monthCount + 1) := hd.toDays_bounds.2
    _ ≤ monthStart e.monthCount := monthStart_le_of_le h
    _ ≤ e.toDays := he.toDays_bounds.1

/-- No two dates have one count of days. -/
theorem toDays_injective {d e : Date} (hd : d.IsProper) (he : e.IsProper)
    (h : d.toDays = e.toDays) : d = e := by
  have hcount : d.monthCount = e.monthCount := by
    rcases lt_trichotomy d.monthCount e.monthCount with hlt | heq | hgt
    · exact absurd h (toDays_lt_of_monthCount_lt hd he hlt).ne
    · exact heq
    · exact absurd h (toDays_lt_of_monthCount_lt he hd hgt).ne'
  obtain ⟨hyear, hmonth⟩ := year_month_of_monthCount hd.month
  obtain ⟨hyear', hmonth'⟩ := year_month_of_monthCount he.month
  rw [toDays_eq_monthStart hd.month, toDays_eq_monthStart he.month] at h
  rw [hcount] at h hyear hmonth
  obtain ⟨year, month, day⟩ := d
  obtain ⟨year', month', day'⟩ := e
  dsimp only at h hyear hmonth hyear' hmonth'
  obtain rfl : day = day' := by omega
  rw [← hyear, ← hmonth, hyear', hmonth']

/-- **The date of the days of a date is the date.** -/
theorem ofDays_toDays {d : Date} (h : d.IsProper) : ofDays d.toDays = d :=
  toDays_injective (isProper_ofDays d.toDays) h (toDays_ofDays d.toDays)

/-- The date after a date. -/
def next (d : Date) : Date :=
  if d.day < daysInMonth d.year d.month then ⟨d.year, d.month, d.day + 1⟩ else d.nextMonth

/-- **The date of the next day is the next date.** -/
theorem ofDays_succ (days : Int) : ofDays (days + 1) = (ofDays days).next := by
  have h := isProper_ofDays days
  have hdays := toDays_ofDays days
  have hday := h.day
  generalize ofDays days = d at *
  rw [next]
  split
  · next hlt =>
      have hproper : (Date.mk d.year d.month (d.day + 1)).IsProper :=
        ⟨h.month, Nat.le_add_left 1 _, hlt⟩
      have hnext : (Date.mk d.year d.month (d.day + 1)).toDays = days + 1 := by
        rw [← hdays, toDays_eq, toDays_eq]
        dsimp only
        omega
      rw [← hnext, ofDays_toDays hproper]
  · have hnext : d.nextMonth.toDays = days + 1 := by
      rw [toDays_nextMonth h.month, hdays]
      omega
    rw [← hnext, ofDays_toDays h.nextMonth.1]

example : ofDays 0 = ⟨1970, 1, 1⟩ := by decide

end Date

end Forecast.Calendar
