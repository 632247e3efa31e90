import Mathlib.Tactic.IntervalCases
import Forecast.Calendar.Date

/-!
# Days and Dates

Every count of days is that of one date: the date exists if the count is within the calendar, and
counting its days gives the count back.

An era of 400 years has four centuries of 36524 days, the last one of a day more; a century has
25 blocks of four years, of 1461 days each but for the last one, which lacks its leap day at the end
of every century other than the last; and a block has four years, the last with a leap day. A day is
given by its place in each of these (`EraDay`), and in these terms the year of a day is linear, so
that nothing but the divisions of the definition is left to bound.

## Main results

* `Date.toDays_ofDays`: the days of the date of a count.
* `Date.isProper_ofDays`, `Date.exists_ofDays`: that the date exists.
-/

namespace Forecast.Calendar

/-! ### Days of an era -/

/-- A day of an era: its century, the block of four years, the year of the block, and the day of the
year, each counted from zero; years begin in March. -/
structure EraDay where
  century : Int
  block : Int
  year : Int
  day : Int

namespace EraDay

/-- The days of the era before it. -/
def number (e : EraDay) : Int :=
  36524 * e.century + 1461 * e.block + 365 * e.year + e.day

/-- The year of the era that it is in. -/
def yearOfEra (e : EraDay) : Int :=
  100 * e.century + 4 * e.block + e.year

/-- Whether there is such a day. A year has a last leap day if it is the last one of its block, unless
it is the last one of a century other than the fourth. -/
structure Exists (e : EraDay) : Prop where
  century : 0 ≤ e.century ∧ e.century ≤ 3
  block : 0 ≤ e.block ∧ e.block ≤ 24
  year : 0 ≤ e.year ∧ e.year ≤ 3
  day : 0 ≤ e.day ∧ (e.day ≤ 364 ∨ e.day = 365 ∧ e.year = 3 ∧ (e.block ≤ 23 ∨ e.century = 3))

/-- Every day of an era is one of these. -/
theorem exists_number_eq {n : Int} (h : 0 ≤ n) (h' : n < 146097) :
    ∃ e : EraDay, e.Exists ∧ e.number = n := by
  obtain ⟨c, r, hc, hr, rfl⟩ : ∃ c r, (c = 0 ∨ c = 1 ∨ c = 2 ∨ c = 3) ∧
      (0 ≤ r ∧ (r < 36524 ∨ r = 36524 ∧ c = 3)) ∧ n = 36524 * c + r :=
    ⟨min 3 (n / 36524), n - 36524 * min 3 (n / 36524), by omega, by omega, by omega⟩
  refine ⟨⟨c, r / 1461, min 3 (r % 1461 / 365), r % 1461 - 365 * min 3 (r % 1461 / 365)⟩,
    ⟨?_, ?_, ?_, ?_⟩, ?_⟩
  · dsimp only
    omega
  · dsimp only
    omega
  · dsimp only
    omega
  · dsimp only
    omega
  · simp only [number]
    omega

/-- The year is what the divisions yield. -/
theorem yearOfEra_eq {e : EraDay} (h : e.Exists) :
    (e.number - e.number / 1460 + e.number / 36524 - e.number / 146096) / 365 = e.yearOfEra := by
  obtain ⟨c, b, y, d⟩ := e
  obtain ⟨hc, hb, hy, hd⟩ := h
  dsimp only at hc hb hy hd
  simp only [number, yearOfEra]
  -- each quotient is one of two neighbours, and for given quotients all is linear
  have hblock : (36524 * c + 1461 * b + 365 * y + d) / 1460 = 25 * c + b ∨
      (36524 * c + 1461 * b + 365 * y + d) / 1460 = 25 * c + b + 1 := by omega
  have hcentury : (36524 * c + 1461 * b + 365 * y + d) / 36524 = c ∨
      (36524 * c + 1461 * b + 365 * y + d) / 36524 = c + 1 := by omega
  have hlast : (36524 * c + 1461 * b + 365 * y + d) / 146096 = 0 ∨
      (36524 * c + 1461 * b + 365 * y + d) / 146096 = 1 := by omega
  rcases hblock with hblock | hblock <;> rcases hcentury with hcentury | hcentury <;>
    rcases hlast with hlast | hlast <;> rw [hblock, hcentury, hlast] <;> omega

/-- The days of the era before the year. -/
theorem number_eq {e : EraDay} (h : e.Exists) :
    365 * e.yearOfEra + e.yearOfEra / 4 - e.yearOfEra / 100 + e.day = e.number := by
  obtain ⟨c, b, y, d⟩ := e
  obtain ⟨hc, hb, hy, hd⟩ := h
  dsimp only at hc hb hy hd
  simp only [number, yearOfEra]
  omega

/-- A year with a leap day at its end is the one before a leap year. -/
theorem isLeap_of_day {e : EraDay} (h : e.Exists) (hday : e.day = 365) (era : Int) :
    isLeap (e.yearOfEra + era * 400 + 1) = true := by
  obtain ⟨c, b, y, d⟩ := e
  obtain ⟨hc, hb, hy, hd⟩ := h
  dsimp only at hc hb hy hd hday
  simp only [yearOfEra, isLeap, Bool.and_eq_true, Bool.or_eq_true, beq_iff_eq, bne_iff_ne]
  omega

end EraDay

/-! ### Dates -/

/-- The days from March to the end of a month, for all months but February. -/
theorem daysInMonth_fromMarch (year : Int) {m : Nat} (h : m ≤ 9) :
    (153 * m + 2) / 5 + daysInMonth year (m + 3) = (153 * (m + 1) + 2) / 5 := by
  interval_cases m <;> rfl

theorem daysInMonth_le (year : Int) (month : Nat) : daysInMonth year month ≤ 31 := by
  unfold daysInMonth
  split
  · split <;> omega
  all_goals omega

namespace Date

/-- Whether the month and the day of a date exist, whatever its year. -/
structure IsProper (d : Date) : Prop where
  month : 1 ≤ d.month ∧ d.month ≤ 12
  day : 1 ≤ d.day ∧ d.day ≤ daysInMonth d.year d.month

/-- A date exists if it is one of a year of the calendar. -/
theorem exists_iff {d : Date} :
    d.exists = true ↔ firstYear ≤ d.year ∧ d.year ≤ lastYear ∧ d.IsProper := by
  simp only [Date.exists, Bool.and_eq_true, decide_eq_true_eq]
  constructor
  · rintro ⟨⟨⟨⟨⟨hfirst, hlast⟩, hmonth⟩, hmonth'⟩, hday⟩, hday'⟩
    exact ⟨hfirst, hlast, ⟨hmonth, hmonth'⟩, hday, hday'⟩
  · rintro ⟨hfirst, hlast, ⟨hmonth, hmonth'⟩, hday, hday'⟩
    exact ⟨⟨⟨⟨⟨hfirst, hlast⟩, hmonth⟩, hmonth'⟩, hday⟩, hday'⟩

/-- A count of days as a day of an era. -/
theorem exists_eraDay (days : Int) :
    ∃ (era : Int) (e : EraDay), e.Exists ∧ days + 719468 = era * 146097 + e.number := by
  obtain ⟨e, he, hnumber⟩ := EraDay.exists_number_eq (n := (days + 719468) % 146097)
    (by omega) (by omega)
  exact ⟨(days + 719468) / 146097, e, he, by omega⟩

/-- The date of a day of an era. From March on it is in the year that began in March, in January and
February in the one after it. -/
theorem ofDays_cases {days era : Int} {e : EraDay} (h : e.Exists)
    (hdays : days + 719468 = era * 146097 + e.number) :
    ∃ m k : Nat, (e.day = (153 * m + 2) / 5 + k - 1 ∧ 1 ≤ k ∧ e.day < (153 * (m + 1) + 2) / 5) ∧
      (m ≤ 9 ∧ ofDays days = ⟨e.yearOfEra + era * 400, m + 3, k⟩ ∨
        (10 ≤ m ∧ m ≤ 11) ∧ ofDays days = ⟨e.yearOfEra + era * 400 + 1, m - 9, k⟩) := by
  have hday := h.day
  have hnumber : 0 ≤ e.number ∧ e.number < 146097 := by
    obtain ⟨c, b, y, d⟩ := e
    obtain ⟨hc, hb, hy, hd⟩ := h
    dsimp only at hc hb hy hd
    simp only [EraDay.number]
    omega
  have hera : (days + 719468) / 146097 = era := by omega
  have hrest : (days + 719468) % 146097 = e.number := by omega
  have hyear : e.number - (365 * e.yearOfEra + e.yearOfEra / 4 - e.yearOfEra / 100) = e.day := by
    have := e.number_eq h
    omega
  have hofDays : ofDays days =
      (let m := (5 * e.day + 2) / 153
       let month := if m < 10 then m + 3 else m - 9
       ⟨e.yearOfEra + era * 400 + (if month ≤ 2 then 1 else 0), month.toNat,
        (e.day - (153 * m + 2) / 5 + 1).toNat⟩) := by
    rw [ofDays]
    dsimp only
    rw [hera, hrest, EraDay.yearOfEra_eq h, hyear]
  rw [hofDays]
  generalize e.day = d at *
  refine ⟨((5 * d + 2) / 153).toNat, (d - (153 * ((5 * d + 2) / 153) + 2) / 5 + 1).toNat,
    by omega, ?_⟩
  by_cases hmonth : (5 * d + 2) / 153 < 10
  · refine Or.inl ⟨by omega, ?_⟩
    dsimp only
    rw [if_pos hmonth, if_neg (by omega)]
    congr 1 <;> omega
  · refine Or.inr ⟨by omega, ?_⟩
    dsimp only
    rw [if_neg hmonth, if_pos (by omega)]
    congr 1
    omega

/-- **The days of the date of a count are the count.** -/
theorem toDays_ofDays (days : Int) : (ofDays days).toDays = days := by
  obtain ⟨era, e, he, hdays⟩ := exists_eraDay days
  have hyear : 0 ≤ e.yearOfEra ∧ e.yearOfEra ≤ 399 := by
    have hc := he.century
    have hb := he.block
    have hy := he.year
    simp only [EraDay.yearOfEra]
    omega
  have hnumber := e.number_eq he
  obtain ⟨m, k, hday, ⟨hm, heq⟩ | ⟨hm, heq⟩⟩ := ofDays_cases he hdays
  · rw [heq, toDays]
    dsimp only
    rw [if_neg (by omega), show (e.yearOfEra + era * 400) / 400 = era by omega,
      show (e.yearOfEra + era * 400) % 400 = e.yearOfEra by omega,
      show (((m + 3 : Nat) : Int) + 9) % 12 = m by omega]
    omega
  · rw [heq, toDays]
    dsimp only
    rw [if_pos (by omega), show (e.yearOfEra + era * 400 + 1 - 1) / 400 = era by omega,
      show (e.yearOfEra + era * 400 + 1 - 1) % 400 = e.yearOfEra by omega,
      show (((m - 9 : Nat) : Int) + 9) % 12 = m by omega]
    omega

/-- The counts of days within the calendar. -/
theorem inCalendar_iff {days : Int} :
    inCalendar days = true ↔ -96465292 ≤ days ∧ days ≤ 95026236 := by
  rw [inCalendar, Bool.and_eq_true, decide_eq_true_eq, decide_eq_true_eq]
  rfl

/-- **The month and the day of the date of a count exist,** also outside of the calendar. -/
theorem isProper_ofDays (days : Int) : (ofDays days).IsProper := by
  obtain ⟨era, e, he, hdays⟩ := exists_eraDay days
  have hleap := fun hday => EraDay.isLeap_of_day he hday era
  have hday := he.day
  obtain ⟨m, k, hmonth, ⟨hm, heq⟩ | ⟨hm, heq⟩⟩ := ofDays_cases he hdays
  · have hlength := daysInMonth_fromMarch (e.yearOfEra + era * 400) hm
    have hcast : (153 * ((m : Int) + 1) + 2) / 5 = ((153 * (m + 1) + 2) / 5 : Nat) := by omega
    rw [heq]
    refine ⟨⟨?_, ?_⟩, ?_, ?_⟩ <;> dsimp only <;> omega
  · have hlength : k ≤ daysInMonth (e.yearOfEra + era * 400 + 1) (m - 9) := by
      obtain rfl | rfl : m = 10 ∨ m = 11 := by omega
      · change k ≤ 31
        omega
      · change k ≤ if isLeap (e.yearOfEra + era * 400 + 1) = true then 29 else 28
        split
        · omega
        · next hcommon =>
            have hnot : e.day ≠ 365 := fun hlast => hcommon (hleap hlast)
            omega
    rw [heq]
    refine ⟨⟨?_, ?_⟩, ?_, hlength⟩ <;> dsimp only <;> omega

/-- **The date of a count within the calendar exists.** -/
theorem exists_ofDays {days : Int} (h : inCalendar days = true) : (ofDays days).exists = true := by
  obtain ⟨era, e, he, hdays⟩ := exists_eraDay days
  have hbounds := inCalendar_iff.1 h
  -- the years at the ends of the calendar, by the day on which they begin and end in March
  have hyear : (firstYear ≤ e.yearOfEra + era * 400 ∨
        firstYear ≤ e.yearOfEra + era * 400 + 1 ∧ 306 ≤ e.day) ∧
      (e.yearOfEra + era * 400 + 1 ≤ lastYear ∨
        e.yearOfEra + era * 400 ≤ lastYear ∧ e.day ≤ 305) := by
    obtain ⟨c, b, y, d⟩ := e
    obtain ⟨hc, hb, hy, hd⟩ := he
    dsimp only at hc hb hy hd
    simp only [EraDay.number, EraDay.yearOfEra, firstYear, lastYear] at hdays ⊢
    omega
  have hwithin : firstYear ≤ (ofDays days).year ∧ (ofDays days).year ≤ lastYear := by
    have hday := he.day
    obtain ⟨m, k, hmonth, ⟨hm, heq⟩ | ⟨hm, heq⟩⟩ := ofDays_cases he hdays
    · rw [heq]
      dsimp only
      omega
    · rw [heq]
      dsimp only
      omega
  exact exists_iff.2 ⟨hwithin.1, hwithin.2, isProper_ofDays days⟩

/-- A count of days whose date is in a year of the calendar is within the calendar. -/
theorem inCalendar_of_year {days : Int} (h : firstYear ≤ (ofDays days).year)
    (h' : (ofDays days).year ≤ lastYear) : inCalendar days = true := by
  obtain ⟨era, e, he, hdays⟩ := exists_eraDay days
  have hyear : ((ofDays days).year = e.yearOfEra + era * 400 ∧ e.day ≤ 305) ∨
      ((ofDays days).year = e.yearOfEra + era * 400 + 1 ∧ 306 ≤ e.day) := by
    have hday := he.day
    obtain ⟨m, k, hmonth, ⟨hm, heq⟩ | ⟨hm, heq⟩⟩ := ofDays_cases he hdays
    · exact Or.inl ⟨by rw [heq], by omega⟩
    · exact Or.inr ⟨by rw [heq], by omega⟩
  generalize (ofDays days).year = year at *
  obtain ⟨c, b, y, d⟩ := e
  obtain ⟨hc, hb, hy, hd⟩ := he
  dsimp only at hc hb hy hd
  rw [inCalendar_iff]
  simp only [EraDay.number, EraDay.yearOfEra, firstYear, lastYear] at *
  omega

/-- The days of a date that exists are within the calendar. -/
theorem inCalendar_toDays {d : Date} (h : d.exists = true) : inCalendar d.toDays = true := by
  have hlength := daysInMonth_le d.year d.month
  simp only [Date.exists, Bool.and_eq_true, decide_eq_true_eq] at h
  simp only [inCalendar_iff, toDays]
  simp only [firstYear, lastYear] at h
  by_cases hmonth : d.month ≤ 2
  · have hmarch : ((d.month : Int) + 9) % 12 = d.month + 9 := by omega
    have hcentury : (d.year - 1) % 400 / 100 = 0 ∨ (d.year - 1) % 400 / 100 = 1 ∨
        (d.year - 1) % 400 / 100 = 2 ∨ (d.year - 1) % 400 / 100 = 3 := by omega
    rw [if_pos hmonth, hmarch]
    rcases hcentury with hcentury | hcentury | hcentury | hcentury <;> rw [hcentury] <;> omega
  · have hmarch : ((d.month : Int) + 9) % 12 = d.month - 3 := by omega
    have hcentury : d.year % 400 / 100 = 0 ∨ d.year % 400 / 100 = 1 ∨
        d.year % 400 / 100 = 2 ∨ d.year % 400 / 100 = 3 := by omega
    rw [if_neg hmonth, hmarch]
    rcases hcentury with hcentury | hcentury | hcentury | hcentury <;> rw [hcentury] <;> omega

end Date

end Forecast.Calendar
