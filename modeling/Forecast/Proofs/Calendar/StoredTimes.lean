import Forecast.Calendar.Reading
import Forecast.Proofs.Calendar.Dates
import Forecast.Proofs.Decimal.Digits

/-!
# Reading Stored Times Back

A time that exists (`Instant.IsProper`) is read back from its stored form as it was, to the
nanosecond, leap seconds included. The form is a row of runs of digits with punctuation between
them, and each run is taken by the scanner of its field, since no digit follows it
(`scanDigits_append`).

## Main results

* `readStored_storedText`: reading what is written of a time.
-/

namespace Forecast.Calendar

open Decimal (AreDigits BeginsApart digitsValue padZeros natDigits takeWhile_digits areDigits_padZeros
  digitsValue_padZeros padZeros_ne_nil length_padZeros)

/-- Whether an instant is one of the calendar, and in a leap second only at the end of a minute. -/
structure Instant.IsProper (t : Instant) : Prop where
  inCalendar : t.exists = true
  nanos : t.nanos < nanosPerSecond ∨ t.nanos < 2 * nanosPerSecond ∧ t.seconds % 60 = 59

/-! ### Fields -/

/-- A run of digits is scanned as its value, if it has as many digits as there may be. -/
theorem scanDigits_append {least most : Nat} {ds rest : List Char} (hds : AreDigits ds)
    (hleast : least ≤ ds.length) (hmost : ds.length ≤ most) (hrest : BeginsApart rest) :
    scanDigits least most (ds ++ rest) = some (digitsValue ds, rest) := by
  have hcut : BeginsApart (rest.take (most - ds.length)) := by
    intro c hc
    cases rest with
    | nil => simp at hc
    | cons d rest =>
        cases hroom : most - ds.length with
        | zero => simp [hroom] at hc
        | succ n => exact hrest c (by simpa [hroom] using hc)
  have htake : (ds ++ rest).take most = ds ++ rest.take (most - ds.length) := by
    rw [List.take_append, List.take_of_length_le hmost]
  rw [scanDigits, htake, (takeWhile_digits hds hcut).1, if_neg (by omega), List.drop_left]

/-- A number of two digits is scanned. -/
theorem scanDigits_padZeros {n : Nat} (h : n < 100) {rest : List Char} (hrest : BeginsApart rest) :
    scanDigits 1 2 (padZeros 2 n ++ rest) = some (n, rest) := by
  have hlength : (padZeros 2 n).length = 2 := length_padZeros (by decide) h
  rw [scanDigits_append (areDigits_padZeros 2 n) (by omega) (by omega) hrest,
    digitsValue_padZeros]

/-- A number of any length is scanned. -/
theorem scanNumber_padZeros {width n : Nat} {rest : List Char} (hrest : BeginsApart rest) :
    scanNumber (padZeros width n ++ rest) = some (n, rest) := by
  have hlength := List.length_pos_iff.2 (padZeros_ne_nil width n)
  rw [scanNumber, scanDigits_append (areDigits_padZeros width n) (by omega)
    (by rw [List.length_append]; omega) hrest, digitsValue_padZeros]

/-- A digit is no blank. -/
theorem not_isBlank_of_isDigit {c : Char} (h : c.isDigit = true) : Text.isBlank c = false := by
  simp only [Char.isDigit, Bool.and_eq_true, decide_eq_true_eq, ge_iff_le,
    UInt32.le_iff_toNat_le] at h
  change 48 ≤ c.toNat ∧ c.toNat ≤ 57 at h
  simp only [Text.isBlank, Bool.or_eq_false_iff, Bool.and_eq_false_iff, decide_eq_false_iff_not,
    beq_eq_false_iff_ne]
  omega

/-- No blanks are dropped in front of digits. -/
theorem trimStart_append {ds rest : List Char} (hds : AreDigits ds) (hne : ds ≠ []) :
    Text.trimStart (ds ++ rest) = ds ++ rest := by
  obtain ⟨d, ds, rfl⟩ := List.exists_cons_of_ne_nil hne
  have hd := not_isBlank_of_isDigit (hds d List.mem_cons_self)
  rw [Text.trimStart, List.cons_append, List.dropWhile_cons_of_neg (by simp [hd])]

@[simp] theorem trimStart_padZeros (width n : Nat) (rest : List Char) :
    Text.trimStart (padZeros width n ++ rest) = padZeros width n ++ rest :=
  trimStart_append (areDigits_padZeros width n) (padZeros_ne_nil width n)

/-- Digits do not begin with anything else. -/
theorem padZeros_append_ne_cons {width n : Nat} {rest cs : List Char} {c : Char}
    (hc : c.isDigit = false) : padZeros width n ++ rest ≠ c :: cs := by
  obtain ⟨d, ds, hds⟩ := List.exists_cons_of_ne_nil (padZeros_ne_nil width n)
  have hd := areDigits_padZeros width n d (by rw [hds]; exact List.mem_cons_self)
  rw [hds]
  intro heq
  rw [(List.cons.inj heq).1, hc] at hd
  cases hd

theorem beginsApart_cons {c : Char} (hc : c.isDigit = false) (rest : List Char) :
    BeginsApart (c :: rest) := by
  rintro d ⟨⟩
  exact hc

/-- A year is scanned, with or without a sign. -/
theorem scanYear_yearText (year : Int) (rest : List Char) :
    scanYear (Text.trimStart (yearText year ++ '-' :: rest)) = some (year, '-' :: rest) := by
  have hdash := beginsApart_cons (c := '-') rfl rest
  rw [yearText]
  split
  · next hyear =>
      have hlength : (padZeros 4 year.toNat).length = 4 := length_padZeros (by decide) (by omega)
      have hscan : scanDigits 1 4 (padZeros 4 year.toNat ++ '-' :: rest) =
          some (digitsValue (padZeros 4 year.toNat), '-' :: rest) :=
        scanDigits_append (areDigits_padZeros 4 year.toNat) (by omega) (by omega) hdash
      have hvalue : ((year.toNat : Nat) : Int) = year := by omega
      rw [trimStart_padZeros, scanYear.eq_def]
      split
      · next heq => exact absurd heq (padZeros_append_ne_cons rfl)
      · next heq => exact absurd heq (padZeros_append_ne_cons rfl)
      · rw [hscan, digitsValue_padZeros]
        simp only [Option.map_some, hvalue]
  · next hyear =>
      have hscan : scanNumber (padZeros 4 year.natAbs ++ '-' :: rest) =
          some (year.natAbs, '-' :: rest) := scanNumber_padZeros hdash
      by_cases hneg : year < 0
      · rw [if_pos hneg]
        change (scanNumber (padZeros 4 year.natAbs ++ '-' :: rest)).map _ = _
        rw [hscan, Option.map_some]
        dsimp only
        rw [show -((year.natAbs : Nat) : Int) = year by omega]
      · rw [if_neg hneg]
        change (scanNumber (padZeros 4 year.natAbs ++ '-' :: rest)).map _ = _
        rw [hscan, Option.map_some]
        dsimp only
        rw [show ((year.natAbs : Nat) : Int) = year by omega]

/-- A date is scanned. -/
theorem scanDate_text {d : Date} (h : d.exists = true) {rest : List Char}
    (hrest : BeginsApart rest) :
    scanDate Text.trimStart (d.text ++ rest) = some (d, rest) := by
  obtain ⟨hmonth, hday⟩ : d.month < 100 ∧ d.day < 100 := by
    simp only [Date.exists, Bool.and_eq_true, decide_eq_true_eq] at h
    have hlength := daysInMonth_le d.year d.month
    omega
  have hdash (cs : List Char) : Text.trimStart ('-' :: cs) = '-' :: cs := rfl
  simp only [Date.text, List.append_assoc, List.cons_append, scanDate, scanYear_yearText,
    Option.bind_eq_bind, Option.bind_some, hdash, scanChar, if_true, trimStart_padZeros,
    scanDigits_padZeros hmonth (beginsApart_cons (c := '-') rfl _), scanDigits_padZeros hday hrest]
  rfl

/-! ### The time of day -/

/-- The digits of a fraction are scanned as the nanoseconds of a width. -/
theorem scanFraction_padZeros {width n : Nat} (hpos : 0 < width) (hwidth : width ≤ 9)
    (hn : n < 10 ^ width) {rest : List Char} (hrest : BeginsApart rest) :
    scanFraction ('.' :: padZeros width n ++ rest) = some (n * 10 ^ (9 - width), rest) := by
  have hlength := length_padZeros hpos hn
  rw [List.cons_append, scanFraction, scanNanos,
    (takeWhile_digits (areDigits_padZeros width n) hrest).1, if_neg (padZeros_ne_nil width n)]
  dsimp only
  rw [List.take_of_length_le (by omega), List.drop_left, hlength, digitsValue_padZeros]
  rfl

/-- A fraction of a second is scanned, also if there is none. -/
theorem scanFraction_fractionText (nanos : Nat) (rest : List Char) :
    scanFraction (fractionText nanos ++ 'Z' :: rest) =
      some (nanos % nanosPerSecond, 'Z' :: rest) := by
  have hrest := beginsApart_cons (c := 'Z') rfl rest
  have hbound : nanos % nanosPerSecond < 1000000000 := Nat.mod_lt _ (by decide)
  rw [fractionText]
  generalize nanos % nanosPerSecond = n at *
  by_cases hnone : n = 0
  · rw [if_pos hnone, hnone]
    rfl
  rw [if_neg hnone]
  by_cases hmillis : n % 1000000 = 0
  · rw [if_pos hmillis, scanFraction_padZeros (by decide) (by decide) (by omega) hrest,
      show n / 1000000 * 10 ^ (9 - 3) = n by omega]
  rw [if_neg hmillis]
  by_cases hmicros : n % 1000 = 0
  · rw [if_pos hmicros, scanFraction_padZeros (by decide) (by decide) (by omega) hrest,
      show n / 1000 * 10 ^ (9 - 6) = n by omega]
  · rw [if_neg hmicros, scanFraction_padZeros (by decide) (by decide) (by omega) hrest,
      show n * 10 ^ (9 - 9) = n by omega]

/-- A time of the calendar is the one at its second of its day. -/
theorem Instant.ofDay_days (t : Instant) : Instant.ofDay t.days t.secondOfDay t.nanos = t := by
  have hsplit : t.days * secondsPerDay + t.secondOfDay = t.seconds :=
    Int.ediv_mul_add_emod t.seconds secondsPerDay
  rw [Instant.ofDay, hsplit]

theorem Instant.secondOfDay_bounds (t : Instant) : 0 ≤ t.secondOfDay ∧ t.secondOfDay < 86400 := by
  simp only [secondOfDay, secondsPerDay]
  omega

/-- The fields of a proper time name the time. -/
theorem Instant.IsProper.instant_eq {t : Instant} (h : t.IsProper) :
    Fields.instant ⟨t.date, t.secondOfDay.toNat / 3600, t.secondOfDay.toNat / 60 % 60,
      t.secondOfDay.toNat % 60 + (if nanosPerSecond ≤ t.nanos then 1 else 0),
      t.nanos % nanosPerSecond, 0⟩ = some t := by
  have hdate : t.date.exists = true := Date.exists_ofDays h.inCalendar
  have hdays : t.date.toDays = t.days := Date.toDays_ofDays t.days
  have hsecond := t.secondOfDay_bounds
  have hminute : t.secondOfDay % 60 = t.seconds % 60 := by
    simp only [Instant.secondOfDay, secondsPerDay]
    omega
  have hnanos := h.nanos
  have hofDay (s : Int) (n : Nat) (hs : s = t.secondOfDay) (hn : n = t.nanos) :
      (if (Instant.ofDay t.days s n).exists = true then some (Instant.ofDay t.days s n) else none) =
        some t := by
    rw [hs, hn, ofDay_days, if_pos h.inCalendar]
  simp only [Fields.instant, hdate, hdays, Bool.true_and, Bool.and_eq_true, decide_eq_true_eq]
  rw [if_pos (by split <;> omega)]
  by_cases hleap : nanosPerSecond ≤ t.nanos
  · have hlast : t.secondOfDay.toNat % 60 = 59 := by omega
    have hsum : t.nanos % nanosPerSecond + nanosPerSecond = t.nanos := by
      simp only [nanosPerSecond] at *
      omega
    rw [if_pos hleap, hlast]
    exact hofDay _ _ (by simp; omega) hsum
  · have hplain : (t.secondOfDay.toNat % 60 + 0 == 60) = false := by
      rw [beq_eq_false_iff_ne]
      omega
    rw [if_neg hleap, hplain]
    exact hofDay _ _ (by simp; omega) (Nat.mod_eq_of_lt (by omega))

/-- **A proper time is read back from its stored form.** -/
theorem readStored_storedText {t : Instant} (h : t.IsProper) :
    readStored t.storedText.toList = some t := by
  have hdate : t.date.exists = true := Date.exists_ofDays h.inCalendar
  have hsecond := t.secondOfDay_bounds
  have hcolon (cs : List Char) : Text.trimStart (':' :: cs) = ':' :: cs := rfl
  have hT (cs : List Char) : scanSeparator ('T' :: cs) = some cs := rfl
  have hZ : scanStoredOffset (Text.trimStart ['Z']) = some (0, []) := rfl
  have hfraction : BeginsApart (fractionText t.nanos ++ ['Z']) := by
    rw [fractionText]
    split
    · exact beginsApart_cons rfl _
    split
    · exact beginsApart_cons rfl _
    split <;> exact beginsApart_cons rfl _
  simp only [Instant.storedText, Instant.localText, clockText, String.toList_ofList,
    List.append_assoc, List.cons_append, readStored]
  rw [scanDate_text hdate (beginsApart_cons rfl _)]
  simp only [Option.bind_eq_bind, Option.bind_some, hT, trimStart_padZeros, scanChar]
  rw [scanDigits_padZeros (by omega) (beginsApart_cons rfl _)]
  simp only [Option.bind_some, hcolon, trimStart_padZeros, if_true]
  rw [scanDigits_padZeros (by omega) (beginsApart_cons rfl _)]
  simp only [Option.bind_some, hcolon, trimStart_padZeros, if_true]
  rw [scanDigits_padZeros (by split <;> omega) hfraction]
  simp only [Option.bind_some]
  rw [scanFraction_fractionText]
  simp only [Option.bind_some, hZ]
  exact h.instant_eq

end Forecast.Calendar
