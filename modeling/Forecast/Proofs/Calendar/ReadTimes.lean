import Forecast.Proofs.Calendar.StoredTimes

/-!
# Times as They Are Read

What an author writes is read as a time of the calendar, with less than a second of nanoseconds unless
the minute ends in a leap second (`isProper_of_readTime`). An offset is taken off after the leap second
has been recognised, so it matters here that offsets are whole minutes: the second before a leap second
ends a minute in UTC too.

The seconds of such a time fit a word with much room (`Instant.fitsWord_seconds`).

## Main results

* `isProper_of_readTime`: times that are read are proper.
-/

namespace Forecast.Calendar

open Decimal (AreDigits digitsValue digitsValue_lt)

/-- The first and the last second of the calendar. -/
theorem Instant.seconds_bounds {t : Instant} (h : t.exists = true) :
    -8334601228800 ≤ t.seconds ∧ t.seconds ≤ 8210266876799 := by
  have hdays := Date.inCalendar_iff.1 h
  simp only [Instant.days, secondsPerDay] at hdays
  omega

/-- The seconds of a time of the calendar fit a word. -/
theorem Instant.fitsWord_seconds {t : Instant} (h : t.exists = true) :
    Decimal.fitsWord t.seconds = true := by
  have hseconds := t.seconds_bounds h
  exact Decimal.fitsWord_iff.2 (by omega)

/-! ### Fields -/

/-- The digits of a fraction are less than a second. -/
theorem lt_of_scanNanos {cs rest : List Char} {n : Nat} (h : scanNanos cs = some (n, rest)) :
    n < nanosPerSecond := by
  rw [scanNanos] at h
  split at h
  · cases h
  · cases h
    generalize hkept : (cs.takeWhile Char.isDigit).take 9 = kept
    have hdigits : AreDigits kept := fun c hc => by
      rw [← hkept] at hc
      exact List.mem_takeWhile_imp (List.mem_of_mem_take hc)
    have hlength : kept.length ≤ 9 := by
      rw [← hkept, List.length_take]
      exact Nat.min_le_left _ _
    calc digitsValue kept * Decimal.tenTo (9 - kept.length) <
          10 ^ kept.length * 10 ^ (9 - kept.length) :=
          Nat.mul_lt_mul_of_pos_right (digitsValue_lt hdigits) (Nat.pow_pos (by decide))
      _ = nanosPerSecond := by
          rw [← Nat.pow_add, Nat.add_sub_cancel' hlength]
          rfl

/-- A fraction is less than a second, also if there is none. -/
theorem lt_of_scanFraction {cs rest : List Char} {n : Nat} (h : scanFraction cs = some (n, rest)) :
    n < nanosPerSecond := by
  unfold scanFraction at h
  split at h
  · exact lt_of_scanNanos h
  · cases h
    decide

/-- Offsets are whole minutes. -/
theorem minutes_of_scanOffset {colon : List Char → Option (List Char)} {cs rest : List Char}
    {offset : Int} (h : scanOffset colon cs = some (offset, rest)) : offset % 60 = 0 := by
  have hsigned {sign : Int} {ds : List Char}
      (h : ((scanDigits 2 2 ds).bind fun hours => (colon hours.2).bind fun ds =>
        (scanDigits 2 2 ds).bind fun minutes =>
          if 23 < hours.1 ∨ 59 < minutes.1 then none
          else some (sign * ((hours.1 : Int) * 3600 + minutes.1 * 60), minutes.2)) =
        some (offset, rest)) : offset % 60 = 0 := by
    obtain ⟨hours, -, h⟩ := Option.bind_eq_some_iff.1 h
    obtain ⟨_, -, h⟩ := Option.bind_eq_some_iff.1 h
    obtain ⟨minutes, -, h⟩ := Option.bind_eq_some_iff.1 h
    obtain ⟨-, h⟩ := Option.ite_none_left_eq_some.1 h
    cases h
    have hminutes : (hours.1 : Int) * 3600 + minutes.1 * 60 = (hours.1 * 60 + minutes.1) * 60 := by
      omega
    rw [hminutes, ← Int.mul_assoc, Int.mul_emod_left]
  rw [scanOffset.eq_def] at h
  dsimp only at h
  split at h
  · cases h
    rfl
  · cases h
    rfl
  · exact hsigned h
  · exact hsigned h
  · exact hsigned h
  · cases h

/-- The time that fields name is proper, if their fraction is less than a second and their offset is
whole minutes. -/
theorem Fields.isProper_of_instant {f : Fields} {t : Instant} (h : f.instant = some t)
    (hnanos : f.nanos < nanosPerSecond) (hoffset : f.offset % 60 = 0) : t.IsProper := by
  rw [instant] at h
  dsimp only at h
  obtain ⟨-, h⟩ := Option.ite_none_right_eq_some.1 h
  obtain ⟨hexists, h⟩ := Option.ite_none_right_eq_some.1 h
  cases h
  refine ⟨hexists, ?_⟩
  cases hleap : f.second == 60 with
  | false =>
      left
      simpa [Instant.ofDay, hleap] using hnanos
  | true =>
      right
      simp only [Instant.ofDay, secondsPerDay, if_true]
      omega

/-- A strict timestamp is read as a proper time. -/
theorem isProper_of_readTimestamp {cs : List Char} {t : Instant} (h : readTimestamp cs = some t) :
    t.IsProper := by
  rw [readTimestamp] at h
  obtain ⟨⟨year, _⟩, -, h⟩ := Option.bind_eq_some_iff.1 h
  obtain ⟨_, -, h⟩ := Option.bind_eq_some_iff.1 h
  obtain ⟨⟨month, _⟩, -, h⟩ := Option.bind_eq_some_iff.1 h
  obtain ⟨_, -, h⟩ := Option.bind_eq_some_iff.1 h
  obtain ⟨⟨day, _⟩, -, h⟩ := Option.bind_eq_some_iff.1 h
  obtain ⟨_, -, h⟩ := Option.bind_eq_some_iff.1 h
  obtain ⟨⟨hour, _⟩, -, h⟩ := Option.bind_eq_some_iff.1 h
  obtain ⟨_, -, h⟩ := Option.bind_eq_some_iff.1 h
  obtain ⟨⟨minute, _⟩, -, h⟩ := Option.bind_eq_some_iff.1 h
  obtain ⟨_, -, h⟩ := Option.bind_eq_some_iff.1 h
  obtain ⟨⟨second, _⟩, -, h⟩ := Option.bind_eq_some_iff.1 h
  obtain ⟨⟨nanos, _⟩, hfraction, h⟩ := Option.bind_eq_some_iff.1 h
  obtain ⟨⟨offset, _⟩, hoffset, h⟩ := Option.bind_eq_some_iff.1 h
  obtain ⟨-, h⟩ := Option.ite_none_right_eq_some.1 h
  exact Fields.isProper_of_instant h (lt_of_scanFraction hfraction) (minutes_of_scanOffset hoffset)

/-- A bare date is read as a proper time. -/
theorem isProper_of_readDate {cs : List Char} {t : Instant} (h : readDate cs = some t) :
    t.IsProper := by
  rw [readDate] at h
  obtain ⟨⟨date, _⟩, -, h⟩ := Option.bind_eq_some_iff.1 h
  obtain ⟨⟨-, hdate⟩, h⟩ := Option.ite_none_right_eq_some.1 h
  cases h
  have hdays : date.midnight.days = date.toDays := by
    simp only [Date.midnight, Instant.days, Instant.ofDay, secondsPerDay]
    omega
  refine ⟨?_, Or.inl (show 0 < nanosPerSecond by decide)⟩
  rw [Instant.exists, hdays]
  exact Date.inCalendar_toDays hdate

/-- **A time that is read is proper.** -/
theorem isProper_of_readTime {s : String} {t : Instant} (h : readTime s = .ok t) : t.IsProper := by
  rw [readTime] at h
  split at h
  · next hread =>
      cases h
      exact isProper_of_readTimestamp hread
  split at h
  · next hread =>
      cases h
      exact isProper_of_readDate hread
  · cases h

end Forecast.Calendar
