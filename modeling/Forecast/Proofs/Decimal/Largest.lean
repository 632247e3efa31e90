import Mathlib
import Forecast.Decimal.Significant
import Forecast.Proofs.Decimal.Spelling

/-!
# Decimals Are Not Above the Largest Number

The shortest decimal of a finite number may be larger than the number, as it may lie anywhere in the
interval of the numbers that round to it. But it is never larger than the largest number: the intervals
of all others end below that, and the decimal of the largest number itself is smaller than the number.
Its digits are no more than a machine word holds.

## Main results

* `Binary.magnitude_bounds`: between which powers of ten a binary number lies.
* `shortest_le_largest`: the shortest decimal of a finite number is not above the largest number.
-/

namespace Forecast.Decimal

open Float.Model (UnpackedFloat)

theorem cast_twoTo (n : ℕ) : (twoTo n : ℚ) = 2 ^ (n : ℤ) := by
  rw [zpow_natCast]
  exact Nat.cast_pow 2 n

theorem cast_tenTo (n : ℕ) : (tenTo n : ℚ) = 10 ^ (n : ℤ) := by
  rw [zpow_natCast]
  exact Nat.cast_pow 10 n

theorem tenTo_add (m n : ℕ) : tenTo (m + n) = tenTo m * tenTo n :=
  Nat.pow_add 10 m n

theorem tenTo_le_tenTo {m n : ℕ} (h : m ≤ n) : tenTo m ≤ tenTo n :=
  Nat.pow_le_pow_right (by decide) h

theorem Scaled.digits_stripZeros_le (fuel : ℕ) (s : Scaled) :
    (stripZeros fuel s).digits ≤ s.digits := by
  fun_induction stripZeros fuel s with
  | case1 s => exact le_refl _
  | case2 fuel s h ih => exact ih.trans (Nat.div_le_self _ _)
  | case3 fuel s h => exact le_refl _

namespace Binary

variable {b : Binary}

/-- The number that a binary number stands for. -/
def value (b : Binary) : ℚ :=
  b.mantissa * (2 : ℚ) ^ b.exponent

/-- The magnitude is read off the digits of the number shifted far enough to the left. -/
theorem exists_shift (b : Binary) : ∃ shift : ℕ, 1074 ≤ 3 * shift ∧
    b.magnitude = ((natDigits (b.mantissa * 10 ^ shift * 2 ^ b.exponent.toNat /
      2 ^ (-b.exponent).toNat)).length : ℤ) - 1 - shift := by
  have hmagnitude (shift : ℕ) (hshift : shift = 360) : b.magnitude =
      ((natDigits (b.mantissa * tenTo shift * twoTo b.exponent.toNat /
        twoTo (-b.exponent).toNat)).length : ℤ) - 1 - shift := by
    rw [hshift, magnitude]
  obtain ⟨shift, hshift⟩ : ∃ shift : ℕ, shift = 360 := ⟨_, rfl⟩
  exact ⟨shift, by omega, hmagnitude shift hshift⟩

/-- Between which powers of ten a number lies that has so many digits. -/
theorem natDigits_bounds {n : ℕ} (hn : n ≠ 0) :
    10 ^ ((natDigits n).length - 1) ≤ n ∧ n < 10 ^ (natDigits n).length := by
  have hlength := List.length_pos_iff.2 (natDigits_ne_nil n)
  refine ⟨?_, (length_natDigits_le hlength).1 (le_refl _)⟩
  rcases Nat.eq_zero_or_pos ((natDigits n).length - 1) with hzero | hpos
  · rw [hzero]
    exact Nat.one_le_iff_ne_zero.2 hn
  · by_contra hless
    have := (length_natDigits_le hpos).2 (Nat.lt_of_not_le hless)
    omega

/-- **Between which powers of ten a binary number lies.** -/
theorem magnitude_bounds (hb : b.mantissa ≠ 0) (hlow : -1074 ≤ b.exponent) :
    (10 : ℚ) ^ b.magnitude ≤ b.value ∧ b.value < 10 ^ (b.magnitude + 1) := by
  obtain ⟨shift, hshift, hmagnitude⟩ := b.exists_shift
  have hpos : 0 < 2 ^ (-b.exponent).toNat := by positivity
  obtain ⟨n, hn⟩ : ∃ n, n = b.mantissa * 10 ^ shift * 2 ^ b.exponent.toNat /
    2 ^ (-b.exponent).toNat := ⟨_, rfl⟩
  have hfloor : n * 2 ^ (-b.exponent).toNat ≤ b.mantissa * 10 ^ shift * 2 ^ b.exponent.toNat ∧
      b.mantissa * 10 ^ shift * 2 ^ b.exponent.toNat < (n + 1) * 2 ^ (-b.exponent).toNat := by
    rw [hn]
    exact ⟨Nat.div_mul_le_self _ _, Nat.lt_mul_of_div_lt (Nat.lt_succ_self _) hpos⟩
  have hne : n ≠ 0 := by
    rw [hn, Nat.div_ne_zero_iff]
    refine ⟨hpos.ne', ?_⟩
    calc 2 ^ (-b.exponent).toNat ≤ 2 ^ (3 * shift) := Nat.pow_le_pow_right (by decide) (by omega)
      _ = 8 ^ shift := pow_mul 2 3 shift
      _ ≤ 10 ^ shift := Nat.pow_le_pow_left (by decide) shift
      _ ≤ b.mantissa * 10 ^ shift := Nat.le_mul_of_pos_left _ (by omega)
      _ ≤ b.mantissa * 10 ^ shift * 2 ^ b.exponent.toNat := Nat.le_mul_of_pos_right _ (by positivity)
  have hvalue : (n : ℚ) ≤ b.value * 10 ^ shift ∧ b.value * 10 ^ shift < n + 1 := by
    have hexact : b.value * 10 ^ shift * 2 ^ (-b.exponent).toNat =
        (b.mantissa * 10 ^ shift * 2 ^ b.exponent.toNat : ℕ) := by
      push_cast
      rw [value, ← zpow_mul_pow_toNat_neg (by norm_num) b.exponent]
      ring
    have hpos' : (0 : ℚ) < 2 ^ (-b.exponent).toNat := by positivity
    constructor
    · rw [← mul_le_mul_iff_of_pos_right hpos', hexact]
      exact_mod_cast hfloor.1
    · rw [← mul_lt_mul_iff_of_pos_right hpos', hexact]
      exact_mod_cast hfloor.2
  obtain ⟨hdigits, hdigits'⟩ := natDigits_bounds hne
  have hlength := List.length_pos_iff.2 (natDigits_ne_nil n)
  rw [← hn] at hmagnitude
  have hpower : (0 : ℚ) < 10 ^ shift := by positivity
  constructor
  · rw [← mul_le_mul_iff_of_pos_right hpower]
    calc (10 : ℚ) ^ b.magnitude * 10 ^ shift = (10 ^ ((natDigits n).length - 1) : ℕ) := by
          push_cast
          rw [← zpow_natCast, ← zpow_natCast, ← zpow_add₀ (by norm_num)]
          congr 1
          omega
      _ ≤ n := Nat.cast_le.2 hdigits
      _ ≤ b.value * 10 ^ shift := hvalue.1
  · rw [← mul_lt_mul_iff_of_pos_right hpower]
    calc b.value * 10 ^ shift < n + 1 := hvalue.2
      _ ≤ (10 ^ (natDigits n).length : ℕ) := by exact_mod_cast hdigits'
      _ = (10 : ℚ) ^ (b.magnitude + 1) * 10 ^ shift := by
          push_cast
          rw [← zpow_natCast, ← zpow_natCast, ← zpow_add₀ (by norm_num)]
          congr 1
          omega

/-- The interval of the numbers that round to a number ends below one and a half of it. -/
theorem top_le (hb : b.mantissa ≠ 0) : b.top ≤ 3 / 2 * b.value := by
  have hquarters : (b.quarters.2.2 : ℚ) ≤ 6 * b.mantissa := by
    have : b.quarters.2.2 ≤ 6 * b.mantissa := by
      simp only [quarters]
      omega
    exact_mod_cast this
  calc b.top ≤ 6 * b.mantissa * 2 ^ (b.exponent - 2) := by
        rw [top]
        gcongr
    _ = 3 / 2 * b.value := by
        rw [value, zpow_sub₀ (by norm_num)]
        norm_num
        ring

theorem value_le_top (b : Binary) : b.value ≤ b.top := by
  have hquarters : 4 * (b.mantissa : ℚ) ≤ b.quarters.2.2 := by
    have : 4 * b.mantissa ≤ b.quarters.2.2 := by
      simp only [quarters]
      omega
    exact_mod_cast this
  calc b.value = 4 * b.mantissa * 2 ^ (b.exponent - 2) := by
        rw [value, zpow_sub₀ (by norm_num)]
        norm_num
        ring
    _ ≤ b.top := by
        rw [top]
        gcongr

/-- **The shortest decimal has no more digits than a word holds,** and is not above the interval. -/
theorem shortest_bounds (hb : b.mantissa ≠ 0) (hshort : b.mantissa < 2 ^ 53)
    (hlow : -1074 ≤ b.exponent) (tie : Tie) :
    (b.shortest tie).digits ≤ 15 * 10 ^ 16 ∧ (b.shortest tie).value ≤ b.top := by
  obtain ⟨hleast, hmost⟩ := magnitude_bounds hb hlow
  rw [shortest, Scaled.value_stripZeros]
  suffices hsearch : (b.search tie b.magnitude 17 1).digits ≤ 15 * 10 ^ 16 ∧
      (b.search tie b.magnitude 17 1).value ≤ b.top from
    ⟨(Scaled.digits_stripZeros_le _ _).trans hsearch.1, hsearch.2⟩
  rcases b.search_cases tie b.magnitude 17 1 with ⟨n, -, hn, hexponent, -, htop⟩ | hlast
  · refine ⟨?_, htop⟩
    generalize b.search tie b.magnitude 17 1 = s at hexponent htop ⊢
    have hpower : (0 : ℚ) < 10 ^ s.exponent := by positivity
    have hbound : (s.digits : ℚ) * 10 ^ s.exponent ≤ (15 * 10 ^ 16 : ℕ) * 10 ^ s.exponent := by
      calc (s.digits : ℚ) * 10 ^ s.exponent ≤ b.top := htop
        _ ≤ 3 / 2 * b.value := top_le hb
        _ ≤ 3 / 2 * 10 ^ (b.magnitude + 1) := by gcongr
        _ = 3 / 2 * 10 ^ n * 10 ^ s.exponent := by
            rw [hexponent, zpow_sub₀ (by norm_num), zpow_natCast, mul_assoc,
              mul_div_cancel₀ _ (by positivity)]
        _ ≤ 3 / 2 * 10 ^ 17 * 10 ^ s.exponent := by
            gcongr
            · norm_num
            · omega
        _ = (15 * 10 ^ 16 : ℕ) * 10 ^ s.exponent := by
            norm_num
    exact_mod_cast le_of_mul_le_mul_right hbound hpower
  · -- the last resort has 17 decimal places less than would be needed to reach the number
    rw [hlast]
    refine ⟨by dsimp only; omega, ?_⟩
    calc (b.mantissa : ℚ) * 10 ^ (b.magnitude - (1 + 17 : ℕ)) ≤
          10 ^ 18 * 10 ^ (b.magnitude - (1 + 17 : ℕ)) := by
          gcongr
          have : b.mantissa ≤ 10 ^ 18 := by omega
          exact_mod_cast this
      _ = 10 ^ b.magnitude := by
          rw [zpow_sub₀ (by norm_num)]
          norm_num
          ring
      _ ≤ b.value := hleast
      _ ≤ b.top := b.value_le_top

/-! ### Finite numbers -/

/-- The mantissa and the exponent of a finite number are within the bounds of binary numbers. -/
theorem ofFloat_bounds {x : Float} (h : x.isFinite = true) :
    (ofFloat x).mantissa < 2 ^ 53 ∧ -1074 ≤ (ofFloat x).exponent ∧ (ofFloat x).exponent ≤ 971 := by
  have hfield : x.toBits.toNat / 2 ^ 52 % 2 ^ 11 ≠ 2047 := by
    intro hspecial
    have hexponent : @UnpackedFloat.unpackExponent Float.Model.Format.binary64
        x.toBits.toBitVec = -1#11 := by
      refine BitVec.eq_of_toNat_eq ?_
      rw [UnpackedFloat.unpackExponent, BitVec.toNat_cast, BitVec.extractLsb_toNat,
        Nat.shiftRight_eq_div_pow]
      exact hspecial
    change UnpackedFloat.isFinite (UnpackedFloat.unpack Float.Model.Format.binary64
      x.toBits.toBitVec) = true at h
    rw [UnpackedFloat.unpack] at h
    dsimp only at h
    rw [if_pos hexponent] at h
    split at h <;> cases h
  have hfield' : x.toBits.toNat / twoTo 52 % twoTo 11 < 2047 := by
    have : x.toBits.toNat / 2 ^ 52 % 2 ^ 11 < 2047 := by omega
    exact this
  have hfraction : x.toBits.toNat % twoTo 52 < 2 ^ 52 := Nat.mod_lt _ (by decide)
  have htwo : twoTo 52 = 2 ^ 52 := rfl
  simp only [ofFloat]
  split <;> (dsimp only; omega)

theorem largest_eq : (largest : ℚ) = ((2 : ℚ) ^ 55 - 4) * 2 ^ (969 : ℤ) := by
  have hmantissa : ((twoTo 53 - 1 : ℕ) : ℚ) = 2 ^ 53 - 1 := by
    rw [show twoTo 53 - 1 = 9007199254740991 from rfl]
    norm_num
  calc (largest : ℚ) = (2 ^ 53 - 1) * 2 ^ (969 + 2 : ℤ) := by
        rw [largest, Nat.cast_mul, hmantissa, cast_twoTo]
        rfl
    _ = ((2 : ℚ) ^ 55 - 4) * 2 ^ (969 : ℤ) := by
        rw [zpow_add₀ (by norm_num)]
        ring

/-- The upper end of every interval but that of the largest number is not above the largest number. -/
theorem top_le_largest (hshort : b.mantissa < 2 ^ 53) (hlast : b.exponent ≤ 971)
    (hother : b.mantissa + 1 < 2 ^ 53 ∨ b.exponent < 971) : b.top ≤ largest := by
  have hquarters : b.quarters.2.2 = 4 * b.mantissa + 2 := rfl
  rw [largest_eq, top, hquarters]
  rcases hother with hmantissa | hexponent
  · have hdigits : ((4 * b.mantissa + 2 : ℕ) : ℚ) ≤ 2 ^ 55 - 4 := by
      have : 4 * b.mantissa + 2 + 4 ≤ 2 ^ 55 := by omega
      have hcast : ((4 * b.mantissa + 2 + 4 : ℕ) : ℚ) ≤ (2 ^ 55 : ℕ) := Nat.cast_le.2 this
      push_cast at hcast ⊢
      linarith
    gcongr
    · norm_num
    · omega
  · have hdigits : ((4 * b.mantissa + 2 : ℕ) : ℚ) ≤ 2 ^ 55 := by
      have : 4 * b.mantissa + 2 ≤ 2 ^ 55 := by omega
      exact_mod_cast this
    calc ((4 * b.mantissa + 2 : ℕ) : ℚ) * 2 ^ (b.exponent - 2) ≤ 2 ^ 55 * 2 ^ (968 : ℤ) := by
          gcongr
          · norm_num
          · omega
      _ ≤ ((2 : ℚ) ^ 55 - 4) * 2 ^ (969 : ℤ) := by
          rw [show (969 : ℤ) = 968 + 1 from rfl, zpow_add_one₀ (by norm_num), mul_comm (2 ^ (968 : ℤ)),
            ← mul_assoc]
          gcongr
          norm_num

/-- The decimal of the largest number. -/
theorem shortest_largest :
    (Binary.mk (2 ^ 53 - 1) 971 false).shortest .even = ⟨17976931348623157, 292⟩ := by
  decide +kernel

theorem ofFloat_eq_largest {x : Float} (hmantissa : (ofFloat x).mantissa = 2 ^ 53 - 1)
    (hexponent : (ofFloat x).exponent = 971) : ofFloat x = ⟨2 ^ 53 - 1, 971, false⟩ := by
  have hnarrow : (ofFloat x).narrowBelow = false := by
    have htwo : twoTo 52 = 2 ^ 52 := rfl
    simp only [ofFloat] at hmantissa hexponent ⊢
    split
    · rfl
    · next hfield =>
        rw [if_neg hfield] at hmantissa
        have hfraction : x.toBits.toNat % twoTo 52 ≠ 0 := by
          dsimp only at hmantissa
          omega
        simp [hfraction]
  generalize ofFloat x = c at *
  obtain ⟨m, e, narrow⟩ := c
  simp_all

/-- **The shortest decimal of a finite number is not above the largest number,** and its digits are no
more than a word holds. -/
theorem shortest_le_largest {x : Float} (h : x.isFinite = true) (hx : (x == 0) = false) :
    ((ofFloat x).shortest .even).digits ≤ 15 * 10 ^ 16 ∧
      ((ofFloat x).shortest .even).value ≤ largest := by
  obtain ⟨hshort, hlow, hlast⟩ := ofFloat_bounds h
  obtain ⟨hdigits, htop⟩ := shortest_bounds (mantissa_ofFloat_ne_zero hx) hshort hlow .even
  refine ⟨hdigits, ?_⟩
  by_cases hother : (ofFloat x).mantissa + 1 < 2 ^ 53 ∨ (ofFloat x).exponent < 971
  · exact htop.trans (top_le_largest hshort hlast hother)
  · have hsmaller : 17976931348623157 * tenTo 292 ≤ largest := by decide +kernel
    rw [ofFloat_eq_largest (by omega) (by omega), shortest_largest]
    calc (17976931348623157 : ℕ) * (10 : ℚ) ^ (292 : ℤ) = (17976931348623157 * tenTo 292 : ℕ) := by
          rw [Nat.cast_mul, cast_tenTo]
          rfl
      _ ≤ largest := Nat.cast_le.2 hsmaller

end Binary

end Forecast.Decimal
