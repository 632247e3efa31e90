import Mathlib

/-!
# Rounding Upwards

How much a binary number can grow by being rounded, and when it is still a normal one. A product of two
numbers, and a number with a power of ten, are rounded once: the mantissa is cut down to 53 bits, and
one is added to it if what was cut off is at least a half. So a rounded number exceeds the exact one by
at most one part in `2 ^ 53` (`isNormal_round`), and it is finite if the exact one is below `limit`.

Nothing is said about numbers that are rounded downwards.

## Main results

* `isNormal_round`: what a number is rounded to.
* `IsNormal.mul`: what the product of two normal numbers is rounded to.
* `IsNormal.unpack_pack`: a normal number is what is stored for it.
-/

namespace Forecast.Decimal

open Float.Model (UnpackedFloat Format totalExponent)
open Float.Model.UnpackedFloat (ExtendedMantissa Accuracy shiftToTargetExponent roundWithAccuracy)

/-- Half way between the largest binary number and the next one that there would be. Whatever is below
it is not rounded to infinity. -/
def limit : ℚ := (2 ^ 53 - 1 / 2) * 2 ^ (971 : ℤ)

theorem two_pow_le_limit : ((2 ^ 53 : ℕ) : ℚ) ≤ limit := by
  calc ((2 ^ 53 : ℕ) : ℚ) ≤ (2 ^ 53 - 1 / 2) * 2 ^ (1 : ℤ) := by norm_num
    _ ≤ limit := by
        rw [limit]
        gcongr <;> norm_num

/-- What rounding multiplies by at most. -/
def growth : ℚ := 1 + 1 / 2 ^ 53

theorem one_le_growth : 1 ≤ growth := by
  rw [growth]
  norm_num

/-- Whether a binary number is positive and normal, has an exponent of at least `low`, and is at most
`size`. -/
def IsNormal (low : ℤ) (size : ℚ) (u : UnpackedFloat) : Prop :=
  ∃ m e h, u = .finite .positive m e h ∧ 2 ^ 52 ≤ m ∧ m < 2 ^ 53 ∧ low ≤ e ∧ e ≤ 971 ∧
    (m : ℚ) * 2 ^ e ≤ size

theorem IsNormal.mono {low low' : ℤ} {size size' : ℚ} {u : UnpackedFloat} (h : IsNormal low size u)
    (hlow : low' ≤ low) (hsize : size ≤ size') : IsNormal low' size' u := by
  obtain ⟨m, e, hm, hu, hleast, hmost, he, hlast, hbound⟩ := h
  exact ⟨m, e, hm, hu, hleast, hmost, hlow.trans he, hlast, hbound.trans hsize⟩

/-- A normal number is not infinite. -/
theorem IsNormal.isInf_eq_false {low : ℤ} {size : ℚ} {u : UnpackedFloat} (h : IsNormal low size u) :
    u.isInf = false := by
  obtain ⟨m, e, hm, rfl, -⟩ := h
  rfl

/-! ### Mantissas -/

/-- Bits are cut off as by division. -/
theorem mantissa_shiftRight (em : ExtendedMantissa) (k : ℕ) :
    (em >>> k).mantissa = em.mantissa / 2 ^ k := by
  induction k with
  | zero => exact (Nat.div_one _).symm
  | succ k ih =>
      change (em >>> k).mantissa / 2 = _
      rw [ih, Nat.div_div_eq_div_mul, pow_succ]

/-- A mantissa grows by at most one, and only if the first bit that was cut off is set. -/
theorem roundedMantissa_bounds (em : ExtendedMantissa) :
    em.mantissa ≤ em.roundedMantissa ∧
      em.roundedMantissa ≤ em.mantissa + (if em.roundBit then 1 else 0) := by
  rcases em with ⟨m, r, s⟩
  cases r <;> cases s <;>
    simp [ExtendedMantissa.roundedMantissa, ExtendedMantissa.accuracy, Accuracy.roundToNearestEven]
  omega

/-- The mantissa `m` without its last `k` bits, rounded. -/
def cut (m k : ℕ) : ℕ :=
  (ExtendedMantissa.ofMantissaAndAccuracy m .exact >>> k).roundedMantissa

theorem div_le_cut (m k : ℕ) : m / 2 ^ k ≤ cut m k := by
  have hbounds := roundedMantissa_bounds (ExtendedMantissa.ofMantissaAndAccuracy m .exact >>> k)
  rw [mantissa_shiftRight] at hbounds
  exact hbounds.1

theorem cut_le (m k : ℕ) : cut m k ≤ m / 2 ^ k + 1 := by
  have hbounds := (roundedMantissa_bounds (ExtendedMantissa.ofMantissaAndAccuracy m .exact >>> k)).2
  rw [mantissa_shiftRight] at hbounds
  refine hbounds.trans (Nat.add_le_add_left ?_ _)
  split <;> decide

/-- A rounded mantissa exceeds the exact one by at most half of what was cut off. -/
theorem cut_mul_le (m k : ℕ) : cut m k * 2 ^ k ≤ m + 2 ^ k / 2 := by
  have hbounds := (roundedMantissa_bounds (ExtendedMantissa.ofMantissaAndAccuracy m .exact >>> k)).2
  rw [mantissa_shiftRight] at hbounds
  change cut m k ≤ m / 2 ^ k + _ at hbounds
  have hdivision := Nat.div_add_mod m (2 ^ k)
  cases k with
  | zero =>
      have hexact : cut m 0 ≤ m / 2 ^ 0 := hbounds
      simpa using hexact
  | succ k =>
      -- the bit after the mantissa is the last one that is shifted out
      have hbit : (ExtendedMantissa.ofMantissaAndAccuracy m .exact >>> (k + 1)).roundBit =
          (m / 2 ^ k % 2 != 0) := by
        change ((ExtendedMantissa.ofMantissaAndAccuracy m .exact >>> k).mantissa % 2 != 0) = _
        rw [mantissa_shiftRight]
        rfl
      rw [hbit] at hbounds
      have hpow : 2 ^ (k + 1) / 2 = 2 ^ k := by rw [pow_succ, Nat.mul_div_cancel _ (by decide)]
      rw [hpow]
      have hmod : m % 2 ^ (k + 1) = m % 2 ^ k + 2 ^ k * (m / 2 ^ k % 2) := by
        rw [pow_succ, Nat.mod_mul]
      by_cases hset : m / 2 ^ k % 2 = 0
      · have hdown : cut m (k + 1) ≤ m / 2 ^ (k + 1) := by simpa [hset] using hbounds
        calc cut m (k + 1) * 2 ^ (k + 1) ≤ m / 2 ^ (k + 1) * 2 ^ (k + 1) :=
              Nat.mul_le_mul_right _ hdown
          _ ≤ m := Nat.div_mul_le_self _ _
          _ ≤ m + 2 ^ k := Nat.le_add_right _ _
      · have hone : m / 2 ^ k % 2 = 1 := by omega
        have hup : cut m (k + 1) ≤ m / 2 ^ (k + 1) + 1 := by simpa [hone] using hbounds
        rw [hone, mul_one] at hmod
        calc cut m (k + 1) * 2 ^ (k + 1) ≤ (m / 2 ^ (k + 1) + 1) * 2 ^ (k + 1) :=
              Nat.mul_le_mul_right _ hup
          _ = 2 ^ (k + 1) * (m / 2 ^ (k + 1)) + 2 ^ k + 2 ^ k := by ring
          _ ≤ 2 ^ (k + 1) * (m / 2 ^ (k + 1)) + m % 2 ^ (k + 1) + 2 ^ k := by omega
          _ = m + 2 ^ k := by rw [hdivision]

/-! ### Rounding -/

/-- The exponent that a number is given. -/
theorem targetExponent_eq (m : ℕ) (e : ℤ) :
    Format.binary64.targetExponent (totalExponent m e) = max (m.log2 + e - 52) (-1074) := by
  simp only [Format.targetExponent, totalExponent, Format.mantissaBits, Format.minExponent]
  norm_num
  omega

/-- An exact mantissa is shifted by as many bits as its exponent is raised. -/
theorem shiftToTargetExponent_exact {m k : ℕ} {e : ℤ}
    (hk : (k : ℤ) = max 0 (max (m.log2 + e - 52) (-1074) - e)) :
    shiftToTargetExponent Format.binary64 m e .exact =
      (ExtendedMantissa.ofMantissaAndAccuracy m .exact >>> k, e + k) := by
  have hshift : (Format.binary64.targetExponent (totalExponent m e) - e).toNat = k := by
    rw [targetExponent_eq]
    omega
  rw [shiftToTargetExponent, Float.Model.UnpackedFloat.shiftToExponent]
  simp only [hshift]

/-- A mantissa that is short enough is left as it is. -/
theorem shiftToTargetExponent_of_lt {m : ℕ} {e : ℤ} (hm : m < 2 ^ 53) (he : -1074 ≤ e) :
    shiftToTargetExponent Format.binary64 m e .exact = (⟨m, false, false⟩, e) := by
  have hlog : m.log2 ≤ 52 := by
    by_cases hzero : m = 0
    · simp [hzero]
    · have := (Nat.log2_lt hzero).2 hm
      omega
  rw [shiftToTargetExponent_exact (k := 0) (by omega), Int.natCast_zero, add_zero]
  rfl

/-- A mantissa that has become one bit too long is shortened by it. -/
theorem shiftToTargetExponent_two_pow {e : ℤ} (he : -1074 ≤ e) :
    shiftToTargetExponent Format.binary64 (2 ^ 53) e .exact = (⟨2 ^ 52, false, false⟩, e + 1) := by
  rw [shiftToTargetExponent_exact (k := 1) (by rw [Nat.log2_two_pow]; omega)]
  rfl

section Rounding

variable {m k : ℕ} {e : ℤ}

/-- Rounding cuts the mantissa down to 53 bits, and once more if it has become too long by it. -/
theorem roundWithAccuracy_eq (hk : m.log2 = k + 52) (hlow : -1074 ≤ e + k) :
    (∃ h, cut m k < 2 ^ 53 ∧ roundWithAccuracy Format.binary64 .positive m e .exact =
        .finite .positive (cut m k) (e + k) h) ∨
      ∃ h, cut m k = 2 ^ 53 ∧ roundWithAccuracy Format.binary64 .positive m e .exact =
        .finite .positive (2 ^ 52) (e + k + 1) h := by
  have hm : m ≠ 0 := by
    rintro rfl
    simp at hk
  have hfirst := shiftToTargetExponent_exact (m := m) (k := k) (e := e) (by omega)
  have hleast : 2 ^ 52 ≤ m / 2 ^ k := by
    rw [Nat.le_div_iff_mul_le (by positivity), ← pow_add, ← Nat.le_log2 hm]
    omega
  have hmost : m / 2 ^ k < 2 ^ 53 := by
    rw [Nat.div_lt_iff_lt_mul (by positivity), ← pow_add, ← Nat.log2_lt hm]
    omega
  have hcut : cut m k ≤ m / 2 ^ k + 1 := cut_le m k
  have hnormal : 2 ^ 52 ≤ cut m k := hleast.trans (div_le_cut m k)
  have hround : roundWithAccuracy Format.binary64 .positive m e .exact =
      let done := shiftToTargetExponent Format.binary64 (cut m k) (e + k) .exact
      if h : done.1.mantissa = 0 then .zero .positive
      else .finite .positive done.1.mantissa done.2 (Nat.pos_of_ne_zero h) := by
    rw [roundWithAccuracy, hfirst]
    rfl
  rcases Nat.lt_or_ge (cut m k) (2 ^ 53) with hshort | hcarry
  · refine Or.inl ⟨by omega, hshort, ?_⟩
    rw [hround, shiftToTargetExponent_of_lt hshort hlow]
    exact dif_neg (by dsimp only; omega)
  · have hcarry : cut m k = 2 ^ 53 := by omega
    refine Or.inr ⟨by decide, hcarry, ?_⟩
    rw [hround, hcarry, shiftToTargetExponent_two_pow hlow]
    exact dif_neg (show ¬(2 ^ 52 : ℕ) = 0 by decide)

/-- Half of what is cut off is no more than one part in `2 ^ 53`. -/
theorem half_le_div (hk : m.log2 = k + 52) : 2 ^ k / 2 ≤ m / 2 ^ 53 := by
  have hm : m ≠ 0 := by
    rintro rfl
    simp at hk
  cases k with
  | zero => exact Nat.zero_le _
  | succ k =>
      rw [pow_succ, Nat.mul_div_cancel _ (by decide), Nat.le_div_iff_mul_le (by decide), ← pow_add]
      rw [← Nat.le_log2 hm, hk]

theorem cut_mul_zpow (c k : ℕ) (e : ℤ) : (c : ℚ) * 2 ^ (e + k) = (c * 2 ^ k : ℕ) * 2 ^ e := by
  push_cast
  rw [zpow_add₀ (by norm_num), zpow_natCast]
  ring

/-- A number below the limit has an exponent that is not too large. -/
theorem exponent_le_of_lt_limit {c : ℕ} (hc : 2 ^ 52 ≤ c) (h : (c : ℚ) * 2 ^ e < limit) : e ≤ 971 := by
  have hbelow : (2 : ℚ) ^ 52 * 2 ^ e < 2 ^ 53 * 2 ^ (971 : ℤ) := by
    calc (2 : ℚ) ^ 52 * 2 ^ e ≤ c * 2 ^ e := by
          gcongr
          exact_mod_cast hc
      _ < limit := h
      _ ≤ 2 ^ 53 * 2 ^ (971 : ℤ) := by
          rw [limit]
          gcongr
          norm_num
  have hpower : (2 : ℚ) ^ e < 2 ^ (972 : ℤ) := by
    rw [show (972 : ℤ) = 971 + 1 from rfl, zpow_add_one₀ (by norm_num)]
    linarith
  have := (zpow_lt_zpow_iff_right₀ (by norm_num)).1 hpower
  omega

/-- If rounding makes the mantissa one bit longer, the exponent can still be raised. -/
theorem exponent_lt_of_carry (hcarry : cut m k = 2 ^ 53) (h : (m : ℚ) * 2 ^ e < limit) :
    e + k < 971 := by
  have hcut : (2 : ℚ) ^ 53 * 2 ^ k ≤ m + 2 ^ k / 2 := by
    have hnat : ((2 ^ 53 * 2 ^ k : ℕ) : ℚ) ≤ (m + 2 ^ k / 2 : ℕ) :=
      Nat.cast_le.2 (hcarry ▸ cut_mul_le m k)
    have hdiv : ((2 ^ k / 2 : ℕ) : ℚ) ≤ (2 ^ k : ℕ) / (2 : ℕ) := Nat.cast_div_le
    push_cast at hnat hdiv
    linarith
  have hbelow : ((2 : ℚ) ^ 53 - 1 / 2) * 2 ^ (e + k) < (2 ^ 53 - 1 / 2) * 2 ^ (971 : ℤ) := by
    calc ((2 : ℚ) ^ 53 - 1 / 2) * 2 ^ (e + k) = (2 ^ 53 * 2 ^ k - 2 ^ k / 2) * 2 ^ e := by
          rw [zpow_add₀ (by norm_num), zpow_natCast]
          ring
      _ ≤ (m : ℚ) * 2 ^ e := by
          gcongr
          linarith
      _ < limit := h
  exact (zpow_lt_zpow_iff_right₀ (by norm_num)).1 (lt_of_mul_lt_mul_left hbelow (by norm_num))

/-- **What a number is rounded to.** It is normal, its exponent is the one that fits its size, and it
exceeds the exact number by at most one part in `2 ^ 53`, rounded down. -/
theorem isNormal_round (hk : m.log2 = k + 52) (hlow : -1074 ≤ e + k)
    (hlimit : (m : ℚ) * 2 ^ e < limit) :
    IsNormal (e + k) ((m + m / 2 ^ 53 : ℕ) * 2 ^ e)
      (roundWithAccuracy Format.binary64 .positive m e .exact) := by
  have hsize : (cut m k : ℚ) * 2 ^ (e + k) ≤ (m + m / 2 ^ 53 : ℕ) * 2 ^ e := by
    rw [cut_mul_zpow]
    gcongr
    exact (cut_mul_le m k).trans (Nat.add_le_add_left (half_le_div hk) m)
  rcases roundWithAccuracy_eq hk hlow with ⟨hpos, hshort, heq⟩ | ⟨hpos, hcarry, heq⟩
  · have hdigits : 2 ^ 52 * 2 ^ k ≤ m := by
      rw [← pow_add, ← Nat.le_log2 (by rintro rfl; simp at hk)]
      omega
    have hnormal : 2 ^ 52 ≤ cut m k :=
      ((Nat.le_div_iff_mul_le (by positivity)).2 hdigits).trans (div_le_cut m k)
    have hlast : e + k ≤ 971 := by
      refine exponent_le_of_lt_limit (le_refl (2 ^ 52)) (lt_of_le_of_lt ?_ hlimit)
      rw [cut_mul_zpow]
      gcongr
    exact ⟨_, _, hpos, heq, hnormal, hshort, le_refl _, hlast, hsize⟩
  · have hlast := exponent_lt_of_carry hcarry hlimit
    refine ⟨_, _, hpos, heq, le_refl _, by decide, by omega, by omega, ?_⟩
    rw [hcarry] at hsize
    calc ((2 ^ 52 : ℕ) : ℚ) * 2 ^ (e + k + 1) = (2 ^ 53 : ℕ) * 2 ^ (e + k) := by
          rw [zpow_add_one₀ (by norm_num)]
          push_cast
          ring
      _ ≤ (m + m / 2 ^ 53 : ℕ) * 2 ^ e := hsize

/-- In short: a number grows by at most one part in `2 ^ 53`. -/
theorem isNormal_round_growth (hk : m.log2 = k + 52) (hlow : -1074 ≤ e + k) {size : ℚ}
    (hsize : (m : ℚ) * 2 ^ e ≤ size) (hlimit : size < limit) :
    IsNormal (e + k) (size * growth) (roundWithAccuracy Format.binary64 .positive m e .exact) := by
  refine (isNormal_round hk hlow (hsize.trans_lt hlimit)).mono (le_refl _) ?_
  have hdiv : ((m / 2 ^ 53 : ℕ) : ℚ) ≤ (m : ℚ) / (2 ^ 53 : ℕ) := Nat.cast_div_le
  calc ((m + m / 2 ^ 53 : ℕ) : ℚ) * 2 ^ e ≤ (m + m / (2 ^ 53 : ℕ)) * 2 ^ e := by
        rw [Nat.cast_add]
        gcongr
    _ = m * 2 ^ e * growth := by
        rw [growth]
        push_cast
        ring
    _ ≤ size * growth := by
        gcongr
        rw [growth]
        positivity

end Rounding

/-! ### Products -/

/-- **A product of normal numbers** is rounded to a normal number. -/
theorem IsNormal.mul {low low' : ℤ} {size size' : ℚ} {u u' : UnpackedFloat}
    (h : IsNormal low size u) (h' : IsNormal low' size' u') (hlow : -1126 ≤ low + low')
    (hlimit : size * size' < limit) :
    IsNormal (low + low' + 52) (size * size' * growth) (u.mul Format.binary64 u') := by
  obtain ⟨m, e, hm, rfl, hleast, -, he, -, hsize⟩ := h
  obtain ⟨m', e', hm', rfl, hleast', -, he', -, hsize'⟩ := h'
  have hproduct : 2 ^ 104 ≤ m * m' := by
    calc 2 ^ 104 = 2 ^ 52 * 2 ^ 52 := by norm_num
      _ ≤ m * m' := Nat.mul_le_mul hleast hleast'
  obtain ⟨k, hk⟩ : ∃ k, (m * m').log2 = k + 52 := by
    have := (Nat.le_log2 (by positivity)).2 hproduct
    exact ⟨(m * m').log2 - 52, by omega⟩
  have hlong : 104 ≤ k + 52 := hk ▸ (Nat.le_log2 (by positivity)).2 hproduct
  refine (isNormal_round_growth hk (by omega) ?_ hlimit).mono (by omega) (le_refl _)
  calc ((m * m' : ℕ) : ℚ) * 2 ^ (e + e') = m * 2 ^ e * (m' * 2 ^ e') := by
        rw [zpow_add₀ (by norm_num)]
        push_cast
        ring
    _ ≤ size * size' := by
        gcongr
        exact le_trans (by positivity) hsize

/-! ### Storing -/

theorem unpackSign_packComponents (s : UnpackedFloat.Sign) (e : BitVec 11) (k : BitVec 52) :
    UnpackedFloat.unpackSign (UnpackedFloat.packComponents Format.binary64 s e k) = s.toBitVec := by
  change (s.toBitVec ++ e ++ k).extractLsb' 63 1 = s.toBitVec
  rw [BitVec.extractLsb'_append_eq_of_le (by decide), BitVec.extractLsb'_append_eq_of_le (by decide)]
  exact BitVec.extractLsb'_eq_self

/-- **A normal number is what is stored for it.** -/
theorem IsNormal.unpack_pack {low : ℤ} {size : ℚ} {u : UnpackedFloat} (h : IsNormal low size u)
    (hlow : -1074 ≤ low) : (Float.Model.pack u).unpack = u := by
  obtain ⟨m, e, hm, rfl, hleast, hmost, he, hlast, -⟩ := h
  have hlog : m.log2 = 52 := (Nat.log2_eq_iff (by omega)).2 ⟨hleast, hmost⟩
  obtain ⟨field, hfield⟩ : ∃ field : ℕ, e + 1075 = field := ⟨(e + 1075).toNat, by omega⟩
  have hpack : UnpackedFloat.pack Format.binary64 (.finite .positive m e hm) =
      UnpackedFloat.packComponents Format.binary64 .positive (BitVec.ofNat 11 field)
        (BitVec.ofNat 52 m) := by
    have hbiased : (e + (Format.binary64.exponentBias : ℕ) +
        (Format.binary64.mantissaBitsWithoutImplicit : ℕ)).toNat = field := by
      change (e + 1023 + 52).toNat = field
      omega
    rw [UnpackedFloat.pack]
    dsimp only
    rw [hbiased, if_neg (show ¬2 ^ 11 ≤ field + 1 by omega), if_pos (by rw [hlog]; rfl)]
  have hexponent : (BitVec.ofNat 11 field).toNat = field := by
    rw [BitVec.toNat_ofNat]
    omega
  have hmantissa : (1#1 ++ BitVec.ofNat 52 m).toNat = m := by
    have hlead : (1#1).toNat <<< 52 = 2 ^ 52 := rfl
    have hrest : (BitVec.ofNat 52 m).toNat = m % 2 ^ 52 := BitVec.toNat_ofNat _ _
    rw [BitVec.toNat_append, hrest, ← Nat.shiftLeft_add_eq_or_of_lt (Nat.mod_lt _ (by positivity)),
      hlead]
    omega
  change UnpackedFloat.unpack Format.binary64 (UnpackedFloat.pack Format.binary64 _) = _
  rw [hpack, UnpackedFloat.unpack]
  simp only [UnpackedFloat.unpackExponent_packComponents,
    UnpackedFloat.unpackMantissa_packComponents, unpackSign_packComponents]
  have hspecial : BitVec.ofNat 11 field ≠ -1#11 := fun heq => by
    have hnat := congrArg BitVec.toNat heq
    rw [hexponent] at hnat
    change field = 2047 at hnat
    omega
  have hsubnormal : BitVec.ofNat 11 field ≠ 0#11 := fun heq => by
    have hnat := congrArg BitVec.toNat heq
    rw [hexponent] at hnat
    change field = 0 at hnat
    omega
  have hback : ((field : ℕ) : ℤ) - (1023 + 52) = e := by omega
  rw [if_neg hspecial, if_neg hsubnormal]
  simp only [hmantissa, hexponent]
  congr 1

theorem IsNormal.stored {low : ℤ} {size : ℚ} {u : UnpackedFloat} (h : IsNormal low size u)
    (hlow : -1074 ≤ low) : IsNormal low size (Float.Model.pack u).unpack := by
  rwa [h.unpack_pack hlow]

end Forecast.Decimal
