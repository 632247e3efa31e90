import Forecast.Proofs.Decimal.Rounding

/-!
# Decimals as Binary Numbers

A whole number times a power of ten is made a binary number in one of two ways. If both fit binary
numbers, the powers of ten are looked up in a table, and the product is rounded. Otherwise the exact
product is rounded. Both ways the number grows by rounding at most once (`isNormal_scientific`).

## Main results

* `isNormal_scientific`: what a whole number times a power of ten is as a binary number.
* `isInf_mul_scientific`: when the product of two such numbers is not infinite.
-/

namespace Forecast.Decimal

open Float.Model (UnpackedFloat Format totalExponent)
open Float.Model.UnpackedFloat (roundWithAccuracy)

variable {n e : ℕ}

/-! ### Whole numbers -/

theorem log2_shiftLeft (hn : n ≠ 0) (s : ℕ) : (n <<< s).log2 = n.log2 + s := by
  induction s with
  | zero => rfl
  | succ s ih =>
      have hne : n <<< s ≠ 0 := by
        rw [Nat.shiftLeft_eq]
        positivity
      rw [Nat.shiftLeft_succ, Nat.log2_two_mul hne, ih]
      rfl

/-- **A whole number that fits the mantissa** is a binary number. -/
theorem isNormal_ofNat (hn : n ≠ 0) (hshort : n < 2 ^ 53) :
    IsNormal (-52) n (UnpackedFloat.ofNat Format.binary64 n) := by
  have hlog : n.log2 < 53 := (Nat.log2_lt hn).2 hshort
  obtain ⟨s, hs⟩ : ∃ s, n.log2 + s = 52 := ⟨52 - n.log2, by omega⟩
  have hlong : (n <<< s).log2 = 0 + 52 := by rw [log2_shiftLeft hn, hs]
  have hround : UnpackedFloat.ofNat Format.binary64 n =
      roundWithAccuracy Format.binary64 .positive (n <<< s) (-s) .exact := by
    have hpositive : compare (n : ℤ) 0 = .gt := compare_gt_iff_gt.2 (by omega)
    have hshift : (-Format.binary64.targetExponent (totalExponent n 0)).toNat = s := by
      rw [targetExponent_eq]
      omega
    rw [UnpackedFloat.ofNat, UnpackedFloat.ofInt, UnpackedFloat.normalize, hpositive]
    simp only [UnpackedFloat.round, UnpackedFloat.decreaseExponent, Int.toNat_natCast, zero_sub,
      hshift]
  have hexact : ((n <<< s : ℕ) : ℚ) * 2 ^ (-s : ℤ) = n := by
    rw [Nat.shiftLeft_eq, zpow_neg, zpow_natCast]
    push_cast
    rw [mul_assoc, mul_inv_cancel₀ (by positivity), mul_one]
  have hlimit : (n : ℚ) < limit := by
    calc (n : ℚ) < (2 ^ 53 : ℕ) := Nat.cast_lt.2 hshort
      _ ≤ limit := two_pow_le_limit
  have hne : n <<< s ≠ 0 := by
    intro hzero
    rw [hzero] at hlong
    cases hlong
  have hrest : (n <<< s) / 2 ^ 53 = 0 := Nat.div_eq_of_lt ((Nat.log2_lt hne).1 (by omega))
  rw [hround]
  refine (isNormal_round hlong (by omega) (by rwa [hexact])).mono (by omega) ?_
  rw [hrest, add_zero, hexact]

/-- **A whole number times a power of ten** is rounded once. -/
theorem isNormal_ofScientific (hn : n ≠ 0) (he : e ≤ 2048) (hlimit : (n : ℚ) * 10 ^ e < limit) :
    IsNormal (-52) (n * 10 ^ e * growth) (UnpackedFloat.ofScientific Format.binary64 n e) := by
  have hround : UnpackedFloat.ofScientific Format.binary64 n e =
      roundWithAccuracy Format.binary64 .positive ((n <<< 53) * 10 ^ e) (-53) .exact := by
    rw [UnpackedFloat.ofScientific, dif_neg hn, if_neg (show ¬(e : ℤ) > 2 ^ 11 by omega),
      if_neg (show ¬(e : ℤ) < -(2 ^ 11 + n.log2) by omega), if_pos (Int.natCast_nonneg e)]
    rfl
  have hlarge : 2 ^ 53 ≤ (n <<< 53) * 10 ^ e := by
    rw [Nat.shiftLeft_eq, mul_right_comm]
    exact Nat.le_mul_of_pos_left _ (by positivity)
  obtain ⟨k, hk⟩ : ∃ k, ((n <<< 53) * 10 ^ e).log2 = k + 52 := by
    have := (Nat.le_log2 (by omega)).2 hlarge
    exact ⟨_, (Nat.sub_add_cancel (by omega : 52 ≤ _)).symm⟩
  have hleast : 53 ≤ k + 52 := hk ▸ (Nat.le_log2 (by omega)).2 hlarge
  have hexact : (((n <<< 53) * 10 ^ e : ℕ) : ℚ) * 2 ^ (-53 : ℤ) = n * 10 ^ e := by
    have hcancel : (2 : ℚ) ^ 53 * 2 ^ (-53 : ℤ) = 1 := by norm_num
    calc (((n <<< 53) * 10 ^ e : ℕ) : ℚ) * 2 ^ (-53 : ℤ)
        = (n : ℚ) * 10 ^ e * ((2 : ℚ) ^ 53 * 2 ^ (-53 : ℤ)) := by
          rw [Nat.shiftLeft_eq, Nat.cast_mul, Nat.cast_mul, Nat.cast_pow, Nat.cast_pow]
          push_cast
          ring
      _ = n * 10 ^ e := by rw [hcancel, mul_one]
  rw [hround]
  exact (isNormal_round_growth hk (by omega) hexact.le hlimit).mono (by omega) (le_refl _)

/-- Whether a binary number is normal, has an exponent of at least -52, and is at most a power of
ten. -/
def fitsPower (e : ℕ) : UnpackedFloat → Bool
  | .finite .positive m q _ =>
    2 ^ 52 ≤ m && m < 2 ^ 53 && -52 ≤ q && q ≤ 971 && m * 2 ^ (q + 52).toNat ≤ 10 ^ e * 2 ^ 52
  | _ => false

theorem isNormal_of_fitsPower {u : UnpackedFloat} (h : fitsPower e u = true) :
    IsNormal (-52) (10 ^ e) u := by
  unfold fitsPower at h
  split at h
  · next m q hm =>
      simp only [Bool.and_eq_true, decide_eq_true_eq] at h
      obtain ⟨⟨⟨⟨hleast, hmost⟩, hlow⟩, hlast⟩, hsize⟩ := h
      refine ⟨m, q, hm, rfl, hleast, hmost, hlow, hlast, ?_⟩
      obtain ⟨j, hj⟩ : ∃ j : ℕ, q + 52 = j := ⟨(q + 52).toNat, by omega⟩
      rw [hj, Int.toNat_natCast] at hsize
      have hsize' : (m : ℚ) * 2 ^ j ≤ 10 ^ e * 2 ^ 52 := by exact_mod_cast hsize
      have hpower : (2 : ℚ) ^ q * 2 ^ 52 = 2 ^ j := by
        rw [← zpow_natCast 2 j, ← hj, zpow_add₀ (by norm_num)]
        rfl
      rw [← hpower, ← mul_assoc] at hsize'
      exact le_of_mul_le_mul_right hsize' (by positivity)
  · cases h

theorem fitsPower_table : ∀ i : Fin Float.exactlyRepresentablePowersOfTen.size,
    fitsPower i Float.exactlyRepresentablePowersOfTen[i].toModel.unpack = true := by
  decide +kernel

/-- The powers of ten in the table are what they stand for. -/
theorem isNormal_table (he : e < Float.exactlyRepresentablePowersOfTen.size) :
    IsNormal (-52) (10 ^ e) Float.exactlyRepresentablePowersOfTen[e].toModel.unpack :=
  isNormal_of_fitsPower (fitsPower_table ⟨e, he⟩)

/-! ### Both ways -/

/-- **A whole number times a power of ten,** as a binary number. -/
theorem isNormal_scientific (hn : n ≠ 0) (he : e ≤ 2048) (hlimit : (n : ℚ) * 10 ^ e < limit) :
    IsNormal (-52) (n * 10 ^ e * growth) (Float.ofScientific n false e).toModel.unpack := by
  rw [Float.ofScientific]
  split
  · next hsmall =>
      have hword : n.toUInt64.toNat = n := Nat.mod_eq_of_lt (by omega)
      have hwhole : IsNormal (-52) n n.toUInt64.toFloat.toModel.unpack := by
        have hvalue : n.toUInt64.toFloat.toModel =
            .pack (UnpackedFloat.ofNat Format.binary64 n.toUInt64.toNat) := rfl
        rw [hvalue, hword]
        exact (isNormal_ofNat hn hsmall.1).stored (by decide)
      have hpower := isNormal_table (show e < 23 by omega)
      have hproduct : IsNormal (-52) (n * 10 ^ e * growth) _ := hwhole.mul hpower (by decide) hlimit
      exact hproduct.stored (by decide)
  · exact (isNormal_ofScientific hn he hlimit).stored (by decide)

/-- **A product of two such numbers is not infinite** if it stays below the limit though each has been
rounded. -/
theorem isInf_mul_scientific {n' e' : ℕ} (hn : n ≠ 0) (hn' : n' ≠ 0) (he : e ≤ 2048) (he' : e' ≤ 2048)
    (hlimit : (n : ℚ) * 10 ^ e * growth * (n' * 10 ^ e' * growth) < limit) :
    (Float.ofScientific n false e * Float.ofScientific n' false e').isInf = false := by
  have hone {k i : ℕ} (hk : k ≠ 0) : 1 ≤ (k : ℚ) * 10 ^ i * growth := by
    have hwhole : ((1 : ℕ) : ℚ) ≤ (k * 10 ^ i : ℕ) :=
      Nat.cast_le.2 (Nat.one_le_iff_ne_zero.2 (by positivity))
    push_cast at hwhole
    exact one_le_mul_of_one_le_of_one_le hwhole one_le_growth
  have hnonneg {k i : ℕ} : 0 ≤ (k : ℚ) * 10 ^ i := by positivity
  have hleft : (n : ℚ) * 10 ^ e < limit := by
    calc (n : ℚ) * 10 ^ e ≤ n * 10 ^ e * growth := le_mul_of_one_le_right hnonneg one_le_growth
      _ ≤ n * 10 ^ e * growth * (n' * 10 ^ e' * growth) :=
          le_mul_of_one_le_right (zero_le_one.trans (hone hn)) (hone hn')
      _ < limit := hlimit
  have hright : (n' : ℚ) * 10 ^ e' < limit := by
    calc (n' : ℚ) * 10 ^ e' ≤ n' * 10 ^ e' * growth := le_mul_of_one_le_right hnonneg one_le_growth
      _ ≤ n * 10 ^ e * growth * (n' * 10 ^ e' * growth) :=
          le_mul_of_one_le_left (zero_le_one.trans (hone hn')) (hone hn)
      _ < limit := hlimit
  have hproduct := (isNormal_scientific hn he hleft).mul (isNormal_scientific hn' he' hright)
    (by decide) hlimit
  exact (hproduct.stored (by decide)).isInf_eq_false

end Forecast.Decimal
