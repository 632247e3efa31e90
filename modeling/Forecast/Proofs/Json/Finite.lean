import Forecast.Proofs.Decimal.Quotients
import Forecast.Proofs.Json.Range
import Forecast.Proofs.Prediction.Numbers

/-!
# What is Read is Finite

Every number that the reader of documents reads is finite. Where it multiplies by a power of ten it
looks at the product and refuses one that is infinite. Where it divides it does not look, and need not:
the significand fits a word, and each of the few divisions is by one at least.

## Main results

* `isFinite_binary`: a number that is read is finite.
-/

namespace Forecast.Json

open Decimal (IsBelow IsNormal tenTo limit growth one_le_growth)

/-- The significand fits a word. -/
theorem absorb_le {s : ℕ} (hs : s ≤ maxUnsigned) (cs : List Char) : (absorb s cs).1 ≤ maxUnsigned := by
  induction cs generalizing s with
  | nil => exact hs
  | cons c cs ih =>
      rw [absorb]
      split
      · exact hs
      · exact ih (by omega)

/-- What is far enough from the limit is below it. -/
theorem natCast_lt_limit {n : ℕ} (h : n ≤ tenTo 308) : (n : ℚ) < limit :=
  calc (n : ℚ) ≤ n * growth := le_mul_of_one_le_right (Nat.cast_nonneg n) one_le_growth
    _ ≤ n * growth * growth :=
        le_mul_of_one_le_right (mul_nonneg (Nat.cast_nonneg n) (zero_le_one.trans one_le_growth))
          one_le_growth
    _ < limit := lt_limit_of_le (h.trans (by decide +kernel))

/-- The powers of ten are normal and at least one. -/
theorem isNormal_powerOfTen {e : ℕ} (he : e ≤ 308) :
    ∃ size, IsNormal (-52) size (powerOfTen e).toModel.unpack := by
  have hlimit := natCast_lt_limit (Decimal.tenTo_le_tenTo he)
  rw [Decimal.cast_tenTo, zpow_natCast] at hlimit
  exact ⟨_, Decimal.isNormal_scientific one_ne_zero (by omega) (by rwa [Nat.cast_one, one_mul])⟩

theorem isFinite_powerOfTen {e : ℕ} (he : e ≤ 308) : (powerOfTen e).isFinite = true := by
  obtain ⟨size, m, k, hm, hunpack, -⟩ := isNormal_powerOfTen he
  change (powerOfTen e).toModel.unpack.isFinite = true
  rw [hunpack]
  rfl

/-- A significand is below a power of two. -/
theorem isBelow_ofNat {d : ℕ} (h : d ≤ maxUnsigned) : IsBelow 66 (Float.ofNat d).toModel.unpack := by
  rcases Nat.eq_zero_or_pos d with rfl | hd
  · have hzero : (Float.ofNat 0).toModel.unpack = .zero .positive := by rfl
    rw [hzero]
    trivial
  · have hsize : (d : ℚ) * 10 ^ 0 * growth < 2 ^ (66 : ℤ) := by
      have hword : (d : ℚ) ≤ (maxUnsigned : ℕ) := Nat.cast_le.2 h
      calc (d : ℚ) * 10 ^ 0 * growth ≤ (maxUnsigned : ℕ) * growth := by
            rw [pow_zero, mul_one]
            exact mul_le_mul_of_nonneg_right hword (zero_le_one.trans one_le_growth)
        _ < 2 ^ (66 : ℤ) := by
            rw [growth, maxUnsigned]
            norm_num
    have hlimit : (d : ℚ) * 10 ^ 0 < limit := by
      rw [pow_zero, mul_one]
      exact natCast_lt_limit (h.trans (by decide +kernel))
    exact (Decimal.isNormal_scientific (Nat.pos_iff_ne_zero.1 hd) (by decide) hlimit).isBelow hsize

/-- A number that is not infinite is finite. -/
theorem isFinite_of_isNumber {x : Float} (h : IsNumber x) (hinf : x.isInf = false) :
    x.isFinite = true := by
  have hnan : x.isNaN = false := by
    rw [Float.isNaN_eq_decide_eq_nan, decide_eq_false_iff_not]
    exact Float.beq_self_iff.1 h
  change x.toModel.unpack.isFinite = true
  change x.toModel.unpack.isNaN = false at hnan
  change x.toModel.unpack.isInf = false at hinf
  generalize x.toModel.unpack = u at *
  cases u with
  | infinity => cases hinf
  | notANumber => cases hnan
  | zero => rfl
  | finite => rfl

/-- Dividing by a power of ten leaves a number below a power of two. -/
theorem isBelow_div {x : Float} {top : ℤ} (h : IsBelow top x.toModel.unpack) (hlow : 0 ≤ top)
    (hhigh : top ≤ 969) {e : ℕ} (he : e ≤ 308) :
    IsBelow (top + 1) (x / powerOfTen e).toModel.unpack := by
  obtain ⟨size, hpower⟩ := isNormal_powerOfTen he
  have hquotient := (h.div hpower (by omega) (by omega)).stored (by omega)
  exact hquotient.mono (by omega)

/-- A number that is scaled once is finite. -/
theorem isFinite_scaled {x y : Float} {e top : ℤ} (h : IsBelow top x.toModel.unpack) (hlow : 0 ≤ top)
    (hhigh : top ≤ 969) (he : e.natAbs ≤ 308)
    (hscaled : (if 0 ≤ e then if (x * powerOfTen e.toNat).isInf then none
      else some (x * powerOfTen e.toNat) else some (x / powerOfTen e.natAbs)) = some y) :
    y.isFinite = true := by
  split at hscaled
  · split at hscaled
    · cases hscaled
    · next hinf =>
        cases hscaled
        exact isFinite_of_isNumber (isNumber_mul h.isFinite (isFinite_powerOfTen (by omega)))
          (Bool.eq_false_iff.2 hinf)
  · cases hscaled
    exact (isBelow_div h hlow hhigh he).isFinite

/-- A number that is scaled is finite. -/
theorem isFinite_shiftDecimal {attempts : ℕ} {x y : Float} {e top : ℤ}
    (h : IsBelow top x.toModel.unpack) (hlow : 0 ≤ top) (hhigh : top + attempts ≤ 969)
    (hshift : shiftDecimal attempts x e = some y) : y.isFinite = true := by
  induction attempts generalizing x e top with
  | zero =>
      rw [shiftDecimal] at hshift
      split at hshift
      · next he => exact isFinite_scaled h hlow (by omega) he hshift
      split at hshift
      · cases hshift
        exact h.isFinite
      split at hshift
      · cases hshift
      · cases hshift
        decide +kernel
  | succ attempts ih =>
      rw [shiftDecimal] at hshift
      split at hshift
      · next he => exact isFinite_scaled h hlow (by omega) he hshift
      split at hshift
      · cases hshift
        exact h.isFinite
      split at hshift
      · cases hshift
      · exact ih (isBelow_div h hlow (by omega) (by decide)) (by omega) (by omega) hshift

/-- **A number that is read is finite.** -/
theorem isFinite_binary {n : Numeral} {x : Float} (h : n.binary = some x) : x.isFinite = true := by
  have hsign : ∀ y : Float, y.isFinite = true → (if n.negative then -y else y).isFinite = true := by
    intro y hy
    split
    · exact Decimal.isFinite_neg hy
    · exact hy
  simp only [Numeral.binary, Option.map_eq_some_iff] at h
  obtain ⟨y, hy, rfl⟩ := h
  refine hsign y ?_
  have hword := absorb_le (absorb_le (Nat.zero_le maxUnsigned) n.whole) (n.fraction.getD [])
  rw [magnitude] at hy
  split at hy
  · split at hy
    · cases hy
      decide +kernel
    · cases hy
  split at hy
  · cases hy
    decide +kernel
  · exact isFinite_shiftDecimal (isBelow_ofNat hword) (by decide) (by decide) hy

end Forecast.Json
