import Forecast.Proofs.Decimal.Quotients

/-!
# What Keeps Numbers Finite

Two ways in which a number is made that cannot make it infinite. It may be compared: whatever lies
between zero and a finite number is finite (`isFinite_of_between`). And it may be multiplied by one
(`isFinite_mul_one`). The exact product has 52 bits more, but all of them are zero, so that rounding
cuts off nothing else (`roundWithAccuracy_of_dvd`). It does not help here that rounding exceeds the
exact number by little, since the largest number of all would not stay finite if it grew at all.

## Main results

* `isFinite_of_between`: what a finite number bounds.
* `isFinite_mul_one`: what one multiplies.
-/

namespace Forecast.Decimal

open Float.Model (UnpackedFloat Format totalExponent)
open Float.Model.UnpackedFloat (ExtendedMantissa shiftToTargetExponent roundWithAccuracy)

/-! ### Comparing -/

/-- A comparison of numbers is one of what is stored for them. -/
theorem le_unpack {x y : Float} (h : x ≤ y) : x.toModel.unpack.le y.toModel.unpack = true :=
  of_decide_eq_true h

/-- **What lies between zero and a finite number is finite.** -/
theorem isFinite_of_between {x y : Float} (hlow : 0 ≤ x) (hhigh : x ≤ y) (hy : y.isFinite = true) :
    x.isFinite = true := by
  have hlow := le_unpack hlow
  have hhigh := le_unpack hhigh
  have hzero : (0 : Float).toModel.unpack = .zero .positive := by rfl
  rw [hzero] at hlow
  change y.toModel.unpack.isFinite = true at hy
  change x.toModel.unpack.isFinite = true
  generalize x.toModel.unpack = u at *
  generalize y.toModel.unpack = v at *
  cases u with
  | zero s => rfl
  | finite s m e hm => rfl
  | notANumber => exact absurd hlow Bool.false_ne_true
  | infinity s =>
      cases s with
      | negative => exact absurd hlow Bool.false_ne_true
      | positive =>
          cases v with
          | zero s => exact absurd hhigh Bool.false_ne_true
          | finite s m e hm => exact absurd hhigh Bool.false_ne_true
          | infinity s => cases hy
          | notANumber => cases hy

/-! ### Rounding what fits -/

/-- Bits that are zero are cut off without rounding. -/
theorem cut_of_dvd {m k : ℕ} (h : 2 ^ k ∣ m) : cut m k = m / 2 ^ k := by
  obtain ⟨n, rfl⟩ := h
  have hpos : 0 < 2 ^ k := by positivity
  have hleast := div_le_cut (2 ^ k * n) k
  rw [Nat.mul_div_cancel_left _ hpos] at hleast ⊢
  have hmost : cut (2 ^ k * n) k * 2 ^ k < (n + 1) * 2 ^ k := by
    have hhalf := cut_mul_le (2 ^ k * n) k
    have hless := Nat.div_lt_self hpos (show 1 < 2 by decide)
    rw [Nat.add_mul, Nat.mul_comm n]
    omega
  have := Nat.lt_of_mul_lt_mul_right hmost
  omega

/-- **A number whose digits fit is not rounded.** -/
theorem roundWithAccuracy_of_dvd (s : UnpackedFloat.Sign) {m k : ℕ} {e : ℤ} (hm : m ≠ 0)
    (hk : (k : ℤ) = max 0 (max (m.log2 + e - 52) (-1074) - e)) (hdvd : 2 ^ k ∣ m) :
    ∃ h, roundWithAccuracy Format.binary64 s m e .exact = .finite s (m / 2 ^ k) (e + k) h := by
  have hpos : 0 < m / 2 ^ k :=
    Nat.div_pos (Nat.le_of_dvd (Nat.pos_of_ne_zero hm) hdvd) (by positivity)
  have hlog := log2_div_two_pow (Nat.pos_iff_ne_zero.1 hpos)
  have hfirst := shiftToTargetExponent_exact hk
  have hrounded : (ExtendedMantissa.ofMantissaAndAccuracy m .exact >>> k).roundedMantissa =
      m / 2 ^ k := cut_of_dvd hdvd
  -- the shortened mantissa has its exponent already
  have hsecond : shiftToTargetExponent Format.binary64 (m / 2 ^ k) (e + k) .exact =
      (⟨m / 2 ^ k, false, false⟩, e + k) := by
    rw [shiftToTargetExponent_exact (k := 0) (by omega), Int.natCast_zero, add_zero]
    rfl
  refine ⟨hpos, ?_⟩
  rw [roundWithAccuracy, hfirst]
  dsimp only
  rw [hrounded, hsecond]
  exact dif_neg (Nat.pos_iff_ne_zero.1 hpos)

/-! ### Multiplying by one -/

/-- The mantissa of a stored number has at most 53 bits, and its exponent is not too small. -/
theorem unpack_bounds {x : Float} {s : UnpackedFloat.Sign} {m : ℕ} {e : ℤ} {hm : 0 < m}
    (h : x.toModel.unpack = .finite s m e hm) : m < 2 ^ 53 ∧ -1074 ≤ e := by
  change UnpackedFloat.unpack Format.binary64 x.toBits.toBitVec = _ at h
  have hfraction : (@UnpackedFloat.unpackMantissa Format.binary64 x.toBits.toBitVec).toNat < 2 ^ 52 :=
    BitVec.isLt _
  have hdigits : (1#1 ++ @UnpackedFloat.unpackMantissa Format.binary64 x.toBits.toBitVec).toNat <
      2 ^ 53 := BitVec.isLt _
  have hbias : (Format.binary64.exponentBias : ℤ) +
      (Format.binary64.mantissaBitsWithoutImplicit : ℤ) = 1075 := rfl
  rw [UnpackedFloat.unpack] at h
  dsimp only at h
  split at h
  · split at h <;> cases h
  split at h
  next hsubnormal =>
    split at h
    · cases h
    · cases h
      refine ⟨by omega, ?_⟩
      rw [hsubnormal, hbias]
      decide
  next hnormal =>
    cases h
    have hpos : (@UnpackedFloat.unpackExponent Format.binary64 x.toBits.toBitVec).toNat ≠ 0 :=
      fun hzero => hnormal (BitVec.eq_of_toNat_eq hzero)
    rw [hbias]
    exact ⟨hdigits, by omega⟩

/-- **A finite number stays finite when it is multiplied by one.** -/
theorem isFinite_mul_one {x : Float} (h : x.isFinite = true) : (x * 1).isFinite = true := by
  have hbelow := isBelow_of_isFinite h
  have hone : (1 : Float).toModel.unpack = .finite .positive (2 ^ 52) (-52) (by decide) := by rfl
  have hproduct : IsBelow 1024 (UnpackedFloat.mul Format.binary64 x.toModel.unpack
      (1 : Float).toModel.unpack) := by
    rw [hone]
    cases hu : x.toModel.unpack with
    | infinity s => exact (hu ▸ hbelow : IsBelow 1024 (.infinity s)).elim
    | notANumber => exact (hu ▸ hbelow : IsBelow 1024 .notANumber).elim
    | zero s => trivial
    | finite s m e hm =>
        rw [hu] at hbelow
        obtain ⟨htotal, hlast⟩ := hbelow
        obtain ⟨hshort, hlow⟩ := unpack_bounds hu
        have hm := Nat.pos_iff_ne_zero.1 hm
        have hdigits : m.log2 < 53 := (Nat.log2_lt hm).2 hshort
        have hlog : (m * 2 ^ 52).log2 = m.log2 + 52 := by
          rw [← Nat.shiftLeft_eq, log2_shiftLeft hm]
        obtain ⟨k, hk⟩ : ∃ k : ℕ, (k : ℤ) =
            max 0 (max ((m * 2 ^ 52).log2 + (e + -52) - 52) (-1074) - (e + -52)) :=
          ⟨_, Int.toNat_of_nonneg (le_max_left _ _)⟩
        have hdvd : 2 ^ k ∣ m * 2 ^ 52 := Dvd.dvd.mul_left (Nat.pow_dvd_pow 2 (by omega)) m
        obtain ⟨hpos, hround⟩ :=
          roundWithAccuracy_of_dvd (s * .positive) (by positivity) hk hdvd
        have hbits := log2_div_two_pow (Nat.pos_iff_ne_zero.1 hpos)
        rw [UnpackedFloat.mul, hround]
        rw [totalExponent] at htotal
        refine ⟨?_, by omega⟩
        rw [totalExponent]
        omega
  exact (hproduct.stored (by decide)).isFinite

end Forecast.Decimal
