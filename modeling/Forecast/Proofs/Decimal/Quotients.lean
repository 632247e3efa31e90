import Forecast.Proofs.Decimal.Scientific

/-!
# Quotients Stay Finite

A finite number divided by one that is not too small is finite. All it takes is the number of bits in
front of the point, the exponent of the number as a whole: dividing takes away about as many as the
divisor has (`IsBelow.div`), and rounding adds one at most (`isBelow_round`). It is not needed how well
a quotient is rounded.

## Main results

* `IsBelow.div`: how large a quotient is.
* `isFinite_neg`: what is finite stays so with the other sign.
-/

namespace Forecast.Decimal

open Float.Model (UnpackedFloat Format totalExponent)
open Float.Model.UnpackedFloat (ExtendedMantissa Accuracy shiftToTargetExponent roundWithAccuracy)

/-- Whether a binary number is finite and below a power of two, and its exponent is in range. -/
def IsBelow (top : ℤ) : UnpackedFloat → Prop
  | .finite _ m e _ => totalExponent m e ≤ top ∧ e ≤ 971
  | .zero _ => True
  | _ => False

theorem IsBelow.mono {top top' : ℤ} {u : UnpackedFloat} (h : IsBelow top u) (htop : top ≤ top') :
    IsBelow top' u := by
  cases u with
  | finite s m e hm => exact ⟨h.1.trans htop, h.2⟩
  | zero s => trivial
  | infinity s => exact h
  | notANumber => exact h

/-- What is below a power of two is finite. -/
theorem IsBelow.isFinite {top : ℤ} {u : UnpackedFloat} (h : IsBelow top u) : u.isFinite = true := by
  cases u with
  | finite s m e hm => rfl
  | zero s => rfl
  | infinity s => exact h.elim
  | notANumber => exact h.elim

/-- A positive normal number that is not large is below a power of two. -/
theorem IsNormal.isBelow {low top : ℤ} {size : ℚ} {u : UnpackedFloat} (h : IsNormal low size u)
    (hsize : size < 2 ^ top) : IsBelow top u := by
  obtain ⟨m, e, hm, rfl, hleast, hmost, -, hlast, hvalue⟩ := h
  have hlog : m.log2 = 52 := (Nat.log2_eq_iff (by omega)).2 ⟨hleast, hmost⟩
  have hpower : (2 : ℚ) ^ (52 + e) < 2 ^ top := by
    calc (2 : ℚ) ^ (52 + e) = (2 ^ 52 : ℕ) * 2 ^ e := by
          rw [zpow_add₀ (by norm_num)]
          norm_num
      _ ≤ m * 2 ^ e := by gcongr
      _ ≤ size := hvalue
      _ < 2 ^ top := hsize
  have hexponent := (zpow_lt_zpow_iff_right₀ (by norm_num)).1 hpower
  refine ⟨?_, hlast⟩
  rw [totalExponent, hlog]
  push_cast
  omega

/-! ### Rounding -/

theorem mantissa_ofMantissaAndAccuracy (m : ℕ) (a : Accuracy) :
    (ExtendedMantissa.ofMantissaAndAccuracy m a).mantissa = m := by
  rcases a with _ | o
  · rfl
  · cases o <;> rfl

/-- Shifting cuts bits off. -/
theorem shiftToTargetExponent_eq (m : ℕ) (e : ℤ) (a : Accuracy) :
    ∃ k : ℕ, (k : ℤ) = max 0 (max (m.log2 + e - 52) (-1074) - e) ∧
      (shiftToTargetExponent Format.binary64 m e a).1.mantissa = m / 2 ^ k ∧
      (shiftToTargetExponent Format.binary64 m e a).2 = e + k := by
  refine ⟨(Format.binary64.targetExponent (totalExponent m e) - e).toNat, ?_, ?_, rfl⟩
  · rw [targetExponent_eq]
    omega
  · rw [shiftToTargetExponent, Float.Model.UnpackedFloat.shiftToExponent]
    dsimp only
    rw [mantissa_shiftRight, mantissa_ofMantissaAndAccuracy]

/-- Bits that are cut off are missing. -/
theorem log2_div_two_pow {m k : ℕ} (h : m / 2 ^ k ≠ 0) : (m / 2 ^ k).log2 + k = m.log2 := by
  have hm : m ≠ 0 := by
    rintro rfl
    exact h (Nat.zero_div _)
  refine ((Nat.log2_eq_iff hm).2 ⟨?_, ?_⟩).symm
  · rw [pow_add, ← Nat.le_div_iff_mul_le (by positivity)]
    exact Nat.log2_self_le h
  · rw [Nat.add_right_comm, pow_add, ← Nat.div_lt_iff_lt_mul (by positivity)]
    exact Nat.lt_log2_self

/-- **Rounding adds one bit at most.** -/
theorem isBelow_round {s : UnpackedFloat.Sign} {m : ℕ} {e top : ℤ} {a : Accuracy}
    (h : totalExponent m e ≤ top) (hlow : -1022 ≤ top) (hhigh : top ≤ 970) :
    IsBelow (top + 1) (roundWithAccuracy Format.binary64 s m e a) := by
  obtain ⟨k, hk, hmantissa, hexponent⟩ := shiftToTargetExponent_eq m e a
  have hrounded :=
    (roundedMantissa_bounds (shiftToTargetExponent Format.binary64 m e a).1).2
  rw [roundWithAccuracy]
  generalize shiftToTargetExponent Format.binary64 m e a = first at *
  obtain ⟨em, e'⟩ := first
  dsimp only at hmantissa hexponent hrounded ⊢
  have hmost : em.roundedMantissa ≤ m / 2 ^ k + 1 := by
    rw [← hmantissa]
    exact hrounded.trans (Nat.add_le_add_left (by split <;> decide) _)
  obtain ⟨k', hk', hmantissa', hexponent'⟩ :=
    shiftToTargetExponent_eq em.roundedMantissa e' .exact
  generalize shiftToTargetExponent Format.binary64 em.roundedMantissa e' .exact = second at *
  obtain ⟨em', e''⟩ := second
  dsimp only at hmantissa' hexponent' ⊢
  split
  · trivial
  next hne =>
    rw [hmantissa'] at hne
    have hlog := log2_div_two_pow hne
    have hnonzero : em.roundedMantissa ≠ 0 := by
      intro hzero
      rw [hzero, Nat.zero_div] at hne
      exact hne rfl
    simp only [IsBelow, totalExponent, hmantissa', hexponent', hexponent] at h ⊢
    -- either bits are left and rounding lengthens them by one at most, or none are and one is put
    have hlength : em.roundedMantissa.log2 + k ≤ m.log2 + 1 ∨ em.roundedMantissa.log2 = 0 ∧
        m.log2 < k := by
      rcases Nat.lt_or_ge m.log2 k with hshort | hlong
      · right
        refine ⟨?_, hshort⟩
        have hzero : m / 2 ^ k = 0 := Nat.div_eq_of_lt
          (Nat.lt_log2_self.trans_le (Nat.pow_le_pow_right (by decide) hshort))
        rw [show em.roundedMantissa = 1 by omega]
        rfl
      · left
        have hbound : m / 2 ^ k < 2 ^ (m.log2 + 1 - k) := by
          rw [Nat.div_lt_iff_lt_mul (by positivity), ← pow_add,
            Nat.sub_add_cancel (hlong.trans (Nat.le_succ _))]
          exact Nat.lt_log2_self
        have hpower : em.roundedMantissa ≤ 2 ^ (m.log2 + 1 - k) := hmost.trans hbound
        have hlt := (Nat.log2_lt hnonzero).2
          (hpower.trans_lt (Nat.pow_lt_pow_right (by decide) (Nat.lt_succ_self _)))
        omega
    omega

/-! ### Storing -/

/-- A mantissa of some bits adds as many to its exponent. -/
theorem totalExponent_le {m k : ℕ} (h : m < 2 ^ (k + 1)) (e : ℤ) :
    totalExponent m e ≤ e + (k + 1) := by
  rw [totalExponent]
  by_cases hm : m = 0
  · rw [hm, show (0 : ℕ).log2 = 0 from rfl]
    push_cast
    omega
  · have := (Nat.log2_lt hm).2 h
    omega

/-- What is stored with an exponent is below what the exponent says. -/
theorem isBelow_unpack {b : BitVec 64} {field : ℕ} (hfield : field < 2047)
    (h : @UnpackedFloat.unpackExponent Format.binary64 b = BitVec.ofNat 11 field) :
    IsBelow (max (field - 1022) (-1022)) (UnpackedFloat.unpack Format.binary64 b) := by
  have hexponent : (BitVec.ofNat 11 field).toNat = field := by
    rw [BitVec.toNat_ofNat]
    omega
  have hspecial : BitVec.ofNat 11 field ≠ -1#11 := fun heq => by
    have hnat := congrArg BitVec.toNat heq
    rw [hexponent] at hnat
    change field = 2047 at hnat
    omega
  rw [UnpackedFloat.unpack]
  simp only [h, if_neg hspecial]
  split
  next hsubnormal =>
    split
    · trivial
    · have hfraction : (@UnpackedFloat.unpackMantissa Format.binary64 b).toNat < 2 ^ 52 := BitVec.isLt _
      have hfirst : field = 0 := by
        rw [← hexponent, hsubnormal]
        rfl
      subst hfirst
      have htotal : totalExponent (@UnpackedFloat.unpackMantissa Format.binary64 b).toNat (-1074) ≤
          -1022 := (totalExponent_le hfraction _).trans (by decide)
      exact ⟨htotal.trans (le_max_right _ _), by decide⟩
  next =>
    have hfraction : (1#1 ++ @UnpackedFloat.unpackMantissa Format.binary64 b).toNat < 2 ^ 53 :=
      BitVec.isLt _
    have hvalue : ((BitVec.ofNat 11 field).toNat : ℤ) - ((1023 : ℕ) + (52 : ℕ)) = field - 1075 := by
      rw [hexponent]
      push_cast
      ring
    change totalExponent _ (((BitVec.ofNat 11 field).toNat : ℤ) - _) ≤ _ ∧ _ ≤ _
    rw [show (Format.binary64.exponentBias : ℤ) = (1023 : ℕ) from rfl,
      show (Format.binary64.mantissaBitsWithoutImplicit : ℤ) = (52 : ℕ) from rfl, hvalue]
    exact ⟨(totalExponent_le hfraction _).trans (le_max_of_le_left (by omega)), by omega⟩

theorem isBelow_packComponents (s : UnpackedFloat.Sign) {field : ℕ} (hfield : field < 2047)
    (k : BitVec 52) :
    IsBelow (max (field - 1022) (-1022)) (UnpackedFloat.unpack Format.binary64
      (UnpackedFloat.packComponents Format.binary64 s (BitVec.ofNat 11 field) k)) :=
  isBelow_unpack hfield (UnpackedFloat.unpackExponent_packComponents ..)

/-- **What is below a power of two is so when it is stored,** if it is not too small. -/
theorem IsBelow.stored {top : ℤ} {u : UnpackedFloat} (h : IsBelow top u) (hlow : -1022 ≤ top) :
    IsBelow top (Float.Model.pack u).unpack := by
  change IsBelow top (UnpackedFloat.unpack Format.binary64 (UnpackedFloat.pack Format.binary64 u))
  cases u with
  | infinity s => exact h.elim
  | notANumber => exact h.elim
  | zero s => exact (isBelow_packComponents s (show 0 < 2047 by decide) 0#52).mono (by omega)
  | finite s m e hm =>
      obtain ⟨htotal, hlast⟩ := h
      obtain ⟨field, hfield⟩ : ∃ field : ℕ, max (e + 1075) 0 = field :=
        ⟨(max (e + 1075) 0).toNat, by omega⟩
      have hbiased : (e + (Format.binary64.exponentBias : ℕ) +
          (Format.binary64.mantissaBitsWithoutImplicit : ℕ)).toNat = field := by
        change (e + 1023 + 52).toNat = field
        omega
      rw [UnpackedFloat.pack]
      dsimp only
      rw [hbiased, if_neg (show ¬2 ^ 11 ≤ field + 1 by omega)]
      split
      · next hnormal =>
          have hlog : m.log2 = 52 := Nat.succ.inj hnormal
          rw [totalExponent, hlog] at htotal
          push_cast at htotal
          exact (isBelow_packComponents s (by omega) _).mono (by omega)
      · exact (isBelow_packComponents s (show 0 < 2047 by decide) _).mono (by omega)

/-- A finite number is below the largest power of two. -/
theorem isBelow_of_isFinite {x : Float} (h : x.isFinite = true) : IsBelow 1024 x.toModel.unpack := by
  change UnpackedFloat.isFinite (UnpackedFloat.unpack Format.binary64 x.toBits.toBitVec) = true at h
  change IsBelow 1024 (UnpackedFloat.unpack Format.binary64 x.toBits.toBitVec)
  obtain ⟨field, hfield⟩ : ∃ field : BitVec 11,
      @UnpackedFloat.unpackExponent Format.binary64 x.toBits.toBitVec = field := ⟨_, rfl⟩
  have hbound : field.toNat < 2 ^ 11 := field.isLt
  have hspecial : field.toNat ≠ 2047 := by
    intro hspecial
    have hexponent : @UnpackedFloat.unpackExponent Format.binary64 x.toBits.toBitVec =
        -1#11 := by
      rw [hfield]
      exact BitVec.eq_of_toNat_eq hspecial
    rw [UnpackedFloat.unpack] at h
    dsimp only at h
    rw [if_pos hexponent] at h
    split at h <;> cases h
  have hvalue : field = BitVec.ofNat 11 field.toNat := (by simp)
  exact (isBelow_unpack (by omega) (hfield.trans hvalue)).mono (by omega)

/-- **A finite number is finite with the other sign.** -/
theorem isFinite_neg {x : Float} (h : x.isFinite = true) : (-x).isFinite = true := by
  have hneg : IsBelow 1024 x.toModel.unpack.neg := by
    have hx := isBelow_of_isFinite h
    cases hu : x.toModel.unpack with
    | finite s m e hm => exact (hu ▸ hx : IsBelow 1024 (.finite s m e hm))
    | zero s => trivial
    | infinity s => exact (hu ▸ hx : IsBelow 1024 (.infinity s))
    | notANumber => exact (hu ▸ hx : IsBelow 1024 .notANumber)
  exact (hneg.stored (by decide)).isFinite

/-! ### Dividing -/

/-- **A quotient** has about as many bits less as its divisor has. -/
theorem IsBelow.div {top low : ℤ} {size : ℚ} {u u' : UnpackedFloat} (h : IsBelow top u)
    (h' : IsNormal low size u') (hlow : -1022 ≤ top - low - 52) (hhigh : top - low - 52 ≤ 970) :
    IsBelow (top - low - 51) (u.div Format.binary64 u') := by
  obtain ⟨m', e', hm', rfl, hleast', hmost', he', -⟩ := h'
  cases u with
  | infinity s => exact h.elim
  | notANumber => exact h.elim
  | zero s => trivial
  | finite s m e hm =>
      obtain ⟨htop, -⟩ := h
      have hlog : m'.log2 = 52 := (Nat.log2_eq_iff (by omega)).2 ⟨hleast', hmost'⟩
      have htarget : Format.binary64.targetExponent (totalExponent m e - totalExponent m' e') =
          max (m.log2 + e - 52 - e' - 53) (-1074) := by
        simp only [Format.targetExponent, totalExponent, hlog, Format.mantissaBits,
          Format.minExponent]
        norm_num
        omega
      obtain ⟨k, hk⟩ : ∃ k : ℕ, (k : ℤ) =
          max 0 (e - e' - max (m.log2 + e - 52 - e' - 53) (-1074)) := ⟨_, Int.toNat_of_nonneg (by omega)⟩
      have hdiv : UnpackedFloat.divCore Format.binary64 m e m' e' =
          ((m <<< k) / m', e - e' - k, UnpackedFloat.accuracyOfFraction ((m <<< k) % m') m') := by
        have hshift : (e - e' - min (e - e') (max (m.log2 + e - 52 - e' - 53) (-1074))).toNat = k := by
          omega
        rw [UnpackedFloat.divCore, htarget, hshift]
        congr 2
        omega
      rw [UnpackedFloat.div, hdiv]
      refine (isBelow_round ?_ hlow hhigh).mono (by omega)
      rw [totalExponent] at htop ⊢
      by_cases hquotient : m <<< k / m' = 0
      · rw [hquotient, show (0 : ℕ).log2 = 0 from rfl]
        push_cast
        omega
      · have hbits : (m <<< k / m').log2 + 52 ≤ m.log2 + k := by
          rw [← log2_shiftLeft (Nat.pos_iff_ne_zero.1 hm), Nat.le_log2
            (by rw [Nat.shiftLeft_eq]; positivity), pow_add]
          calc 2 ^ (m <<< k / m').log2 * 2 ^ 52 ≤ m <<< k / m' * m' :=
                Nat.mul_le_mul (Nat.log2_self_le hquotient) hleast'
            _ ≤ m <<< k := Nat.div_mul_le_self _ _
        omega

end Forecast.Decimal
