import Forecast.Proofs.Decimal.Largest
import Forecast.Proofs.Decimal.Scientific
import Forecast.Proofs.Json.Numerals

/-!
# Finite Numbers Are Read

The reader of documents refuses a number that grows too large when its digits are scaled, and it rounds
twice on the way, so that it could refuse what was written for a number close to the largest one. It does
not: the written form of every finite number is read as a number (`isSome_binary`), though not always as
the same one.

The shortest digits of the largest number itself leave hardly any room. There rounding is carried out;
everywhere else it is enough to know how much it adds.

## Main results

* `isSome_binary`: the written form of a finite number is in range.
-/

namespace Forecast.Json

open Decimal (Spelling AreDigits digitsValue tenTo twoTo largest limit growth)

/-! ### Scaling -/

/-- What is far enough from the limit stays below it when it is rounded twice. -/
theorem lt_limit_of_le {n : ℕ} (h : n ≤ 17976931348623154 * tenTo 292) :
    (n : ℚ) * growth * growth < limit := by
  have hfits : 17976931348623154 * tenTo 292 * 9007199254740993 ^ 2 <
      18014398509481983 * twoTo 970 * 2 ^ 106 := by
    decide +kernel
  have hcast : (n : ℚ) * 9007199254740993 ^ 2 < 18014398509481983 * 2 ^ (970 : ℤ) * 2 ^ 106 := by
    have hnat : ((n * 9007199254740993 ^ 2 : ℕ) : ℚ) < (18014398509481983 * twoTo 970 * 2 ^ 106 : ℕ) :=
      Nat.cast_lt.2 ((Nat.mul_le_mul_right _ h).trans_lt hfits)
    rw [Nat.cast_mul, Nat.cast_mul, Nat.cast_mul, Decimal.cast_twoTo] at hnat
    exact_mod_cast hnat
  have hgrowth : growth = 9007199254740993 / 2 ^ 53 := by
    rw [growth]
    norm_num
  have hlimit : limit = 18014398509481983 * 2 ^ (970 : ℤ) := by
    rw [limit, show (971 : ℤ) = 970 + 1 from rfl, zpow_add_one₀ (by norm_num)]
    ring
  rw [← mul_lt_mul_iff_of_pos_right (by norm_num : (0 : ℚ) < 2 ^ 106), hgrowth, hlimit]
  calc (n : ℚ) * (9007199254740993 / 2 ^ 53) * (9007199254740993 / 2 ^ 53) * 2 ^ 106 =
        n * 9007199254740993 ^ 2 := by ring
    _ < 18014398509481983 * 2 ^ (970 : ℤ) * 2 ^ 106 := hcast

/-- Rounding is carried out next to the largest number. -/
theorem isInf_next_to_largest : ∀ i : Fin 3,
    (Float.ofNat (17976931348623155 + i) * powerOfTen 292).isInf = false := by
  decide +kernel

/-- What is not above the largest number is far enough from the limit, but for three decimals. -/
theorem le_of_le_largest {d e : ℕ} (hdigits : d ≤ 15 * 10 ^ 16) (hlargest : d * tenTo e ≤ largest) :
    d * tenTo e ≤ 17976931348623154 * tenTo 292 ∨
      e = 292 ∧ 17976931348623155 ≤ d ∧ d < 17976931348623158 := by
  have htop : largest < 17976931348623158 * tenTo 292 := by decide +kernel
  have hpos : 0 < tenTo 292 := by decide +kernel
  rcases Nat.lt_or_ge e 292 with hless | hmore
  · left
    calc d * tenTo e ≤ 15 * 10 ^ 16 * tenTo 291 :=
          Nat.mul_le_mul hdigits (Decimal.tenTo_le_tenTo (by omega))
      _ ≤ 17976931348623154 * tenTo 292 := by decide +kernel
  · obtain ⟨j, rfl⟩ : ∃ j, e = j + 292 := ⟨e - 292, by omega⟩
    have hsplit : d * tenTo (j + 292) = d * tenTo j * tenTo 292 := by
      rw [Decimal.tenTo_add, mul_assoc]
    rw [hsplit] at hlargest ⊢
    have hless := Nat.lt_of_mul_lt_mul_right (hlargest.trans_lt htop)
    cases j with
    | zero =>
        rw [show tenTo 0 = 1 from rfl, mul_one] at hless ⊢
        rcases Nat.lt_or_ge d 17976931348623155 with hfar | hnear
        · exact Or.inl (Nat.mul_le_mul_right _ (by omega))
        · exact Or.inr ⟨rfl, hnear, hless⟩
    | succ j =>
        rw [Decimal.tenTo_add j 1, show tenTo 1 = 10 from rfl, ← mul_assoc] at hless ⊢
        exact Or.inl (Nat.mul_le_mul_right _ (by omega))

/-- **A decimal that is not above the largest number is not scaled to infinity.** -/
theorem isInf_ofNat_mul_powerOfTen {d e : ℕ} (hd : d ≠ 0) (hdigits : d ≤ 15 * 10 ^ 16)
    (hlargest : d * tenTo e ≤ largest) :
    e ≤ 308 ∧ (Float.ofNat d * powerOfTen e).isInf = false := by
  have hexponent : e ≤ 308 := by
    by_contra hmore
    have hpower : tenTo 309 ≤ largest :=
      calc tenTo 309 ≤ tenTo e := Decimal.tenTo_le_tenTo (by omega)
        _ ≤ d * tenTo e := Nat.le_mul_of_pos_left _ (Nat.pos_of_ne_zero hd)
        _ ≤ largest := hlargest
    exact absurd hpower (by decide +kernel)
  refine ⟨hexponent, ?_⟩
  rcases le_of_le_largest hdigits hlargest with hfar | ⟨rfl, hnear, hnear'⟩
  · refine Decimal.isInf_mul_scientific hd one_ne_zero (by decide) (by omega) ?_
    have hbelow := lt_limit_of_le hfar
    rw [Nat.cast_mul, Decimal.cast_tenTo, zpow_natCast] at hbelow
    calc (d : ℚ) * 10 ^ 0 * growth * ((1 : ℕ) * 10 ^ e * growth) = d * 10 ^ e * growth * growth := by
          push_cast
          ring
      _ < limit := hbelow
  · have hcase := isInf_next_to_largest ⟨d - 17976931348623155, by omega⟩
    rwa [Fin.val_mk, Nat.add_sub_cancel' hnear] at hcase

/-- What is scaled down stays in range. -/
theorem isSome_shiftDecimal_of_neg (attempts : ℕ) (x : Float) {e : ℤ} (he : e < 0) :
    (shiftDecimal attempts x e).isSome = true := by
  induction attempts generalizing x e with
  | zero =>
      rw [shiftDecimal]
      split
      · rw [if_neg (by omega)]
        rfl
      split
      · rfl
      · rw [if_neg (by omega)]
        rfl
  | succ attempts ih =>
      rw [shiftDecimal]
      split
      · rw [if_neg (by omega)]
        rfl
      split
      · rfl
      · next hfar _ =>
          rw [if_neg (by omega)]
          refine ih _ ?_
          simp only [topPower] at hfar ⊢
          omega

/-- A decimal is in range if it is scaled down, or is not above the largest number. -/
theorem isSome_magnitude {d : ℕ} {before exponent : ℤ} (hmost : exponent ≤ maxExponent)
    (h : before + exponent < 0 ∨ ∃ e : ℕ, before + exponent = e ∧ d ≠ 0 ∧ d ≤ 15 * 10 ^ 16 ∧
      d * tenTo e ≤ largest) :
    (magnitude d before exponent).isSome = true := by
  rw [magnitude, if_neg (by omega)]
  split
  · rfl
  rcases h with hneg | ⟨e, he, hd, hdigits, hlargest⟩
  · exact isSome_shiftDecimal_of_neg _ _ hneg
  · obtain ⟨hexponent, hinf⟩ := isInf_ofNat_mul_powerOfTen hd hdigits hlargest
    rw [he, shiftDecimal, if_pos (by simp only [topPower]; omega), if_pos (Int.natCast_nonneg e)]
    dsimp only
    rw [Int.toNat_natCast, hinf]
    rfl

/-! ### Digits -/

/-- All digits are absorbed if they fit a word. -/
theorem absorb_of_fits {s : ℕ} {cs : List Char}
    (hfits : s * 10 ^ cs.length + digitsValue cs ≤ maxUnsigned) :
    absorb s cs = (s * 10 ^ cs.length + digitsValue cs, []) := by
  induction cs generalizing s with
  | nil => simp [absorb, digitsValue]
  | cons c cs ih =>
      have hsplit : s * 10 ^ (c :: cs).length + digitsValue (c :: cs) =
          (s * 10 + (c.toNat - '0'.toNat)) * 10 ^ cs.length + digitsValue cs := by
        rw [Decimal.digitsValue_cons, List.length_cons, pow_succ]
        ring
      rw [hsplit] at hfits ⊢
      have hnext : s * 10 + (c.toNat - '0'.toNat) ≤ maxUnsigned :=
        (Nat.le_mul_of_pos_right _ (by positivity)).trans ((Nat.le_add_right _ _).trans hfits)
      rw [absorb, if_neg (by omega), ih hfits]

theorem length_absorb_le (s : ℕ) (cs : List Char) : (absorb s cs).2.length ≤ cs.length := by
  induction cs generalizing s with
  | nil => exact le_refl _
  | cons c cs ih =>
      rw [absorb]
      split
      · exact le_refl _
      · exact (ih _).trans (Nat.le_succ _)

/-! ### Written forms -/

/-- A number with a fraction and no exponent is in range if its whole part has at most 16 digits. -/
theorem isSome_binary_of_fraction {n : Spelling} (h : n.IsStrict) (hexponent : n.exponent = none)
    {ds : List Char} (hfraction : n.fraction = some ds) (hlength : n.whole.length ≤ 16) :
    (numeralOf n).binary.isSome = true := by
  obtain ⟨hds, hne⟩ := h.fraction ds hfraction
  have hvalue : digitsValue n.whole < 10 ^ 16 :=
    (Decimal.digitsValue_lt h.digits).trans_le (Nat.pow_le_pow_right (by decide) hlength)
  have habsorb : absorb 0 n.whole = (digitsValue n.whole, []) := by
    rw [absorb_of_fits (by rw [maxUnsigned]; omega), zero_mul, zero_add]
  -- at least one digit of the fraction is absorbed
  have hdropped : (absorb (digitsValue n.whole) ds).2.length < ds.length := by
    obtain ⟨c, cs, rfl⟩ := List.exists_cons_of_ne_nil hne
    have hc := Decimal.digit_le (hds c List.mem_cons_self)
    rw [absorb, if_neg (by rw [maxUnsigned]; omega)]
    exact Nat.lt_succ_of_le (length_absorb_le _ _)
  simp only [Numeral.binary, numeralOf, habsorb, hfraction, hexponent, Option.getD_some,
    Option.map_none, Option.getD_none, Option.isSome_map, List.length_nil]
  exact isSome_magnitude (by decide) (Or.inl (by omega))

/-- A number with one digit in front of the others is in range if its digits are scaled down, or if it
is not above the largest number. -/
theorem isSome_binary_of_exponent {n : Numeral} {c : Char} {cs : List Char} {e : ℤ}
    (hwhole : n.whole = [c]) (hfraction : n.fraction.getD [] = cs) (hexponent : n.exponent = some e)
    (hmost : e ≤ maxExponent) (hdigits : digitsValue (c :: cs) ≤ 15 * 10 ^ 16)
    (h : e - cs.length < 0 ∨ ∃ k : ℕ, e - cs.length = k ∧ digitsValue (c :: cs) ≠ 0 ∧
      digitsValue (c :: cs) * tenTo k ≤ largest) : n.binary.isSome = true := by
  have hfits : digitsValue (c :: cs) ≤ maxUnsigned := hdigits.trans (by decide)
  have hsplit := Decimal.digitsValue_cons c cs
  rw [hsplit] at hfits
  have hfirst : absorb 0 n.whole = (c.toNat - '0'.toNat, []) := by
    have hsingle : c.toNat - '0'.toNat ≤ maxUnsigned :=
      (Nat.le_mul_of_pos_right _ (by positivity)).trans ((Nat.le_add_right _ _).trans hfits)
    rw [hwhole, absorb, zero_mul, zero_add, if_neg (by omega), absorb]
  have hrest : absorb (c.toNat - '0'.toNat) cs = (digitsValue (c :: cs), []) := by
    rw [absorb_of_fits hfits, hsplit]
  simp only [Numeral.binary, hfirst, hfraction, hrest, hexponent, Option.getD_some,
    Option.isSome_map, List.length_nil]
  refine isSome_magnitude hmost (h.imp (fun hneg => by omega) ?_)
  rintro ⟨k, hk, hne, hlargest⟩
  exact ⟨k, by omega, hne, hdigits, hlargest⟩

/-- The written form of a decimal that is not above the largest number is in range. -/
theorem isSome_binary_ofScaled (negative : Bool) {s : Decimal.Scaled} (hs : s.digits ≠ 0)
    (hdigits : s.digits ≤ 15 * 10 ^ 16) (hlargest : s.value ≤ largest) :
    (numeralOf (.ofScaled negative s)).binary.isSome = true := by
  have hstrict := Spelling.isStrict_ofScaled negative hs
  have hlength := List.length_pos_iff.2 (Decimal.natDigits_ne_nil s.digits)
  have hlength' : (Decimal.natDigits s.digits).length ≤ 18 :=
    (Decimal.length_natDigits_le (by decide)).2 (by omega)
  rw [Spelling.ofScaled] at hstrict ⊢
  split at hstrict
  · next hplaces =>
      rw [if_pos hplaces]
      split at hstrict
      · next hwhole =>
          rw [if_pos hwhole]
          refine isSome_binary_of_fraction hstrict rfl rfl ?_
          rw [List.length_append, List.length_replicate]
          omega
      split at hstrict
      · next hwhole hinside =>
          rw [if_neg hwhole, if_pos hinside]
          refine isSome_binary_of_fraction hstrict rfl rfl ?_
          rw [List.length_take]
          omega
      · next hwhole hinside =>
          rw [if_neg hwhole, if_neg hinside]
          exact isSome_binary_of_fraction hstrict rfl rfl (by simp)
  · next hplaces =>
      rw [if_neg hplaces]
      obtain ⟨c, cs, hcs⟩ := List.exists_cons_of_ne_nil (Decimal.natDigits_ne_nil s.digits)
      have hvalue : digitsValue (c :: cs) = s.digits := by
        rw [← hcs, Decimal.digitsValue_natDigits]
      rw [hcs] at hlength' ⊢
      rw [List.length_cons] at hlength' ⊢
      obtain ⟨leading, hleading⟩ : ∃ e : ℤ, s.exponent + (cs.length + 1 : ℕ) - 1 = e := ⟨_, rfl⟩
      rw [hleading]
      have hwhole : (c :: cs).take 1 = [c] := rfl
      have hfraction : (if (c :: cs).tail = [] then none else some (c :: cs).tail).getD [] = cs := by
        cases cs <;> rfl
      have hexponent : (if (if leading < 0 then '-' else '+') = '-' then -1 else 1 : ℤ) *
          (digitsValue (Decimal.padZeros 1 leading.natAbs) : ℕ) = leading := by
        rw [Decimal.digitsValue_padZeros]
        split
        · simp only [if_true]
          omega
        · simp only [show ¬ '+' = '-' by decide, if_false]
          omega
      have hrange : leading - cs.length < 0 ∨ ∃ k : ℕ, leading - cs.length = k ∧
          digitsValue (c :: cs) ≠ 0 ∧ digitsValue (c :: cs) * tenTo k ≤ largest := by
        rw [hvalue]
        by_cases hneg : s.exponent < 0
        · exact Or.inl (by omega)
        · obtain ⟨k, hk⟩ : ∃ k : ℕ, s.exponent = k := ⟨s.exponent.toNat, by omega⟩
          refine Or.inr ⟨k, by omega, hs, ?_⟩
          rw [Decimal.Scaled.value, hk, ← Decimal.cast_tenTo, ← Nat.cast_mul] at hlargest
          exact Nat.cast_le.1 hlargest
      have hmost : leading ≤ maxExponent := by
        rw [maxExponent]
        rcases hrange with hneg | ⟨k, hk, hne, hbound⟩
        · omega
        · have := (isInf_ofNat_mul_powerOfTen hne (hvalue ▸ hdigits) hbound).1
          omega
      exact isSome_binary_of_exponent hwhole hfraction (congrArg some hexponent) hmost
        (hvalue ▸ hdigits) hrange

/-- **The written form of a finite number is in range.** -/
theorem isSome_binary {x : Float} (h : x.isFinite = true) :
    (numeralOf (.ofFloat x)).binary.isSome = true := by
  have hstrict := Spelling.isStrict_ofFloat x
  rw [Spelling.ofFloat] at hstrict ⊢
  split at hstrict
  · next hzero =>
      rw [if_pos hzero]
      exact isSome_binary_of_fraction hstrict rfl rfl (by simp)
  · next hx =>
      rw [if_neg hx]
      have hx : (x == 0) = false := Bool.eq_false_iff.2 hx
      obtain ⟨hdigits, hvalue⟩ := Decimal.Binary.shortest_le_largest h hx
      exact isSome_binary_ofScaled _
        (Decimal.Binary.shortest_digits_ne_zero (Decimal.mantissa_ofFloat_ne_zero hx) _) hdigits hvalue

end Forecast.Json
