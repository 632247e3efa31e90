import Mathlib.Algebra.Order.Field.Rat
import Mathlib.Algebra.Order.Field.Power
import Mathlib.Data.Rat.Cast.Order
import Mathlib.Tactic.Positivity
import Mathlib.Tactic.Ring
import Mathlib.Tactic.Linarith
import Mathlib.Tactic.NormNum
import Forecast.Decimal.Shortest
import Forecast.Proofs.Decimal.Digits

/-!
# What the Shortest Decimal Is Worth

A decimal that is chosen for a binary number lies in the interval of the numbers that round to it, or
it is the last resort, which nothing here needs to be near. Either way it is not zero, and it is not
above the upper end of the interval.

The search works with whole numbers on a grid. All that is said here is said of the numbers that they
stand for, so that the grid is left behind with `mul_zpow_le_mul_zpow_iff`.

## Main results

* `shortest_digits_ne_zero`: the shortest decimal is not zero.
-/

namespace Forecast.Decimal

/-- The number that a decimal stands for. -/
def Scaled.value (s : Scaled) : ℚ :=
  s.digits * (10 : ℚ) ^ s.exponent

/-- Zeros at the end of the digits do not count. -/
theorem Scaled.value_stripZeros (fuel : ℕ) (s : Scaled) : (stripZeros fuel s).value = s.value := by
  fun_induction stripZeros fuel s with
  | case1 s => rfl
  | case2 fuel s h ih =>
      obtain ⟨k, hk⟩ := Nat.dvd_of_mod_eq_zero h.2
      rw [ih]
      simp only [value, hk, Nat.mul_div_cancel_left k (by decide : 0 < 10), Nat.cast_mul]
      rw [zpow_add₀ (by norm_num)]
      push_cast
      ring
  | case3 fuel s h => rfl

namespace Binary

/-- The lower end of the interval of the numbers that round to a binary number. -/
def bottom (b : Binary) : ℚ :=
  b.quarters.2.1 * (2 : ℚ) ^ (b.exponent - 2)

/-- The upper end. -/
def top (b : Binary) : ℚ :=
  b.quarters.2.2 * (2 : ℚ) ^ (b.exponent - 2)

/-- A power shifted to a whole exponent. -/
theorem zpow_mul_pow_toNat_neg {a : ℚ} (ha : a ≠ 0) (z : ℤ) :
    a ^ z * a ^ (-z).toNat = a ^ z.toNat := by
  rw [← zpow_natCast, ← zpow_natCast, ← zpow_add₀ ha]
  congr 1
  omega

/-- What brings multiples of powers of two and ten to whole numbers. -/
def common (q e : ℤ) : ℚ :=
  2 ^ (-q).toNat * 10 ^ (-e).toNat

theorem common_pos (q e : ℤ) : 0 < common q e := by
  unfold common
  positivity

theorem two_zpow_mul_common (a : ℕ) (q e : ℤ) :
    (a : ℚ) * 2 ^ q * common q e = (a * (2 ^ q.toNat * 10 ^ (-e).toNat) : ℕ) := by
  push_cast
  rw [common, ← zpow_mul_pow_toNat_neg (by norm_num) q]
  ring

theorem ten_zpow_mul_common (d : ℕ) (q e : ℤ) :
    (d : ℚ) * 10 ^ e * common q e = (d * (2 ^ (-q).toNat * 10 ^ e.toNat) : ℕ) := by
  push_cast
  rw [common, ← zpow_mul_pow_toNat_neg (by norm_num) e]
  ring

/-- A decimal is in the interval if it is so on a grid. -/
theorem bounds_of_grid {b : Binary} {d : ℕ} {step : ℤ}
    (hlow : b.quarters.2.1 * (2 ^ (b.exponent - 2).toNat * 10 ^ (-step).toNat) ≤
      d * (2 ^ (-(b.exponent - 2)).toNat * 10 ^ step.toNat))
    (hhigh : d * (2 ^ (-(b.exponent - 2)).toNat * 10 ^ step.toNat) ≤
      b.quarters.2.2 * (2 ^ (b.exponent - 2).toNat * 10 ^ (-step).toNat)) :
    b.bottom ≤ (Scaled.mk d step).value ∧ (Scaled.mk d step).value ≤ b.top := by
  constructor
  · rw [← mul_le_mul_iff_of_pos_right (common_pos (b.exponent - 2) step), bottom, Scaled.value,
      two_zpow_mul_common, ten_zpow_mul_common]
    exact Nat.cast_le.2 hlow
  · rw [← mul_le_mul_iff_of_pos_right (common_pos (b.exponent - 2) step), top, Scaled.value,
      two_zpow_mul_common, ten_zpow_mul_common]
    exact Nat.cast_le.2 hhigh

/-- A decimal found on a grid is on the grid, and in the interval. -/
theorem onGrid_eq_some {b : Binary} {tie : Tie} {step : ℤ} {s : Scaled}
    (h : b.onGrid tie step = some s) :
    s.exponent = step ∧ b.bottom ≤ s.value ∧ s.value ≤ b.top := by
  -- both ends may or may not count, but the interval is within them either way
  have of_inside {d : ℕ} (hd : (if b.closed then
        b.quarters.2.1 * (twoTo (b.exponent - 2).toNat * tenTo (-step).toNat) ≤
            d * (twoTo (-(b.exponent - 2)).toNat * tenTo step.toNat) &&
          d * (twoTo (-(b.exponent - 2)).toNat * tenTo step.toNat) ≤
            b.quarters.2.2 * (twoTo (b.exponent - 2).toNat * tenTo (-step).toNat)
      else
        b.quarters.2.1 * (twoTo (b.exponent - 2).toNat * tenTo (-step).toNat) <
            d * (twoTo (-(b.exponent - 2)).toNat * tenTo step.toNat) &&
          d * (twoTo (-(b.exponent - 2)).toNat * tenTo step.toNat) <
            b.quarters.2.2 * (twoTo (b.exponent - 2).toNat * tenTo (-step).toNat)) = true) :
      b.bottom ≤ (Scaled.mk d step).value ∧ (Scaled.mk d step).value ≤ b.top := by
    split at hd
    · simp only [Bool.and_eq_true, decide_eq_true_eq] at hd
      exact bounds_of_grid hd.1 hd.2
    · simp only [Bool.and_eq_true, decide_eq_true_eq] at hd
      exact bounds_of_grid hd.1.le hd.2.le
  have of_choice {c : Prop} [Decidable c] {d e : ℕ}
      (hd : b.bottom ≤ (Scaled.mk d step).value ∧ (Scaled.mk d step).value ≤ b.top)
      (he : b.bottom ≤ (Scaled.mk e step).value ∧ (Scaled.mk e step).value ≤ b.top) :
      b.bottom ≤ (Scaled.mk (if c then d else e) step).value ∧
        (Scaled.mk (if c then d else e) step).value ≤ b.top := by
    split
    · exact hd
    · exact he
  rw [onGrid] at h
  dsimp only at h
  split at h
  · next hbelow _ =>
      cases h
      exact ⟨rfl, of_inside hbelow⟩
  · next _ habove =>
      cases h
      exact ⟨rfl, of_inside habove⟩
  · cases h
  · next hbelow habove =>
      cases h
      exact ⟨rfl, of_choice (of_inside habove) (of_inside hbelow)⟩

/-- What the search ends with: a decimal in the interval on one of the grids that it tries, or the
last resort. -/
theorem search_cases (b : Binary) (tie : Tie) (top : ℤ) (attempts count : ℕ) :
    (∃ n, count ≤ n ∧ n < count + attempts ∧ (b.search tie top attempts count).exponent = top + 1 - n ∧
      b.bottom ≤ (b.search tie top attempts count).value ∧
        (b.search tie top attempts count).value ≤ b.top) ∨
      b.search tie top attempts count = ⟨b.mantissa, top - (count + attempts : ℕ)⟩ := by
  induction attempts generalizing count with
  | zero => exact Or.inr rfl
  | succ attempts ih =>
      rw [search]
      split
      · next s hs =>
          obtain ⟨hexponent, hbounds⟩ := onGrid_eq_some hs
          exact Or.inl ⟨count, le_refl _, by omega, hexponent, hbounds⟩
      · rcases ih (count + 1) with ⟨n, hn, hlt, hrest⟩ | hlast
        · exact Or.inl ⟨n, by omega, by omega, hrest⟩
        · exact Or.inr (hlast.trans (by rw [Nat.add_right_comm, Nat.add_assoc]))

/-- The interval of a number other than zero is above zero. -/
theorem bottom_pos {b : Binary} (h : b.mantissa ≠ 0) : 0 < b.bottom := by
  have hlow : 0 < b.quarters.2.1 := by
    simp only [quarters]
    split <;> omega
  rw [bottom]
  positivity

/-- **The shortest decimal is not zero** if the number is not. -/
theorem shortest_digits_ne_zero {b : Binary} (h : b.mantissa ≠ 0) (tie : Tie) :
    (b.shortest tie).digits ≠ 0 := by
  have hsearch : 0 < (b.search tie b.magnitude 17 1).value := by
    rcases b.search_cases tie b.magnitude 17 1 with ⟨n, -, -, -, hbottom, -⟩ | hlast
    · exact (bottom_pos h).trans_le hbottom
    · rw [hlast, Scaled.value]
      positivity
  rw [← Scaled.value_stripZeros 18] at hsearch
  intro hzero
  rw [Scaled.value, show (Scaled.stripZeros 18 _).digits = 0 from hzero] at hsearch
  simp at hsearch

end Binary

end Forecast.Decimal
