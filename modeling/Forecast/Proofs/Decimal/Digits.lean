import Mathlib.Algebra.Group.Nat.Defs
import Mathlib.Data.List.TakeWhile
import Forecast.Decimal.Integer

/-!
# Runs of Digits

What is written for a number in base ten is a run of digits, and reading the run gives the number
back, also when it was filled with zeros on the left. A scanner that takes digits as long as there
are some takes exactly such a run, if what comes after it begins with no digit.

## Main results

* `digitsValue_natDigits`, `digitsValue_padZeros`: reading what was written.
* `takeWhile_digits`: what a scanner takes.
-/

namespace Forecast.Decimal

/-- Whether a text is made of digits only. -/
def AreDigits (cs : List Char) : Prop :=
  ∀ c ∈ cs, c.isDigit = true

/-- Whether a text begins with no digit. -/
def BeginsApart (cs : List Char) : Prop :=
  ∀ c ∈ cs.head?, c.isDigit = false

/-! ### Writing and reading -/

theorem areDigits_natDigits (n : Nat) : AreDigits (natDigits n) :=
  fun _ hc => Nat.isDigit_of_mem_toDigits (by decide) (by decide) hc

theorem natDigits_ne_nil (n : Nat) : natDigits n ≠ [] :=
  Nat.toDigits_ne_nil

/-- The digits of a number are read as the number. -/
@[simp] theorem digitsValue_natDigits (n : Nat) : digitsValue (natDigits n) = n :=
  Nat.ofDigitChars_toDigits (by decide) (by decide)

theorem digitsValue_append (cs ds : List Char) :
    digitsValue (cs ++ ds) = digitsValue cs * 10 ^ ds.length + digitsValue ds := by
  change Nat.ofDigitChars 10 (cs ++ ds) 0 = _
  rw [Nat.ofDigitChars_append, Nat.ofDigitChars_eq_ofDigitChars_zero, Nat.mul_comm]
  rfl

theorem digitsValue_cons (c : Char) (cs : List Char) :
    digitsValue (c :: cs) = (c.toNat - '0'.toNat) * 10 ^ cs.length + digitsValue cs := by
  have happend := Decimal.digitsValue_append [c] cs
  have hsingle : digitsValue [c] = c.toNat - '0'.toNat := by
    simp [digitsValue]
  rw [hsingle] at happend
  exact happend

/-- A digit is worth at most nine. -/
theorem digit_le {c : Char} (hc : c.isDigit = true) : c.toNat - '0'.toNat ≤ 9 := by
  simp only [Char.isDigit, Bool.and_eq_true, decide_eq_true_eq] at hc
  have hle : c.toNat ≤ 57 := UInt32.le_iff_toNat_le.1 hc.2
  change c.toNat - 48 ≤ 9
  omega

theorem digitsValue_lt {cs : List Char} (hcs : AreDigits cs) : digitsValue cs < 10 ^ cs.length := by
  induction cs with
  | nil => decide
  | cons c cs ih =>
      have hc := digit_le (hcs c List.mem_cons_self)
      have hrest := ih fun d hd => hcs d (List.mem_cons_of_mem c hd)
      have hdigit := Nat.mul_le_mul_right (10 ^ cs.length) hc
      rw [digitsValue_cons, List.length_cons, pow_succ]
      omega

@[simp] theorem digitsValue_replicate_zero (n : Nat) :
    digitsValue (List.replicate n '0') = 0 := by
  change Nat.ofDigitChars 10 _ 0 = _
  simp

/-- Only zero begins with the digit zero. -/
theorem head?_natDigits {n : Nat} (h : n ≠ 0) : (natDigits n).head? ≠ some '0' := by
  induction n using Nat.strongRecOn with
  | ind n ih =>
      have hdigit : ∀ d < 10, d ≠ 0 → Nat.digitChar d ≠ '0' := by decide
      by_cases hsmall : n < 10
      · rw [natDigits, Nat.toDigits_of_lt_base hsmall, List.head?_cons]
        exact fun heq => hdigit n hsmall h (Option.some.inj heq)
      · have hrest := ih (n / 10) (by omega) (by omega)
        have hsplit := Nat.toDigits_append_toDigits (b := 10) (n := n / 10) (d := n % 10)
          (by decide) (by omega) (by omega)
        rw [show 10 * (n / 10) + n % 10 = n by omega] at hsplit
        rw [natDigits, ← hsplit, List.head?_append, Option.or_of_isSome (by simp [Nat.toDigits_ne_nil])]
        exact hrest

theorem length_natDigits_le {n k : Nat} (hk : 0 < k) : (natDigits n).length ≤ k ↔ n < 10 ^ k :=
  Nat.length_toDigits_le_iff (by decide) hk

/-! ### Filling with zeros -/

theorem areDigits_replicate_zero (n : Nat) : AreDigits (List.replicate n '0') := by
  intro c hc
  rw [List.eq_of_mem_replicate hc]
  rfl

theorem AreDigits.append {cs ds : List Char} (hcs : AreDigits cs) (hds : AreDigits ds) :
    AreDigits (cs ++ ds) :=
  fun c hc => (List.mem_append.1 hc).elim (hcs c) (hds c)

theorem areDigits_padZeros (width n : Nat) : AreDigits (padZeros width n) :=
  (areDigits_replicate_zero _).append (areDigits_natDigits n)

/-- Zeros on the left do not count. -/
@[simp] theorem digitsValue_padZeros (width n : Nat) : digitsValue (padZeros width n) = n := by
  simp [padZeros, digitsValue_append]

/-- A number that fits a width is written in it. -/
theorem length_padZeros {width n : Nat} (hwidth : 0 < width) (h : n < 10 ^ width) :
    (padZeros width n).length = width := by
  have hlength := (length_natDigits_le hwidth).2 h
  simp only [padZeros, List.length_append, List.length_replicate]
  omega

theorem padZeros_ne_nil (width n : Nat) : padZeros width n ≠ [] := by
  simp [padZeros, natDigits_ne_nil]

/-! ### Scanning -/

/-- A scanner of digits takes a run of them and leaves what begins with no digit. -/
theorem takeWhile_digits {ds rest : List Char} (hds : AreDigits ds) (hrest : BeginsApart rest) :
    (ds ++ rest).takeWhile Char.isDigit = ds ∧ (ds ++ rest).dropWhile Char.isDigit = rest := by
  have hstop : rest.takeWhile Char.isDigit = [] ∧ rest.dropWhile Char.isDigit = rest := by
    cases rest with
    | nil => exact ⟨rfl, rfl⟩
    | cons c cs =>
        have hc : c.isDigit = false := hrest c rfl
        simp [hc]
  constructor
  · rw [List.takeWhile_append_of_pos hds, hstop.1, List.append_nil]
  · rw [List.dropWhile_append_of_pos hds, hstop.2]

end Forecast.Decimal
