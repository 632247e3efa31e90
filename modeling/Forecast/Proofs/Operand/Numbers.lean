import Forecast.Operand
import Forecast.Proofs.Decimal.Finite
import Forecast.Proofs.Failure.Steps

/-!
# Numbers Among Operands

A number is refused if its digits are no finite number. But the letter at its end is looked at apart
from them, and what comes of multiplying by its factor is not looked at again. So a number may be read
that is infinite, though the same digits with more zeros in place of the letter would be refused.

This is the only way: a text overflows (`Operand.Overflows`) if it ends in one of the three letters and
the product is out of range. Without a letter the factor is one, and a finite number stays finite.

## Main results

* `parse_eq_number_iff`: which texts are numbers.
* `overflows_iff`: which of them are numbers that are not finite.
-/

namespace Forecast.Operand

/-- The digits of a number, without what may stand between them. -/
def significant (number : List Char) : List Char :=
  number.filter fun c => c ≠ '_' ∧ c ≠ ','

/-- A number is the product of its digits, which are finite, with its factor. -/
theorem readNumber_eq_ok_iff {number : List Char} {x : Price} :
    readNumber number = .ok x ↔
      ∃ v, Decimal.readFloat (splitMultiplier (significant number)).1 = some v ∧
        v.isFinite = true ∧ x = v * (splitMultiplier (significant number)).2 := by
  constructor
  · intro h
    rw [readNumber] at h
    dsimp only at h
    split at h
    · next v hv =>
        cases h
        obtain ⟨hread, hfinite⟩ := Option.filter_eq_some_iff.1 hv
        exact ⟨v, hread, hfinite, rfl⟩
    · cases h
  · rintro ⟨v, hread, hfinite, rfl⟩
    rw [significant] at hread ⊢
    rw [readNumber]
    dsimp only
    rw [hread, Option.filter_some, if_pos hfinite]

/-- **A text is a number** exactly if it has no colons and is one in upper case. -/
theorem parse_eq_number_iff {s : String} {x : Price} :
    parse s = .ok (.number x) ↔
      ∃ number, Text.pieces (· == ':') (Text.upperChars (Text.trimChars s.toList)) = [number] ∧
        readNumber number = .ok x := by
  constructor
  · intro h
    rw [parse] at h
    split at h
    · cases h
    unfold ofPieces at h
    split at h
    · next number hpieces =>
        obtain ⟨v, hread, hv⟩ := map_eq_ok_iff.1 h
        cases hv
        exact ⟨number, hpieces, hread⟩
    · split at h
      · obtain ⟨i, -, hi⟩ := map_eq_ok_iff.1 h
        cases hi
      split at h
      · obtain ⟨i, -, hi⟩ := map_eq_ok_iff.1 h
        cases hi
      · cases h
    · cases h
  · rintro ⟨number, hpieces, hread⟩
    have hne : (Text.trimChars s.toList).isEmpty = false := by
      cases hcs : Text.trimChars s.toList with
      | nil =>
          rw [hcs] at hpieces
          cases hpieces
          cases hread
      | cons c cs => rfl
    simp only [parse, hne, Bool.false_eq_true, if_false, hpieces, ofPieces, hread]
    rfl

/-! ### Numbers out of range -/

/-- Whether a text is a number that its last letter takes out of range: its digits are a finite number,
but not their product with the factor of the letter. -/
def Overflows (s : String) : Prop :=
  ∃ number digits letter factor v,
    Text.pieces (· == ':') (Text.upperChars (Text.trimChars s.toList)) = [number] ∧
    significant number = digits ++ [letter] ∧
    multiplier? letter = some factor ∧
    Decimal.readFloat digits = some v ∧
    v.isFinite = true ∧
    (v * factor).isFinite = false

/-- The last letter of a number is split off if it stands for a factor; otherwise the factor is one. -/
theorem splitMultiplier_cases (cs : List Char) :
    (∃ digits letter factor, cs = digits ++ [letter] ∧ multiplier? letter = some factor ∧
      splitMultiplier cs = (digits, factor)) ∨ splitMultiplier cs = (cs, 1) := by
  rw [splitMultiplier]
  split
  · next factor hfactor =>
      obtain ⟨letter, hlast, hletter⟩ := Option.bind_eq_some_iff.1 hfactor
      obtain ⟨digits, rfl⟩ := List.getLast?_eq_some_iff.1 hlast
      exact Or.inl ⟨digits, letter, factor, rfl, hletter, by rw [List.dropLast_concat]⟩
  · exact Or.inr rfl

theorem splitMultiplier_concat {digits : List Char} {letter : Char} {factor : Float}
    (h : multiplier? letter = some factor) :
    splitMultiplier (digits ++ [letter]) = (digits, factor) := by
  simp [splitMultiplier, h]

/-- **The numbers that are read and not finite** are those that overflow. -/
theorem overflows_iff {s : String} :
    Overflows s ↔ ∃ x, parse s = .ok (.number x) ∧ x.isFinite = false := by
  constructor
  · rintro ⟨number, digits, letter, factor, v, hpieces, hdigits, hletter, hread, hfinite, hproduct⟩
    refine ⟨v * factor, parse_eq_number_iff.2 ⟨number, hpieces, readNumber_eq_ok_iff.2 ⟨v, ?_⟩⟩,
      hproduct⟩
    rw [hdigits, splitMultiplier_concat hletter]
    exact ⟨hread, hfinite, rfl⟩
  · rintro ⟨x, hx, hinfinite⟩
    obtain ⟨number, hpieces, hnumber⟩ := parse_eq_number_iff.1 hx
    obtain ⟨v, hread, hfinite, rfl⟩ := readNumber_eq_ok_iff.1 hnumber
    rcases splitMultiplier_cases (significant number) with
      ⟨digits, letter, factor, hdigits, hletter, hsplit⟩ | hsplit
    · rw [hsplit] at hread hinfinite
      exact ⟨number, digits, letter, factor, v, hpieces, hdigits, hletter, hread, hfinite, hinfinite⟩
    · rw [hsplit, Decimal.isFinite_mul_one hfinite] at hinfinite
      cases hinfinite

/-- The largest power of ten is a number, and the smallest of the letters takes it out of range. -/
theorem overflows_1e308k : Overflows "1e308k" := by
  refine ⟨['1', 'E', '3', '0', '8', 'K'], ['1', 'E', '3', '0', '8'], 'K', 1e3,
    .ofScientific 1 false 308, ?_, ?_, rfl, ?_, ?_, ?_⟩
  · decide +kernel
  · decide +kernel
  · with_unfolding_all rfl
  · decide +kernel
  · decide +kernel

end Forecast.Operand
