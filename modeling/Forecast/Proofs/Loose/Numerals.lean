import Forecast.Loose.Token
import Forecast.Proofs.Json.Numerals

/-!
# Written Numbers in Loose Documents

A strict spelling of a number is scanned by the loose reader as the number that is spelled so
(`Loose.numeralOf`): of the spellings that the loose reader takes beside the strict ones, such as
those of base 16 or of infinity, none is taken for a strict one.

## Main results

* `scanToken_chars`: what is scanned of a strict spelling.
-/

namespace Forecast.Loose

open Decimal (Spelling AreDigits BeginsApart takeWhile_digits)
open Json (IsDelimited beginsApart_exponent beginsApart_fraction)

/-- The number with a spelling. -/
def numeralOf (n : Spelling) : Numeral :=
  ⟨n.negative, n.whole, n.fraction, Spelling.exponentChars n.exponent⟩

/-- The exponent of a strict spelling is scanned, also if there is none. -/
theorem scanExponent_append {n : Spelling} (h : n.IsStrict) {rest : List Char}
    (hrest : IsDelimited rest) :
    scanExponent (Spelling.exponentChars n.exponent ++ rest) =
      some (Spelling.exponentChars n.exponent, rest) := by
  cases hexponent : n.exponent with
  | none =>
      cases rest with
      | nil => rfl
      | cons c cs => rcases hrest c rfl with rfl | rfl | rfl <;> rfl
  | some e =>
      obtain ⟨sign, ds⟩ := e
      obtain ⟨hsign, hds, hne⟩ := h.exponent sign ds hexponent
      obtain ⟨htake, hdrop⟩ := takeWhile_digits hds hrest.beginsApart
      rcases hsign with rfl | rfl
      · simp [Spelling.exponentChars, scanExponent, htake, hdrop, hne]
      · simp [Spelling.exponentChars, scanExponent, htake, hdrop, hne]

/-- A strict spelling without its sign is scanned as a number of base ten. -/
theorem scanDecimal_append {n : Spelling} (h : n.IsStrict) {rest : List Char}
    (hrest : IsDelimited rest) :
    scanDecimal n.negative (n.whole ++ (Spelling.fractionChars n.fraction ++
      (Spelling.exponentChars n.exponent ++ rest))) = some (.number (numeralOf n), rest) := by
  have hafter : BeginsApart (Spelling.exponentChars n.exponent ++ rest) :=
    beginsApart_exponent n.exponent hrest.beginsApart
  obtain ⟨htake, hdrop⟩ := takeWhile_digits h.digits (beginsApart_fraction n.fraction hafter)
  have hempty : n.whole.isEmpty = false := List.isEmpty_eq_false_iff.2 h.ne_nil
  have hsingle : (n.whole.head? == some '0' && n.whole.length != 1) = false := by
    rw [Bool.and_eq_false_iff]
    by_cases hhead : n.whole.head? = some '0'
    · exact Or.inr (by rw [h.single hhead]; rfl)
    · exact Or.inl (beq_false_of_ne hhead)
  have hexp := scanExponent_append h hrest
  rw [scanDecimal, numeralOf]
  simp only [htake, hdrop, hempty, hsingle, Bool.false_and, if_false, Bool.false_eq_true]
  cases hfraction : n.fraction with
  | some ds =>
      obtain ⟨hds, hne⟩ := h.fraction ds hfraction
      obtain ⟨hdigits, hothers⟩ := takeWhile_digits hds hafter
      simp only [Spelling.fractionChars, List.cons_append, hdigits, hothers, hexp]
      rfl
  | none =>
      cases hexponent : n.exponent with
      | none =>
          cases rest with
          | nil => rfl
          | cons c cs => rcases hrest c rfl with rfl | rfl | rfl <;> rfl
      | some e =>
          rw [hexponent] at hexp
          simp only [Spelling.fractionChars, Spelling.exponentChars, List.nil_append,
            List.cons_append] at hexp ⊢
          change (scanExponent ('e' :: e.1 :: (e.2 ++ rest)) >>= fun r =>
            some (number ⟨n.negative, n.whole, none, r.1⟩, r.2)) = _
          rw [hexp]
          rfl

/-- A strict spelling without its sign is not taken for one of base 16. -/
theorem scanUnsigned_append {n : Spelling} (h : n.IsStrict) {rest : List Char}
    (hrest : IsDelimited rest) :
    scanUnsigned n.negative (n.whole ++ (Spelling.fractionChars n.fraction ++
      (Spelling.exponentChars n.exponent ++ rest))) = some (.number (numeralOf n), rest) := by
  have hdecimal := scanDecimal_append h hrest
  rw [scanUnsigned.eq_def]
  split
  · next x d cs heq =>
      have hx : x ≠ 'x' ∧ x ≠ 'X' := by
        have hhead : n.whole.head? = some '0' := by
          obtain ⟨c, ds, hds⟩ := List.exists_cons_of_ne_nil h.ne_nil
          rw [hds] at heq ⊢
          rw [(List.cons.inj heq).1]
          rfl
        rw [h.single hhead] at heq
        have hrest' := (List.cons.inj heq).2
        -- behind a single zero there is a point, the letter of an exponent, or no number any more
        cases hfraction : n.fraction with
        | some ds =>
            rw [hfraction] at hrest'
            obtain rfl : '.' = x := (List.cons.inj hrest').1
            decide
        | none =>
            cases hexponent : n.exponent with
            | some e =>
                rw [hfraction, hexponent] at hrest'
                obtain rfl : 'e' = x := (List.cons.inj hrest').1
                decide
            | none =>
                rw [hfraction, hexponent] at hrest'
                have hmem : x ∈ rest.head? := by
                  rw [show rest = x :: d :: cs from hrest']
                  rfl
                rcases hrest x hmem with rfl | rfl | rfl <;> decide
      rw [heq] at hdecimal
      rw [if_neg (by simp [hx.1, hx.2]), hdecimal]
  · exact hdecimal

/-- A digit is not the beginning of a word. -/
theorem beginsWith_of_isDigit {word : String} {c w : Char} {ws : List Char}
    (hword : word.toList = w :: ws) (hw : w.isDigit = false) (hc : c.isDigit = true)
    (cs : List Char) : beginsWith word (c :: cs) = false := by
  have hlower : c.toLower = c := by
    simp only [Char.isDigit, Bool.and_eq_true, decide_eq_true_eq] at hc
    exact dif_neg fun hupper => absurd (UInt32.le_trans hupper.1 hc.2) (by decide)
  obtain ⟨k, hk⟩ : ∃ k, word.length = k + 1 := by
    rw [← String.length_toList, hword]
    exact ⟨_, rfl⟩
  rw [beginsWith, hword, hk, List.take_succ_cons, List.map_cons, hlower]
  refine beq_false_of_ne fun heq => ?_
  rw [(List.cons.inj heq).1, hw] at hc
  cases hc

/-- **A strict spelling is a token with the number that is spelled so.** -/
theorem scanToken_chars {n : Spelling} (h : n.IsStrict) {rest : List Char}
    (hrest : IsDelimited rest) :
    scanToken (n.chars ++ rest) = some (.leaf (.number (numeralOf n)), rest) := by
  have hunsigned := scanUnsigned_append h hrest
  obtain ⟨d, ds, hds⟩ := List.exists_cons_of_ne_nil h.ne_nil
  have hdigit : d.isDigit = true := h.digits d (by rw [hds]; exact List.mem_cons_self)
  rw [Spelling.chars, List.append_assoc, List.append_assoc, List.append_assoc]
  rw [hds, List.cons_append] at hunsigned ⊢
  cases hnegative : n.negative with
  | true =>
      rw [hnegative] at hunsigned
      rw [Spelling.signChars, if_pos rfl, List.singleton_append, scanToken, scanSigned,
        beginsWith_of_isDigit (by rfl) (by decide) hdigit,
        beginsWith_of_isDigit (by rfl) (by decide) hdigit]
      simp only [Bool.false_eq_true, if_false, hunsigned, Option.map_some]
  | false =>
      rw [hnegative] at hunsigned
      have hne {c : Char} (hc : c.isDigit = false) : d ≠ c := by
        rintro rfl
        rw [hdigit] at hc
        cases hc
      rw [Spelling.signChars, if_neg (by decide), List.nil_append, scanToken.eq_def]
      split
      all_goals first
        | exact absurd (List.cons.inj ‹_›).1 (hne (by decide))
        | skip
      · next heq =>
          obtain ⟨rfl, rfl⟩ := List.cons.inj heq
          rw [hdigit, Bool.true_or, if_pos rfl, hunsigned]
          rfl
      · next heq => cases heq

end Forecast.Loose
