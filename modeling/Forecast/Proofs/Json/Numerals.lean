import Forecast.Json.Token
import Forecast.Proofs.Decimal.Spelling

/-!
# Reading Numbers Back

A strict spelling is scanned as one number, whatever document it stands in: after a value a document
goes on with a comma or a closing bracket, if at all, and none of these can belong to a number.

What the number is worth is another matter, which the scanner leaves to `Numeral.value`.

## Main results

* `scanNumeral_chars`, `scanToken_chars`: what is scanned of a strict spelling.
-/

namespace Forecast.Json

open Decimal (Spelling AreDigits BeginsApart digitsValue takeWhile_digits)

/-- What may follow a value in a document: nothing, a comma or a closing bracket. -/
def IsDelimited (cs : List Char) : Prop :=
  ∀ c ∈ cs.head?, c = ',' ∨ c = ']' ∨ c = '\x7d'

theorem isDelimited_nil : IsDelimited [] := by
  intro c hc
  cases hc

theorem isDelimited_comma (cs : List Char) : IsDelimited (',' :: cs) := by
  intro c hc
  cases hc
  exact Or.inl rfl

theorem isDelimited_closeArray (cs : List Char) : IsDelimited (']' :: cs) := by
  intro c hc
  cases hc
  exact Or.inr (Or.inl rfl)

theorem isDelimited_closeObject (cs : List Char) : IsDelimited ('\x7d' :: cs) := by
  intro c hc
  cases hc
  exact Or.inr (Or.inr rfl)

/-- The number that a spelling stands for. -/
def numeralOf (n : Spelling) : Numeral :=
  ⟨n.negative, n.whole, n.fraction,
    n.exponent.map fun e => (if e.1 = '-' then -1 else 1) * digitsValue e.2⟩

theorem IsDelimited.beginsApart {cs : List Char} (h : IsDelimited cs) : BeginsApart cs := by
  intro c hc
  rcases h c hc with rfl | rfl | rfl <;> decide

/-- Digits are scanned up to where they end. -/
theorem scanDigits_append {ds rest : List Char} (hds : AreDigits ds) (hne : ds ≠ [])
    (hrest : BeginsApart rest) : scanDigits (ds ++ rest) = some (ds, rest) := by
  rw [scanDigits, (takeWhile_digits hds hrest).1, if_neg hne, List.drop_left]

/-- The whole part of a strict spelling is scanned. -/
theorem scanWhole_append {n : Spelling} (h : n.IsStrict) {rest : List Char}
    (hrest : BeginsApart rest) : scanWhole (n.whole ++ rest) = some (n.whole, rest) := by
  rw [scanWhole.eq_def]
  split
  · next cs heq =>
      obtain ⟨d, ds, hds⟩ := List.exists_cons_of_ne_nil h.ne_nil
      have hd : d = '0' := by
        rw [hds] at heq
        exact (List.cons.inj heq).1
      have hsingle := h.single (by rw [hds, hd]; rfl)
      rw [hsingle] at heq ⊢
      rw [← (List.cons.inj heq).2]
      rfl
  · rw [(takeWhile_digits h.digits hrest).1, if_neg h.ne_nil, List.drop_left]

/-- An exponent, or nothing, begins with no digit. -/
theorem beginsApart_exponent (e : Option (Char × List Char)) {rest : List Char}
    (hrest : BeginsApart rest) : BeginsApart (Spelling.exponentChars e ++ rest) := by
  cases e with
  | none => exact hrest
  | some e => exact fun c hc => by cases hc; decide

/-- A fraction, or nothing, begins with no digit. -/
theorem beginsApart_fraction (f : Option (List Char)) {rest : List Char}
    (hrest : BeginsApart rest) : BeginsApart (Spelling.fractionChars f ++ rest) := by
  cases f with
  | none => exact hrest
  | some ds => exact fun c hc => by cases hc; decide

/-- The exponent of a strict spelling is scanned, also if there is none. -/
theorem scanExponent_append {n : Spelling} (h : n.IsStrict) {rest : List Char}
    (hrest : IsDelimited rest) :
    scanExponent (Spelling.exponentChars n.exponent ++ rest) =
      some ((numeralOf n).exponent, rest) := by
  rw [numeralOf]
  cases hexponent : n.exponent with
  | none =>
      cases rest with
      | nil => rfl
      | cons c cs => rcases hrest c rfl with rfl | rfl | rfl <;> rfl
  | some e =>
      obtain ⟨sign, ds⟩ := e
      obtain ⟨hsign, hds, hne⟩ := h.exponent sign ds hexponent
      have hscan := scanDigits_append hds hne hrest.beginsApart
      rcases hsign with rfl | rfl
      · simp [Spelling.exponentChars, scanExponent, scanSignedExponent, scanExponentDigits, hscan]
      · simp [Spelling.exponentChars, scanExponent, scanSignedExponent, scanExponentDigits, hscan]

/-- The fraction of a strict spelling is scanned, also if there is none. -/
theorem scanFraction_append {n : Spelling} (h : n.IsStrict) {rest : List Char}
    (hrest : IsDelimited rest) :
    scanFraction (Spelling.fractionChars n.fraction ++
      (Spelling.exponentChars n.exponent ++ rest)) =
      some (n.fraction, Spelling.exponentChars n.exponent ++ rest) := by
  cases hfraction : n.fraction with
  | none =>
      cases hexponent : n.exponent with
      | none =>
          cases rest with
          | nil => rfl
          | cons c cs => rcases hrest c rfl with rfl | rfl | rfl <;> rfl
      | some e => rfl
  | some ds =>
      obtain ⟨hds, hne⟩ := h.fraction ds hfraction
      have hscan := scanDigits_append hds hne (beginsApart_exponent n.exponent hrest.beginsApart)
      simp [Spelling.fractionChars, scanFraction, hscan]

/-- **A strict spelling is scanned as the number that it stands for.** -/
theorem scanNumeral_chars {n : Spelling} (h : n.IsStrict) {rest : List Char}
    (hrest : IsDelimited rest) : scanNumeral (n.chars ++ rest) = some (numeralOf n, rest) := by
  have hunsigned : scanUnsigned n.negative (n.whole ++ (Spelling.fractionChars n.fraction ++
      (Spelling.exponentChars n.exponent ++ rest))) = some (numeralOf n, rest) := by
    have hwhole := scanWhole_append h
      (beginsApart_fraction n.fraction (beginsApart_exponent n.exponent hrest.beginsApart))
    rw [scanUnsigned, hwhole]
    simp only [Option.bind_eq_bind, Option.bind_some, scanFraction_append h hrest,
      scanExponent_append h hrest]
    rfl
  rw [Spelling.chars, List.append_assoc, List.append_assoc, List.append_assoc]
  cases hnegative : n.negative with
  | true =>
      rw [hnegative] at hunsigned
      exact hunsigned
  | false =>
      rw [hnegative] at hunsigned
      rw [Spelling.signChars, if_neg (by decide), List.nil_append, scanNumeral.eq_def]
      split
      · next heq =>
          -- a digit is no minus sign
          obtain ⟨d, ds, hds⟩ := List.exists_cons_of_ne_nil h.ne_nil
          have hdigit := h.digits d (by rw [hds]; exact List.mem_cons_self)
          rw [hds] at heq
          rw [(List.cons.inj heq).1] at hdigit
          exact absurd hdigit (by decide)
      · exact hunsigned

/-- A strict spelling begins with a digit or a minus sign. -/
theorem exists_chars_cons {n : Spelling} (h : n.IsStrict) :
    ∃ c cs, n.chars = c :: cs ∧ (c.isDigit = true ∨ c = '-') := by
  obtain ⟨d, ds, hds⟩ := List.exists_cons_of_ne_nil h.ne_nil
  have hdigit := h.digits d (by rw [hds]; exact List.mem_cons_self)
  rw [Spelling.chars, hds]
  cases n.negative with
  | true => exact ⟨_, _, rfl, Or.inr rfl⟩
  | false => exact ⟨_, _, rfl, Or.inl hdigit⟩

/-- **A strict spelling is a token with the value of its number.** -/
theorem scanToken_chars {n : Spelling} (h : n.IsStrict) {rest : List Char}
    (hrest : IsDelimited rest) :
    scanToken (n.chars ++ rest) = some (.leaf (numeralOf n).value, rest) := by
  have hscan := scanNumeral_chars h hrest
  obtain ⟨c, cs, hcs, hc⟩ := exists_chars_cons h
  rw [hcs, List.cons_append] at hscan ⊢
  have hne {d : Char} (hd : d.isDigit = false ∧ d ≠ '-') : c ≠ d := by
    rintro rfl
    rcases hc with hc | hc
    · rw [hd.1] at hc
      cases hc
    · exact hd.2 hc
  rw [scanToken.eq_def]
  split <;>
    first
      | exact absurd (List.cons.inj ‹_›).1 (hne (by decide))
      | rw [hscan]; rfl

end Forecast.Json
