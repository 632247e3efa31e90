import Forecast.Loose.Part
import Forecast.Proofs.Json.Quotations

/-!
# Written Texts in Loose Documents

A text that is written strictly is read by the loose reader as well: part by part
(`Loose.partOf`), and the characters of the parts are those of the text. So a loose text that was
written for a text is that text and no other.

## Main results

* `scanText_quote`: what is read of a written text.
* `isText_textOf`: which text it is.
-/

namespace Forecast.Loose

open Json (escapeChar hexDigit hexValue)

/-- The part that is written for a character. -/
def partOf (c : Char) : Part :=
  if c = '"' then .escaped '"'
  else if c = '\\' then .escaped '\\'
  else if c = '\n' then .escaped 'n'
  else if c = '\t' then .escaped 't'
  else if c = '\r' then .escaped 'r'
  else if c.toNat = 8 then .escaped 'b'
  else if c.toNat = 12 then .escaped 'f'
  else if c.toNat < 32 then .unit '0' '0' (hexDigit (c.toNat / 16)) (hexDigit (c.toNat % 16))
  else .plain c

/-- The text that is written for some characters. -/
def textOf (s : String) : Text :=
  s.toList.map partOf

/-! ### Reading -/

/-- A character that needs no escape is read as it stands. -/
theorem scanText_plain {c : Char} (hquote : c ≠ '"') (hbackslash : c ≠ '\\') (cs : List Char) :
    scanText '"' (c :: cs) = consPart (.plain c) (scanText '"' cs) := by
  rw [scanText.eq_def]
  split
  · next heq => cases heq
  · next heq => exact absurd (List.cons.inj heq).1 hbackslash
  · next heq => exact absurd (List.cons.inj heq).1 hbackslash
  · next heq => exact absurd (List.cons.inj heq).1 hbackslash
  · next heq => exact absurd (List.cons.inj heq).1 hbackslash
  · next heq =>
      obtain ⟨rfl, rfl⟩ := List.cons.inj heq
      rw [if_neg hquote, if_neg hbackslash]

theorem isHexDigit_hexDigit {n : Nat} (h : n < 16) : isHexDigit (hexDigit n) = true := by
  rw [isHexDigit, Json.hexValue_hexDigit n h]
  rfl

/-- What is written for a character is read as its part. -/
theorem scanText_escapeChar (c : Char) (cs : List Char) :
    scanText '"' (escapeChar c ++ cs) = consPart (partOf c) (scanText '"' cs) := by
  rw [escapeChar, partOf]
  split
  · rfl
  split
  · rfl
  split
  · rfl
  split
  · rfl
  split
  · rfl
  split
  · rfl
  split
  · rfl
  split
  · next h =>
      have hzero : isHexDigit '0' = true := by decide
      have hdigits : [('0' : Char), '0', hexDigit (c.toNat / 16), hexDigit (c.toNat % 16)].all
          isHexDigit = true := by
        simp only [List.all_cons, hzero, isHexDigit_hexDigit (show c.toNat / 16 < 16 by omega),
          isHexDigit_hexDigit (show c.toNat % 16 < 16 by omega), List.all_nil, Bool.and_self]
      rw [List.cons_append, List.cons_append, List.cons_append, List.cons_append, List.cons_append,
        List.cons_append, scanText, if_pos hdigits]
      rfl
  · next hquote hbackslash _ _ _ _ _ _ => exact scanText_plain hquote hbackslash cs

/-- **A written text is read,** up to its closing quote. -/
theorem scanText_quote (s : String) (rest : List Char) :
    scanText '"' (s.toList.flatMap escapeChar ++ '"' :: rest) = some (textOf s, rest) := by
  rw [textOf]
  induction s.toList with
  | nil => rfl
  | cons c cs ih =>
      rw [List.flatMap_cons, List.append_assoc, scanText_escapeChar, ih, List.map_cons]
      rfl

/-! ### Characters -/

/-- The part that is written for a character is the character. -/
theorem charactersAfter_partOf (c : Char) (ps : Text) :
    charactersAfter none (partOf c :: ps) = some c :: charactersAfter none ps := by
  have hnamed {n : Nat} (h : c.toNat = n) : Char.ofNat n = c := by
    rw [← h, Char.ofNat_toNat]
  rw [partOf]
  split
  · next h => subst h; rfl
  split
  · next h => subst h; rfl
  split
  · next h => subst h; rfl
  split
  · next h => subst h; rfl
  split
  · next h => subst h; rfl
  split
  · next h => rw [← hnamed h]; rfl
  split
  · next h => rw [← hnamed h]; rfl
  split
  · next h =>
      rw [charactersAfter, Json.codeUnit_hexDigit h, Option.getD_some, if_neg (by omega),
        if_neg (by omega), Char.ofNat_toNat]
      rfl
  · rfl

theorem characters_textOf (s : String) : characters (textOf s) = s.toList.map some := by
  rw [characters, textOf]
  induction s.toList with
  | nil => rfl
  | cons c cs ih => rw [List.map_cons, charactersAfter_partOf, ih, List.map_cons]

/-- **The text that is written for a text is that text** and no other. -/
theorem isText_textOf (s t : String) : isText s (textOf t) = decide (t = s) := by
  have hinj : t.toList.map some = s.toList.map some ↔ t = s := by
    rw [List.map_inj_right fun _ _ => Option.some.inj, String.toList_inj]
  rw [isText, characters_textOf, Bool.eq_iff_iff, beq_iff_eq, decide_eq_true_eq, hinj]

/-! ### The character with the number 0 -/

/-- A character other than that with the number 0. -/
theorem ne_nul_of_toNat {c : Char} (h : c.toNat ≠ 0) : c ≠ nul := by
  rintro rfl
  exact h rfl

theorem ne_nul_hexDigit : ∀ n < 16, hexDigit n ≠ nul := by
  decide

/-- The character with the number 0 is written as an escape. -/
theorem ne_nul_of_mem_escapeChar {c d : Char} (h : d ∈ escapeChar c) : d ≠ nul := by
  rw [escapeChar] at h
  have hplain : ¬ c.toNat < 32 → c ≠ nul := fun hc => ne_nul_of_toNat (by omega)
  have hlow : c.toNat < 32 → hexDigit (c.toNat / 16) ≠ nul ∧ hexDigit (c.toNat % 16) ≠ nul :=
    fun hc => ⟨ne_nul_hexDigit _ (by omega), ne_nul_hexDigit _ (by omega)⟩
  have hfixed : '\\' ≠ nul ∧ '"' ≠ nul ∧ 'n' ≠ nul ∧ 't' ≠ nul ∧ 'r' ≠ nul ∧ 'b' ≠ nul ∧ 'f' ≠ nul ∧
      'u' ≠ nul ∧ '0' ≠ nul := by
    decide
  grind

theorem ne_nul_of_mem_quote {cs : List Char} {d : Char} (h : d ∈ Json.quote cs) : d ≠ nul := by
  have hquote : '"' ≠ nul := by decide
  rw [Json.quote] at h
  rcases List.mem_append.1 h with h | h
  · rcases List.mem_cons.1 h with rfl | h
    · exact hquote
    · obtain ⟨c, -, hd⟩ := List.mem_flatMap.1 h
      exact ne_nul_of_mem_escapeChar hd
  · obtain rfl := List.mem_singleton.1 h
    exact hquote

end Forecast.Loose
