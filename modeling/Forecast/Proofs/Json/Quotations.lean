import Forecast.Json.Quoted

/-!
# Reading Texts Back

A text that is written between quotes is read back as it was, whatever its characters are. One
character at a time: what is written for a character is read as the character, and nothing of it is
taken for the closing quote.

No escape that is written names half of a surrogate pair, so the reader never has to wait for the
other half.

## Main results

* `scanQuoted_quote`: a written text is read back.
-/

namespace Forecast.Json

/-! ### Digits of base 16 -/

theorem hexValue_hexDigit : ∀ n < 16, hexValue (hexDigit n) = some n := by
  decide

/-- The code unit of two digits behind two zeros. -/
theorem codeUnit_hexDigit {n : Nat} (h : n < 32) :
    codeUnit '0' '0' (hexDigit (n / 16)) (hexDigit (n % 16)) = some n := by
  have hzero : hexValue '0' = some 0 := by decide
  rw [codeUnit, hzero, hexValue_hexDigit _ (by omega), hexValue_hexDigit _ (by omega)]
  simp only [Option.bind_eq_bind, Option.bind_some, Option.pure_def, Option.some.injEq]
  omega

/-! ### Characters -/

/-- A code unit below the surrogates is read as its character. -/
theorem Reading.pushUnit_of_lt (r : Reading) {n : Nat} (h : n < 0xD800) :
    r.pushUnit n = r.push (Char.ofNat n) := by
  rw [pushUnit, if_neg (by omega), if_neg (by omega)]

/-- A character that needs no escape is read as it stands. -/
theorem scanQuoted_plain (r : Reading) {c : Char} (hquote : c ≠ '"') (hbackslash : c ≠ '\\')
    (hcontrol : ¬ c.toNat < 32) (rest : List Char) :
    scanQuoted r (c :: rest) = scanQuoted (r.push c) rest := by
  rw [scanQuoted.eq_def]
  split
  · next heq => cases heq
  · next heq => exact absurd (List.cons.inj heq).1 hquote
  · next heq => exact absurd (List.cons.inj heq).1 hbackslash
  · next heq => exact absurd (List.cons.inj heq).1 hbackslash
  · next heq =>
      obtain ⟨rfl, rfl⟩ := List.cons.inj heq
      rw [if_neg (by simp [hcontrol, hbackslash])]

/-- What is written for a character is read as the character. -/
theorem scanQuoted_escapeChar (r : Reading) (c : Char) (rest : List Char) :
    scanQuoted r (escapeChar c ++ rest) = scanQuoted (r.push c) rest := by
  have hnamed {n : Nat} (h : c.toNat = n) : Char.ofNat n = c := by
    rw [← h, Char.ofNat_toNat]
  rw [escapeChar]
  split
  · next h => subst h; rfl
  split
  · next h => subst h; rfl
  split
  · next h => subst h; rfl
  split
  · next h => subst h; rfl
  split
  · next h => subst h; rfl
  split
  · next h => rw [← hnamed h]; rfl
  split
  · next h => rw [← hnamed h]; rfl
  split
  · next h =>
      have hunit : (r.pushUnit c.toNat) = r.push c := by
        rw [r.pushUnit_of_lt (by omega), Char.ofNat_toNat]
      rw [List.cons_append, List.cons_append, List.cons_append, List.cons_append, List.cons_append,
        List.cons_append, scanQuoted, codeUnit_hexDigit h]
      exact congrArg (scanQuoted · rest) hunit
  · next hquote hbackslash _ _ _ _ _ hcontrol =>
      exact scanQuoted_plain r hquote hbackslash hcontrol rest

/-! ### Texts -/

/-- Characters that are read one after the other. -/
theorem foldl_push (cs seen : List Char) :
    cs.foldl Reading.push ⟨seen, none, true⟩ = ⟨cs.reverse ++ seen, none, true⟩ := by
  induction cs generalizing seen with
  | nil => rfl
  | cons c cs ih =>
      rw [List.foldl_cons, Reading.push, Option.isNone_none, Bool.and_self, ih]
      simp

theorem scanQuoted_flatMap (cs : List Char) (r : Reading) (rest : List Char) :
    scanQuoted r (cs.flatMap escapeChar ++ rest) = scanQuoted (cs.foldl Reading.push r) rest := by
  induction cs generalizing r with
  | nil => rfl
  | cons c cs ih =>
      rw [List.flatMap_cons, List.append_assoc, scanQuoted_escapeChar, ih, List.foldl_cons]

/-- **A written text is read back,** up to its closing quote. -/
theorem scanQuoted_quote (cs rest : List Char) :
    scanQuoted Reading.start (cs.flatMap escapeChar ++ '"' :: rest) = some (some cs, rest) := by
  rw [scanQuoted_flatMap, Reading.start, foldl_push, scanQuoted]
  simp [Reading.text?]

end Forecast.Json
