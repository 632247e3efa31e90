import Mathlib.Data.List.TakeWhile
import Forecast.Clause.Token

/-!
# What a Text Is Cut Into

The tokens of a clause, said of the text and not of the cutting: blanks of ASCII are passed over, a
parenthesis is a token, and so is every run of word characters that is as long as it can be, which
is read in lower case. No rule covers any other character, so a text with one has no tokens at all
(`Clause.Lexes`).

`toList?_tokens` says that cutting a text finds exactly these tokens. The only point of the proof is
that the rules do not overlap: what begins a word is neither a blank nor a parenthesis.
-/

namespace Forecast

namespace Clause

/-- What tokens a text has. -/
inductive Lexes : List Char → List Token → Prop
  | finish : Lexes [] []
  | gap {c : Char} {cs : List Char} {ts : List Token} :
      isGap c = true → Lexes cs ts → Lexes (c :: cs) ts
  | openParen {cs : List Char} {ts : List Token} :
      Lexes cs ts → Lexes ('(' :: cs) (.openParen :: ts)
  | closeParen {cs : List Char} {ts : List Token} :
      Lexes cs ts → Lexes (')' :: cs) (.closeParen :: ts)
  /-- A run of word characters that ends where the text does or where another character follows. -/
  | word {w cs : List Char} {ts : List Token} :
      w ≠ [] → (∀ c ∈ w, isWordChar c = true) → (∀ c ∈ cs.head?, isWordChar c = false) →
        Lexes cs ts → Lexes (w ++ cs) (ofWord (String.ofList (Text.lowerChars w)) :: ts)

/-! ### Words begin like nothing else -/

/-- What begins a word is neither a blank nor a parenthesis. -/
theorem not_gap_of_isWordChar {c : Char} (h : isWordChar c = true) :
    isGap c = false ∧ c ≠ '(' ∧ c ≠ ')' := by
  refine ⟨?_, ?_, ?_⟩
  · by_contra hgap
    simp only [isGap, Bool.not_eq_false, Bool.or_eq_true, beq_iff_eq] at hgap
    rcases hgap with (((rfl | rfl) | rfl) | rfl) | rfl <;> revert h <;> decide
  · rintro rfl
    revert h
    decide
  · rintro rfl
    revert h
    decide

/-- The rest of a run begins with no word character. -/
theorem not_isWordChar_of_head?_dropWhile {cs : List Char} :
    ∀ c ∈ (cs.dropWhile isWordChar).head?, isWordChar c = false := by
  intro c hc
  have hnot := List.head?_dropWhile_not isWordChar cs
  rw [Option.mem_def.1 hc] at hnot
  simpa using hnot

/-- A run that is as long as it can be is what cutting takes. -/
theorem takeWhile_dropWhile_append {w cs : List Char} (hw : ∀ c ∈ w, isWordChar c = true)
    (hcs : ∀ c ∈ cs.head?, isWordChar c = false) :
    (w ++ cs).takeWhile isWordChar = w ∧ (w ++ cs).dropWhile isWordChar = cs := by
  have hrest : cs.takeWhile isWordChar = [] ∧ cs.dropWhile isWordChar = cs := by
    cases cs with
    | nil => exact ⟨rfl, rfl⟩
    | cons c cs =>
        have hc : isWordChar c = false := hcs c rfl
        simp [hc]
  obtain ⟨htake, hdrop⟩ := hrest
  constructor
  · rw [List.takeWhile_append_of_pos hw, htake, List.append_nil]
  · rw [List.dropWhile_append_of_pos hw, hdrop]

/-! ### Cutting finds the tokens -/

/-- A text that cutting goes through has the tokens that are found. -/
theorem lexes_of_toList? {position : Nat} {cs : List Char} {ts : List Token}
    (h : (tokensFrom position cs).toList? = some ts) : Lexes cs ts := by
  fun_induction tokensFrom position cs generalizing ts with
  | case1 position =>
      simp only [Tokens.toList?, Option.some.injEq] at h
      exact h ▸ .finish
  | case2 position c cs hgap ih => exact .gap hgap (ih h)
  | case3 position cs _ ih =>
      simp only [Tokens.toList?, Option.map_eq_some_iff] at h
      obtain ⟨us, hus, rfl⟩ := h
      exact .openParen (ih hus)
  | case4 position cs _ _ ih =>
      simp only [Tokens.toList?, Option.map_eq_some_iff] at h
      obtain ⟨us, hus, rfl⟩ := h
      exact .closeParen (ih hus)
  | case5 position c cs _ _ _ hc word =>
      rename_i ih
      simp only [Tokens.toList?, Option.map_eq_some_iff] at h
      obtain ⟨us, hus, rfl⟩ := h
      have hword : ∀ d ∈ word, isWordChar d = true := by
        intro d hd
        rcases List.mem_cons.1 hd with rfl | hd
        · exact hc
        · exact List.mem_takeWhile_imp hd
      have hsplit : word ++ cs.dropWhile isWordChar = c :: cs := by
        simp only [word, List.cons_append, List.takeWhile_append_dropWhile]
      rw [← hsplit]
      exact .word (List.cons_ne_nil _ _) hword not_isWordChar_of_head?_dropWhile (ih hus)
  | case6 position c cs _ _ _ _ => simp only [Tokens.toList?, reduceCtorEq] at h

/-- Cutting goes through a text that has tokens, and finds them. -/
theorem toList?_of_lexes {cs : List Char} {ts : List Token} (h : Lexes cs ts) (position : Nat) :
    (tokensFrom position cs).toList? = some ts := by
  induction h generalizing position with
  | finish => rw [tokensFrom, Tokens.toList?]
  | gap hgap _ ih =>
      rw [tokensFrom, if_pos hgap]
      exact ih _
  | openParen _ ih =>
      rw [tokensFrom, if_neg (by decide), if_pos rfl, Tokens.toList?, ih, Option.map_some]
  | closeParen _ ih =>
      rw [tokensFrom, if_neg (by decide), if_neg (by decide), if_pos rfl, Tokens.toList?, ih,
        Option.map_some]
  | @word w cs ts hne hw hcs _ ih =>
      obtain ⟨c, w, rfl⟩ := List.exists_cons_of_ne_nil hne
      obtain ⟨hc, hw⟩ := List.forall_mem_cons.1 hw
      obtain ⟨hgap, hopen, hclose⟩ := not_gap_of_isWordChar hc
      obtain ⟨htake, hdrop⟩ := takeWhile_dropWhile_append hw hcs
      rw [List.cons_append, tokensFrom, if_neg (Bool.eq_false_iff.1 hgap), if_neg hopen,
        if_neg hclose, if_pos hc]
      simp only [Tokens.toList?, htake, hdrop, ih, Option.map_some]

/-- **Cutting a text finds exactly its tokens,** and goes through exactly if it has any. -/
theorem toList?_tokens {text : String} {ts : List Token} :
    (tokens text).toList? = some ts ↔ Lexes text.toList ts :=
  ⟨lexes_of_toList?, fun h => toList?_of_lexes h 0⟩

end Clause

end Forecast
