import Mathlib.Data.List.DropRight
import Forecast.Text.Words

/-!
# Variants of a Text

How far what an author writes may vary. Blanks around a text are dropped once and for all
(`trim_trim`), and a text is blank throughout if nothing is left of it (`trim_eq_empty_iff`).
Reading in upper case lets letters vary, but no sign: what is below the letter `A` is the upper case
of itself and of nothing else, neither of a character that is written with several letters in upper
case nor of one far above ASCII (`eq_of_upperChars_eq`).
-/

namespace Forecast.Text

/-! ### Blanks around a text -/

/-- What is left begins with no blank. -/
theorem not_isBlank_head_trimStart {cs : List Char} (h : trimStart cs ≠ []) :
    isBlank ((trimStart cs).head h) = false :=
  List.head_dropWhile_not isBlank h

/-- Dropping blanks from both ends leaves no blank at the front. -/
theorem trimStart_trimChars (cs : List Char) : trimStart (trimChars cs) = trimChars cs := by
  obtain ⟨rest, hrest⟩ : trimChars cs <+: trimStart cs :=
    List.rdropWhile_prefix isBlank (trimStart cs)
  cases hcs : trimChars cs with
  | nil => rfl
  | cons c ds =>
      rw [hcs, List.cons_append] at hrest
      have hne : trimStart cs ≠ [] := by
        rw [← hrest]
        exact List.cons_ne_nil _ _
      have hc := not_isBlank_head_trimStart hne
      simp only [← hrest, List.head_cons] at hc
      rw [trimStart, List.dropWhile_cons_of_neg (by simp [hc])]

/-- **Blanks around a text are dropped once and for all.** -/
@[simp] theorem trimChars_trimChars (cs : List Char) : trimChars (trimChars cs) = trimChars cs := by
  have hend : trimEnd (trimChars cs) = trimChars cs :=
    List.rdropWhile_idempotent isBlank (trimStart cs)
  rw [trimChars, trimStart_trimChars, hend]

@[simp] theorem toList_trim (s : String) : (trim s).toList = trimChars s.toList :=
  String.toList_ofList

@[simp] theorem trim_trim (s : String) : trim (trim s) = trim s := by
  rw [trim, toList_trim, trimChars_trimChars, trim]

/-- Nothing is left of a text that is blank throughout, and of no other. -/
theorem trim_eq_empty_iff {s : String} : trim s = "" ↔ isBlankText s = true := by
  have hempty : trim s = "" ↔ trimChars s.toList = [] := by
    rw [← String.toList_inj, toList_trim]
    rfl
  have hend : trimChars s.toList = [] ↔ ∀ c ∈ trimStart s.toList, isBlank c = true :=
    List.rdropWhile_eq_nil_iff
  rw [hempty, hend, isBlankText, List.all_eq_true]
  constructor
  · intro h
    have hnone : trimStart s.toList = [] := by
      by_contra hne
      have hhead := not_isBlank_head_trimStart hne
      rw [h _ (List.head_mem hne)] at hhead
      cases hhead
    exact List.dropWhile_eq_nil_iff.1 hnone
  · intro h c hc
    exact h c ((List.dropWhile_sublist isBlank).subset hc)

/-! ### Signs in upper case -/

/-- Whether the images of a run are characters from `A` on. -/
def Shift.IsAbove (s : Shift) : Prop :=
  65 ≤ s.first + s.delta ∧
    (s.last + s.delta < 0xD800 ∨ 0xDFFF < s.first + s.delta ∧ s.last + s.delta < 0x110000)

instance (s : Shift) : Decidable s.IsAbove :=
  inferInstanceAs (Decidable (_ ∧ _))

/-- Whether some code points are characters from `A` on. -/
def AreAbove (points : List Nat) : Prop :=
  points ≠ [] ∧ ∀ n ∈ points, 65 ≤ n ∧ n.isValidChar

instance (points : List Nat) : Decidable (AreAbove points) :=
  inferInstanceAs (Decidable (_ ∧ _))

theorem isAbove_of_mem_upperShifts : ∀ s ∈ upperShifts, s.IsAbove := by
  decide +kernel

theorem areAbove_of_mem_upperExpansions : ∀ e ∈ upperExpansions, AreAbove e.2 := by
  decide +kernel

theorem toNat_ofNat {n : Nat} (h : n.isValidChar) : (Char.ofNat n).toNat = n := by
  rw [Char.ofNat, dif_pos h]
  rfl

theorem toUpper_cases : ∀ n < 128,
    (Char.ofNat n).toUpper = Char.ofNat n ∨ 65 ≤ (Char.ofNat n).toUpper.toNat := by
  decide

/-- The upper case of a character is itself, or all of it are characters from `A` on. -/
theorem upperChar_cases (c : Char) :
    upperChar c = [c] ∨ upperChar c ≠ [] ∧ ∀ d ∈ upperChar c, 65 ≤ d.toNat := by
  rw [upperChar]
  split
  · next hascii =>
      have hc := toUpper_cases c.toNat hascii
      rw [Char.ofNat_toNat] at hc
      rcases hc with hsame | habove
      · exact Or.inl (by rw [hsame])
      · exact Or.inr ⟨List.cons_ne_nil _ _, by simpa using habove⟩
  · rw [shifted]
    split
    · next points hpoints =>
        obtain ⟨before, after, hexpansions, -⟩ := List.lookup_eq_some_iff.1 hpoints
        obtain ⟨hne, habove⟩ := areAbove_of_mem_upperExpansions (c.toNat, points) (by
          rw [hexpansions]
          exact List.mem_append_right _ List.mem_cons_self)
        refine Or.inr ⟨by simpa using hne, fun d hd => ?_⟩
        obtain ⟨n, hn, rfl⟩ := List.mem_map.1 hd
        rw [toNat_ofNat (habove n hn).2]
        exact (habove n hn).1
    · split
      · next s hs =>
          obtain ⟨hlow, hvalid⟩ := isAbove_of_mem_upperShifts s (List.mem_of_find?_eq_some hs)
          have hwithin := List.find?_some hs
          simp only [Shift.contains, Bool.and_eq_true, decide_eq_true_eq] at hwithin
          have hchar : (Int.toNat (c.toNat + s.delta)).isValidChar := by
            unfold Nat.isValidChar
            omega
          refine Or.inr ⟨List.cons_ne_nil _ _, fun d hd => ?_⟩
          rw [List.mem_singleton.1 hd, toNat_ofNat hchar]
          omega
      · exact Or.inl rfl

/-- **A text of signs is the upper case of itself only.** -/
theorem eq_of_upperChars_eq {cs ds : List Char} (hds : ∀ d ∈ ds, d.toNat < 65)
    (h : upperChars cs = ds) : cs = ds := by
  induction cs generalizing ds with
  | nil => exact h
  | cons c cs ih =>
      have hsplit : upperChar c ++ upperChars cs = ds := h
      rcases upperChar_cases c with hsame | ⟨hne, habove⟩
      · rw [hsame, List.singleton_append] at hsplit
        rw [← hsplit, ← ih (fun d hd => hds d ?_) rfl]
        rw [← hsplit]
        exact List.mem_cons_of_mem c hd
      · have hmem := List.head_mem hne
        have hlow := hds _ (hsplit ▸ List.mem_append_left _ hmem)
        exact absurd (habove _ hmem) (Nat.not_le.2 hlow)

end Forecast.Text
