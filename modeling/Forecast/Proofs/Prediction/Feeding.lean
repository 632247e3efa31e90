import Forecast.Prediction
import Forecast.Proofs.Condition.Feeding

/-!
# Feeding the Conditions of a Prediction

The market reaches a prediction by one way only: some condition is fed a set of ticks, and takes it
or refuses it. A run of a prediction is a list of such feedings. This module says what a run leaves
alone and packages induction along it: a preorder on conditions that holds across every single
feeding holds, at every position, between the beginning of a run and its end
(`rel_given_feedAll`).
-/

namespace Forecast

/-- A set of ticks for the condition at a position. -/
structure Feeding where
  index : Nat
  ticks : TickSet Price

namespace Prediction

/-- Feeds one condition. If there is none at the position, or it refuses the ticks, the prediction
stays as it was. -/
def feed (p : Prediction) (f : Feeding) : Prediction :=
  match p.given[f.index]? with
  | none => p
  | some c =>
    match c.feed f.ticks with
    | .ok d => p.setCondition f.index d
    | .error _ => p

/-- Feeds conditions in turn. -/
def feedAll (p : Prediction) (fs : List Feeding) : Prediction :=
  fs.foldl feed p

/-- A feeding does nothing, or it puts what a condition becomes in its place. -/
theorem feed_cases (p : Prediction) (f : Feeding) :
    p.feed f = p ∨
      ∃ c d, p.given[f.index]? = some c ∧ c.feed f.ticks = .ok d ∧
        p.feed f = p.setCondition f.index d := by
  rw [feed]
  cases hc : p.given[f.index]? with
  | none => exact Or.inl rfl
  | some c =>
      dsimp only
      cases hd : c.feed f.ticks with
      | error e => exact Or.inl rfl
      | ok d => exact Or.inr ⟨c, d, rfl, hd, rfl⟩

/-- A feeding that is accepted puts what the condition becomes in its place. -/
theorem feed_of_ok {p : Prediction} {i : Nat} {ticks : TickSet Price} {c d : Condition Price}
    (hc : p.given[i]? = some c) (hd : c.feed ticks = .ok d) :
    p.feed ⟨i, ticks⟩ = p.setCondition i d := by
  simp only [feed, hc, hd]

/-! ### What a run leaves alone -/

/-- A feeding changes nothing but the conditions. -/
theorem feed_frame (p : Prediction) (f : Feeding) :
    p.feed f = { p with given := (p.feed f).given } := by
  rcases p.feed_cases f with h | ⟨c, d, -, -, h⟩
  · rw [h]
  · rw [h, setCondition]

/-- A run changes nothing but the conditions. -/
theorem feedAll_frame (p : Prediction) (fs : List Feeding) :
    p.feedAll fs = { p with given := (p.feedAll fs).given } := by
  induction fs generalizing p with
  | nil => rfl
  | cons f fs ih =>
      calc p.feedAll (f :: fs)
          = { p.feed f with given := (p.feedAll (f :: fs)).given } := ih (p.feed f)
        _ = { p with given := (p.feedAll (f :: fs)).given } := by rw [p.feed_frame f]

/-- The first phase is not changed by a run. -/
@[simp] theorem pre_feedAll (p : Prediction) (fs : List Feeding) :
    (p.feedAll fs).pre = p.pre := by
  rw [p.feedAll_frame fs]

/-- The second phase is not changed by a run. -/
@[simp] theorem main_feedAll (p : Prediction) (fs : List Feeding) :
    (p.feedAll fs).main = p.main := by
  rw [p.feedAll_frame fs]

/-! ### Induction along a run -/

/-- A reflexive relation that holds across a feeding holds at every position. -/
theorem rel_given_feed {R : Condition Price → Condition Price → Prop} (hrefl : ∀ c, R c c)
    (p : Prediction) {f : Feeding} (hfeed : ∀ c ∈ p.given, ∀ d, c.feed f.ticks = .ok d → R c d)
    (i : Nat) : Option.Rel R p.given[i]? (p.feed f).given[i]? := by
  have same : Option.Rel R p.given[i]? p.given[i]? := by
    cases p.given[i]? with
    | none => exact .none
    | some c => exact .some (hrefl c)
  rcases p.feed_cases f with h | ⟨c, d, hc, hd, h⟩
  · rw [h]
    exact same
  · rw [h]
    by_cases hi : f.index = i
    · subst hi
      obtain ⟨hlt, -⟩ := List.getElem?_eq_some_iff.1 hc
      rw [setCondition, List.getElem?_set_self hlt, hc]
      exact .some (hfeed c (List.mem_of_getElem? hc) d hd)
    · rw [setCondition, List.getElem?_set_ne hi]
      exact same

/-- A relation on conditions that implies another one does so where conditions may be missing. -/
theorem rel_mono {R S : Condition Price → Condition Price → Prop} (h : ∀ c d, R c d → S c d)
    {x y : Option (Condition Price)} (hxy : Option.Rel R x y) : Option.Rel S x y := by
  cases hxy with
  | none => exact .none
  | some hcd => exact .some (h _ _ hcd)

/-- What a condition that is there is related to is there. -/
theorem rel_some_left {R : Condition Price → Condition Price → Prop} {c : Condition Price}
    {y : Option (Condition Price)} (h : Option.Rel R (some c) y) : ∃ d, y = some d ∧ R c d := by
  cases h with
  | some hcd => exact ⟨_, rfl, hcd⟩

/-- What is related to a condition that is there is there. -/
theorem rel_some_right {R : Condition Price → Condition Price → Prop} {d : Condition Price}
    {x : Option (Condition Price)} (h : Option.Rel R x (some d)) : ∃ c, x = some c ∧ R c d := by
  cases h with
  | some hcd => exact ⟨_, rfl, hcd⟩

/-- A relation on conditions that is transitive is so where conditions may be missing. -/
theorem rel_trans {R : Condition Price → Condition Price → Prop}
    (htrans : ∀ b c d, R b c → R c d → R b d) {x y z : Option (Condition Price)}
    (hxy : Option.Rel R x y) (hyz : Option.Rel R y z) : Option.Rel R x z := by
  cases hxy with
  | none => exact hyz
  | some hbc =>
      cases hyz with
      | some hcd => exact .some (htrans _ _ _ hbc hcd)

/-- **Induction along a run.** A preorder that holds across every feeding of a run holds between the
conditions at its beginning and those at its end. -/
theorem rel_given_feedAll {R : Condition Price → Condition Price → Prop} (hrefl : ∀ c, R c c)
    (htrans : ∀ b c d, R b c → R c d → R b d) (p : Prediction) {fs : List Feeding}
    (hfeed : ∀ f ∈ fs, ∀ c d, c.feed f.ticks = .ok d → R c d) (i : Nat) :
    Option.Rel R p.given[i]? (p.feedAll fs).given[i]? := by
  induction fs generalizing p with
  | nil =>
      cases h : p.given[i]? with
      | none => rw [feedAll, List.foldl_nil, h]; exact .none
      | some c => rw [feedAll, List.foldl_nil, h]; exact .some (hrefl c)
  | cons f fs ih =>
      have first := rel_given_feed hrefl p (fun c _ => hfeed f List.mem_cons_self c) i
      have rest := ih (p.feed f) fun g hg => hfeed g (List.mem_cons_of_mem _ hg)
      rw [feedAll, List.foldl_cons]
      exact rel_trans htrans first rest

/-- Every condition of a prediction continues along a run. -/
theorem continues_feedAll (p : Prediction) (fs : List Feeding) (i : Nat) :
    Option.Rel Condition.Continues p.given[i]? (p.feedAll fs).given[i]? :=
  rel_given_feedAll Condition.Continues.refl (fun _ _ _ => Condition.Continues.trans) p
    (fun _ _ _ _ h => Condition.continues_of_feed h) i

end Prediction

end Forecast
