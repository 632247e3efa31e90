import Mathlib.Data.List.Basic
import Forecast.Clause

/-!
# Clauses and What Is Known

As time goes on, open conditions are settled and settled ones stay as they are. `Trilean.SettlesTo`
is the order that this induces on truth values: an open value may become anything, a settled value
only itself. The Kleene connectives respect it, and so does the evaluation of every clause.

A clause reads nothing but the conditions that it mentions, and it can only be open on account of
one of them that is open.

## Main results

* `Clause.induction`: induction over clauses, with chains of any length.
* `Clause.evaluate_settlesTo`: settling conditions settles clauses.
* `Clause.undecided_eq_filter`: the open positions are the mentioned ones that are undecided.
* `Clause.exists_undecided_of_evaluate`: an open clause mentions an undecided condition.
-/

namespace Forecast

namespace Trilean

/-! ### Settling a value -/

/-- What a value may become as more is known: an open value anything, a settled one itself. -/
def SettlesTo (v w : Trilean) : Prop :=
  v = .undecided ∨ v = w

/-- Every value may stay as it is. -/
theorem SettlesTo.refl (v : Trilean) : v.SettlesTo v :=
  Or.inr rfl

/-- Settling twice is settling. -/
theorem SettlesTo.trans {u v w : Trilean} (huv : u.SettlesTo v) (hvw : v.SettlesTo w) :
    u.SettlesTo w := by
  rcases huv with hu | rfl
  · exact Or.inl hu
  · exact hvw

/-- A settled value stays. -/
theorem SettlesTo.eq {v w : Trilean} (h : v.SettlesTo w) (hv : v ≠ .undecided) : w = v := by
  rcases h with hu | rfl
  · exact absurd hu hv
  · rfl

/-- Negation respects settling. -/
theorem SettlesTo.not {v w : Trilean} (h : v.SettlesTo w) : v.not.SettlesTo w.not := by
  rcases h with rfl | rfl
  · exact Or.inl rfl
  · exact Or.inr rfl

/-- Conjunction respects settling. -/
theorem SettlesTo.and {v v' w w' : Trilean} (hv : v.SettlesTo v') (hw : w.SettlesTo w') :
    (v.and w).SettlesTo (v'.and w') := by
  rcases hv with rfl | rfl <;> rcases hw with rfl | rfl
  · exact Or.inl rfl
  · cases w
    · exact Or.inl rfl
    · exact Or.inl rfl
    · exact Or.inr (and_comm .no v')
  · cases v
    · exact Or.inl rfl
    · exact Or.inl rfl
    · exact Or.inr rfl
  · exact Or.inr rfl

/-- Disjunction respects settling. -/
theorem SettlesTo.or {v v' w w' : Trilean} (hv : v.SettlesTo v') (hw : w.SettlesTo w') :
    (v.or w).SettlesTo (v'.or w') := by
  rcases hv with rfl | rfl <;> rcases hw with rfl | rfl
  · exact Or.inl rfl
  · cases w
    · exact Or.inl rfl
    · exact Or.inr (or_comm .yes v')
    · exact Or.inl rfl
  · cases v
    · exact Or.inl rfl
    · exact Or.inr rfl
    · exact Or.inl rfl
  · exact Or.inr rfl

/-- A fold whose operation respects settling respects it too. -/
theorem foldl_settlesTo {α : Type} {op : Trilean → Trilean → Trilean} {f g : α → Trilean}
    (hop : ∀ {v v' w w'}, SettlesTo v v' → SettlesTo w w' → SettlesTo (op v w) (op v' w'))
    (xs : List α) (h : ∀ x ∈ xs, (f x).SettlesTo (g x)) {v w : Trilean} (hv : v.SettlesTo w) :
    ((xs.map f).foldl op v).SettlesTo ((xs.map g).foldl op w) := by
  induction xs generalizing v w with
  | nil => exact hv
  | cons x xs ih =>
      have hx : (f x).SettlesTo (g x) := h x List.mem_cons_self
      exact ih (fun y hy => h y (List.mem_cons_of_mem _ hy)) (hop hv hx)

/-- The conjunction of a list respects settling. -/
theorem all_settlesTo {α : Type} {f g : α → Trilean} (xs : List α)
    (h : ∀ x ∈ xs, (f x).SettlesTo (g x)) : (all (xs.map f)).SettlesTo (all (xs.map g)) :=
  foldl_settlesTo SettlesTo.and xs h (SettlesTo.refl .yes)

/-- The disjunction of a list respects settling. -/
theorem any_settlesTo {α : Type} {f g : α → Trilean} (xs : List α)
    (h : ∀ x ∈ xs, (f x).SettlesTo (g x)) : (any (xs.map f)).SettlesTo (any (xs.map g)) := by
  cases xs with
  | nil => exact SettlesTo.refl .yes
  | cons x xs =>
      exact foldl_settlesTo SettlesTo.or xs (fun y hy => h y (List.mem_cons_of_mem _ hy))
        (h x List.mem_cons_self)

/-! ### Where an open value comes from -/

/-- A conjunction is open on account of a member. -/
theorem undecided_of_and {v w : Trilean} (h : v.and w = .undecided) :
    v = .undecided ∨ w = .undecided := by
  cases v <;> cases w <;> simp_all [and]

/-- A disjunction is open on account of a member. -/
theorem undecided_of_or {v w : Trilean} (h : v.or w = .undecided) :
    v = .undecided ∨ w = .undecided := by
  cases v <;> cases w <;> simp_all [or]

/-- A fold is open on account of its start or of a member. -/
theorem undecided_of_foldl {op : Trilean → Trilean → Trilean}
    (hop : ∀ {v w}, op v w = .undecided → v = .undecided ∨ w = .undecided)
    {vs : List Trilean} {v : Trilean} (h : vs.foldl op v = .undecided) :
    v = .undecided ∨ .undecided ∈ vs := by
  induction vs generalizing v with
  | nil => exact Or.inl h
  | cons w ws ih =>
      rcases ih h with hvw | hws
      · rcases hop hvw with hv | hw
        · exact Or.inl hv
        · exact Or.inr (hw ▸ List.mem_cons_self)
      · exact Or.inr (List.mem_cons_of_mem _ hws)

/-- The conjunction of a list is open on account of a member. -/
theorem undecided_mem_of_all {vs : List Trilean} (h : all vs = .undecided) :
    .undecided ∈ vs := by
  rcases undecided_of_foldl undecided_of_and h with hyes | hmem
  · cases hyes
  · exact hmem

/-- The disjunction of a list is open on account of a member. -/
theorem undecided_mem_of_any {vs : List Trilean} (h : any vs = .undecided) :
    .undecided ∈ vs := by
  cases vs with
  | nil => cases h
  | cons v vs =>
      rcases undecided_of_foldl undecided_of_or h with hv | hmem
      · exact hv ▸ List.mem_cons_self
      · exact List.mem_cons_of_mem _ hmem

/-- A negation is open on account of its member. -/
theorem undecided_of_not {v : Trilean} (h : v.not = .undecided) : v = .undecided := by
  cases v with
  | undecided => rfl
  | yes => cases h
  | no => cases h

end Trilean

namespace Clause

/-! ### Induction over clauses -/

/-- Induction over clauses: a chain has the property if all its members have it. -/
@[elab_as_elim]
theorem induction {motive : Clause → Prop} (literal : ∀ i, motive (.literal i))
    (conj : ∀ cs, (∀ c ∈ cs, motive c) → motive (.conj cs))
    (disj : ∀ cs, (∀ c ∈ cs, motive c) → motive (.disj cs))
    (neg : ∀ c, motive c → motive (.neg c)) : ∀ c, motive c
  | .literal i => literal i
  | .conj cs => conj cs fun c _ => induction literal conj disj neg c
  | .disj cs => disj cs fun c _ => induction literal conj disj neg c
  | .neg c => neg c (induction literal conj disj neg c)

/-- A member of a chain mentions only what the chain mentions. -/
theorem mem_referencesOf {cs : List Clause} {c : Clause} {i : Nat} (hc : c ∈ cs)
    (hi : i ∈ c.references) : i ∈ referencesOf cs := by
  rw [referencesOf_eq_flatMap]
  exact List.mem_flatMap.2 ⟨c, hc, hi⟩

/-! ### Settling conditions settles clauses -/

/-- **Evaluation respects settling.** If the conditions that a clause mentions settle, what the
clause says settles too. Nothing is asked of other conditions. -/
theorem evaluate_settlesTo {v w : Nat → Option Trilean} {c : Clause}
    (h : ∀ i ∈ c.references, ((v i).getD .yes).SettlesTo ((w i).getD .yes)) :
    (c.evaluate v).SettlesTo (c.evaluate w) := by
  induction c using Clause.induction with
  | literal i => exact h i List.mem_cons_self
  | conj cs ih =>
      simp only [evaluate, evaluateEach_eq_map]
      exact Trilean.all_settlesTo cs fun c hc => ih c hc fun i hi => h i (mem_referencesOf hc hi)
  | disj cs ih =>
      simp only [evaluate, evaluateEach_eq_map]
      exact Trilean.any_settlesTo cs fun c hc => ih c hc fun i hi => h i (mem_referencesOf hc hi)
  | neg c ih => exact (ih h).not

/-- A clause reads nothing but the conditions that it mentions. -/
theorem evaluate_congr {v w : Nat → Option Trilean} {c : Clause}
    (h : ∀ i ∈ c.references, v i = w i) : c.evaluate v = c.evaluate w := by
  have hvw := evaluate_settlesTo (c := c) fun i hi =>
    Or.inr (congrArg (Option.getD · .yes) (h i hi))
  have hwv := evaluate_settlesTo (c := c) fun i hi =>
    Or.inr (congrArg (Option.getD · .yes) (h i hi).symm)
  rcases hvw with hv | heq
  · rcases hwv with hw | heq
    · rw [hv, hw]
    · exact heq.symm
  · exact heq

/-! ### Open positions -/

/-- The open positions of a clause are those that it mentions and that are undecided, in the same
order and as often. -/
theorem undecided_eq_filter (v : Nat → Option Trilean) (c : Clause) :
    c.undecided v = c.references.filter fun i => v i = some .undecided := by
  have chain (cs : List Clause)
      (ih : ∀ c ∈ cs, c.undecided v = c.references.filter fun i => v i = some .undecided) :
      undecidedOf v cs = (referencesOf cs).filter fun i => v i = some .undecided := by
    rw [undecidedOf_eq_flatMap, referencesOf_eq_flatMap, List.filter_flatMap]
    exact List.flatMap_congr ih
  induction c using Clause.induction with
  | literal i =>
      by_cases hi : v i = some .undecided
      · simp [undecided, references, hi]
      · simp [undecided, references, hi]
  | conj cs ih => exact chain cs ih
  | disj cs ih => exact chain cs ih
  | neg c ih => exact ih

/-- A clause that is open mentions an undecided condition. -/
theorem exists_undecided_of_evaluate {v : Nat → Option Trilean} {c : Clause}
    (h : c.evaluate v = .undecided) : ∃ i ∈ c.references, v i = some .undecided := by
  have chain (cs : List Clause)
      (ih : ∀ c ∈ cs, c.evaluate v = .undecided → ∃ i ∈ c.references, v i = some .undecided)
      (hmem : .undecided ∈ cs.map (evaluate v)) :
      ∃ i ∈ referencesOf cs, v i = some .undecided := by
    obtain ⟨c, hc, hcv⟩ := List.mem_map.1 hmem
    obtain ⟨i, hi, hiv⟩ := ih c hc hcv
    exact ⟨i, mem_referencesOf hc hi, hiv⟩
  induction c using Clause.induction with
  | literal i =>
      refine ⟨i, List.mem_cons_self, ?_⟩
      cases hv : v i with
      | none => rw [evaluate, hv] at h; cases h
      | some t => rw [evaluate, hv] at h; exact congrArg some h
  | conj cs ih =>
      rw [evaluate, evaluateEach_eq_map] at h
      exact chain cs ih (Trilean.undecided_mem_of_all h)
  | disj cs ih =>
      rw [evaluate, evaluateEach_eq_map] at h
      exact chain cs ih (Trilean.undecided_mem_of_any h)
  | neg c ih => exact ih (Trilean.undecided_of_not h)

end Clause

end Forecast
