import Forecast.Proofs.Clause.Completion

/-!
# Walks over a Clause

Four walks over a clause meet its leaves: the list of the positions that it mentions, its evaluation,
the list of the open positions, and the clearing of the conditions that it mentions. They meet the same
leaves in the same order, those of positions that are mentioned twice and of no condition included.

Clearing meets a condition as often as it is mentioned. This makes no difference, as to clear twice is
to clear once; so what is at a position afterwards depends on whether it is mentioned, and on nothing
else (`Clause.getElem?_modify`).

## Main results

* `Clause.getElem?_modify`: what a change to all conditions of a clause makes of each position.
* `Clause.walks_agree`: the open positions are those mentioned that are open, a clause without any is
  decided, and clearing opens all that are mentioned and leaves the others as they are.
-/

namespace Forecast.Clause

variable {α β : Type}

/-! ### Changing what is mentioned -/

/-- What a change to the conditions of clauses makes of each position, if it is known of each clause. -/
theorem getElem?_modifyAll {change : β → β} (htwice : ∀ x, change (change x) = change x)
    {cs : List Clause} (ih : ∀ c ∈ cs, ∀ (xs : List β) (i : Nat),
      (c.modify change xs)[i]? = if i ∈ c.references then xs[i]?.map change else xs[i]?)
    (xs : List β) (i : Nat) :
    (modifyAll change cs xs)[i]? =
      if i ∈ referencesOf cs then xs[i]?.map change else xs[i]? := by
  induction cs generalizing xs with
  | nil => rfl
  | cons c cs hcs =>
      obtain ⟨hc, hrest⟩ := List.forall_mem_cons.1 ih
      have htwice' (o : Option β) : (o.map change).map change = o.map change := by
        cases o with
        | none => rfl
        | some x => exact congrArg some (htwice x)
      rw [modifyAll, hcs hrest, hc, referencesOf]
      by_cases hmem : i ∈ c.references <;> by_cases hmems : i ∈ referencesOf cs
      · simp [hmem, hmems, htwice']
      · simp [hmem, hmems]
      · simp [hmem, hmems]
      · simp [hmem, hmems]

/-- **A change to all conditions of a clause** is made wherever the clause mentions one, and nowhere
else, if making it twice is making it once. -/
theorem getElem?_modify {change : β → β} (htwice : ∀ x, change (change x) = change x) (c : Clause)
    (xs : List β) (i : Nat) :
    (c.modify change xs)[i]? = if i ∈ c.references then xs[i]?.map change else xs[i]? := by
  induction c using Clause.induction generalizing xs i with
  | literal j =>
      rw [modify, references, List.getElem?_modify]
      by_cases hj : j = i
      · simp [hj]
      · simp [hj, Ne.symm hj]
  | conj cs ih => exact getElem?_modifyAll htwice ih xs i
  | disj cs ih => exact getElem?_modifyAll htwice ih xs i
  | neg c ih => exact ih xs i

/-! ### Clearing -/

/-- What is cleared at each position: the conditions that a clause mentions. -/
theorem getElem?_modify_cleared (c : Clause) (cs : List (Condition α)) (i : Nat) :
    (c.modify Condition.cleared cs)[i]? =
      if i ∈ c.references then cs[i]?.map Condition.cleared else cs[i]? := by
  have htwice (x : Condition α) : x.cleared.cleared = x.cleared := rfl
  exact getElem?_modify htwice c cs i

/-- A condition that a clause mentions is open once the clause has been cleared. -/
theorem valueIn_modify_cleared {c : Clause} {i : Nat} (hi : i ∈ c.references)
    (cs : List (Condition α)) :
    Condition.valueIn (c.modify Condition.cleared cs) i = some .undecided ↔ i < cs.length := by
  rw [Condition.valueIn, getElem?_modify_cleared, if_pos hi, Option.map_map,
    Option.map_eq_some_iff]
  constructor
  · rintro ⟨x, hx, -⟩
    exact (List.getElem?_eq_some_iff.1 hx).1
  · intro hlt
    exact ⟨cs[i], List.getElem?_eq_getElem hlt, rfl⟩

/-- **The walks over a clause agree.** The open positions are those that it mentions and that are open,
in the same order and as often. If there are none, the clause is decided. Clearing makes the conditions
that it mentions forget what they have seen, and leaves the others as they are; all positions that it
mentions are open then, if they are of a condition. -/
theorem walks_agree (c : Clause) (cs : List (Condition α)) :
    c.undecided (Condition.valueIn cs) =
        c.references.filter (fun i => Condition.valueIn cs i = some .undecided) ∧
      (c.undecided (Condition.valueIn cs) = [] →
        (c.evaluate (Condition.valueIn cs)).isDecided = true) ∧
      (∀ i, (c.modify Condition.cleared cs)[i]? =
        if i ∈ c.references then cs[i]?.map fun x => { x with state := .initial } else cs[i]?) ∧
      c.undecided (Condition.valueIn (c.modify Condition.cleared cs)) =
        c.references.filter (· < cs.length) := by
  refine ⟨undecided_eq_filter _ c, fun hnone => ?_, fun i => ?_, ?_⟩
  · cases hvalue : c.evaluate (Condition.valueIn cs) with
    | undecided =>
        obtain ⟨i, hi, hopen⟩ := exists_undecided_of_evaluate hvalue
        rw [undecided_eq_filter, List.filter_eq_nil_iff] at hnone
        exact absurd (decide_eq_true hopen) (hnone i hi)
    | yes => rfl
    | no => rfl
  · exact getElem?_modify_cleared c cs i
  · rw [undecided_eq_filter]
    exact List.filter_congr fun i hi => decide_eq_decide.2 (valueIn_modify_cleared hi cs)

/-- A clause that mentions an open condition twice, one that is decided, and positions of none. -/
theorem walks_agree_sturdy :
    sturdy.undecided (Condition.valueIn (withValues [.undecided, .yes, .no, .yes])) = [0, 0] ∧
      sturdy.undecided (Condition.valueIn
        (sturdy.modify Condition.cleared (withValues [.undecided, .yes, .no, .yes]))) = [0, 1, 2, 0] ∧
      (sturdy.evaluate (Condition.valueIn (withValues [.no, .yes, .no, .yes]))).isDecided = true := by
  obtain ⟨hopen, -, -, hcleared⟩ := walks_agree sturdy (withValues [.undecided, .yes, .no, .yes])
  obtain ⟨-, hdecided, -, -⟩ := walks_agree sturdy (withValues [.no, .yes, .no, .yes])
  exact ⟨hopen.trans (by decide), hcleared.trans (by decide), hdecided (by decide)⟩

end Forecast.Clause
