import Forecast.Proofs.Prediction.Lifecycle

/-!
# What an Open Prediction Waits For

The outcome of a prediction and the list of conditions that are worth feeding are computed apart:
the one by tables over the values of clauses, the other by a walk over their leaves. This module
shows that they fit together. An outcome that is still open is so on account of a clause that is
open, an open clause mentions an undecided condition, and that condition is on the list. So a
prediction is never stuck with nothing to feed.

The list is described without the walk that computes it: its members are the undecided conditions
among the positions that the clauses of the active phase mention, and they come in the order in
which these positions are first mentioned.

## Main results

* `Prediction.actionable_eq`: the list through the positions mentioned.
* `Prediction.actionable_ne_nil`: an open prediction has a condition to feed.
-/

namespace Forecast

/-! ### Lists without repetitions -/

/-- The members of a list that pass a test, each once, come in the order in which the list first
shows them. -/
theorem pairwise_idxOf_eraseDups (l : List Nat) (test : Nat → Bool) :
    (l.filter test).eraseDups.Pairwise fun i j => l.idxOf i < l.idxOf j := by
  induction l generalizing test with
  | nil => exact List.Pairwise.nil
  | cons x l ih =>
      -- all members but `x` are shown by the rest of the list, one place later
      have later (test : Nat → Bool) (hx : test x = false) :
          (l.filter test).eraseDups.Pairwise fun i j => (x :: l).idxOf i < (x :: l).idxOf j := by
        have hne {i : Nat} (hi : i ∈ (l.filter test).eraseDups) : x ≠ i := by
          rintro rfl
          have htest := (List.mem_filter.1 (List.mem_eraseDups.1 hi)).2
          rw [hx] at htest
          cases htest
        refine List.Pairwise.imp_of_mem ?_ (ih test)
        intro i j hi hj hij
        rw [List.idxOf_cons_ne l (hne hi), List.idxOf_cons_ne l (hne hj)]
        exact Nat.succ_lt_succ hij
      cases hx : test x with
      | false =>
          rw [List.filter_cons_of_neg (by rw [hx]; decide)]
          exact later test hx
      | true =>
          rw [List.filter_cons_of_pos hx, List.eraseDups_cons, List.filter_filter]
          have hx' : (!x == x && test x) = false := by simp
          refine List.pairwise_cons.2 ⟨fun i hi => ?_, later _ hx'⟩
          have htest := (List.mem_filter.1 (List.mem_eraseDups.1 hi)).2
          have hne : x ≠ i := by
            rintro rfl
            rw [hx'] at htest
            cases htest
          rw [List.idxOf_cons_self, List.idxOf_cons_ne l hne]
          exact Nat.succ_pos _

/-! ### Positions of clauses -/

/-- The positions that some clauses mention, clause by clause, repetitions included. -/
def mentioned (clauses : List (Option Clause)) : List Nat :=
  (clauses.filterMap id).flatMap Clause.references

/-- The open positions of some clauses are the mentioned ones that are undecided. -/
theorem undecidedIn_eq_filter (v : Nat → Option Trilean) (clauses : List (Option Clause)) :
    undecidedIn v clauses = (mentioned clauses).filter fun i => v i = some .undecided := by
  rw [undecidedIn, mentioned, List.filter_flatMap]
  exact List.flatMap_congr fun c _ => c.undecided_eq_filter v

/-- A clause that is there mentions only what is mentioned. -/
theorem mem_mentioned {clauses : List (Option Clause)} {c : Clause} (hc : some c ∈ clauses)
    {i : Nat} (hi : i ∈ c.references) : i ∈ mentioned clauses :=
  List.mem_flatMap.2 ⟨c, List.mem_filterMap.2 ⟨some c, hc, rfl⟩, hi⟩

section Congr

variable {v w : Nat → Option Trilean} {clauses : List (Option Clause)}

/-- A side clause reads only what is mentioned. -/
theorem sideValue_congr (h : ∀ i ∈ mentioned clauses, v i = w i) {side : Option Clause}
    (hside : side ∈ clauses) : sideValue v side = sideValue w side := by
  cases side with
  | none => rfl
  | some c => exact Clause.evaluate_congr fun i hi => h i (mem_mentioned hside hi)

/-- A main clause reads only what is mentioned. -/
theorem evaluateOptional_congr (h : ∀ i ∈ mentioned clauses, v i = w i) {main : Option Clause}
    (hmain : main ∈ clauses) :
    Clause.evaluateOptional v main = Clause.evaluateOptional w main := by
  cases main with
  | none => rfl
  | some c => exact Clause.evaluate_congr fun i hi => h i (mem_mentioned hmain hi)

/-- The first phase reads only what it mentions. -/
theorem PrePhase.evaluate_congr {p : PrePhase} (h : ∀ i ∈ mentioned p.clauses, v i = w i) :
    p.evaluate v = p.evaluate w := by
  have hannulled : sideValue v p.annulledIf = sideValue w p.annulledIf :=
    sideValue_congr h (by simp [clauses])
  rw [evaluate, evaluate, evaluateOptional_congr h (by simp [clauses]),
    sideValue_congr h (by simp [clauses]), hannulled]

/-- The second phase reads only what it mentions. -/
theorem MainPhase.evaluate_congr {p : MainPhase} (h : ∀ i ∈ mentioned p.clauses, v i = w i) :
    p.evaluate v = p.evaluate w := by
  have hmain : p.predict.evaluate v = p.predict.evaluate w :=
    evaluateOptional_congr h (show some p.predict ∈ p.clauses by simp [clauses])
  have hannulled : sideValue v p.annulledIf = sideValue w p.annulledIf :=
    sideValue_congr h (by simp [clauses])
  rw [evaluate, evaluate, hmain, sideValue_congr h (by simp [clauses]), hannulled]

end Congr

/-- A clause that is open has an open position. -/
theorem exists_mem_undecidedIn {v : Nat → Option Trilean} {clauses : List (Option Clause)}
    {c : Clause} (hc : some c ∈ clauses) (h : c.evaluate v = .undecided) :
    ∃ i, i ∈ undecidedIn v clauses := by
  obtain ⟨i, hi, hv⟩ := Clause.exists_undecided_of_evaluate h
  refine ⟨i, List.mem_flatMap.2 ⟨c, List.mem_filterMap.2 ⟨some c, hc, rfl⟩, ?_⟩⟩
  rw [Clause.undecided_eq_filter]
  exact List.mem_filter.2 ⟨hi, decide_eq_true hv⟩

/-- A side clause that is open is there. -/
theorem exists_of_sideValue {v : Nat → Option Trilean} {side : Option Clause}
    (h : sideValue v side = .undecided) : ∃ c, side = some c ∧ c.evaluate v = .undecided := by
  cases side with
  | none => cases h
  | some c => exact ⟨c, rfl, h⟩

/-- A main clause that is open is there. -/
theorem exists_of_evaluateOptional {v : Nat → Option Trilean} {main : Option Clause}
    (h : Clause.evaluateOptional v main = .undecided) :
    ∃ c, main = some c ∧ c.evaluate v = .undecided := by
  cases main with
  | none => cases h
  | some c => exact ⟨c, rfl, h⟩

/-- A first phase that waits has an open position. -/
theorem PrePhase.exists_undecided {p : PrePhase} {v : Nat → Option Trilean}
    (h : p.evaluate v = .waiting) : ∃ i, i ∈ p.undecided v := by
  obtain ⟨-, -, hopen⟩ := Policy.resolvePre_eq_waiting_iff.1 h
  rcases hopen with hm | hw | ha
  · obtain ⟨c, hc, hv⟩ := exists_of_evaluateOptional hm
    exact exists_mem_undecidedIn (by simp [clauses, hc]) hv
  · obtain ⟨c, hc, hv⟩ := exists_of_sideValue (Policy.settle_eq_undecided_iff.1 hw).1
    exact exists_mem_undecidedIn (by simp [clauses, hc]) hv
  · obtain ⟨c, hc, hv⟩ := exists_of_sideValue (Policy.settle_eq_undecided_iff.1 ha).1
    exact exists_mem_undecidedIn (by simp [clauses, hc]) hv

/-- A second phase that runs has an open position. -/
theorem MainPhase.exists_undecided {p : MainPhase} {v : Nat → Option Trilean}
    (h : p.evaluate v = .running) : ∃ i, i ∈ p.undecided v := by
  obtain ⟨-, -, hopen⟩ := Policy.resolveMain_eq_running_iff.1 h
  rcases hopen with hm | ha | ⟨-, hw⟩
  · exact exists_mem_undecidedIn (by simp [clauses]) hm
  · obtain ⟨c, hc, hv⟩ := exists_of_sideValue (Policy.settle_eq_undecided_iff.1 ha).1
    exact exists_mem_undecidedIn (by simp [clauses, hc]) hv
  · obtain ⟨c, hc, hv⟩ := exists_of_sideValue (Policy.settle_eq_undecided_iff.1 hw).1
    exact exists_mem_undecidedIn (by simp [clauses, hc]) hv

namespace Prediction

/-! ### Predictions -/

/-- The positions that the clauses of the active phase mention: the clause that makes the prediction
wrong, then the one that annuls it, then the main clause. A final prediction has no active phase. -/
def activeReferences (p : Prediction) : List Nat :=
  match p.outcome with
  | .waiting => mentioned [p.pre.wrongIf, p.pre.annulledIf, p.pre.predictIf]
  | .running => mentioned [p.main.wrongIf, p.main.annulledIf, some p.main.predict]
  | _ => []

/-- A prediction waits if its first phase does. -/
theorem outcome_eq_waiting_iff {p : Prediction} :
    p.outcome = .waiting ↔ p.pre.evaluate p.valueAt = .waiting := by
  by_cases hrun : p.pre.evaluate p.valueAt = .running
  · rw [outcome_of_running hrun, hrun]
    exact iff_of_false (p.main.evaluate_ne_waiting p.valueAt) nofun
  · rw [outcome_of_ne_running hrun]

/-- A prediction runs if both its phases do. -/
theorem outcome_eq_running_iff {p : Prediction} :
    p.outcome = .running ↔
      p.pre.evaluate p.valueAt = .running ∧ p.main.evaluate p.valueAt = .running := by
  by_cases hrun : p.pre.evaluate p.valueAt = .running
  · rw [outcome_of_running hrun, and_iff_right hrun]
  · rw [outcome_of_ne_running hrun]
    exact iff_of_false hrun fun h => hrun h.1

/-- While a prediction waits, its first phase is active. -/
theorem activeReferences_of_waiting {p : Prediction} (h : p.outcome = .waiting) :
    p.activeReferences = mentioned p.pre.clauses := by
  rw [activeReferences, h]
  rfl

/-- While a prediction runs, its second phase is active. -/
theorem activeReferences_of_running {p : Prediction} (h : p.outcome = .running) :
    p.activeReferences = mentioned p.main.clauses := by
  rw [activeReferences, h]
  rfl

/-- In a final prediction no phase is active. -/
theorem activeReferences_of_isFinal {p : Prediction} (h : p.outcome.isFinal = true) :
    p.activeReferences = [] := by
  rw [activeReferences]
  split
  · next ho => rw [ho] at h; cases h
  · next ho => rw [ho] at h; cases h
  · rfl

/-- The conditions worth feeding are the undecided ones that the active phase mentions. -/
theorem actionable_eq (p : Prediction) :
    p.actionable =
      (p.activeReferences.filter fun i => p.valueAt i = some .undecided).eraseDups := by
  rw [actionable, activeReferences]
  cases p.outcome with
  | waiting => exact congrArg List.eraseDups (undecidedIn_eq_filter p.valueAt p.pre.clauses)
  | running => exact congrArg List.eraseDups (undecidedIn_eq_filter p.valueAt p.main.clauses)
  | correct => rfl
  | incorrect => rfl
  | annulled => rfl

/-- A condition is worth feeding if the active phase mentions it and it is undecided. -/
theorem mem_actionable_iff {p : Prediction} {i : Nat} :
    i ∈ p.actionable ↔
      i ∈ p.activeReferences ∧ ∃ c, p.given[i]? = some c ∧ c.value = .undecided := by
  rw [actionable_eq, List.mem_eraseDups, List.mem_filter, decide_eq_true_iff, valueAt,
    Option.map_eq_some_iff]

/-- Only conditions that are there are worth feeding. -/
theorem lt_of_mem_actionable {p : Prediction} {i : Nat} (h : i ∈ p.actionable) :
    i < p.given.length := by
  obtain ⟨-, c, hc, -⟩ := mem_actionable_iff.1 h
  exact (List.getElem?_eq_some_iff.1 hc).1

/-- What a consistent prediction waits for is not finished. -/
theorem not_finished_of_mem_actionable {p : Prediction} (hp : p.IsConsistent) {i : Nat}
    (hi : i ∈ p.actionable) {c : Condition Price} (hc : p.given[i]? = some c) :
    c.isFinished = false := by
  obtain ⟨-, c', hc', hvalue⟩ := mem_actionable_iff.1 hi
  obtain rfl : c = c' := Option.some.inj (hc.symm.trans hc')
  rw [← hp c (List.mem_of_getElem? hc), hvalue]
  rfl

/-- No condition is listed twice. -/
theorem nodup_actionable (p : Prediction) : p.actionable.Nodup := by
  rw [actionable_eq]
  refine (pairwise_idxOf_eraseDups _ _).imp ?_
  rintro i j hij rfl
  exact Nat.lt_irrefl _ hij

/-- A final prediction has nothing to feed. -/
theorem actionable_eq_nil {p : Prediction} (h : p.outcome.isFinal = true) : p.actionable = [] := by
  rw [actionable]
  split
  · next ho => rw [ho] at h; cases h
  · next ho => rw [ho] at h; cases h
  · rfl

/-- A prediction that is open has a condition to feed. -/
theorem actionable_ne_nil {p : Prediction} (h : p.outcome.isFinal = false) :
    p.actionable ≠ [] := by
  have nonempty {l : List Nat} (hl : ∃ i, i ∈ l) : l.eraseDups ≠ [] := by
    obtain ⟨i, hi⟩ := hl
    exact List.ne_nil_of_mem (List.mem_eraseDups.2 hi)
  rw [actionable]
  by_cases hrun : p.pre.evaluate p.valueAt = .running
  · rw [outcome_of_running hrun] at h ⊢
    cases ho : p.main.evaluate p.valueAt with
    | waiting => exact absurd ho (p.main.evaluate_ne_waiting p.valueAt)
    | running => exact nonempty (MainPhase.exists_undecided ho)
    | correct => rw [ho] at h; cases h
    | incorrect => rw [ho] at h; cases h
    | annulled => rw [ho] at h; cases h
  · rw [outcome_of_ne_running hrun] at h ⊢
    cases ho : p.pre.evaluate p.valueAt with
    | waiting => exact nonempty (PrePhase.exists_undecided ho)
    | running => exact absurd ho hrun
    | correct => rw [ho] at h; cases h
    | incorrect => rw [ho] at h; cases h
    | annulled => rw [ho] at h; cases h

/-- **No prediction is ever stuck.** Whatever its conditions, clauses and policies are: a prediction
is final exactly if it has no condition to feed. The conditions to feed are each listed once; they
are the undecided conditions among those that the clauses of the active phase mention, in the order
in which they are first mentioned. So a prediction whose conditions are all settled is final. -/
theorem never_stuck (p : Prediction) :
    (p.outcome.isFinal = true ↔ p.actionable = []) ∧
      p.actionable.Nodup ∧
      (∀ i, i ∈ p.actionable ↔
        i ∈ p.activeReferences ∧ ∃ c, p.given[i]? = some c ∧ c.value = .undecided) ∧
      (p.actionable.Pairwise fun i j =>
        p.activeReferences.idxOf i < p.activeReferences.idxOf j) ∧
      ((∀ c ∈ p.given, c.value ≠ .undecided) → p.outcome.isFinal = true) := by
  have final_of_nil (hnil : p.actionable = []) : p.outcome.isFinal = true := by
    by_contra hopen
    exact actionable_ne_nil (Bool.eq_false_iff.2 hopen) hnil
  have order : p.actionable.Pairwise fun i j =>
      p.activeReferences.idxOf i < p.activeReferences.idxOf j := by
    rw [actionable_eq]
    exact pairwise_idxOf_eraseDups _ _
  refine ⟨⟨actionable_eq_nil, final_of_nil⟩, ?_, fun i => mem_actionable_iff, order, ?_⟩
  · refine order.imp ?_
    rintro i j hij rfl
    exact Nat.lt_irrefl _ hij
  · intro hall
    refine final_of_nil (List.eq_nil_iff_forall_not_mem.2 fun i hi => ?_)
    obtain ⟨-, c, hc, hv⟩ := mem_actionable_iff.1 hi
    exact hall c (List.mem_of_getElem? hc) hv

end Prediction

end Forecast
