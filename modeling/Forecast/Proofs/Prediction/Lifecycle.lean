import Forecast.Proofs.Prediction.Feeding

/-!
# The Lifecycle of a Prediction

An outcome has a rank: waiting, then running, then any of the three final outcomes. As conditions
settle, the rank of what follows from them never falls. It is not true that a final outcome is kept
for ever: a side clause that is settled late can still turn *correct* into *incorrect* or
*annulled*, and *incorrect* into *annulled* and back. What can never happen is that a failed
prediction comes true, and a prediction that has come true stays so if the author does not ignore
open side clauses.

The proof follows the evaluation. A side clause is read through `Policy.settle`, which does not
respect settling; but it does keep a clause that holds (`settle_yes_persists`) and a clause that is
not open (`settle_decided_persists`), and the two tables of outcomes depend on nothing else.

## Main results

* `Policy.resolvePre_leadsTo`, `Policy.resolveMain_leadsTo`: the two tables.
* `Prediction.outcome_leadsTo`: both phases together.
* `Prediction.settling_feedAll`: what makes it apply to every run of feedings.
-/

namespace Forecast

namespace Outcome

/-! ### Ranks -/

/-- How far an outcome lies along the way of a prediction. -/
def rank : Outcome → Nat
  | .waiting => 0
  | .running => 1
  | .correct => 2
  | .incorrect => 2
  | .annulled => 2

/-- What an outcome may be followed by: nothing of a lower rank, and success never after a
failure. -/
def LeadsTo (o o' : Outcome) : Prop :=
  o.rank ≤ o'.rank ∧ (o = .incorrect ∨ o = .annulled → o' ≠ .correct)

/-- No rank is above that of the final outcomes. -/
theorem rank_le_two (o : Outcome) : o.rank ≤ 2 := by
  cases o <;> decide

/-- Nothing leads back: an outcome that is still open comes from one that was no further, and
success does not come from failure. -/
theorem leadsTo_of {o o' : Outcome} (hwaiting : o' = .waiting → o = .waiting)
    (hrunning : o' = .running → o = .waiting ∨ o = .running)
    (hcorrect : o' = .correct → o ≠ .incorrect ∧ o ≠ .annulled) : o.LeadsTo o' := by
  refine ⟨?_, fun hfail hc => ?_⟩
  · cases o' with
    | waiting => exact Nat.le_of_eq (congrArg rank (hwaiting rfl))
    | running => rcases hrunning rfl with rfl | rfl <;> decide
    | correct => exact o.rank_le_two
    | incorrect => exact o.rank_le_two
    | annulled => exact o.rank_le_two
  · rcases hfail with h | h
    · exact (hcorrect hc).1 h
    · exact (hcorrect hc).2 h

/-- Only waiting leads to waiting. -/
theorem LeadsTo.eq_waiting {o : Outcome} (h : o.LeadsTo .waiting) : o = .waiting := by
  cases o with
  | waiting => rfl
  | _ => exact absurd h.1 (by decide)

/-- What leads to running is not final. -/
theorem LeadsTo.waiting_or_running {o : Outcome} (h : o.LeadsTo .running) :
    o = .waiting ∨ o = .running := by
  cases o with
  | waiting => exact Or.inl rfl
  | running => exact Or.inr rfl
  | _ => exact absurd h.1 (by decide)

end Outcome

namespace Policy

/-! ### Side clauses -/

variable {policy : Policy} {main main' wrongIf wrongIf' annulledIf annulledIf' side side' : Trilean}

/-- A side clause counts as holding exactly if it holds. -/
theorem settle_eq_yes_iff : policy.settle main side = .yes ↔ side = .yes := by
  rw [settle]
  split
  · cases side <;> simp [Trilean.orNo]
  · rfl

/-- A side clause counts as open if it is open and the policy does not say otherwise. -/
theorem settle_eq_undecided_iff :
    policy.settle main side = .undecided ↔
      side = .undecided ∧ (policy.ignoreUndecided && main.isDecided) = false := by
  rw [settle]
  cases hp : policy.ignoreUndecided && main.isDecided with
  | true => cases side <;> simp [Trilean.orNo]
  | false => simp

/-- Where the author ignores nothing, a side clause counts as what it is. -/
theorem settle_of_not_ignoreUndecided (h : policy.ignoreUndecided = false) :
    policy.settle main side = side := by
  simp [settle, h]

/-- A side clause that holds goes on holding. -/
theorem settle_yes_persists (h : policy.settle main side = .yes) (hs : side.SettlesTo side') :
    policy.settle main' side' = .yes := by
  obtain rfl := settle_eq_yes_iff.1 h
  rw [hs.eq (by decide)]
  exact settle_eq_yes_iff.2 rfl

/-- A side clause that does not count as open never does again. -/
theorem settle_decided_persists (hm : main.SettlesTo main') (hs : side.SettlesTo side')
    (h : policy.settle main' side' = .undecided) : policy.settle main side = .undecided := by
  obtain ⟨hopen, hpolicy⟩ := settle_eq_undecided_iff.1 h
  have hside : side = .undecided := by
    rcases hs with hu | rfl
    · exact hu
    · exact hopen
  refine settle_eq_undecided_iff.2 ⟨hside, ?_⟩
  rcases hm with rfl | rfl
  · exact Bool.and_false _
  · exact hpolicy

/-! ### The tables of outcomes

Both tables are read through the side clauses as they count. -/

/-- A phase passes if its main clause holds and its side clauses count as failing. -/
def Passes (policy : Policy) (main wrongIf annulledIf : Trilean) : Prop :=
  main = .yes ∧ policy.settle main wrongIf = .no ∧ policy.settle main annulledIf = .no

/-- A phase is bound to fail if a side clause holds or its main clause does not. -/
def Fails (policy : Policy) (main wrongIf annulledIf : Trilean) : Prop :=
  policy.settle main annulledIf = .yes ∨ policy.settle main wrongIf = .yes ∨ main = .no

/-- A phase that passes does not fail. -/
theorem Passes.not_fails (h : policy.Passes main wrongIf annulledIf) :
    ¬ policy.Fails main wrongIf annulledIf := by
  obtain ⟨hm, hw, ha⟩ := h
  rintro (h | h | h)
  · rw [ha] at h; cases h
  · rw [hw] at h; cases h
  · rw [hm] at h; cases h

/-- A phase that fails goes on failing. -/
theorem Fails.persists (hm : main.SettlesTo main') (hw : wrongIf.SettlesTo wrongIf')
    (ha : annulledIf.SettlesTo annulledIf') (h : policy.Fails main wrongIf annulledIf) :
    policy.Fails main' wrongIf' annulledIf' := by
  rcases h with h | h | rfl
  · exact Or.inl (settle_yes_persists h ha)
  · exact Or.inr (Or.inl (settle_yes_persists h hw))
  · exact Or.inr (Or.inr (hm.eq (by decide)))

/-- Where the author ignores nothing, a phase that passes goes on passing. -/
theorem Passes.persists (hpolicy : policy.ignoreUndecided = false) (hm : main.SettlesTo main')
    (hw : wrongIf.SettlesTo wrongIf') (ha : annulledIf.SettlesTo annulledIf')
    (h : policy.Passes main wrongIf annulledIf) : policy.Passes main' wrongIf' annulledIf' := by
  rw [Passes] at h ⊢
  simp only [settle_of_not_ignoreUndecided hpolicy] at h ⊢
  obtain ⟨rfl, rfl, rfl⟩ := h
  exact ⟨hm.eq (by decide), hw.eq (by decide), ha.eq (by decide)⟩

/-- The first phase is open while no side clause holds and some clause counts as open. -/
theorem resolvePre_eq_waiting_iff :
    policy.resolvePre main wrongIf annulledIf = .waiting ↔
      policy.settle main annulledIf ≠ .yes ∧ policy.settle main wrongIf ≠ .yes ∧
        (main = .undecided ∨ policy.settle main wrongIf = .undecided ∨
          policy.settle main annulledIf = .undecided) := by
  rw [resolvePre, onNo]
  cases policy.settle main annulledIf <;> cases policy.settle main wrongIf <;> cases main <;>
    cases policy.annulIfNo <;> decide

/-- The second phase may begin when the first passes. -/
theorem resolvePre_eq_running_iff :
    policy.resolvePre main wrongIf annulledIf = .running ↔
      policy.Passes main wrongIf annulledIf := by
  rw [resolvePre, onNo, Passes]
  cases policy.settle main annulledIf <;> cases policy.settle main wrongIf <;> cases main <;>
    cases policy.annulIfNo <;> decide

/-- The first phase makes no prediction correct. -/
theorem resolvePre_ne_correct : policy.resolvePre main wrongIf annulledIf ≠ .correct := by
  rw [resolvePre, onNo]
  cases policy.settle main annulledIf <;> cases policy.settle main wrongIf <;> cases main <;>
    cases policy.annulIfNo <;> decide

/-- What the first phase neither leaves open nor passes fails. -/
theorem fails_of_resolvePre
    (h : policy.resolvePre main wrongIf annulledIf ≠ .waiting ∧
      policy.resolvePre main wrongIf annulledIf ≠ .running) :
    policy.Fails main wrongIf annulledIf := by
  revert h
  rw [resolvePre, onNo, Fails]
  cases policy.settle main annulledIf <;> cases policy.settle main wrongIf <;> cases main <;>
    cases policy.annulIfNo <;> decide

/-- The second phase is open while no side clause holds and what its main clause leads to still
waits for a clause. -/
theorem resolveMain_eq_running_iff :
    policy.resolveMain main wrongIf annulledIf = .running ↔
      policy.settle main annulledIf ≠ .yes ∧ policy.settle main wrongIf ≠ .yes ∧
        (main = .undecided ∨ policy.settle main annulledIf = .undecided ∨
          main = .yes ∧ policy.settle main wrongIf = .undecided) := by
  unfold resolveMain mainOutcome onNo
  cases policy.settle main annulledIf <;> cases policy.settle main wrongIf <;> cases main <;>
    cases policy.annulIfNo <;> decide

/-- A prediction comes true when the second phase passes. -/
theorem resolveMain_eq_correct_iff :
    policy.resolveMain main wrongIf annulledIf = .correct ↔
      policy.Passes main wrongIf annulledIf := by
  unfold resolveMain mainOutcome onNo Passes
  cases policy.settle main annulledIf <;> cases policy.settle main wrongIf <;> cases main <;>
    cases policy.annulIfNo <;> decide

/-- The second phase waits for no preconditions. -/
theorem resolveMain_ne_waiting : policy.resolveMain main wrongIf annulledIf ≠ .waiting := by
  unfold resolveMain mainOutcome onNo
  cases policy.settle main annulledIf <;> cases policy.settle main wrongIf <;> cases main <;>
    cases policy.annulIfNo <;> decide

/-- What the second phase neither leaves open nor passes fails. -/
theorem fails_of_resolveMain
    (h : policy.resolveMain main wrongIf annulledIf ≠ .running ∧
      policy.resolveMain main wrongIf annulledIf ≠ .correct) :
    policy.Fails main wrongIf annulledIf := by
  revert h
  unfold resolveMain mainOutcome onNo Fails
  cases policy.settle main annulledIf <;> cases policy.settle main wrongIf <;> cases main <;>
    cases policy.annulIfNo <;> decide

/-- **The first table only leads on.** -/
theorem resolvePre_leadsTo (hm : main.SettlesTo main') (hw : wrongIf.SettlesTo wrongIf')
    (ha : annulledIf.SettlesTo annulledIf') :
    (policy.resolvePre main wrongIf annulledIf).LeadsTo
      (policy.resolvePre main' wrongIf' annulledIf') := by
  refine Outcome.leadsTo_of ?_ ?_ ?_
  · intro h
    obtain ⟨hna, hnw, hopen⟩ := resolvePre_eq_waiting_iff.1 h
    refine resolvePre_eq_waiting_iff.2
      ⟨fun hy => hna (settle_yes_persists hy ha), fun hy => hnw (settle_yes_persists hy hw), ?_⟩
    rcases hopen with rfl | hu | hu
    · rcases hm with hu | hu
      · exact Or.inl hu
      · exact Or.inl hu
    · exact Or.inr (Or.inl (settle_decided_persists hm hw hu))
    · exact Or.inr (Or.inr (settle_decided_persists hm ha hu))
  · intro h
    by_contra hne
    obtain ⟨hwait, hrun⟩ := not_or.1 hne
    have hfail := fails_of_resolvePre ⟨hwait, hrun⟩
    exact (resolvePre_eq_running_iff.1 h).not_fails (hfail.persists hm hw ha)
  · intro h
    exact absurd h resolvePre_ne_correct

/-- **The second table only leads on.** -/
theorem resolveMain_leadsTo (hm : main.SettlesTo main') (hw : wrongIf.SettlesTo wrongIf')
    (ha : annulledIf.SettlesTo annulledIf') :
    (policy.resolveMain main wrongIf annulledIf).LeadsTo
      (policy.resolveMain main' wrongIf' annulledIf') := by
  refine Outcome.leadsTo_of ?_ ?_ ?_
  · intro h
    exact absurd h resolveMain_ne_waiting
  · intro h
    obtain ⟨hna, hnw, hopen⟩ := resolveMain_eq_running_iff.1 h
    refine Or.inr (resolveMain_eq_running_iff.2
      ⟨fun hy => hna (settle_yes_persists hy ha), fun hy => hnw (settle_yes_persists hy hw), ?_⟩)
    rcases hopen with rfl | hu | ⟨rfl, hu⟩
    · rcases hm with hu | hu
      · exact Or.inl hu
      · exact Or.inl hu
    · exact Or.inr (Or.inl (settle_decided_persists hm ha hu))
    · rcases hm with hu' | rfl
      · exact Or.inl hu'
      · exact Or.inr (Or.inr ⟨rfl, settle_decided_persists (.refl _) hw hu⟩)
  · intro h
    have hnot : ¬ policy.Fails main wrongIf annulledIf := fun hfail =>
      (resolveMain_eq_correct_iff.1 h).not_fails (hfail.persists hm hw ha)
    exact ⟨fun hi => hnot (fails_of_resolveMain (by rw [hi]; decide)),
      fun hi => hnot (fails_of_resolveMain (by rw [hi]; decide))⟩

end Policy

/-! ### Phases -/

/-- What is known of the conditions at all positions may become known further. -/
def Settling (v w : Nat → Option Trilean) : Prop :=
  ∀ i, ((v i).getD .yes).SettlesTo ((w i).getD .yes)

/-- A clause settles as its conditions do; a missing one says the same for ever. -/
theorem Settling.evaluateOptional {v w : Nat → Option Trilean} (h : Settling v w)
    (c : Option Clause) :
    (Clause.evaluateOptional v c).SettlesTo (Clause.evaluateOptional w c) := by
  cases c with
  | none => exact .refl .yes
  | some c => exact c.evaluate_settlesTo fun i _ => h i

/-- A side clause settles as its conditions do; a missing one says the same for ever. -/
theorem Settling.sideValue {v w : Nat → Option Trilean} (h : Settling v w) (c : Option Clause) :
    (sideValue v c).SettlesTo (sideValue w c) := by
  cases c with
  | none => exact .refl .no
  | some c => exact c.evaluate_settlesTo fun i _ => h i

namespace PrePhase

/-- The outcome of the first phase only leads on. -/
theorem evaluate_leadsTo (p : PrePhase) {v w : Nat → Option Trilean} (h : Settling v w) :
    (p.evaluate v).LeadsTo (p.evaluate w) :=
  Policy.resolvePre_leadsTo (h.evaluateOptional p.predictIf) (h.sideValue p.wrongIf)
    (h.sideValue p.annulledIf)

/-- The first phase makes no prediction correct. -/
theorem evaluate_ne_correct (p : PrePhase) (v : Nat → Option Trilean) :
    p.evaluate v ≠ .correct :=
  Policy.resolvePre_ne_correct

/-- Where the author ignores nothing, the first phase stays passed. -/
theorem evaluate_running_persists {p : PrePhase} (hp : p.policy.ignoreUndecided = false)
    {v w : Nat → Option Trilean} (hvw : Settling v w) (h : p.evaluate v = .running) :
    p.evaluate w = .running := by
  have hpass := Policy.resolvePre_eq_running_iff.1 h
  exact Policy.resolvePre_eq_running_iff.2 (hpass.persists hp (hvw.evaluateOptional p.predictIf)
    (hvw.sideValue p.wrongIf) (hvw.sideValue p.annulledIf))

end PrePhase

namespace MainPhase

/-- The outcome of the second phase only leads on. -/
theorem evaluate_leadsTo (p : MainPhase) {v w : Nat → Option Trilean} (h : Settling v w) :
    (p.evaluate v).LeadsTo (p.evaluate w) :=
  Policy.resolveMain_leadsTo (h.evaluateOptional (some p.predict)) (h.sideValue p.wrongIf)
    (h.sideValue p.annulledIf)

/-- In the second phase nothing waits for preconditions. -/
theorem evaluate_ne_waiting (p : MainPhase) (v : Nat → Option Trilean) :
    p.evaluate v ≠ .waiting :=
  Policy.resolveMain_ne_waiting

/-- Where the author ignores nothing, a prediction that came true stays so. -/
theorem evaluate_correct_persists {p : MainPhase} (hp : p.policy.ignoreUndecided = false)
    {v w : Nat → Option Trilean} (hvw : Settling v w) (h : p.evaluate v = .correct) :
    p.evaluate w = .correct := by
  have hpass := Policy.resolveMain_eq_correct_iff.1 h
  exact Policy.resolveMain_eq_correct_iff.2
    (hpass.persists hp (hvw.evaluateOptional (some p.predict)) (hvw.sideValue p.wrongIf)
      (hvw.sideValue p.annulledIf))

end MainPhase

namespace Prediction

/-! ### Predictions -/

/-- The second phase decides once the first is passed. -/
theorem outcome_of_running {p : Prediction} (h : p.pre.evaluate p.valueAt = .running) :
    p.outcome = p.main.evaluate p.valueAt := by
  rw [outcome, h]

/-- Until the first phase is passed, it decides alone. -/
theorem outcome_of_ne_running {p : Prediction} (h : p.pre.evaluate p.valueAt ≠ .running) :
    p.outcome = p.pre.evaluate p.valueAt := by
  rw [outcome]
  split
  · contradiction
  · rfl

/-- **Both phases together only lead on.** -/
theorem outcome_leadsTo {p q : Prediction} (hpre : q.pre = p.pre) (hmain : q.main = p.main)
    (h : Settling p.valueAt q.valueAt) : p.outcome.LeadsTo q.outcome := by
  have hP : (p.pre.evaluate p.valueAt).LeadsTo (q.pre.evaluate q.valueAt) :=
    hpre ▸ p.pre.evaluate_leadsTo h
  have hM : (p.main.evaluate p.valueAt).LeadsTo (q.main.evaluate q.valueAt) :=
    hmain ▸ p.main.evaluate_leadsTo h
  by_cases hp : p.pre.evaluate p.valueAt = .running
  · by_cases hq : q.pre.evaluate q.valueAt = .running
    · rw [outcome_of_running hp, outcome_of_running hq]
      exact hM
    · -- the first phase was passed and has failed since, which is final and no success
      rw [outcome_of_ne_running hq]
      rw [hp] at hP
      have hne : q.pre.evaluate q.valueAt ≠ .correct := q.pre.evaluate_ne_correct q.valueAt
      refine Outcome.leadsTo_of (fun hw => ?_) (fun hr => absurd hr hq) (fun hc => absurd hc hne)
      rw [hw] at hP
      exact absurd hP.1 (by decide)
  · rw [outcome_of_ne_running hp]
    by_cases hq : q.pre.evaluate q.valueAt = .running
    · -- the first phase was open and is passed now, so that anything may follow
      rw [outcome_of_running hq]
      rw [hq] at hP
      have hwait : p.pre.evaluate p.valueAt = .waiting := by
        cases ho : p.pre.evaluate p.valueAt with
        | waiting => rfl
        | running => exact absurd ho hp
        | correct => exact absurd ho (p.pre.evaluate_ne_correct p.valueAt)
        | incorrect => rw [ho] at hP; exact absurd hP.1 (by decide)
        | annulled => rw [ho] at hP; exact absurd hP.1 (by decide)
      rw [hwait]
      exact ⟨Nat.zero_le _, fun hfail => absurd hfail (by decide)⟩
    · rw [outcome_of_ne_running hq]
      exact hP

/-- Where the author ignores nothing, a prediction that came true stays so. -/
theorem outcome_correct_persists {p q : Prediction} (hpre : q.pre = p.pre)
    (hmain : q.main = p.main) (h : Settling p.valueAt q.valueAt)
    (hp : p.pre.policy.ignoreUndecided = false) (hm : p.main.policy.ignoreUndecided = false)
    (hc : p.outcome = .correct) : q.outcome = .correct := by
  have hrun : p.pre.evaluate p.valueAt = .running := by
    by_contra hne
    rw [outcome_of_ne_running hne] at hc
    exact p.pre.evaluate_ne_correct p.valueAt hc
  rw [outcome_of_running hrun] at hc
  have hrun' : q.pre.evaluate q.valueAt = .running := by
    rw [hpre]
    exact PrePhase.evaluate_running_persists hp h hrun
  rw [outcome_of_running hrun', hmain]
  exact MainPhase.evaluate_correct_persists hm h hc

/-! ### Runs -/

/-- Whether every condition is settled exactly when it is finished. -/
def IsConsistent (p : Prediction) : Prop :=
  ∀ c ∈ p.given, c.IsConsistent

instance (p : Prediction) : Decidable p.IsConsistent :=
  inferInstanceAs (Decidable (∀ c ∈ p.given, c.IsConsistent))

/-- Feeding keeps conditions consistent. -/
theorem isConsistent_feedAll {p : Prediction} (hp : p.IsConsistent) (fs : List Feeding) :
    (p.feedAll fs).IsConsistent := by
  intro d hd
  obtain ⟨i, hi⟩ := List.getElem?_of_mem hd
  have hrel := p.continues_feedAll fs i
  rw [hi] at hrel
  cases hc : p.given[i]? with
  | none => rw [hc] at hrel; cases hrel
  | some c =>
      rw [hc] at hrel
      cases hrel with
      | some hcd => exact hcd.consistent (hp c (List.mem_of_getElem? hc))

/-- Where every condition is followed by a later stage of it, what is known only grows. -/
theorem settling_of_continues {p q : Prediction} (hp : p.IsConsistent)
    (h : ∀ i : Nat, Option.Rel Condition.Continues p.given[i]? q.given[i]?) :
    Settling p.valueAt q.valueAt := by
  intro i
  have hrel := h i
  simp only [valueAt]
  cases hc : p.given[i]? with
  | none =>
      rw [hc] at hrel
      cases hd : q.given[i]? with
      | none => exact .refl .yes
      | some d => rw [hd] at hrel; cases hrel
  | some c =>
      rw [hc] at hrel
      cases hd : q.given[i]? with
      | none => rw [hd] at hrel; cases hrel
      | some d =>
          rw [hd] at hrel
          cases hrel with
          | some hcd => exact hcd.value_settlesTo (hp c (List.mem_of_getElem? hc))

/-- Along a run, what is known of the conditions only grows. -/
theorem settling_feedAll {p : Prediction} (hp : p.IsConsistent) (fs : List Feeding) :
    Settling p.valueAt (p.feedAll fs).valueAt :=
  settling_of_continues hp (p.continues_feedAll fs)

/-- **The lifecycle never goes backwards.** Take a prediction whose conditions are consistent, any
two moments of any run of feedings, accepted or refused. The outcome at the later moment is of no
lower rank; it is not *correct* if the prediction had failed; and, if neither phase ignores open
side clauses, it is *correct* if it was so before. -/
theorem outcome_never_goes_back (p : Prediction) (hp : p.IsConsistent)
    (before later : List Feeding) :
    (p.feedAll before).outcome.rank ≤ ((p.feedAll before).feedAll later).outcome.rank ∧
      ((p.feedAll before).outcome = .incorrect ∨ (p.feedAll before).outcome = .annulled →
        ((p.feedAll before).feedAll later).outcome ≠ .correct) ∧
      (p.pre.policy.ignoreUndecided = false → p.main.policy.ignoreUndecided = false →
        (p.feedAll before).outcome = .correct →
          ((p.feedAll before).feedAll later).outcome = .correct) := by
  have hq : (p.feedAll before).IsConsistent := isConsistent_feedAll hp before
  have hsettle := settling_feedAll hq later
  have hpre := pre_feedAll (p.feedAll before) later
  have hmain := main_feedAll (p.feedAll before) later
  obtain ⟨hrank, hfail⟩ := outcome_leadsTo hpre hmain hsettle
  refine ⟨hrank, hfail, fun hip him hc => ?_⟩
  rw [← pre_feedAll p before] at hip
  rw [← main_feedAll p before] at him
  exact outcome_correct_persists hpre hmain hsettle hip him hc

/-! ### A prediction that is made wrong late -/

/-- Two levels of one coin. The upper one makes the prediction correct at once, since open side
clauses are ignored then; the lower one makes it wrong. -/
def twoLevels : Prediction where
  id := "two-levels"
  createdAt := ⟨0, 0⟩
  postedAt := ⟨0, 0⟩
  reporter := ""
  postAuthor := ""
  postUrl := ""
  postText := ""
  given :=
    [.fresh "high" .above [.market (.coin "BINANCE" "BTC" "USDT"), .number 3] 0 100 0,
      .fresh "low" .below [.market (.coin "BINANCE" "BTC" "USDT"), .number 1] 0 100 0]
  pre := .none
  main := ⟨some (.literal 1), none, .literal 0, ⟨true, false⟩⟩
  state := .initial
  shape := .unsupported

/-- A price of the coin, for the condition at a position. -/
def twoLevelsAt (index : Nat) (timestamp : Int) (value : Price) : Feeding :=
  ⟨index, .ofList [("COIN:BINANCE:BTC-USDT", ⟨timestamp, value⟩)]⟩

example :
    (twoLevels.feedAll [twoLevelsAt 0 10 5]).outcome = .correct ∧
      (twoLevels.feedAll [twoLevelsAt 0 10 5, twoLevelsAt 1 20 0]).outcome = .incorrect := by
  decide +kernel

/-- The lifecycle of `twoLevels` from its success to its failure and on. -/
theorem twoLevels_never_goes_back :
    twoLevels.IsConsistent ∧
      (twoLevels.feedAll [twoLevelsAt 0 10 5]).outcome.rank ≤
        ((twoLevels.feedAll [twoLevelsAt 0 10 5]).feedAll [twoLevelsAt 1 20 0]).outcome.rank ∧
      ((twoLevels.feedAll [twoLevelsAt 0 10 5, twoLevelsAt 1 20 0]).feedAll
        [twoLevelsAt 0 30 7]).outcome ≠ .correct := by
  have hc : twoLevels.IsConsistent := by decide +kernel
  have hfailed :
      (twoLevels.feedAll [twoLevelsAt 0 10 5, twoLevelsAt 1 20 0]).outcome = .incorrect := by
    decide +kernel
  exact ⟨hc, (outcome_never_goes_back twoLevels hc _ _).1,
    (outcome_never_goes_back twoLevels hc _ _).2.1 (Or.inl hfailed)⟩

end Prediction

end Forecast
