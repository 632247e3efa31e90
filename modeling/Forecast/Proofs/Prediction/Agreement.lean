import Forecast.Proofs.Prediction.Actionable

/-!
# Where Two Ends of a Prediction Agree

Ticks can reach the conditions of a prediction in different orders, and feeding stops where the
outcome is final. So there may be several ends, each with its own part of all that can be known
(`Prediction.StandsAt`): what is settled in it is settled so, and what it still waits for is not
known at all. This module says what two ends of one prediction have in common.

Whether the prediction still waits for its preconditions is the same at all ends. Beyond that, three
things can make a difference. A phase may ignore open side clauses, and then it does not matter to
it what they come to later (`Policy.ignores`). And a phase may be ambiguous: one clause makes the
prediction wrong and another annuls it, and the one that is settled first decides
(`PrePhase.isAmbiguous`, `MainPhase.isAmbiguous`). Where nothing of this is the case, all ends have
one outcome.

## Main results

* `Policy.resolvePre_unambiguous`, `Policy.resolveMain_unambiguous`: the two tables.
* `Prediction.StandsAt.agree`: what two ends have in common.
-/

namespace Forecast

/-- Values that settle to one value do not contradict each other. -/
theorem Trilean.SettlesTo.agree {v w u : Trilean} (hv : v.SettlesTo u) (hw : w.SettlesTo u)
    (hvopen : v ≠ .undecided) (hwopen : w ≠ .undecided) : v = w := by
  rw [← hv.eq hvopen, ← hw.eq hwopen]

/-- What is known by one of two values: the first if it is settled, or else the second. -/
def Trilean.join : Trilean → Trilean → Trilean
  | .undecided, w => w
  | v, _ => v

/-- A value settles to what is known by it and another. -/
theorem Trilean.settlesTo_join (v w : Trilean) : v.SettlesTo (v.join w) := by
  cases v with
  | undecided => exact Or.inl rfl
  | yes => exact Or.inr rfl
  | no => exact Or.inr rfl

/-- Of two values that do not contradict each other it does not matter which is the first. -/
theorem Trilean.join_comm {v w : Trilean} (h : v.SettlesTo w ∨ w.SettlesTo v) :
    v.join w = w.join v := by
  rcases h with (rfl | rfl) | (rfl | rfl)
  · cases w <;> rfl
  · rfl
  · cases v <;> rfl
  · rfl

namespace Policy

/-! ### The tables of failures -/

variable {policy : Policy} {main wrongIf annulledIf : Trilean}

/-- The first phase annuls a prediction by its clause for that, or by its main clause if this was
chosen and no side clause is open. -/
theorem resolvePre_eq_annulled_iff :
    policy.resolvePre main wrongIf annulledIf = .annulled ↔
      policy.settle main annulledIf = .yes ∨
        policy.settle main annulledIf = .no ∧ policy.settle main wrongIf = .no ∧ main = .no ∧
          policy.annulIfNo = true := by
  rw [resolvePre, onNo]
  cases policy.settle main annulledIf <;> cases policy.settle main wrongIf <;> cases main <;>
    cases policy.annulIfNo <;> decide

/-- The first phase makes a prediction wrong by its clause for that, or by its main clause if
nothing else was chosen and no side clause is open. -/
theorem resolvePre_eq_incorrect_iff :
    policy.resolvePre main wrongIf annulledIf = .incorrect ↔
      policy.settle main annulledIf ≠ .yes ∧
        (policy.settle main wrongIf = .yes ∨
          policy.settle main annulledIf = .no ∧ policy.settle main wrongIf = .no ∧ main = .no ∧
            policy.annulIfNo = false) := by
  rw [resolvePre, onNo]
  cases policy.settle main annulledIf <;> cases policy.settle main wrongIf <;> cases main <;>
    cases policy.annulIfNo <;> decide

/-- The second phase annuls a prediction by its clause for that, or by its main clause if this was
chosen and nothing else can annul it. -/
theorem resolveMain_eq_annulled_iff :
    policy.resolveMain main wrongIf annulledIf = .annulled ↔
      policy.settle main annulledIf = .yes ∨
        policy.settle main annulledIf = .no ∧ policy.settle main wrongIf ≠ .yes ∧ main = .no ∧
          policy.annulIfNo = true := by
  unfold resolveMain mainOutcome onNo
  cases policy.settle main annulledIf <;> cases policy.settle main wrongIf <;> cases main <;>
    cases policy.annulIfNo <;> decide

/-- The second phase makes a prediction wrong by its clause for that, or by its main clause if
nothing else was chosen and nothing can annul it. -/
theorem resolveMain_eq_incorrect_iff :
    policy.resolveMain main wrongIf annulledIf = .incorrect ↔
      policy.settle main annulledIf ≠ .yes ∧
        (policy.settle main wrongIf = .yes ∨
          policy.settle main annulledIf = .no ∧ main = .no ∧ policy.annulIfNo = false) := by
  unfold resolveMain mainOutcome onNo
  cases policy.settle main annulledIf <;> cases policy.settle main wrongIf <;> cases main <;>
    cases policy.annulIfNo <;> decide

section Unambiguous

variable {main' wrongIf' annulledIf' m w a : Trilean}

/-- **The first table contradicts itself only if a prediction can both be made wrong and be
annulled.** -/
theorem resolvePre_unambiguous (hpolicy : policy.ignoreUndecided = false)
    (hw : wrongIf.SettlesTo w) (ha : annulledIf.SettlesTo a)
    (hw' : wrongIf'.SettlesTo w) (ha' : annulledIf'.SettlesTo a)
    (hone : wrongIf' = .no ∨ annulledIf = .no)
    (h : policy.resolvePre main wrongIf annulledIf = .annulled) :
    policy.resolvePre main' wrongIf' annulledIf' ≠ .incorrect := by
  intro h'
  rw [resolvePre_eq_annulled_iff] at h
  rw [resolvePre_eq_incorrect_iff] at h'
  simp only [settle_of_not_ignoreUndecided hpolicy] at h h'
  obtain ⟨-, h'⟩ := h'
  rcases h with rfl | ⟨rfl, rfl, -, hyes⟩ <;> rcases h' with rfl | ⟨rfl, rfl, -, hno⟩
  · rcases hone with hone | hone
    · cases hone
    · cases hone
  · cases ha.agree ha' (by decide) (by decide)
  · cases hw.agree hw' (by decide) (by decide)
  · rw [hyes] at hno
    cases hno

/-- **The second table contradicts itself only if a prediction can both be made wrong and be
annulled.** -/
theorem resolveMain_unambiguous (hpolicy : policy.ignoreUndecided = false)
    (ha : annulledIf.SettlesTo a) (ha' : annulledIf'.SettlesTo a)
    (hone : wrongIf' = .no ∨ annulledIf = .no ∧ policy.annulIfNo = false)
    (h : policy.resolveMain main wrongIf annulledIf = .annulled) :
    policy.resolveMain main' wrongIf' annulledIf' ≠ .incorrect := by
  intro h'
  rw [resolveMain_eq_annulled_iff] at h
  rw [resolveMain_eq_incorrect_iff] at h'
  simp only [settle_of_not_ignoreUndecided hpolicy] at h h'
  obtain ⟨-, h'⟩ := h'
  rcases h with rfl | ⟨rfl, -, -, hyes⟩ <;> rcases h' with rfl | ⟨rfl, -, hno⟩
  · rcases hone with hone | ⟨hone, -⟩
    · cases hone
    · cases hone
  · cases ha.agree ha' (by decide) (by decide)
  · rcases hone with hone | ⟨-, hone⟩
    · cases hone
    · rw [hyes] at hone
      cases hone
  · rw [hyes] at hno
    cases hno

end Unambiguous

/-- A side clause that fails counts as failing. -/
theorem settle_no : policy.settle main .no = .no := by
  rw [settle]
  split <;> rfl

/-- Whether a phase with some side clauses ignores them while they are open. -/
def ignores (policy : Policy) (wrongIf annulledIf : Option Clause) : Bool :=
  policy.ignoreUndecided && (wrongIf.isSome || annulledIf.isSome)

/-- The policy that ignores nothing and is the same otherwise. -/
def heedful (policy : Policy) : Policy :=
  { policy with ignoreUndecided := false }

/-- Side clauses count as with the policy that ignores nothing, if none is ignored. -/
theorem settle_heedful {wrongIf annulledIf : Option Clause}
    (h : policy.ignores wrongIf annulledIf = false) {side : Option Clause}
    (hside : side = wrongIf ∨ side = annulledIf) (v : Nat → Option Trilean) :
    policy.heedful.settle main (sideValue v side) = policy.settle main (sideValue v side) := by
  rw [ignores, Bool.and_eq_false_iff, Bool.or_eq_false_iff, Option.isSome_eq_false_iff,
    Option.isSome_eq_false_iff, Option.isNone_iff_eq_none, Option.isNone_iff_eq_none] at h
  rcases h with h | ⟨rfl, rfl⟩
  · rw [settle_of_not_ignoreUndecided h, settle_of_not_ignoreUndecided rfl]
  · obtain rfl : side = none := hside.elim id id
    rw [sideValue, settle_no, settle_no]

end Policy

/-! ### Phases -/

namespace PrePhase

/-- Whether the phase ignores open side clauses. -/
def ignores (p : PrePhase) : Bool :=
  p.policy.ignores p.wrongIf p.annulledIf

/-- Whether the phase can both make a prediction wrong and annul it before it is settled. -/
def isAmbiguous (p : PrePhase) : Bool :=
  p.wrongIf.isSome && p.annulledIf.isSome

/-- The phase that ignores nothing and is the same otherwise. -/
def heedful (p : PrePhase) : PrePhase :=
  { p with policy := p.policy.heedful }

/-- A phase that ignores nothing is as good as the one that never does. -/
theorem evaluate_heedful {p : PrePhase} (h : p.ignores = false) (v : Nat → Option Trilean) :
    p.heedful.evaluate v = p.evaluate v := by
  simp only [evaluate, heedful, Policy.resolvePre, Policy.settle_heedful h (Or.inl rfl),
    Policy.settle_heedful h (Or.inr rfl)]
  rfl

variable {p : PrePhase} {v w u : Nat → Option Trilean}

/-- A phase that ignores nothing stays passed. -/
theorem evaluate_running_stays (h : p.ignores = false) (hv : Settling v u)
    (hrun : p.evaluate v = .running) : p.evaluate u = .running := by
  rw [← evaluate_heedful h] at hrun ⊢
  exact evaluate_running_persists rfl hv hrun

/-- A phase that ignores nothing and is not ambiguous fails in one way only. -/
theorem evaluate_ne_incorrect (h : p.ignores = false) (hone : p.isAmbiguous = false)
    (hv : Settling v u) (hw : Settling w u) (hannulled : p.evaluate v = .annulled) :
    p.evaluate w ≠ .incorrect := by
  rw [← evaluate_heedful h] at hannulled ⊢
  refine Policy.resolvePre_unambiguous rfl (hv.sideValue _) (hv.sideValue _) (hw.sideValue _)
    (hw.sideValue _) ?_ hannulled
  rw [isAmbiguous, Bool.and_eq_false_iff, Option.isSome_eq_false_iff, Option.isSome_eq_false_iff,
    Option.isNone_iff_eq_none, Option.isNone_iff_eq_none] at hone
  exact hone.imp (fun hnone => by rw [heedful, hnone]; rfl)
    (fun hnone => by rw [heedful, hnone]; rfl)

end PrePhase

namespace MainPhase

/-- Whether the phase ignores open side clauses. -/
def ignores (p : MainPhase) : Bool :=
  p.policy.ignores p.wrongIf p.annulledIf

/-- Whether the phase can both make a prediction wrong and annul it before it is settled. -/
def isAmbiguous (p : MainPhase) : Bool :=
  p.wrongIf.isSome && (p.annulledIf.isSome || p.policy.annulIfNo)

/-- The phase that ignores nothing and is the same otherwise. -/
def heedful (p : MainPhase) : MainPhase :=
  { p with policy := p.policy.heedful }

/-- A phase that ignores nothing is as good as the one that never does. -/
theorem evaluate_heedful {p : MainPhase} (h : p.ignores = false) (v : Nat → Option Trilean) :
    p.heedful.evaluate v = p.evaluate v := by
  simp only [evaluate, heedful, Policy.resolveMain, Policy.settle_heedful h (Or.inl rfl),
    Policy.settle_heedful h (Or.inr rfl)]
  rfl

variable {p : MainPhase} {v w u : Nat → Option Trilean}

/-- In a phase that ignores nothing, a prediction that came true stays so. -/
theorem evaluate_correct_stays (h : p.ignores = false) (hv : Settling v u)
    (hcorrect : p.evaluate v = .correct) : p.evaluate u = .correct := by
  rw [← evaluate_heedful h] at hcorrect ⊢
  exact evaluate_correct_persists rfl hv hcorrect

/-- A phase that ignores nothing and is not ambiguous fails in one way only. -/
theorem evaluate_ne_incorrect (h : p.ignores = false) (hone : p.isAmbiguous = false)
    (hv : Settling v u) (hw : Settling w u) (hannulled : p.evaluate v = .annulled) :
    p.evaluate w ≠ .incorrect := by
  rw [← evaluate_heedful h] at hannulled ⊢
  refine Policy.resolveMain_unambiguous rfl (hv.sideValue _) (hw.sideValue _) ?_ hannulled
  rw [isAmbiguous, Bool.and_eq_false_iff, Bool.or_eq_false_iff, Option.isSome_eq_false_iff,
    Option.isSome_eq_false_iff, Option.isNone_iff_eq_none, Option.isNone_iff_eq_none] at hone
  exact hone.imp (fun hnone => by rw [heedful, hnone]; rfl)
    (fun hnone => ⟨by rw [heedful, hnone.1]; rfl, hnone.2⟩)

end MainPhase

namespace Outcome

/-- What leads to waiting is waiting. -/
theorem LeadsTo.waiting {o o' : Outcome} (h : o.LeadsTo o') (ho' : o' = .waiting) :
    o = .waiting := by
  obtain ⟨hrank, -⟩ := h
  subst ho'
  revert hrank
  cases o <;> decide

/-- What leads to running is waiting or running. -/
theorem LeadsTo.running {o o' : Outcome} (h : o.LeadsTo o') (ho' : o' = .running) :
    o = .waiting ∨ o = .running := by
  obtain ⟨hrank, -⟩ := h
  subst ho'
  revert hrank
  cases o <;> decide

/-- What leads to success is no failure. -/
theorem LeadsTo.correct {o o' : Outcome} (h : o.LeadsTo o') (ho' : o' = .correct) :
    o ≠ .incorrect ∧ o ≠ .annulled :=
  ⟨fun hfail => h.2 (Or.inl hfail) ho', fun hfail => h.2 (Or.inr hfail) ho'⟩

end Outcome

namespace Prediction

/-! ### Ends of a prediction -/

/-- Whether a prediction is one end of what can be known of its conditions: what is settled in it is
settled so, and all that it waits for is not known. -/
structure StandsAt (p : Prediction) (u : Nat → Option Trilean) : Prop where
  known : ∀ i : Nat, Option.Rel Trilean.SettlesTo (p.valueAt i) (u i)
  unknown : ∀ i ∈ p.actionable, u i = some .undecided

/-- What two outcomes of one prediction have in common. -/
structure Agree (pre : PrePhase) (main : MainPhase) (o o' : Outcome) : Prop where
  waiting : o = .waiting ↔ o' = .waiting
  running : pre.ignores = false → (o = .running ↔ o' = .running)
  correct : pre.ignores = false → main.ignores = false → (o = .correct ↔ o' = .correct)
  same : pre.ignores = false → main.ignores = false → pre.isAmbiguous = false →
    main.isAmbiguous = false → o = o'

/-- An outcome has everything in common with itself. -/
theorem Agree.refl (pre : PrePhase) (main : MainPhase) (o : Outcome) : Agree pre main o o :=
  ⟨Iff.rfl, fun _ => Iff.rfl, fun _ _ => Iff.rfl, fun _ _ _ _ => rfl⟩

variable {p q : Prediction} {u : Nat → Option Trilean}

/-- What is known settles what the conditions are. -/
theorem StandsAt.settling (h : p.StandsAt u) : Settling p.valueAt u := by
  intro i
  have hi := h.known i
  generalize p.valueAt i = x at hi ⊢
  generalize u i = y at hi ⊢
  cases hi with
  | none => exact .refl .yes
  | some hsettles => exact hsettles

/-- Of what the active phase mentions, a prediction knows all. -/
theorem StandsAt.valueAt_eq (h : p.StandsAt u) {i : Nat} (hi : i ∈ p.activeReferences) :
    p.valueAt i = u i := by
  have hknown := h.known i
  cases hv : p.valueAt i with
  | none =>
      rw [hv] at hknown
      cases hu : u i with
      | none => rfl
      | some b => rw [hu] at hknown; cases hknown
  | some a =>
      rw [hv] at hknown
      cases hu : u i with
      | none => rw [hu] at hknown; cases hknown
      | some b =>
          rw [hu] at hknown
          cases hknown with
          | some hsettles =>
              rcases hsettles with rfl | rfl
              · obtain ⟨c, hc, hvalue⟩ := Option.map_eq_some_iff.1 hv
                rw [← h.unknown i (mem_actionable_iff.2 ⟨hi, c, hc, hvalue⟩), hu]
              · rfl

/-- A prediction that waits passes no first phase, whatever can be known. -/
theorem StandsAt.pre_waiting (h : p.StandsAt u) (hwaiting : p.outcome = .waiting) :
    p.pre.evaluate u = .waiting := by
  rw [← outcome_eq_waiting_iff.1 hwaiting]
  refine PrePhase.evaluate_congr fun i hi => (h.valueAt_eq ?_).symm
  rwa [activeReferences_of_waiting hwaiting]

/-- A prediction that has got beyond waiting, but not to a failure, has passed the first phase. -/
theorem pre_running (h : p.outcome = .running ∨ p.outcome = .correct) :
    p.pre.evaluate p.valueAt = .running := by
  by_contra hne
  rw [outcome_of_ne_running hne] at h
  exact h.elim hne (p.pre.evaluate_ne_correct p.valueAt)

/-- A prediction that runs is not settled by the second phase, whatever can be known. -/
theorem StandsAt.main_running (h : p.StandsAt u) (hrunning : p.outcome = .running) :
    p.main.evaluate u = .running := by
  rw [← (outcome_eq_running_iff.1 hrunning).2]
  refine MainPhase.evaluate_congr fun i hi => (h.valueAt_eq ?_).symm
  rwa [activeReferences_of_running hrunning]

section Two

variable (hpre : q.pre = p.pre) (hmain : q.main = p.main) (hp : p.StandsAt u) (hq : q.StandsAt u)
include hpre hmain hp hq

omit hmain in
/-- If one end waits for preconditions, so does the other. -/
theorem StandsAt.waiting (hwaiting : p.outcome = .waiting) : q.outcome = .waiting := by
  have hnone : q.pre.evaluate q.valueAt = .waiting :=
    (q.pre.evaluate_leadsTo hq.settling).waiting (hpre ▸ hp.pre_waiting hwaiting)
  exact outcome_eq_waiting_iff.2 hnone

omit hmain in
/-- If one end has passed a first phase that ignores nothing, so has the other. -/
theorem StandsAt.pre_running (hheeds : p.pre.ignores = false)
    (hrun : p.pre.evaluate p.valueAt = .running) : q.pre.evaluate q.valueAt = .running := by
  have hstays := PrePhase.evaluate_running_stays hheeds hp.settling hrun
  refine ((q.pre.evaluate_leadsTo hq.settling).running (hpre ▸ hstays)).resolve_left fun hwait => ?_
  have hpwaits := hq.waiting hpre.symm hp (outcome_eq_waiting_iff.2 hwait)
  rw [outcome_eq_waiting_iff, hrun] at hpwaits
  cases hpwaits

/-- If one end runs, so does the other. -/
theorem StandsAt.running (hheeds : p.pre.ignores = false) (hrunning : p.outcome = .running) :
    q.outcome = .running := by
  have hpassed := hp.pre_running hpre hq hheeds (Prediction.pre_running (Or.inl hrunning))
  rw [outcome_of_running hpassed]
  have hleads := q.main.evaluate_leadsTo hq.settling
  exact (hleads.running (hmain ▸ hp.main_running hrunning)).resolve_left
    (q.main.evaluate_ne_waiting q.valueAt)

/-- If one end is a success, so is the other. -/
theorem StandsAt.correct (hheeds : p.pre.ignores = false) (hheeds' : p.main.ignores = false)
    (hcorrect : p.outcome = .correct) : q.outcome = .correct := by
  have hrun := Prediction.pre_running (Or.inr hcorrect)
  have hpassed := hp.pre_running hpre hq hheeds hrun
  rw [outcome_of_running hrun] at hcorrect
  have hstays := MainPhase.evaluate_correct_stays hheeds' hp.settling hcorrect
  obtain ⟨hincorrect, hannulled⟩ := (q.main.evaluate_leadsTo hq.settling).correct (hmain ▸ hstays)
  have hnotrunning : q.outcome ≠ .running := by
    intro hrunning
    have hsame := hq.running hpre.symm hmain.symm hp (hpre ▸ hheeds) hrunning
    rw [outcome_of_running hrun, hcorrect] at hsame
    cases hsame
  rw [outcome_of_running hpassed] at hnotrunning ⊢
  cases ho : q.main.evaluate q.valueAt with
  | waiting => exact absurd ho (q.main.evaluate_ne_waiting q.valueAt)
  | running => exact absurd ho hnotrunning
  | correct => rfl
  | incorrect => exact absurd ho hincorrect
  | annulled => exact absurd ho hannulled

/-- If one end is annulled and no phase is ambiguous, the other is not wrong. -/
theorem StandsAt.ne_incorrect (hheeds : p.pre.ignores = false) (hheeds' : p.main.ignores = false)
    (hone : p.pre.isAmbiguous = false) (hone' : p.main.isAmbiguous = false)
    (hannulled : p.outcome = .annulled) : q.outcome ≠ .incorrect := by
  by_cases hrun : p.pre.evaluate p.valueAt = .running
  · have hpassed := hp.pre_running hpre hq hheeds hrun
    rw [outcome_of_running hrun] at hannulled
    rw [outcome_of_running hpassed, hmain]
    exact MainPhase.evaluate_ne_incorrect hheeds' hone' hp.settling hq.settling hannulled
  · have hfailed : q.pre.evaluate q.valueAt ≠ .running := fun hpassed =>
      hrun (hq.pre_running hpre.symm hp (hpre ▸ hheeds) hpassed)
    rw [outcome_of_ne_running hrun] at hannulled
    rw [outcome_of_ne_running hfailed, hpre]
    exact PrePhase.evaluate_ne_incorrect hheeds hone hp.settling hq.settling hannulled

/-- **What two ends of a prediction have in common.** -/
theorem StandsAt.agree : Agree p.pre p.main p.outcome q.outcome := by
  have hwaiting : p.outcome = .waiting ↔ q.outcome = .waiting :=
    ⟨hp.waiting hpre hq, hq.waiting hpre.symm hp⟩
  have hrunning (hheeds : p.pre.ignores = false) : p.outcome = .running ↔ q.outcome = .running :=
    ⟨hp.running hpre hmain hq hheeds, hq.running hpre.symm hmain.symm hp (hpre ▸ hheeds)⟩
  have hcorrect (hheeds : p.pre.ignores = false) (hheeds' : p.main.ignores = false) :
      p.outcome = .correct ↔ q.outcome = .correct :=
    ⟨hp.correct hpre hmain hq hheeds hheeds',
      hq.correct hpre.symm hmain.symm hp (hpre ▸ hheeds) (hmain ▸ hheeds')⟩
  refine ⟨hwaiting, hrunning, hcorrect, fun hheeds hheeds' hone hone' => ?_⟩
  have hwrong (ho : p.outcome = .annulled) : q.outcome ≠ .incorrect :=
    hp.ne_incorrect hpre hmain hq hheeds hheeds' hone hone' ho
  have hwrong' (ho : q.outcome = .annulled) : p.outcome ≠ .incorrect :=
    hq.ne_incorrect hpre.symm hmain.symm hp (hpre ▸ hheeds) (hmain ▸ hheeds') (hpre ▸ hone)
      (hmain ▸ hone') ho
  have hwaiting' := hwaiting
  have hrunning' := hrunning hheeds
  have hcorrect' := hcorrect hheeds hheeds'
  generalize p.outcome = o at *
  generalize q.outcome = o' at *
  revert hwaiting' hrunning' hcorrect' hwrong hwrong'
  cases o <;> cases o' <;> simp

end Two

end Prediction

end Forecast
