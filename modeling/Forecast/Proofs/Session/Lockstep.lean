import Forecast.Proofs.Prediction.InOrder
import Forecast.Proofs.Session.Supply

/-!
# Conditions in Lock-Step

Take a prediction whose phases mention different conditions, and let the open conditions of each
phase have the same supply before them. A session feeds, in each pass, every open condition that
the active phase mentions, from streams of its own. This comes to feeding one series to all of them
at once, since those that are not fed any more are finished and would let the sets pass. So the
session ends in order (`Prediction.EndsInOrder`): the first series is fed until the first phase is
settled, and then the second until the second phase is.

## Main results

* `InStep.pass`: a pass feeds one set to all.
* `InStep.endsInOrder`: a session that ends without errors ends in order.
* `InStep.inactive_of_limit`: after enough passes it has ended.
-/

namespace Forecast

namespace Session

open Prediction (Fed EndsInOrder fed_nil_iff)

variable {m : Market} {supply : Nat → List (TickSet Price)} {s s' : Session} {is : List Nat}
  {zs ws : List (TickSet Price)}

/-! ### Supplies that are shared -/

/-- Whether the open ones of some conditions have the same supply before them. -/
def Shares (supply : Nat → List (TickSet Price)) (is : List Nat) (zs : List (TickSet Price))
    (p : Prediction) : Prop :=
  ∀ i ∈ is, ∀ c, p.given[i]? = some c → c.isFinished = false → supply i = zs

/-- A condition of a consistent prediction is undecided if it is not finished. -/
theorem value_eq_undecided_iff {c : Condition Price} (hc : c.IsConsistent) :
    c.value = .undecided ↔ c.isFinished = false := by
  rw [← hc]
  cases c.value <;> decide

/-- What shares a supply and is worth feeding has this supply. -/
theorem Shares.supply_eq {p : Prediction} (h : Shares supply p.activeReferences zs p)
    (hp : p.IsConsistent) {i : Nat} (hi : i ∈ p.actionable) : supply i = zs := by
  obtain ⟨href, c, hc, -⟩ := Prediction.mem_actionable_iff.1 hi
  exact h i href c hc (Prediction.not_finished_of_mem_actionable hp hi hc)

/-- **Conditions that the active phase mentions and that share a supply are fed its first set.** The
finished ones would let it pass. The open ones share the rest then. -/
theorem HasTaken.fed_one (h : HasTaken m supply s s' (oneOf s.prediction.actionable))
    (hp : s.prediction.IsConsistent)
    (hshares : Shares supply s.prediction.activeReferences zs s.prediction) :
    Fed s.prediction.activeReferences (zs.take 1) s.prediction s'.prediction ∧
      Shares (fun i => (supply i).drop (oneOf s.prediction.actionable i))
        s.prediction.activeReferences zs.tail s'.prediction := by
  have htakes {i : Nat} (hi : i ∈ s.prediction.activeReferences) {c : Condition Price}
      (hc : s.prediction.given[i]? = some c) (hfin : c.isFinished = false) :
      supply i = zs ∧ oneOf s.prediction.actionable i = 1 := by
    have hvalue := (value_eq_undecided_iff (hp c (List.mem_of_getElem? hc))).2 hfin
    exact ⟨hshares i hi c hc hfin, if_pos (Prediction.mem_actionable_iff.2 ⟨hi, c, hc, hvalue⟩)⟩
  refine ⟨fun i hi => ?_, fun i hi d hd hfin => ?_⟩
  · cases hc : s.prediction.given[i]? with
    | none =>
        have hlt : s'.prediction.given.length ≤ i := by
          rw [h.length_given]
          exact List.getElem?_eq_none_iff.1 hc
        rw [List.getElem?_eq_none hlt]
        exact .none
    | some c =>
        obtain ⟨d, hd, hcd⟩ := h.exists_after hc
        rw [hd]
        refine .some ?_
        cases hcfin : c.isFinished with
        | false =>
            obtain ⟨hsupply, hone⟩ := htakes hi hc hcfin
            rwa [hone, hsupply] at hcd
        | true =>
            rw [(Condition.continues_of_feedEach hcd).finished hcfin]
            exact Condition.feedEach_of_finished hcfin _
  · obtain ⟨c, hc, hcd⟩ := h.exists_before hd
    have hcfin : c.isFinished = false := by
      by_contra hfinished
      rw [(Condition.continues_of_feedEach hcd).finished (Bool.not_eq_false _ ▸ hfinished)] at hfin
      exact hfinished hfin
    obtain ⟨hsupply, hone⟩ := htakes hi hc hcfin
    simp only [hone, hsupply, List.drop_one]

/-- A condition that the active phase does not mention is as it was. -/
theorem HasTaken.same_of_apart (h : HasTaken m supply s s' (oneOf s.prediction.actionable))
    {i : Nat} (hapart : i ∉ s.prediction.activeReferences) :
    s'.prediction.given[i]? = s.prediction.given[i]? := by
  refine h.getElem?_given_eq ?_
  rw [oneOf, if_neg fun hact => hapart (Prediction.mem_actionable_iff.1 hact).1, List.take_zero]

/-- Conditions that the active phase does not mention go on to share what they shared. -/
theorem HasTaken.shares_of_apart (h : HasTaken m supply s s' (oneOf s.prediction.actionable))
    (hapart : ∀ i ∈ is, i ∉ s.prediction.activeReferences)
    (hshares : Shares supply is zs s.prediction) :
    Shares (fun i => (supply i).drop (oneOf s.prediction.actionable i)) is zs s'.prediction := by
  intro i hi c hc hfin
  rw [h.same_of_apart (hapart i hi)] at hc
  have hnone : oneOf s.prediction.actionable i = 0 :=
    if_neg fun hact => hapart i hi (Prediction.mem_actionable_iff.1 hact).1
  simp only [hnone, List.drop_zero, hshares i hi c hc hfin]

/-- If what is worth feeding shares a supply in an open prediction, then this is what runs dry. -/
theorem Shares.dry_iff {p : Prediction} (h : Shares supply p.activeReferences zs p)
    (hp : p.IsConsistent) (hopen : p.outcome.isFinal = false) :
    (∀ i ∈ p.actionable, supply i = []) ↔ zs = [] := by
  refine ⟨fun hdry => ?_, fun hnil i hi => (h.supply_eq hp hi).trans hnil⟩
  obtain ⟨i, hi⟩ := List.exists_mem_of_ne_nil _ (Prediction.actionable_ne_nil hopen)
  rw [← h.supply_eq hp hi, hdry i hi]

/-! ### Passes in lock-step -/

/-- Whether the phases of a prediction mention different conditions, and a session is supplied with
one series for those of the first and one for those of the second. -/
structure InStep (m : Market) (supply : Nat → List (TickSet Price)) (zs ws : List (TickSet Price))
    (s : Session) : Prop where
  supplied : s.IsSupplied m supply
  consistent : s.prediction.IsConsistent
  apart : ∀ i ∈ mentioned s.prediction.pre.clauses, i ∉ mentioned s.prediction.main.clauses
  first : Shares supply (mentioned s.prediction.pre.clauses) zs s.prediction
  second : Shares supply (mentioned s.prediction.main.clauses) ws s.prediction

/-- A session stays in lock-step while its open conditions go on to share what lies before them. -/
theorem InStep.of_hasTaken (h : s.InStep m supply zs ws) {n : Nat → Nat}
    (htaken : HasTaken m supply s s' n) {zs' ws' : List (TickSet Price)}
    (hfirst : Shares (fun i => (supply i).drop (n i)) (mentioned s.prediction.pre.clauses) zs'
      s'.prediction)
    (hsecond : Shares (fun i => (supply i).drop (n i)) (mentioned s.prediction.main.clauses) ws'
      s'.prediction) : ∃ supply', s'.InStep m supply' zs' ws' := by
  have hpre : s'.prediction.pre = s.prediction.pre := by rw [htaken.frame]
  have hmain : s'.prediction.main = s.prediction.main := by rw [htaken.frame]
  refine ⟨_, htaken.supplied, htaken.isConsistent h.consistent, ?_, hpre ▸ hfirst, hmain ▸ hsecond⟩
  rw [hpre, hmain]
  exact h.apart

/-- What is true between a session in lock-step and one that a pass leads to: it is in lock-step
with what is left of the two series, and to end in order from there is to end in order from where it
began. If the session has ended, then this is at such an end; or else something was taken. -/
structure Passes (m : Market) (zs ws zs' ws' : List (TickSet Price)) (s s' : Session) : Prop where
  inStep : ∃ supply', s'.InStep m supply' zs' ws'
  leads : ∀ r, EndsInOrder s'.prediction.pre s'.prediction.main zs' ws' s'.prediction r →
    EndsInOrder s.prediction.pre s.prediction.main zs ws s.prediction r
  ends : s'.inactive = true →
    EndsInOrder s'.prediction.pre s'.prediction.main zs' ws' s'.prediction s'.prediction
  goesOn : s'.inactive = false → zs'.length + ws'.length < zs.length + ws.length

/-- While the prediction waits, a pass feeds a set to all conditions of the first phase. -/
theorem InStep.pass_of_waiting (h : s.InStep m supply zs ws) (hactive : s.inactive = false)
    (hstored : s.prediction.isFinal = false) (herrors : (s.pass m).errors = [])
    (hwaiting : s.prediction.outcome = .waiting) :
    Passes m zs ws zs.tail ws s (s.pass m).session := by
  obtain ⟨htaken, -, hends⟩ := h.supplied.hasTaken_pass hactive hstored herrors
  generalize (s.pass m).session = s' at htaken hends ⊢
  have hpre : s'.prediction.pre = s.prediction.pre := by rw [htaken.frame]
  have hmain : s'.prediction.main = s.prediction.main := by rw [htaken.frame]
  have hrefs := Prediction.activeReferences_of_waiting hwaiting
  have hapart : ∀ i ∈ mentioned s.prediction.main.clauses, i ∉ s.prediction.activeReferences :=
    fun i hi => hrefs.symm ▸ fun hi' => h.apart i hi' hi
  have hshares := hrefs.symm ▸ h.first
  rw [hshares.dry_iff h.consistent (by rw [hwaiting]; rfl)] at hends
  obtain ⟨hfed, hfirst⟩ := htaken.fed_one h.consistent hshares
  rw [hrefs] at hfed hfirst
  refine ⟨h.of_hasTaken htaken hfirst (htaken.shares_of_apart hapart h.second), fun r hr => ?_,
    fun hinactive => ?_, fun hgoes => ?_⟩
  · rw [hpre, hmain] at hr
    exact .of_waiting (Prediction.outcome_eq_waiting_iff.1 hwaiting) hfed
      (fed_nil_iff.2 fun i hi => htaken.same_of_apart (hapart i hi))
      (fun i hi _ => htaken.same_of_apart (hrefs.symm ▸ hi)) hr
  · rcases hends.1 hinactive with hfinal | rfl
    · exact .of_isFinal hfinal
    · refine .refl _ (fun _ => rfl) fun hrun => ?_
      rw [hpre, hfed.pre_eq, Prediction.outcome_eq_waiting_iff.1 hwaiting] at hrun
      cases hrun
  · cases zs with
    | nil =>
        rw [hends.2 (Or.inr rfl)] at hgoes
        cases hgoes
    | cons z zs => exact Nat.add_lt_add_right (Nat.lt_succ_self _) _

/-- While the prediction runs, a pass feeds a set to all conditions of the second phase. -/
theorem InStep.pass_of_running (h : s.InStep m supply zs ws) (hactive : s.inactive = false)
    (hstored : s.prediction.isFinal = false) (herrors : (s.pass m).errors = [])
    (hrunning : s.prediction.outcome = .running) :
    Passes m zs ws zs ws.tail s (s.pass m).session := by
  obtain ⟨htaken, -, hends⟩ := h.supplied.hasTaken_pass hactive hstored herrors
  generalize (s.pass m).session = s' at htaken hends ⊢
  have hpre : s'.prediction.pre = s.prediction.pre := by rw [htaken.frame]
  have hmain : s'.prediction.main = s.prediction.main := by rw [htaken.frame]
  have hrefs := Prediction.activeReferences_of_running hrunning
  have hapart : ∀ i ∈ mentioned s.prediction.pre.clauses, i ∉ s.prediction.activeReferences :=
    hrefs.symm ▸ h.apart
  have hshares := hrefs.symm ▸ h.second
  rw [hshares.dry_iff h.consistent (by rw [hrunning]; rfl)] at hends
  obtain ⟨hfed, hsecond⟩ := htaken.fed_one h.consistent hshares
  rw [hrefs] at hfed hsecond
  obtain ⟨hrun, hopen⟩ := Prediction.outcome_eq_running_iff.1 hrunning
  have hnone : Fed (mentioned s.prediction.pre.clauses) [] s.prediction s'.prediction :=
    fed_nil_iff.2 fun i hi => htaken.same_of_apart (hapart i hi)
  refine ⟨h.of_hasTaken htaken (htaken.shares_of_apart hapart h.first) hsecond, fun r hr => ?_,
    fun hinactive => ?_, fun hgoes => ?_⟩
  · rw [hpre, hmain] at hr
    exact .of_running hrun (by rw [hopen]; rfl) hnone hfed
      (fun i _ hi => htaken.same_of_apart (hrefs.symm ▸ hi)) hr
  · rcases hends.1 hinactive with hfinal | rfl
    · exact .of_isFinal hfinal
    · refine .refl _ (fun hwait => ?_) fun _ => Or.inr rfl
      rw [hpre, hnone.pre_eq, hrun] at hwait
      cases hwait
  · cases ws with
    | nil =>
        rw [hends.2 (Or.inr rfl)] at hgoes
        cases hgoes
    | cons w ws => exact Nat.add_lt_add_left (Nat.lt_succ_self _) _

/-- When the prediction is final, a pass ends the session and feeds nothing. -/
theorem InStep.pass_of_isFinal (h : s.InStep m supply zs ws) (hactive : s.inactive = false)
    (hstored : s.prediction.isFinal = false) (herrors : (s.pass m).errors = [])
    (hfinal : s.prediction.outcome.isFinal = true) :
    Passes m zs ws zs ws s (s.pass m).session := by
  obtain ⟨htaken, -, hends⟩ := h.supplied.hasTaken_pass hactive hstored herrors
  generalize (s.pass m).session = s' at htaken hends ⊢
  have hrefs := Prediction.activeReferences_of_isFinal hfinal
  have hapart (i : Nat) : i ∉ s.prediction.activeReferences := hrefs ▸ List.not_mem_nil
  have hgiven : s'.prediction.given = s.prediction.given :=
    List.ext_getElem? fun i => htaken.same_of_apart (hapart i)
  have hstate : s'.prediction = { s.prediction with state := s'.prediction.state } := by
    rw [htaken.frame, hgiven]
  have hinactive : s'.inactive = true := by
    refine hends.2 (Or.inr fun i hi => ?_)
    rw [Prediction.actionable_eq_nil hfinal] at hi
    exact absurd hi List.not_mem_nil
  refine ⟨h.of_hasTaken htaken (htaken.shares_of_apart (fun i _ => hapart i) h.first)
    (htaken.shares_of_apart (fun i _ => hapart i) h.second), fun r hr => ?_, fun _ => ?_,
    fun hgoes => ?_⟩
  · rw [hstate] at hr
    exact ⟨hr.first, hr.second, hr.unbegun, hr.others⟩
  · refine .of_isFinal ?_
    rw [hstate]
    exact hfinal
  · rw [hinactive] at hgoes
    cases hgoes

/-- **A pass in lock-step** feeds a set to all conditions of the active phase. -/
theorem InStep.pass (h : s.InStep m supply zs ws) (hactive : s.inactive = false)
    (hstored : s.prediction.isFinal = false) (herrors : (s.pass m).errors = []) :
    ∃ zs' ws', Passes m zs ws zs' ws' s (s.pass m).session := by
  cases ho : s.prediction.outcome with
  | waiting => exact ⟨_, _, h.pass_of_waiting hactive hstored herrors ho⟩
  | running => exact ⟨_, _, h.pass_of_running hactive hstored herrors ho⟩
  | correct => exact ⟨_, _, h.pass_of_isFinal hactive hstored herrors (by rw [ho]; rfl)⟩
  | incorrect => exact ⟨_, _, h.pass_of_isFinal hactive hstored herrors (by rw [ho]; rfl)⟩
  | annulled => exact ⟨_, _, h.pass_of_isFinal hactive hstored herrors (by rw [ho]; rfl)⟩

/-- **A session in lock-step ends in order,** if it ends without errors. -/
theorem InStep.endsInOrder (h : s.InStep m supply zs ws) (hactive : s.inactive = false)
    (hstored : s.prediction.isFinal = false) (limit : Nat) (herrors : (s.drain m limit).2 = [])
    (hended : (s.drain m limit).1.inactive = true) :
    EndsInOrder s.prediction.pre s.prediction.main zs ws s.prediction
      (s.drain m limit).1.prediction := by
  induction limit generalizing s supply zs ws with
  | zero =>
      rw [drain, hactive] at hended
      cases hended
  | succ limit ih =>
      rw [drain_succ limit hactive] at herrors hended ⊢
      obtain ⟨hpass, hrest⟩ := List.append_eq_nil_iff.1 herrors
      obtain ⟨zs', ws', hpasses⟩ := h.pass hactive hstored hpass
      refine hpasses.leads _ ?_
      cases hinactive : (s.pass m).session.inactive with
      | true =>
          rw [drain_of_inactive limit hinactive]
          exact hpasses.ends hinactive
      | false =>
          obtain ⟨supply', hstep⟩ := hpasses.inStep
          have hopen := h.supplied.isFinal_of_active hactive hstored hpass hinactive
          exact ih hstep hinactive hopen hrest hended

/-- **A session in lock-step has ended after more passes than there are sets,** if it has no
errors. -/
theorem InStep.inactive_of_limit (h : s.InStep m supply zs ws) (hactive : s.inactive = false)
    (hstored : s.prediction.isFinal = false) {limit : Nat} (herrors : (s.drain m limit).2 = [])
    (hlimit : zs.length + ws.length < limit) : (s.drain m limit).1.inactive = true := by
  induction limit generalizing s supply zs ws with
  | zero => exact absurd hlimit (Nat.not_lt_zero _)
  | succ limit ih =>
      rw [drain_succ limit hactive] at herrors ⊢
      obtain ⟨hpass, hrest⟩ := List.append_eq_nil_iff.1 herrors
      obtain ⟨zs', ws', hpasses⟩ := h.pass hactive hstored hpass
      cases hinactive : (s.pass m).session.inactive with
      | true => rwa [drain_of_inactive limit hinactive]
      | false =>
          obtain ⟨supply', hstep⟩ := hpasses.inStep
          have hless := hpasses.goesOn hinactive
          have hopen := h.supplied.isFinal_of_active hactive hstored hpass hinactive
          exact ih hstep hinactive hopen hrest (by omega)

end Session

end Forecast
