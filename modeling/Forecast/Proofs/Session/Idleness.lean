import Forecast.Proofs.Session.Ends

/-!
# Idle Sessions

A session is idle (`Session.IsIdle`) if whatever lies before the conditions that it would feed
leaves them as they are, and its prediction stands as evaluated. Nothing comes of draining it: there
are no errors, and the prediction is exactly what it was (`IsIdle.drain`).

Sessions that resume are idle where there is nothing new. At an end, all is used up that lay before
the conditions that a prediction still waits for. In the next session up to the same second only
their last tick sets lie before them, and these change nothing (`Ends.isIdle`).
-/

namespace Forecast

namespace Session

variable {m : Market} {supply : Nat → List (TickSet Price)} {s : Session}

/-- Whether nothing that lies before a session changes anything. -/
structure IsIdle (m : Market) (supply : Nat → List (TickSet Price)) (s : Session) : Prop where
  supplied : s.IsSupplied m supply
  evaluated : s.prediction.evaluated = s.prediction
  idle : ∀ i ∈ s.prediction.actionable, ∀ c, s.prediction.given[i]? = some c →
    ∀ z ∈ supply i, c.feed z = .ok c

/-- A pass of an idle session has no errors and leaves it idle, with the prediction as it was. -/
theorem IsIdle.pass (h : s.IsIdle m supply) (hactive : s.inactive = false)
    (hopen : s.prediction.isFinal = false) :
    (s.pass m).errors = [] ∧ (s.pass m).session.prediction = s.prediction ∧
      ∃ supply', (s.pass m).session.IsIdle m supply' := by
  have haccepts : s.Accepts supply s.prediction.actionable := fun i hi c hc =>
    ⟨c, Condition.feedEach_of_idle (h.idle i hi c hc)⟩
  have herrors := h.supplied.pass_errors_eq_nil haccepts
  obtain ⟨htaken, -⟩ := h.supplied.hasTaken_pass hactive hopen herrors
  have hgiven : (s.pass m).session.prediction.given = s.prediction.given := by
    refine List.ext_getElem? fun i => ?_
    by_cases hi : i ∈ s.prediction.actionable
    · obtain ⟨c, hc⟩ : ∃ c, s.prediction.given[i]? = some c :=
        ⟨_, List.getElem?_eq_getElem (Prediction.lt_of_mem_actionable hi)⟩
      obtain ⟨d, hd, hcd⟩ := htaken.exists_after hc
      rw [Condition.feedEach_of_idle fun z hz =>
        h.idle i hi c hc z (List.mem_of_mem_take hz)] at hcd
      cases hcd
      rw [hc, hd]
    · exact htaken.getElem?_given_eq (by rw [oneOf, if_neg hi, List.take_zero])
  have hprediction : (s.pass m).session.prediction = s.prediction := by
    have hround : (s.round m s.prediction.actionable).session.prediction = s.prediction := by
      rw [pass_prediction hactive hopen] at hgiven
      rw [round_frame]
      dsimp only
      rw [show (s.round m s.prediction.actionable).session.prediction.given = s.prediction.given
        from hgiven]
    rw [pass_prediction hactive hopen, hround, h.evaluated]
  refine ⟨herrors, hprediction, _, htaken.supplied, ?_, ?_⟩
  · rw [hprediction, h.evaluated]
  · rw [hprediction]
    exact fun i hi c hc z hz => h.idle i hi c hc z (List.mem_of_mem_drop hz)

/-- **Nothing comes of draining an idle session.** -/
theorem IsIdle.drain (h : s.IsIdle m supply) (limit : Nat) :
    (s.drain m limit).1.prediction = s.prediction ∧ (s.drain m limit).2 = [] := by
  induction limit generalizing s supply with
  | zero => exact ⟨rfl, rfl⟩
  | succ limit ih =>
      cases hactive : s.inactive with
      | true =>
          rw [drain_of_inactive _ hactive]
          exact ⟨rfl, rfl⟩
      | false =>
          rw [drain_succ limit hactive]
          cases hopen : s.prediction.isFinal with
          | true =>
              rw [pass_of_final hactive hopen, drain_of_inactive limit rfl]
              exact ⟨rfl, rfl⟩
          | false =>
              obtain ⟨herrors, hprediction, supply', hidle⟩ := h.pass hactive hopen
              obtain ⟨hrest, hrestErrors⟩ := ih hidle
              dsimp only
              rw [hrest, hprediction, herrors, hrestErrors]
              exact ⟨rfl, rfl⟩

variable {chart : String → List Candle}

/-- A condition that has been fed all that lay before it, and is still open, is changed by nothing
that lies before it in the next session. -/
theorem feed_again_of_drained (hm : m.Serves chart) {now : Int} {c d : Condition Price}
    (hfed : c.feedEach (supplyOf m chart now c) = .ok d) (hopen : d.isFinished = false) :
    ∀ z ∈ supplyOf m chart now d, d.feed z = .ok d := by
  have hall :
      c.feedEach ((supplyOf m chart now c).take (supplyOf m chart now c).length) = .ok d := by
    rwa [List.take_length]
  rcases resumes hm (Int.le_refl now) (Nat.le_refl _) hall hopen with
    ⟨hnone, rfl⟩ | ⟨k, z, hlength, hz, hrest, hfeed⟩
  · rw [List.length_eq_zero_iff.1 hnone]
    exact fun z hz => absurd hz List.not_mem_nil
  · rw [hrest, List.drop_eq_getElem?_toList_append, hz,
      List.drop_of_length_le (Nat.le_of_eq hlength)]
    exact List.forall_mem_singleton.2 hfeed

/-- **What is open at an end is idle from there,** up to the same second. -/
theorem Ends.isIdle (hm : m.Serves chart) {now : Int} {p q : Prediction}
    (h : Ends m chart now p q) (hp : p.IsConsistent) (hservable : p.IsServable)
    (hstart : Session.start m p now = .ok s) :
    ∃ s', Session.start m q now = .ok s' ∧ s'.prediction = q ∧
      s'.IsIdle m (suppliesOf m chart now q) := by
  have hstart' : Session.start m q now = .ok ⟨q, q, now, q.given.map fun _ => none, false⟩ :=
    h.start hstart
  refine ⟨_, hstart', rfl, isSupplied_of_start hm hstart' (h.isServable hservable), h.evaluated,
    fun i hi d hd => ?_⟩
  obtain ⟨c, hc⟩ := h.exists_before hd
  rw [suppliesOf_eq hd]
  exact feed_again_of_drained hm (h.dry i hi c d hc hd)
    (Prediction.not_finished_of_mem_actionable (h.isConsistent hp) hi hd)

end Session

end Forecast
