import Forecast.Proofs.Batch.History
import Forecast.Proofs.Compile.Storable
import Forecast.Proofs.Session.Resumption

/-!
# Archives of Servable Predictions

A compiled prediction can be served in any market with charts (`Prediction.IsCompiled.isServable`):
it quotes something in every condition, and its windows begin in the calendar, where there is room
for an interval of any length. Both are in the frame of a condition, which feeding leaves alone, and
so an archive that began with compiled predictions holds servable ones whatever has happened
(`Batch.areServable_of_reaches`).
-/

namespace Forecast

namespace Prediction

/-- **A compiled prediction is servable,** evaluated or not. -/
theorem IsCompiled.isServable {p : Prediction} (h : p.IsCompiled) : p.IsServable := by
  have hquoted := h.quoted
  obtain ⟨draft, createdAt, q, hq, hp⟩ := h
  obtain ⟨-, hposted, hgiven⟩ := Compile.times_of_prediction hq
  have hbegins : ∀ c ∈ q.given, firstWithRoom ≤ c.fromTs := by
    refine Compile.forall_of_conditions (fun _ _ c hc => ?_) hgiven
    obtain ⟨start, -, hstart, -, hfrom, -⟩ :=
      Compile.exists_window_of_condition (Calendar.isProper_of_readTime hposted).inCalendar hc
    have := (Calendar.Instant.seconds_bounds hstart).1
    rw [firstWithRoom, hfrom]
    omega
  rcases hp with rfl | rfl
  · exact fun c hc => ⟨hquoted c hc, hbegins c hc⟩
  · exact fun c hc => ⟨hquoted c hc, hbegins c hc⟩

/-- A prediction that has moved forward is as servable as before. -/
theorem MovesForward.isServable {now : Int} {p q : Prediction} (h : p.MovesForward now q)
    (hp : p.IsServable) : q.IsServable := by
  intro d hd
  obtain ⟨i, hi⟩ := List.getElem?_of_mem hd
  obtain ⟨c, hc, hcd⟩ := rel_some_right (hi ▸ h.given i)
  exact (hp c (List.mem_of_getElem? hc)).of_frame hcd.frame

end Prediction

namespace Batch

/-- Whether all predictions are servable. -/
def AreServable (ps : Keyed Prediction) : Prop :=
  ∀ id p, ps.get? id = some p → p.IsServable

/-- **Whatever has happened, an archive holds servable predictions,** if it began with such. -/
theorem areServable_of_reaches {σ : Type} [LawfulArchive σ] {archive b : σ}
    (h : Reaches archive b) (hsound : IsSound (LawfulArchive.contents archive))
    (hservable : AreServable (LawfulArchive.contents archive)) :
    AreServable (LawfulArchive.contents b) :=
  forall_of_reaches
    (fun m now limit p hkept hp => ((runs_alone m now limit p).movesForward hkept).2.isServable hp)
    h hsound hservable

end Batch

end Forecast
