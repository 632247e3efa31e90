import Forecast.Proofs.Batch.Completion
import Forecast.Proofs.Batch.Serving
import Forecast.Proofs.Session.Chronology
import Forecast.Proofs.Session.Ends
import Forecast.Proofs.Session.Timeline

/-!
# Batches on Different Schedules

Two batches in a row, the second up to a later second, and one batch up to that second alone: what
do they have in common? In both cases every prediction has been brought to an end up to the later
second. But the ends may differ. Within a batch, conditions are fed in turn whatever the times of
their ticks, so that one whose window begins late may be settled before one whose window begins
early; and a batch that stops in between feeds all that lies before its second first. What any two
ends have in common is what a schedule cannot change (`schedule_agrees`), and for predictions that
follow one timeline this is everything.

## Main results

* `schedule_agrees`: what does not depend on the schedule.
* `schedule_decides`: a prediction whose outcome does.
-/

namespace Forecast

/-- States that count as equal have one outcome. -/
theorem PredictionState.outcome_of_beq {s t : PredictionState} (h : (s == t) = true) :
    s.outcome = t.outcome := by
  cases s
  cases t
  change instBEqPredictionState.beq _ _ = true at h
  simp only [instBEqPredictionState.beq, Bool.and_eq_true, beq_iff_eq] at h
  exact h.2.2

/-- Predictions that count as equal have one outcome. -/
theorem Prediction.outcome_of_beq {p q : Prediction} (h : (p == q) = true) :
    p.state.outcome = q.state.outcome := by
  cases p
  cases q
  change instBEqPrediction.beq _ _ = true at h
  simp only [instBEqPrediction.beq, Bool.and_eq_true] at h
  obtain ⟨-, -, -, -, -, -, -, -, -, -, hstate, -⟩ := h
  exact PredictionState.outcome_of_beq hstate

namespace Batch

open Session (Ends EndsOnTime)

variable {m : Market} {chart : String → List Candle} {now now' : Int} {p q q' r r' : Prediction}

/-! ### Ends that batches lead to -/

/-- Whether a prediction has been brought to an end up to a second, and on time if it follows one
timeline. -/
structure Finishes (m : Market) (chart : String → List Candle) (now : Int) (p r : Prediction) :
    Prop where
  ends : Ends m chart now p r
  onTime : p.IsAligned → EndsOnTime m chart now p r

/-- **What two ends have in common.** -/
theorem Finishes.agree (hp : p.IsConsistent) (h : Finishes m chart now p r)
    (h' : Finishes m chart now p r') :
    Prediction.Agree p.pre p.main r.outcome r'.outcome ∧
      (p.IsAligned → r.outcome = r'.outcome) := by
  refine ⟨h.ends.agree hp h'.ends, fun haligned => ?_⟩
  exact (h.onTime haligned).outcome_eq (h'.onTime haligned) (by rw [h.ends.frame])
    (by rw [h.ends.frame]) (by rw [h'.ends.frame]) (by rw [h'.ends.frame])

/-- A final end is one up to any later second. -/
theorem Finishes.later (hm : m.Serves chart) (hnow : now ≤ now') (h : Finishes m chart now p r)
    (hfinal : r.isFinal = true) : Finishes m chart now' p r := by
  refine ⟨h.ends.later hm hnow hfinal, fun haligned => (h.onTime haligned).later hm hnow
    (by rw [h.ends.frame]) (by rw [h.ends.frame]) ?_⟩
  rwa [← h.ends.evaluated] at hfinal

section Compiled

variable (hm : m.Serves chart) (hp : p.IsCompiled) {s : Session} {limit : Nat}
  (herrors : (s.drain m limit).2 = []) (hended : (s.drain m limit).1.inactive = true)
include hm hp herrors hended

/-- A session without errors brings a compiled prediction to an end. -/
theorem finishes_of_drain (hstart : Session.start m p now = .ok s) (hongoing : p.isFinal = false) :
    Finishes m chart now p (s.drain m limit).1.prediction where
  ends := Session.ends_of_drain hm hstart hp.isServable hongoing herrors hended
  onTime haligned := Session.endsOnTime_of_drain hm hstart hp.isServable hp.isKept.1 hp.fresh.1
    haligned hongoing herrors hended

/-- A session without errors that resumes brings it to an end up to its own second. -/
theorem Finishes.resume (hnow : now ≤ now') (h : Finishes m chart now p q)
    (hstart : Session.start m q now' = .ok s) (hongoing : q.isFinal = false) :
    Finishes m chart now' p (s.drain m limit).1.prediction := by
  have hservable : q.IsServable := h.ends.isServable hp.isServable
  refine ⟨h.ends.trans hm hnow hp.isKept.1
    (Session.ends_of_drain hm hstart hservable hongoing herrors hended), fun haligned => ?_⟩
  exact (h.onTime haligned).resume hm hnow hp.fresh.1 haligned (by rw [h.ends.frame])
    (by rw [h.ends.frame]) (h.ends.isConsistent hp.isKept.1) hservable hstart hongoing herrors hended

end Compiled

/-- What is held of a prediction after a batch has the outcome that its session came to. -/
theorem Finishes.outcome_eq (h : Finishes m chart now p r)
    (hq : q = if (r != q') = true then r else q') : r.outcome = q.state.outcome := by
  have hstate : r.state.outcome = r.outcome := by
    conv_lhs => rw [← h.ends.evaluated]
    rfl
  rw [hq]
  split
  · exact hstate.symm
  · next hsame =>
      rw [bne, Bool.not_eq_true, Bool.not_eq_false'] at hsame
      rw [← hstate, Prediction.outcome_of_beq hsame]

/-- A batch brings a compiled prediction to an end. -/
theorem Makes.exists_end (hm : m.Serves chart) (hp : p.IsCompiled) (hongoing : p.isFinal = false)
    (h : Makes m now p q) : ∃ r, Finishes m chart now p r ∧ r.outcome = q.state.outcome := by
  obtain ⟨s, limit, hstart, herrors, hended, hq⟩ := h.ongoing hongoing
  have hfinishes := finishes_of_drain hm hp herrors hended hstart hongoing
  exact ⟨_, hfinishes, hfinishes.outcome_eq hq⟩

/-- **Two batches in a row bring a compiled prediction to an end,** up to the second of the later
one. -/
theorem Makes.exists_end_again (hm : m.Serves chart) (hp : p.IsCompiled) (hnow : now ≤ now')
    (hongoing : p.isFinal = false) (h : Makes m now p q) (h' : Makes m now' q q') :
    ∃ r, Finishes m chart now' p r ∧ r.outcome = q'.state.outcome := by
  obtain ⟨s, limit, hstart, herrors, hended, hq⟩ := h.ongoing hongoing
  have hfinishes := finishes_of_drain hm hp herrors hended hstart hongoing
  have houtcome := hfinishes.outcome_eq hq
  split at hq
  · -- the first batch has changed it, and the second looks at what the first came to
    rw [← hq] at hfinishes houtcome
    cases hfinal : q.isFinal with
    | true =>
        rw [h'.final hfinal]
        exact ⟨q, hfinishes.later hm hnow hfinal, houtcome⟩
    | false =>
        obtain ⟨s', limit', hstart', herrors', hended', hq'⟩ := h'.ongoing hfinal
        have hresumed := hfinishes.resume hm hp herrors' hended' hnow hstart' hfinal
        exact ⟨_, hresumed, hresumed.outcome_eq hq'⟩
  · subst hq
    exact h'.exists_end hm hp hongoing

/-- What one batch and two in a row make of a compiled prediction. -/
theorem Makes.agree (hm : m.Serves chart) (hp : p.IsCompiled) (hnow : now ≤ now')
    (hfirst : Makes m now p q) (hsecond : Makes m now' q r) (honce : Makes m now' p r') :
    Prediction.Agree p.pre p.main r.state.outcome r'.state.outcome ∧
      (p.IsAligned → r.state.outcome = r'.state.outcome) := by
  cases hfinal : p.isFinal with
  | true =>
      obtain rfl := hfirst.final hfinal
      rw [hsecond.final hfinal, honce.final hfinal]
      exact ⟨.refl _ _ _, fun _ => rfl⟩
  | false =>
      obtain ⟨e, he, heq⟩ := hfirst.exists_end_again hm hp hnow hfinal hsecond
      obtain ⟨e', he', heq'⟩ := honce.exists_end hm hp hfinal
      rw [← heq, ← heq']
      exact he.agree hp.isKept.1 he'

/-! ### Schedules -/

section Schedule

variable {σ : Type} [LawfulArchive σ] {archive archive₁ archive₂ archive' : σ}
  {limit limit' limit'' : Nat}

/-- Whether a batch over an archive completes without errors, and what archive it leaves. -/
def Clears (archive : σ) (m : Market) (now : Int) (limit : Nat) (archive' : σ) : Prop :=
  ∃ r, run archive m now limit = .ok (r, archive') ∧ r.errors = [] ∧
    Completes m now limit (ongoing (LawfulArchive.contents archive))

/-- What a batch that completes without errors makes of an archive. -/
theorem Clears.makes (h : Clears archive m now limit archive')
    (hsound : IsSound (LawfulArchive.contents archive)) :
    IsSound (LawfulArchive.contents archive') ∧ ∀ id, Option.Rel (Makes m now)
      ((LawfulArchive.contents archive).get? id) ((LawfulArchive.contents archive').get? id) := by
  obtain ⟨r, hrun, herrors, hcompletes⟩ := h
  obtain ⟨rfl, hcontents⟩ := contents_of_run_ok hrun
  exact ⟨(allMoveForward_of_changed hsound hcontents).1,
    makes_of_advance hsound.isKeyedById hcontents herrors hcompletes⟩

/-- **What does not depend on the schedule.** Take an archive of compiled predictions and a market
that serves charts. Let two batches in a row, the second up to a later second, and one batch up to
this later second alone all complete without errors. Then of every prediction both ways leave an
outcome, and these have in common:

* if one is waiting, so is the other;
* if the first phase ignores no open side clauses and one is running, so is the other;
* if no phase does and one is correct, so is the other;
* if moreover no phase can both make the prediction wrong and annul it, they are the same;
* if the phases mention different conditions and those of each phase quote the same instruments from
  the same second on, they are the same whatever the clauses and policies are. -/
theorem schedule_agrees (hm : m.Serves chart)
    (hkeyed : IsKeyedById (LawfulArchive.contents archive))
    (hcompiled : ∀ p ∈ (LawfulArchive.contents archive).values, p.IsCompiled) (hnow : now ≤ now')
    (hfirst : Clears archive m now limit archive₁)
    (hsecond : Clears archive₁ m now' limit' archive₂)
    (honce : Clears archive m now' limit'' archive') {id : String} {p : Prediction}
    (hp : (LawfulArchive.contents archive).get? id = some p) :
    ∃ q q', (LawfulArchive.contents archive₂).get? id = some q ∧
      (LawfulArchive.contents archive').get? id = some q' ∧
      Prediction.Agree p.pre p.main q.state.outcome q'.state.outcome ∧
      (p.IsAligned → q.state.outcome = q'.state.outcome) := by
  have hsound : IsSound (LawfulArchive.contents archive) := fun id p hp =>
    ⟨(hkeyed.get?_eq_some_iff.1 hp).2, (hcompiled p (hkeyed.get?_eq_some_iff.1 hp).1).isKept⟩
  obtain ⟨hsound₁, hmakes₁⟩ := hfirst.makes hsound
  obtain ⟨-, hmakes₂⟩ := hsecond.makes hsound₁
  obtain ⟨-, hmakes'⟩ := honce.makes hsound
  have h₁ := hmakes₁ id
  have h₂ := hmakes₂ id
  have h' := hmakes' id
  rw [hp] at h₁ h'
  generalize (LawfulArchive.contents archive₁).get? id = x at h₁ h₂
  generalize (LawfulArchive.contents archive₂).get? id = y at h₂ ⊢
  generalize (LawfulArchive.contents archive').get? id = z at h' ⊢
  cases h₁ with
  | some hpq =>
      cases h₂ with
      | some hqr =>
          cases h' with
          | some hpr =>
              exact ⟨_, _, rfl, rfl,
                hpq.agree hm (hcompiled p (hkeyed.get?_eq_some_iff.1 hp).1) hnow hqr hpr⟩

end Schedule

/-! ### A fall and then a rise -/

/-- Three candles: nothing happens in the first, the price falls in the second and rises in the
third. -/
def fallThenRiseCandles : List Candle :=
  [⟨0, 2, 2, 2, 2, 1⟩, ⟨60, 2, 2, 0, 2, 1⟩, ⟨120, 2, 5, 2, 5, 1⟩]

/-- A market that serves them. -/
def fallThenRise : Market :=
  .ofChart ⟨["BINANCE"], 60⟩ fun _ => fallThenRiseCandles

/-- The candles are a chart. -/
theorem fallThenRise_serves : fallThenRise.Serves fun _ => fallThenRiseCandles :=
  Market.serves_ofChart (by decide) (by decide)
    (fun _ => Candle.areSlotted_of_aligned (by decide) (by decide) (by decide +kernel)
      (by decide +kernel) (by decide +kernel))
    (fun _ => by decide +kernel)

/-- An archive after a batch up to a second. -/
def upTo (shelf : Shelf) (now : Int) : Shelf :=
  after shelf (run shelf fallThenRise now 20)

/-- Whether a batch up to a second completes without errors, to be computed. -/
def isClear (shelf : Shelf) (now : Int) : Bool :=
  ((run shelf fallThenRise now 20).toOption.map fun done => done.1.errors.isEmpty).getD false &&
    decide (Completes fallThenRise now 20 (ongoing shelf.predictions))

/-- A batch of which this is computed completes without errors. -/
theorem clears_of_isClear {shelf : Shelf} (h : isClear shelf now = true) :
    Clears shelf fallThenRise now 20 (upTo shelf now) := by
  rw [isClear, Bool.and_eq_true, decide_eq_true_eq] at h
  obtain ⟨hrun, hcompletes⟩ := h
  rw [upTo]
  cases hdone : run shelf fallThenRise now 20 with
  | error f =>
      rw [hdone] at hrun
      cases hrun
  | ok done =>
      rw [hdone] at hrun
      exact ⟨done.1, hdone, List.isEmpty_iff.1 hrun, hcompletes⟩

/-- The schedules for a prediction about one level. -/
theorem schedule_oneLevel :
    fallThenRise.Serves (fun _ => fallThenRiseCandles) ∧
      IsKeyedById (LawfulArchive.contents oneShelved) ∧
      (∀ p ∈ (LawfulArchive.contents oneShelved).values, p.IsCompiled) ∧ (110 : Int) ≤ 179 ∧
      Clears oneShelved fallThenRise 110 20 (upTo oneShelved 110) ∧
      Clears (upTo oneShelved 110) fallThenRise 179 20 (upTo (upTo oneShelved 110) 179) ∧
      Clears oneShelved fallThenRise 179 20 (upTo oneShelved 179) ∧
      (LawfulArchive.contents oneShelved).get? "one-level" = some oneLevel ∧
      ∃ q q', (LawfulArchive.contents (upTo (upTo oneShelved 110) 179)).get? "one-level" = some q ∧
        (LawfulArchive.contents (upTo oneShelved 179)).get? "one-level" = some q' ∧
        q.state.outcome = q'.state.outcome := by
  have hkeyed : IsKeyedById (LawfulArchive.contents oneShelved) := by decide +kernel
  have hcompiled : ∀ p ∈ (LawfulArchive.contents oneShelved).values, p.IsCompiled :=
    List.forall_mem_singleton.2 (Prediction.isCompiled_of_isOk (by decide +kernel) _)
  have hfirst : Clears oneShelved fallThenRise 110 20 (upTo oneShelved 110) :=
    clears_of_isClear (by decide +kernel)
  have hsecond :
      Clears (upTo oneShelved 110) fallThenRise 179 20 (upTo (upTo oneShelved 110) 179) :=
    clears_of_isClear (by decide +kernel)
  have honce : Clears oneShelved fallThenRise 179 20 (upTo oneShelved 179) :=
    clears_of_isClear (by decide +kernel)
  have hget : (LawfulArchive.contents oneShelved).get? "one-level" = some oneLevel := rfl
  have hquoted : ∀ c ∈ oneLevel.given, c.instruments = [Session.bitcoin] ∧ c.fromTs = 0 := by
    decide +kernel
  have haligned : oneLevel.IsAligned :=
    Prediction.isAligned_of_forall (by decide +kernel) hquoted
  obtain ⟨q, q', hq, hq', -, hsame⟩ := schedule_agrees fallThenRise_serves hkeyed hcompiled
    (by decide) hfirst hsecond honce hget
  exact ⟨fallThenRise_serves, hkeyed, hcompiled, by decide, hfirst, hsecond, honce, hget, q, q', hq,
    hq', hsame haligned⟩

/-- A prediction that a level is not reached, annulled if another is later on, as an author writes
it. -/
def steadyDraft : Draft where
  id := some "steady"
  postedAt := "1970-01-01T00:00:00Z"
  reporter := ""
  postAuthor := ""
  postUrl := ""
  postText := ""
  given := .ofList
    [("high", ⟨"COIN:BINANCE:BTC-USDT > 3", some "1970-01-01T00:02:00Z", none, some "1d", none⟩),
      ("low", ⟨"COIN:BINANCE:BTC-USDT < 1", none, none, some "1d", none⟩)]
  pre := none
  main := ⟨some "low", some "high", "not low", false, false⟩

/-- The compiled prediction. -/
def steady : Prediction where
  id := "steady"
  createdAt := ⟨0, 0⟩
  postedAt := ⟨0, 0⟩
  reporter := ""
  postAuthor := ""
  postUrl := ""
  postText := ""
  given :=
    [.fresh "high" .above [.market (.coin "BINANCE" "BTC" "USDT"), .number 3] 120 86520 0,
      .fresh "low" .below [.market (.coin "BINANCE" "BTC" "USDT"), .number 1] 0 86400 0]
  pre := .none
  main := ⟨some (.literal 1), some (.literal 0), .neg (.literal 1), .default⟩
  state := .initial
  shape := .unsupported

/-- The draft compiles to the prediction. -/
theorem compile_steadyDraft : Compile.prediction steadyDraft ⟨0, 0⟩ = .ok steady := by
  have htime : Calendar.readTime steadyDraft.postedAt = .ok ⟨0, 0⟩ := by rfl
  have hconditions : Compile.conditions ⟨0, 0⟩ [] (steadyDraft.given.entries.map Compile.toEntry) =
      .ok steady.given := by with_unfolding_all rfl
  have hentries :
      Compile.entries steadyDraft.given = steadyDraft.given.entries.map Compile.toEntry :=
    Compile.entries_of_sorted (by decide +kernel)
  simp only [Compile.prediction, hentries, htime, Except.mapError, bind, Except.bind, hconditions]
  with_unfolding_all rfl

/-- An archive that holds one prediction. -/
def shelved (p : Prediction) : Shelf :=
  .ofPredictions (.ofList [(p.id, p)])

/-- **A prediction that the schedule decides.** The level that annuls it is looked at from a later
second on than the level that makes it wrong. In one batch the two conditions take turns, so that
the third tick of the one annuls it before the sixth tick of the other makes it wrong. If a batch
has run up to a second in between, it is wrong, as the price fell before it rose. -/
theorem schedule_decides :
    fallThenRise.Serves (fun _ => fallThenRiseCandles) ∧
      IsKeyedById (LawfulArchive.contents (shelved steady)) ∧
      (∀ p ∈ (LawfulArchive.contents (shelved steady)).values,
        p.IsCompiled ∧ ∀ c ∈ p.given, 0 ≤ c.fromTs) ∧
      Clears (shelved steady) fallThenRise 110 20 (upTo (shelved steady) 110) ∧
      Clears (upTo (shelved steady) 110) fallThenRise 179 20
        (upTo (upTo (shelved steady) 110) 179) ∧
      Clears (shelved steady) fallThenRise 179 20 (upTo (shelved steady) 179) ∧
      ((upTo (upTo (shelved steady) 110) 179).predictions.get? "steady").map (·.state.outcome) =
        some .incorrect ∧
      ((upTo (shelved steady) 179).predictions.get? "steady").map (·.state.outcome) =
        some .annulled := by
  have hcompiled : steady.IsCompiled :=
    ⟨steadyDraft, ⟨0, 0⟩, steady, compile_steadyDraft, Or.inl rfl⟩
  refine ⟨fallThenRise_serves, by decide +kernel, ?_, ?_, ?_, ?_, ?_, ?_⟩
  · exact List.forall_mem_singleton.2 ⟨hcompiled, by decide +kernel⟩
  · exact clears_of_isClear (by decide +kernel)
  · exact clears_of_isClear (by decide +kernel)
  · exact clears_of_isClear (by decide +kernel)
  · decide +kernel
  · decide +kernel

-- With a clause that is ignored while it is open: wrong on one schedule and correct on the other.
example :
    let policy := { ignoreUndecided := true, annulIfNo := false }
    let p := { steady with main := ⟨some (.literal 1), none, .literal 0, policy⟩ }
    ((upTo (upTo (shelved p) 110) 179).predictions.values ++
        (upTo (shelved p) 179).predictions.values).map (·.state.outcome) =
      [.incorrect, .correct] := by
  decide +kernel

end Batch

end Forecast
