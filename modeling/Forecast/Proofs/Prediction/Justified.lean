import Forecast.Proofs.Prediction.Runs

/-!
# Predictions That Justify Themselves

What is stored of a prediction is enough to see that it is right. A condition holds the tick set
that brought it where it is: one in its window at which the comparison holds if it has come true,
one in its window at which it does not if it is still open, and one behind its window if it has
failed (`Condition.IsJustified`). The state of a prediction is final exactly if its status says so,
and its time is that of no later tick than the conditions have seen (`Prediction.IsJustified`).

A condition writes its progress at one moment, when it advances, so that the proof is a look at the
four ways to advance (`Condition.IsJustified.feed`). What holds of conditions from one moment to
the next is then all that evaluation and feeding need: the latest time never goes back
(`latest_le_latest`), and evaluation takes exactly the latest time
(`Prediction.IsJustified.evaluated`).

## Main results

* `Condition.IsJustified.feed`, `Prediction.Runs.isJustified`: feeding and evaluating keep
  predictions justified.
* `Prediction.IsJustified.evaluated`: evaluation leaves nothing behind.
-/

namespace Forecast

/-- Whether a tick set at a time is one that a condition may have taken: it has a tick for
everything that the condition quotes, all of its ticks are of that time, and the time is not before
the window. -/
structure Condition.MayHaveSeen (c : Condition Price) (ts : Int) (ticks : TickSet Price) :
    Prop where
  complete : ∀ i ∈ c.instruments, ∃ t, ticks.get? i.key = some t
  stamped : ∀ t ∈ ticks.values, t.timestamp = ts
  window : c.fromTs ≤ ts

/-- Whether what a condition remembers bears out where it stands. -/
structure Condition.IsJustified (c : Condition Price) : Prop where
  decided : c.value.isDecided = true ↔ c.state.status = .finished
  unstarted : c.state.status = .unstarted ↔ c.state = .initial
  seen : c.state.status ≠ .unstarted → c.MayHaveSeen c.state.lastTs c.state.lastTicks
  started : c.state.status = .started →
    c.state.lastTs ≤ c.toTs ∧ c.holdsAt c.state.lastTicks = false
  held : c.state.status = .finished → c.value = .yes →
    c.state.lastTs ≤ c.toTs ∧ c.holdsAt c.state.lastTicks = true
  missed : c.state.status = .finished → c.value = .no → c.toTs < c.state.lastTs
  /-- Nothing is seen before the time that a condition begins with. -/
  lastTs : 0 ≤ c.state.lastTs

/-- Whether the conditions of a prediction bear out its state. -/
structure Prediction.IsJustified (p : Prediction) : Prop where
  given : ∀ c ∈ p.given, c.IsJustified
  final : p.state.status = .finished ↔ p.state.outcome.isFinal = true
  lastTs : p.state.lastTs ≤ p.latest

/-- Whether the state of a prediction has been derived from all that its conditions have seen. -/
structure Prediction.IsDerived (p : Prediction) : Prop where
  lastTs : p.state.lastTs = p.latest
  status : p.state.status ≠ .unstarted

namespace Condition

variable {c d : Condition Price} {ticks : TickSet Price} {ts : Int}

/-! ### Conditions -/

/-- A condition that has seen nothing is justified. -/
theorem isJustified_of_initial (h : c.state = .initial) : c.IsJustified := by
  have hstatus : c.state.status = .unstarted := congrArg Progress.status h
  have hvalue : c.value = .undecided := congrArg Progress.value h
  have hne {status : Status} (heq : c.state.status = status) (hother : status ≠ .unstarted) :
      False := hother (heq.symm.trans hstatus)
  refine ⟨?_, iff_of_true hstatus h, fun hseen => (hseen hstatus).elim, ?_, ?_, ?_, ?_⟩
  · rw [hvalue, hstatus]
    exact iff_of_false Bool.false_ne_true (by decide)
  · exact fun hstarted => (hne hstarted (by decide)).elim
  · exact fun hfinished => (hne hfinished (by decide)).elim
  · exact fun hfinished => (hne hfinished (by decide)).elim
  · exact Int.le_of_eq (congrArg Progress.lastTs h).symm

/-- A tick set that a condition accepts in or behind its window is one that it may have seen. -/
theorem mayHaveSeen_of_accepts (h : c.accepts ticks = .ok ts) (hfrom : c.fromTs ≤ ts) :
    c.MayHaveSeen ts ticks := by
  obtain ⟨-, hstamped, hall, -⟩ := accepts_eq_ok_iff.1 h
  refine ⟨fun i hi => ?_, hstamped, hfrom⟩
  have hcontains := hall i hi
  rw [Keyed.contains, Option.isSome_iff_exists] at hcontains
  exact hcontains

/-- A condition that has taken a tick set is justified if its status and value are what follows from
the set. -/
theorem MayHaveSeen.isJustified {status : Status} {value : Trilean}
    (hseen : c.MayHaveSeen ts ticks) (hts : 0 ≤ ts) (hstatus : status ≠ .unstarted)
    (hdecided : value.isDecided = true ↔ status = .finished)
    (hopen : status = .started → ts ≤ c.toTs ∧ c.holdsAt ticks = false)
    (hheld : value = .yes → ts ≤ c.toTs ∧ c.holdsAt ticks = true)
    (hmissed : value = .no → c.toTs < ts) :
    IsJustified { c with state := ⟨status, ts, ticks, value⟩ } where
  decided := hdecided
  unstarted := iff_of_false hstatus fun h => hstatus (congrArg Progress.status h)
  seen _ := ⟨hseen.complete, hseen.stamped, hseen.window⟩
  started := hopen
  held _ := hheld
  missed _ := hmissed
  lastTs := hts

/-- **A justified condition is so after it has been fed.** -/
theorem IsJustified.feed (hc : c.IsJustified) (h : c.feed ticks = .ok d) : d.IsJustified := by
  rcases feed_eq_ok_iff.1 h with ⟨-, rfl⟩ | ⟨hopen, ts, hacc, rfl⟩
  · exact hc
  · have hts : 0 ≤ ts := Int.le_trans hc.lastTs (accepts_eq_ok_iff.1 hacc).2.2.2
    by_cases hbefore : ts < c.fromTs
    · rw [advance, if_pos hbefore]
      exact hc
    · have hseen := mayHaveSeen_of_accepts hacc (Int.not_lt.1 hbefore)
      rw [advance, if_neg hbefore]
      by_cases hbehind : c.toTs < ts
      · rw [if_pos hbehind]
        refine hseen.isJustified hts ?_ (iff_of_true rfl rfl) ?_ ?_ fun _ => hbehind
        · decide
        · rintro ⟨⟩
        · rintro ⟨⟩
      · have hwindow : ts ≤ c.toTs := Int.not_lt.1 hbehind
        rw [if_neg hbehind]
        by_cases hholds : c.holdsAt ticks = true
        · rw [if_pos hholds]
          refine hseen.isJustified hts ?_ (iff_of_true rfl rfl) ?_ (fun _ => ⟨hwindow, hholds⟩) ?_
          · decide
          · rintro ⟨⟩
          · rintro ⟨⟩
        · -- the value stays, and is open as the condition was not finished
          have hvalue : c.state.value = .undecided := by
            have hundecided : ¬ c.value.isDecided = true := fun hdecided => by
              rw [isFinished, hc.decided.1 hdecided] at hopen
              cases hopen
            cases hv : c.state.value with
            | undecided => rfl
            | yes => exact absurd (congrArg Trilean.isDecided hv) hundecided
            | no => exact absurd (congrArg Trilean.isDecided hv) hundecided
          rw [if_neg hholds, hvalue]
          refine hseen.isJustified hts ?_ (iff_of_false Bool.false_ne_true ?_)
            (fun _ => ⟨hwindow, Bool.eq_false_iff.2 hholds⟩) ?_ ?_
          · decide
          · decide
          · rintro ⟨⟩
          · rintro ⟨⟩

end Condition

namespace Prediction

variable {p q : Prediction}

/-! ### The latest time -/

/-- The latest time is that of some condition, or 0 if there is none. -/
theorem exists_latest (p : Prediction) :
    (p.given = [] ∧ p.latest = 0) ∨ ∃ c ∈ p.given, p.latest = c.state.lastTs := by
  rw [latest]
  cases hmax : (p.given.map (·.state.lastTs)).max? with
  | none =>
      rw [List.max?_eq_none_iff, List.map_eq_nil_iff] at hmax
      exact Or.inl ⟨hmax, rfl⟩
  | some ts =>
      obtain ⟨c, hc, rfl⟩ := List.mem_map.1 (List.max?_mem hmax)
      exact Or.inr ⟨c, hc, rfl⟩

/-- No condition has seen anything later than the latest time. -/
theorem lastTs_le_latest {c : Condition Price} (hc : c ∈ p.given) :
    c.state.lastTs ≤ p.latest := by
  rw [latest]
  cases hmax : (p.given.map (·.state.lastTs)).max? with
  | none =>
      rw [List.max?_eq_none_iff, List.map_eq_nil_iff] at hmax
      rw [hmax] at hc
      exact absurd hc List.not_mem_nil
  | some ts => exact (List.max?_eq_some_iff.1 hmax).2 _ (List.mem_map_of_mem hc)

/-- If no condition goes back in time, the latest time does not. -/
theorem latest_le_latest
    (h : ∀ i : Nat, Option.Rel (fun c d : Condition Price => c.state.lastTs ≤ d.state.lastTs)
      p.given[i]? q.given[i]?) : p.latest ≤ q.latest := by
  rcases p.exists_latest with ⟨hnone, hlatest⟩ | ⟨c, hc, hlatest⟩
  · have hnone' : q.given = [] := by
      have hfirst := h 0
      rw [hnone] at hfirst
      cases hq : q.given with
      | nil => rfl
      | cons d ds =>
          rw [hq] at hfirst
          cases hfirst
    rw [hlatest, latest, hnone']
    exact Int.le_refl 0
  · obtain ⟨i, hi⟩ := List.mem_iff_getElem?.1 hc
    have hrel := h i
    rw [hi] at hrel
    cases hd : q.given[i]? with
    | none =>
        rw [hd] at hrel
        cases hrel
    | some d =>
        rw [hd] at hrel
        cases hrel with
        | some hle => exact hlatest ▸ Int.le_trans hle (lastTs_le_latest (List.mem_of_getElem? hd))

/-- The latest time of justified conditions is not before 0. -/
theorem latest_nonneg (h : ∀ c ∈ p.given, c.IsJustified) : 0 ≤ p.latest := by
  rcases p.exists_latest with ⟨-, hlatest⟩ | ⟨c, hc, hlatest⟩
  · exact Int.le_of_eq hlatest.symm
  · rw [hlatest]
    exact (h c hc).lastTs

/-! ### Predictions -/

/-- A prediction that has not been evaluated, and whose conditions have seen nothing, is
justified. -/
theorem isJustified_of_initial (hstate : p.state = .initial)
    (hgiven : ∀ c ∈ p.given, c.state = .initial) : p.IsJustified := by
  have hjustified : ∀ c ∈ p.given, c.IsJustified := fun c hc =>
    Condition.isJustified_of_initial (hgiven c hc)
  refine ⟨hjustified, ?_, ?_⟩
  · rw [hstate]
    exact iff_of_false (by decide) Bool.false_ne_true
  · rw [hstate]
    exact latest_nonneg hjustified

/-- A cleared prediction is justified. -/
theorem isJustified_cleared (p : Prediction) : p.cleared.IsJustified := by
  refine isJustified_of_initial rfl fun c hc => ?_
  obtain ⟨d, -, rfl⟩ := List.mem_map.1 hc
  rfl

/-- A feeding keeps a prediction justified. -/
theorem IsJustified.feed (hp : p.IsJustified) (f : Feeding) : (p.feed f).IsJustified := by
  have hstate : (p.feed f).state = p.state := by rw [p.feed_frame f]
  have hgiven := rel_given_feed (R := fun c d => c.IsJustified → d.IsJustified) (fun _ hc => hc) p
    (f := f) fun c _ d hd hc => hc.feed hd
  have hlatest : p.latest ≤ (p.feed f).latest :=
    latest_le_latest (rel_given_feed (fun _ => Int.le_refl _) p fun c _ d hd =>
      (Condition.continues_of_feed hd).lastTs)
  refine ⟨fun d hd => ?_, ?_, ?_⟩
  · obtain ⟨i, hi⟩ := List.mem_iff_getElem?.1 hd
    have hrel := hgiven i
    rw [hi] at hrel
    cases hc : p.given[i]? with
    | none =>
        rw [hc] at hrel
        cases hrel
    | some c =>
        rw [hc] at hrel
        cases hrel with
        | some hjustified => exact hjustified (hp.given c (List.mem_of_getElem? hc))
  · rw [hstate]
    exact hp.final
  · rw [hstate]
    exact Int.le_trans hp.lastTs hlatest

/-- Evaluation keeps a prediction justified, and its state is derived then. -/
theorem IsJustified.evaluated (hp : p.IsJustified) :
    p.evaluated.IsJustified ∧ p.evaluated.IsDerived := by
  have hlastTs : p.evaluated.state.lastTs = p.evaluated.latest := Int.max_eq_right hp.lastTs
  have hstatus : p.evaluated.state.status =
      if p.outcome.isFinal then .finished else .started := rfl
  have houtcome : p.evaluated.state.outcome = p.outcome := rfl
  refine ⟨⟨hp.given, ?_, Int.le_of_eq hlastTs⟩, hlastTs, ?_⟩
  · rw [hstatus, houtcome]
    cases p.outcome.isFinal with
    | true => exact iff_of_true rfl rfl
    | false => exact iff_of_false (by decide) Bool.false_ne_true
  · rw [hstatus]
    cases p.outcome.isFinal with
    | true => decide
    | false => decide

/-- **A run keeps a prediction justified.** -/
theorem Runs.isJustified {now : Int} (h : Runs now p q) (hp : p.IsJustified) :
    q.IsJustified := by
  induction h with
  | refl => exact hp
  | feed _ _ ih => exact ih.feed _
  | evaluate _ ih => exact ih.evaluated.1

/-- A compiled prediction is justified. -/
theorem isJustified_of_compile {draft : Draft} {createdAt : Calendar.Instant}
    (h : Compile.prediction draft createdAt = .ok p) : p.IsJustified := by
  obtain ⟨hstate, hgiven⟩ := Compile.state_of_prediction h
  exact isJustified_of_initial hstate hgiven

end Prediction

end Forecast
