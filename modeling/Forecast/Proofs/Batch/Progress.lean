import Forecast.Proofs.Batch.Schedule
import Forecast.Proofs.Batch.Repetition
import Forecast.Proofs.Session.Progress

/-!
# Progress of Batches

Batches are limited, so one may leave ticks to feed. Does it get anything done all the same, or may
batch after batch look at the same ticks? If a batch allows three passes or more, a condition has
seen a later time after it than before (`run_sees_more`). With two passes a prediction may come to
its second phase, and begin a condition there at the second 0, which is what a condition says that
has seen nothing; but it is not as it was before. With one pass nothing at all may change: what is
fed may be the tick that the condition stands on, in this batch and in all that follow
(`batches_may_stall`).

What a batch keeps of a session is what it came to, or what was there before, if the two count as
equal. They have seen the same then (`Prediction.SeesSame`), and prices do not matter.

## Main results

* `Batch.kept_sees_more`: what is kept of one prediction.
* `Batch.run_sees_more`: what is held after a batch.
* `Batch.batches_may_stall`: batches of one pass, and of two, that get nothing done.
-/

namespace Forecast

/-! ### Stages that look alike -/

/-- Lists that count as equal have members that do, position by position. -/
theorem rel_getElem?_of_beq {α : Type} [BEq α] {xs ys : List α} (h : (xs == ys) = true) (i : Nat) :
    Option.Rel (fun x y => (x == y) = true) xs[i]? ys[i]? := by
  induction xs generalizing ys i with
  | nil =>
      cases ys with
      | nil => exact .none
      | cons y ys => cases h
  | cons x xs ih =>
      cases ys with
      | nil => cases h
      | cons y ys =>
          rw [List.cons_beq_cons, Bool.and_eq_true] at h
          cases i with
          | zero => exact .some h.1
          | succ i => exact ih h.2 i

/-- What progress that counts as equal has in common. -/
theorem Progress.eq_of_beq {s t : Progress Price} (h : (s == t) = true) :
    s.status = t.status ∧ s.lastTs = t.lastTs ∧ s.value = t.value := by
  cases s
  cases t
  change instBEqProgress.beq _ _ = true at h
  simp only [instBEqProgress.beq, Bool.and_eq_true, beq_iff_eq] at h
  exact ⟨h.1, h.2.1, h.2.2.2⟩

/-- The progress of conditions that count as equal does so, too. -/
theorem Condition.state_beq {c d : Condition Price} (h : (c == d) = true) :
    (c.state == d.state) = true := by
  cases c
  cases d
  change instBEqCondition.beq _ _ = true at h
  simp only [instBEqCondition.beq, Bool.and_eq_true] at h
  exact h.2.2.2.2.2.2

/-- Whether a later stage of a condition has seen as much as an earlier one, and come to the same
value. -/
structure Condition.SeesSame (c d : Condition Price) : Prop where
  frame : d = { c with state := d.state }
  status : d.state.status = c.state.status
  lastTs : d.state.lastTs = c.state.lastTs
  value : d.value = c.value

namespace Prediction

variable {p q : Prediction} {m : Market} {chart : String → List Candle} {now : Int}

/-- The conditions of predictions that count as equal do so, too. -/
theorem given_beq (h : (p == q) = true) : (p.given == q.given) = true := by
  cases p
  cases q
  change instBEqPrediction.beq _ _ = true at h
  simp only [instBEqPrediction.beq, Bool.and_eq_true] at h
  exact h.2.2.2.2.2.2.2.1

/-- Whether all conditions of a later stage have seen as much as those of an earlier one, and come
to the same values. -/
structure SeesSame (p q : Prediction) : Prop where
  frame : q = { p with given := q.given, state := q.state }
  given : ∀ i : Nat, Option.Rel Condition.SeesSame p.given[i]? q.given[i]?

/-- A prediction that has moved forward and counts as unchanged has seen nothing more. -/
theorem MovesForward.seesSame (h : p.MovesForward now q) (hsame : (q == p) = true) :
    p.SeesSame q where
  frame := h.frame
  given i := by
    have hforward := h.given i
    have hbeq := rel_getElem?_of_beq (given_beq hsame) i
    generalize p.given[i]? = x at hforward hbeq ⊢
    generalize q.given[i]? = y at hforward hbeq ⊢
    cases hforward with
    | none => exact .none
    | some hcd =>
        cases hbeq with
        | some hdc =>
            obtain ⟨hstatus, hlast, hvalue⟩ := Progress.eq_of_beq (Condition.state_beq hdc)
            exact .some ⟨hcd.frame, hstatus, hlast, hvalue⟩

/-- Nothing is seen between a prediction and itself. -/
theorem SeesSame.refl (p : Prediction) : p.SeesSame p where
  frame := rfl
  given i := by
    cases p.given[i]? with
    | none => exact .none
    | some c => exact .some ⟨rfl, rfl, rfl, rfl⟩

section SeesSame

variable (h : p.SeesSame q)
include h

/-- Every condition has a later stage. -/
theorem SeesSame.exists_after {i : Nat} {c : Condition Price} (hc : p.given[i]? = some c) :
    ∃ d, q.given[i]? = some d ∧ c.SeesSame d :=
  rel_some_left (hc ▸ h.given i)

/-- No condition has seen a later time. -/
theorem SeesSame.not_seesMore : ¬ p.SeesMore q := by
  rintro ⟨i, c, d, hc, hd, hlt⟩
  obtain ⟨d', hd', hcd⟩ := h.exists_after hc
  obtain rfl : d = d' := Option.some.inj (hd.symm.trans hd')
  rw [hcd.lastTs] at hlt
  exact Int.lt_irrefl _ hlt

/-- No condition has begun. -/
theorem SeesSame.not_beginsAtZero : ¬ p.BeginsAtZero q := by
  rintro ⟨i, c, d, hc, hd, hinitial, hstatus, -⟩
  obtain ⟨d', hd', hcd⟩ := h.exists_after hc
  obtain rfl : d = d' := Option.some.inj (hd.symm.trans hd')
  rw [hcd.status, hinitial] at hstatus
  exact hstatus rfl

/-- All values are the same. -/
theorem SeesSame.valueAt_eq : q.valueAt = p.valueAt := by
  funext i
  have hrel := h.given i
  rw [valueAt, valueAt]
  generalize p.given[i]? = x at hrel ⊢
  generalize q.given[i]? = y at hrel ⊢
  cases hrel with
  | none => rfl
  | some hcd => exact congrArg some hcd.value

/-- The same is worth feeding. -/
theorem SeesSame.actionable_eq : q.actionable = p.actionable := by
  have hpre : q.pre = p.pre := by rw [h.frame]
  have hmain : q.main = p.main := by rw [h.frame]
  rw [actionable, actionable, outcome, outcome, h.valueAt_eq, hpre, hmain]

/-- Ticks that were left are left. -/
theorem SeesSame.hasTicksLeft (hleft : p.HasTicksLeft m chart now) :
    q.HasTicksLeft m chart now := by
  obtain ⟨i, hi, c, hc, j, hj, t, ht, hfrom, hnow, hlater⟩ := hleft
  obtain ⟨d, hd, hcd⟩ := h.exists_after hc
  refine ⟨i, h.actionable_eq ▸ hi, d, hd, j, ?_, t, ht, ?_, hnow, ?_⟩
  · rw [hcd.frame]
    exact hj
  · rw [hcd.frame]
    exact hfrom
  · rw [hcd.lastTs]
    exact hlater

end SeesSame

end Prediction

namespace Batch

open Prediction (SeesSame)

variable {m : Market} {chart : String → List Candle} {now : Int} {limit : Nat}

/-! ### What waits for the second phase -/

/-- A compiled prediction has seen nothing, so nothing for the second phase alone. -/
theorem waitsUntouched_of_isCompiled {p : Prediction} (hp : p.IsCompiled) : p.WaitsUntouched :=
  fun _ _ _ c hc => hp.fresh.1 c (List.mem_of_getElem? hc)

/-- What becomes of a prediction alone that waits for the first phase has seen nothing for the
second phase alone. -/
theorem waitsUntouched_alone (m : Market) (now : Int) (limit : Nat) {p : Prediction}
    (hp : p.IsKept) (h : p.WaitsUntouched) :
    (alone m now limit p).prediction.WaitsUntouched := by
  cases hstart : Session.start m p now with
  | error e =>
      rw [alone_of_error hstart]
      exact h
  | ok s =>
      rw [alone_of_ok hstart]
      obtain rfl := Session.start_eq_ok hstart
      exact Session.waitsUntouched_drain m limit (by simp) hp.1 h

/-! ### What is kept of a session -/

/-- **What a batch gets done for one prediction.** If what is kept of a session has ticks left, it
has seen more than before, but for the cases of one and of two passes. -/
theorem kept_sees_more (hm : m.Serves chart) {p q : Prediction} (hkept : p.IsKept)
    (hservable : p.IsServable) (huntouched : p.WaitsUntouched)
    (hsingle : ∀ c ∈ p.given, ∃ j, c.instruments = [j])
    (hongoing : p.isFinal = false) {s : Session} (hstart : Session.start m p now = .ok s)
    (hlimit : 1 ≤ limit) (herrors : (s.drain m limit).2 = [])
    (hq : q = if ((s.drain m limit).1.prediction != p) = true then (s.drain m limit).1.prediction
      else p)
    (hleft : q.HasTicksLeft m chart now) :
    p.SeesMore q ∨ (limit = 1 ∧ p.StandsOnTicks m chart now) ∨ (limit = 2 ∧ p.BeginsAtZero q) := by
  split at hq
  · subst hq
    exact Session.drain_sees_more hm hservable hsingle hkept.1 huntouched hongoing hstart hlimit herrors hleft
  · next hsame =>
      subst hq
      rw [bne, Bool.not_eq_true, Bool.not_eq_false'] at hsame
      have hruns := runs_alone m now limit q
      rw [alone_of_ok hstart] at hruns
      have hsees := (hruns.movesForward hkept).2.seesSame hsame
      rcases Session.drain_sees_more hm hservable hsingle hkept.1 huntouched hongoing hstart hlimit herrors
        (hsees.hasTicksLeft hleft) with hmore | hstands | ⟨-, hbegins⟩
      · exact absurd hmore hsees.not_seesMore
      · exact Or.inr (Or.inl hstands)
      · exact absurd hbegins hsees.not_beginsAtZero

section Batches

variable {σ : Type} [LawfulArchive σ] {first archive archive' : σ}

/-- What is held of an ongoing prediction after a batch without errors. -/
theorem exists_kept_of_run (hsound : IsSound (LawfulArchive.contents archive)) {r : Report}
    (hrun : run archive m now limit = .ok (r, archive')) (herrors : r.errors = []) {id : String}
    {p q : Prediction} (hp : (LawfulArchive.contents archive).get? id = some p)
    (hq : (LawfulArchive.contents archive').get? id = some q) (hongoing : p.isFinal = false) :
    ∃ s, Session.start m p now = .ok s ∧ (s.drain m (max limit 1)).2 = [] ∧
      q = if ((s.drain m (max limit 1)).1.prediction != p) = true
        then (s.drain m (max limit 1)).1.prediction else p := by
  obtain ⟨rfl, hcontents⟩ := contents_of_run_ok hrun
  have hmem : (ongoing (LawfulArchive.contents archive)).get? id = some p := by
    rw [ongoing, Keyed.get?_filter, hp, Option.filter_some, hongoing]
    rfl
  obtain ⟨s, hstart, hnone⟩ := exists_start_of_errors hsound.isKeyedById.ongoing herrors
    (hsound.isKeyedById.ongoing.get?_eq_some_iff.1 hmem).1
  refine ⟨s, hstart, hnone, ?_⟩
  rw [hcontents, get?_changed m now limit hsound.isKeyedById.ongoing, hmem, hp, Option.bind_some,
    alone_of_ok hstart, Bool.true_and] at hq
  split at hq
  · next hne =>
      rw [if_pos hne]
      exact (Option.some.inj hq).symm
  · next hsame =>
      rw [if_neg hsame]
      exact (Option.some.inj hq).symm

/-- A batch leaves a final prediction as it is. -/
theorem eq_of_isFinal (hsound : IsSound (LawfulArchive.contents archive)) {r : Report}
    (hrun : run archive m now limit = .ok (r, archive')) {id : String}
    {p q : Prediction} (hp : (LawfulArchive.contents archive).get? id = some p)
    (hq : (LawfulArchive.contents archive').get? id = some q) (hfinal : p.isFinal = true) :
    q = p := by
  have hforward := (allMoveForward_after m now limit hsound).2 id
  rw [hrun, after, hp, hq] at hforward
  cases hforward with
  | some h => exact h.1 hfinal

/-- **Bounded batches make progress.** Take an archive that began with compiled predictions, after
any history, and a batch over charts without errors. Let a prediction of conditions on one
instrument each be ongoing after it, with ticks left, up to the second of the batch, for a condition
that is worth feeding. Then a condition has seen more than before the batch, if three passes or more
were allowed. If two were, it may instead be that a condition that had seen nothing has begun, at
the second 0. If one was, it may be that all conditions that were worth feeding stood on their
ticks. With two or more the prediction is not what it was. -/
theorem run_sees_more (hm : m.Serves chart)
    (hkeyed : IsKeyedById (LawfulArchive.contents first))
    (hcompiled : ∀ p ∈ (LawfulArchive.contents first).values, p.IsCompiled)
    (hreached : Reaches first archive) {r : Report}
    (hrun : run archive m now limit = .ok (r, archive')) (herrors : r.errors = []) {id : String}
    {p q : Prediction} (hp : (LawfulArchive.contents archive).get? id = some p)
    (hq : (LawfulArchive.contents archive').get? id = some q)
    (hsingle : ∀ c ∈ p.given, ∃ j, c.instruments = [j]) (hopen : q.isFinal = false)
    (hleft : q.HasTicksLeft m chart now) :
    (p.SeesMore q ∨ (limit ≤ 1 ∧ p.StandsOnTicks m chart now) ∨
      (limit = 2 ∧ p.BeginsAtZero q)) ∧ (2 ≤ limit → q ≠ p) := by
  have hcompiled' : ∀ id p, (LawfulArchive.contents first).get? id = some p →
      p.id = id ∧ p.IsCompiled := fun id p hp =>
    ⟨(hkeyed.get?_eq_some_iff.1 hp).2, hcompiled p (hkeyed.get?_eq_some_iff.1 hp).1⟩
  have hfirst : IsSound (LawfulArchive.contents first) := fun id p hp =>
    ⟨(hcompiled' id p hp).1, (hcompiled' id p hp).2.isKept⟩
  have hsound := isSound_of_reaches hreached hfirst
  have hservable := areServable_of_reaches hreached hfirst (fun id p hp =>
    (hcompiled' id p hp).2.isServable) id p hp
  have huntouched : p.WaitsUntouched :=
    forall_of_reaches (fun m now limit _ hkept h => waitsUntouched_alone m now limit hkept h)
      hreached hfirst (fun id p hp => waitsUntouched_of_isCompiled (hcompiled' id p hp).2) id p hp
  have hongoing : p.isFinal = false := by
    by_contra hfinal
    rw [Bool.not_eq_false] at hfinal
    rw [eq_of_isFinal hsound hrun hp hq hfinal, hfinal] at hopen
    cases hopen
  obtain ⟨s, hstart, hnone, hkept⟩ := exists_kept_of_run hsound hrun herrors hp hq hongoing
  have hprogress := kept_sees_more hm (hsound id p hp).2 hservable huntouched hsingle hongoing hstart
    (Nat.le_max_right _ _) hnone hkept hleft
  refine ⟨?_, ?_⟩
  · rcases hprogress with hmore | ⟨hone, hstands⟩ | ⟨htwo, hbegins⟩
    · exact Or.inl hmore
    · exact Or.inr (Or.inl ⟨by omega, hstands⟩)
    · exact Or.inr (Or.inr ⟨by omega, hbegins⟩)
  · rintro hmany rfl
    rcases hprogress with hmore | ⟨hone, -⟩ | ⟨-, hbegins⟩
    · exact (SeesSame.refl q).not_seesMore hmore
    · omega
    · exact (SeesSame.refl q).not_beginsAtZero hbegins

end Batches

/-- A prediction about one level from a later second on, as an author writes it. -/
def lateLevelDraft : Draft :=
  { oneLevelDraft with id := some "late-level", postedAt := "1970-01-01T00:01:00Z" }

/-- The compiled prediction. -/
def lateLevel : Prediction :=
  (Compile.prediction lateLevelDraft ⟨60, 0⟩).toOption.getD oneLevel

/-- The draft can be compiled. -/
theorem isCompiled_lateLevel : lateLevel.IsCompiled :=
  Prediction.isCompiled_of_isOk (by decide +kernel) oneLevel

/-- A batch of three passes over `quiet`, after which a tick is left. -/
theorem lateLevel_sees_more :
    quiet.Serves (fun _ => quietCandles) ∧
      IsKeyedById (LawfulArchive.contents (shelved lateLevel)) ∧
      (∀ p ∈ (LawfulArchive.contents (shelved lateLevel)).values, p.IsCompiled) ∧
      ∃ (r : Report) (shelf : Shelf) (q : Prediction),
        run (shelved lateLevel) quiet 119 3 = .ok (r, shelf) ∧ r.errors = [] ∧
          (LawfulArchive.contents (shelved lateLevel)).get? "late-level" = some lateLevel ∧
          (LawfulArchive.contents shelf).get? "late-level" = some q ∧
          (∀ c ∈ lateLevel.given, ∃ j, c.instruments = [j]) ∧ q.isFinal = false ∧
          q.HasTicksLeft quiet (fun _ => quietCandles) 119 ∧ lateLevel.SeesMore q := by
  have hkeyed : IsKeyedById (LawfulArchive.contents (shelved lateLevel)) := by decide +kernel
  have hcompiled : ∀ p ∈ (LawfulArchive.contents (shelved lateLevel)).values, p.IsCompiled :=
    List.forall_mem_singleton.2 isCompiled_lateLevel
  have hget : (LawfulArchive.contents (shelved lateLevel)).get? "late-level" = some lateLevel :=
    hkeyed.get?_eq_some_iff.2 ⟨List.mem_singleton_self _, by decide +kernel⟩
  have hsingle : ∀ c ∈ lateLevel.given, ∃ j, c.instruments = [j] := by
    have hlength : ∀ c ∈ lateLevel.given, c.instruments.length = 1 := by decide +kernel
    exact fun c hc => List.length_eq_one_iff.1 (hlength c hc)
  have hfacts : ∃ done ∈ (run (shelved lateLevel) quiet 119 3).toOption, done.1.errors = [] ∧
      ∃ q ∈ done.2.predictions.get? "late-level", q.isFinal = false ∧
        q.HasTicksLeft quiet (fun _ => quietCandles) 119 := by
    decide +kernel
  obtain ⟨⟨r, shelf⟩, hdone, herrors, q, hq, hopen, hleft⟩ := hfacts
  cases hrun : run (shelved lateLevel) quiet 119 3 with
  | error f =>
      rw [hrun] at hdone
      cases hdone
  | ok done =>
      rw [hrun] at hdone
      cases hdone
      obtain ⟨hprogress, -⟩ := run_sees_more quiet_serves hkeyed hcompiled .refl hrun herrors hget
        hq hsingle hopen hleft
      refine ⟨quiet_serves, hkeyed, hcompiled, r, shelf, q, rfl, herrors, hget, hq, hsingle, hopen,
        hleft, ?_⟩
      rcases hprogress with hmore | ⟨hone, -⟩ | ⟨htwo, -⟩
      · exact hmore
      · exact absurd hone (by decide)
      · exact absurd htwo (by decide)

/-! ### Batches that get nothing done -/

/-- A batch that changes nothing leaves the archive as it is. -/
theorem after_of_unchanged {σ : Type} [Archive σ] {archive : σ}
    (h : ((run archive m now limit).toOption.map fun done => done.1.changed.isEmpty) = some true) :
    after archive (run archive m now limit) = archive := by
  cases hrun : run archive m now limit with
  | error f => rfl
  | ok done =>
      obtain ⟨r, archive'⟩ := done
      rw [hrun] at h
      obtain ⟨ps, -, -, hkept⟩ := exists_of_run_ok hrun
      rcases hkept with ⟨-, hsame⟩ | ⟨hsome, -⟩
      · exact hsame
      · cases hsome.symm.trans (Option.some.inj h)

/-- Whether a batch has no errors, and leaves a prediction open, of conditions on one instrument
each with windows from the second 0 on or later, that has ticks left and has seen no more than
before. -/
def Stalls (m : Market) (chart : String → List Candle) (now : Int) (limit : Nat) (shelf : Shelf)
    (id : String) : Prop :=
  ∃ done ∈ (run shelf m now limit).toOption, done.1.errors = [] ∧
    ∃ p ∈ shelf.predictions.get? id, ∃ q ∈ done.2.predictions.get? id,
      (∀ c ∈ p.given, c.instruments.length = 1 ∧ 0 ≤ c.fromTs) ∧ q.isFinal = false ∧
        q.HasTicksLeft m chart now ∧ ¬ p.SeesMore q

instance (shelf : Shelf) (id : String) : Decidable (Stalls m chart now limit shelf id) :=
  inferInstanceAs (Decidable (∃ done ∈ (run shelf m now limit).toOption, _))

/-- A prediction about one level that counts once another is passed, as an author writes it. -/
def gatedLevelDraft : Draft where
  id := some "gated-level"
  postedAt := "1970-01-01T00:00:00Z"
  reporter := ""
  postAuthor := ""
  postUrl := ""
  postText := ""
  given := .ofList
    [("high", ⟨"COIN:BINANCE:BTC-USDT > 3", none, none, some "1d", none⟩),
      ("passed", ⟨"COIN:BINANCE:BTC-USDT > 1", none, none, some "1d", none⟩)]
  pre := some ⟨none, none, some "passed", false, false⟩
  main := ⟨none, none, "high", false, false⟩

/-- The compiled prediction. -/
def gatedLevel : Prediction where
  id := "gated-level"
  createdAt := ⟨0, 0⟩
  postedAt := ⟨0, 0⟩
  reporter := ""
  postAuthor := ""
  postUrl := ""
  postText := ""
  given :=
    [.fresh "high" .above [.market (.coin "BINANCE" "BTC" "USDT"), .number 3] 0 86400 0,
      .fresh "passed" .above [.market (.coin "BINANCE" "BTC" "USDT"), .number 1] 0 86400 0]
  pre := ⟨none, none, some (.literal 1), .default⟩
  main := ⟨none, none, .literal 0, .default⟩
  state := .initial
  shape := .unsupported

/-- The draft compiles to the prediction. -/
theorem compile_gatedLevelDraft : Compile.prediction gatedLevelDraft ⟨0, 0⟩ = .ok gatedLevel := by
  have htime : Calendar.readTime gatedLevelDraft.postedAt = .ok ⟨0, 0⟩ := by rfl
  have hconditions :
      Compile.conditions ⟨0, 0⟩ [] (gatedLevelDraft.given.entries.map Compile.toEntry) =
        .ok gatedLevel.given := by with_unfolding_all rfl
  have hentries :
      Compile.entries gatedLevelDraft.given = gatedLevelDraft.given.entries.map Compile.toEntry :=
    Compile.entries_of_sorted (by decide +kernel)
  simp only [Compile.prediction, hentries, htime, Except.mapError, bind, Except.bind, hconditions]
  with_unfolding_all rfl

/-- The archive that a batch of one pass over `quiet` leaves. -/
def lateShelf : Shelf :=
  after (shelved lateLevel) (run (shelved lateLevel) quiet 119 1)

example : lateShelf.predictions.values.map (·.state) = [⟨.started, 60, .running⟩] := by
  decide +kernel

/-- **Batches of one pass may get nothing done,** and be as they are for ever: the condition is fed
the tick again that it stands on. So may one batch of two passes: the first passes the first phase,
and the second begins the condition of the second phase, both at the second 0. -/
theorem batches_may_stall :
    quiet.Serves (fun _ => quietCandles) ∧
      (IsKeyedById (shelved lateLevel).predictions ∧
        (∀ p ∈ (shelved lateLevel).predictions.values, p.IsCompiled) ∧
        Reaches (shelved lateLevel) lateShelf ∧
        Stalls quiet (fun _ => quietCandles) 119 1 lateShelf "late-level" ∧
        after lateShelf (run lateShelf quiet 119 1) = lateShelf) ∧
      IsKeyedById (shelved gatedLevel).predictions ∧
      (∀ p ∈ (shelved gatedLevel).predictions.values, p.IsCompiled) ∧
      Stalls quiet (fun _ => quietCandles) 119 2 (shelved gatedLevel) "gated-level" := by
  refine ⟨quiet_serves, ⟨by decide +kernel, ?_, .batch quiet 119 1 .refl, by decide +kernel,
    after_of_unchanged (by decide +kernel)⟩, by decide +kernel, ?_, by decide +kernel⟩
  · exact List.forall_mem_singleton.2 isCompiled_lateLevel
  · exact List.forall_mem_singleton.2
      ⟨gatedLevelDraft, ⟨0, 0⟩, gatedLevel, compile_gatedLevelDraft, Or.inl rfl⟩

end Batch

end Forecast
