import Forecast.Proofs.Batch.Completion
import Forecast.Proofs.Batch.Serving
import Forecast.Proofs.Session.Idleness
import Forecast.Proofs.Session.Numbers

/-!
# Running a Batch Again

After a batch that has completed without errors there is nothing left to do: run again over the same
charts up to the same second, it changes nothing and writes nothing (`run_again`).

A prediction that the first batch has changed and left open is idle in the second. It is then
exactly what it was; that it also counts as unchanged needs that it is equal to itself, and so that
its prices are numbers. A prediction that the first batch has left unchanged goes the same way as
before. One that became final is not looked at any more.
-/

namespace Forecast

namespace Batch

/-! ### Archives of proper predictions -/

/-- What becomes of a proper prediction alone is proper. -/
theorem isProper_alone {m : Market} {p : Prediction} (hp : p.IsProper) (now : Int) (limit : Nat) :
    (alone m now limit p).prediction.IsProper := by
  cases hstart : Session.start m p now with
  | error e =>
      rw [alone_of_error hstart]
      exact hp
  | ok s =>
      rw [alone_of_ok hstart]
      exact ((Session.isProper_of_start hp hstart).drain limit).prediction

/-- Whether all predictions are proper. -/
def AreProper (ps : Keyed Prediction) : Prop :=
  ∀ id p, ps.get? id = some p → p.IsProper

/-- **Whatever has happened, an archive holds proper predictions,** if it began with such. -/
theorem areProper_of_reaches {σ : Type} [LawfulArchive σ] {archive b : σ} (h : Reaches archive b)
    (hsound : IsSound (LawfulArchive.contents archive))
    (hproper : AreProper (LawfulArchive.contents archive)) :
    AreProper (LawfulArchive.contents b) :=
  forall_of_reaches (fun _ now limit _ _ hp => isProper_alone hp now limit) h hsound hproper

/-! ### Predictions of the second batch -/

variable {m : Market} {chart : String → List Candle} {now : Int}

/-- What a batch comes to alone that finds nothing to change. -/
def IsIdle (m : Market) (now : Int) (limit : Nat) (p : Prediction) : Prop :=
  (alone m now limit p).errors = [] ∧ ((alone m now limit p).prediction != p) = false

/-- A prediction that was left by a session without errors is not changed by another. -/
theorem isIdle_of_saved (hm : m.Serves chart) {p : Prediction} (hkept : p.IsKept)
    (hservable : p.IsServable) (hproper : p.IsProper) (hongoing : p.isFinal = false) {s : Session}
    (hstart : Session.start m p now = .ok s) {limit : Nat} (herrors : (s.drain m limit).2 = [])
    (hended : (s.drain m limit).1.inactive = true) (limit' : Nat) :
    IsIdle m now limit' (s.drain m limit).1.prediction := by
  have hends := Session.ends_of_drain hm hstart hservable hongoing herrors hended
  obtain ⟨s', hstart', hprediction, hidle⟩ := hends.isIdle hm hkept.1 hservable hstart
  obtain ⟨hsame, hnone⟩ := hidle.drain limit'
  have hq := ((Session.isProper_of_start hproper hstart).drain (m := m) limit).prediction.beq_self
  rw [IsIdle, alone_of_ok hstart']
  refine ⟨hnone, ?_⟩
  dsimp only
  rw [hsame, hprediction, bne, hq]
  rfl

/-- A prediction that was left unchanged by a session without errors is so again. -/
theorem isIdle_of_unchanged {p : Prediction} {s : Session}
    (hstart : Session.start m p now = .ok s) {limit limit' : Nat}
    (herrors : (s.drain m limit).2 = []) (hended : (s.drain m limit).1.inactive = true)
    (hended' : (s.drain m limit').1.inactive = true)
    (hsame : ((s.drain m limit).1.prediction != p) = false) : IsIdle m now limit' p := by
  rw [IsIdle, alone_of_ok hstart, Session.drain_of_ended hended' hended]
  exact ⟨herrors, hsame⟩

/-- What is ongoing after a batch that has completed without errors is idle in the next. -/
theorem Makes.isIdle (hm : m.Serves chart) {p q : Prediction} (h : Makes m now p q)
    (hkept : p.IsKept) (hservable : p.IsServable) (hproper : p.IsProper)
    (hopen : q.isFinal = false) {limit' : Nat}
    (hends : ∀ s, Session.start m q now = .ok s → (s.drain m limit').1.inactive = true) :
    IsIdle m now limit' q := by
  cases hfinal : p.isFinal with
  | true =>
      rw [h.final hfinal, hfinal] at hopen
      cases hopen
  | false =>
      obtain ⟨s, limit, hstart, hnone, hended, rfl⟩ := h.ongoing hfinal
      split
      · exact isIdle_of_saved hm hkept hservable hproper hfinal hstart hnone hended limit'
      · next hsame =>
          rw [if_neg hsame] at hends
          exact isIdle_of_unchanged hstart hnone hended (hends s hstart) (Bool.eq_false_iff.2 hsame)

/-- A batch of idle predictions has no errors and changes nothing. -/
theorem advance_of_isIdle {limit : Nat} {ps : Keyed Prediction} (hkeyed : IsKeyedById ps)
    (h : ∀ id p, ps.get? id = some p → IsIdle m now (max limit 1) p) :
    (advance m now limit ps).changed = .empty ∧ (advance m now limit ps).errors = [] := by
  have hreport := isOfEachAlone_advance m now limit hkeyed
  constructor
  · refine Keyed.ext fun id => ?_
    rw [Keyed.get?_empty, Option.eq_none_iff_forall_ne_some]
    intro q hq
    obtain ⟨p, hp, -, rfl, hne⟩ := (hreport.changed id q).1 hq
    rw [(h id p hp).2] at hne
    cases hne
  · refine List.Perm.eq_nil (hreport.errors.trans ?_)
    rw [List.flatMap_eq_nil_iff.2 fun p hp => ?_]
    obtain ⟨e, he, rfl⟩ := List.mem_map.1 hp
    exact (h e.1 e.2 ((Keyed.mem_entries_iff _ _ _).1 he)).1

/-! ### The second batch -/

/-- A steady archive that was read for a batch can be read again after it. -/
theorem load_of_run {σ : Type} [SteadyArchive σ] {archive archive' : σ} {limit : Nat} {r : Report}
    (h : run archive m now limit = .ok (r, archive')) :
    Archive.load archive' Outcome.ongoing = .ok (ongoing (LawfulArchive.contents archive')) := by
  obtain ⟨ps, hload, -, hkept⟩ := exists_of_run_ok h
  obtain ⟨qs, hqs⟩ : ∃ qs, Archive.load archive' Outcome.ongoing = .ok qs := by
    rcases hkept with ⟨-, rfl⟩ | ⟨-, hsave⟩
    · exact ⟨ps, hload⟩
    · exact SteadyArchive.exists_load hsave hload
  rw [hqs, load_ongoing hqs]

section Again

variable {σ : Type} [LawfulArchive σ] {first archive archive' : σ}

/-- A batch goes the same way if what is given to the archive is logged. -/
theorem run_of_recorded {saved saved' : List (Keyed Prediction)} {limit : Nat} {r : Report}
    (h : run (Recorded.mk archive saved) m now limit = .ok (r, ⟨archive', saved'⟩)) :
    run archive m now limit = .ok (r, archive') := by
  obtain ⟨ps, hload, rfl, hkept⟩ := exists_of_run_ok h
  rw [run_of_load_ok (show Archive.load archive Outcome.ongoing = .ok ps from hload), keep]
  rcases hkept with ⟨hnone, hsame⟩ | ⟨hsome, hsave⟩
  · cases hsame
    rw [if_pos hnone]
    rfl
  · rw [if_neg (Bool.eq_false_iff.1 hsome)]
    rw [Recorded.save_eq] at hsave
    cases harchive : Archive.save archive (advance m now limit ps).changed with
    | error f =>
        rw [harchive] at hsave
        cases hsave
    | ok archive'' =>
        rw [harchive] at hsave
        cases hsave
        rfl

/-- **To run a completed batch again does nothing.** Take an archive that began with compiled
predictions, after any history. If a batch over charts completes without errors, then the same batch
again, over the same charts up to the same second, succeeds if the archive can be read, as a steady
one can, and the batch completes. It changes nothing and has no errors, the archive is as it was,
and nothing was given to it to keep. -/
theorem run_again (hm : m.Serves chart) (hkeyed : IsKeyedById (LawfulArchive.contents first))
    (hcompiled : ∀ p ∈ (LawfulArchive.contents first).values, p.IsCompiled)
    (hreached : Reaches first archive) {saved saved' : List (Keyed Prediction)} {limit : Nat}
    {r : Report}
    (hrun : run (Recorded.mk archive saved) m now limit = .ok (r, ⟨archive', saved'⟩))
    (herrors : r.errors = [])
    (hcompletes : Completes m now limit (ongoing (LawfulArchive.contents archive)))
    {ps : Keyed Prediction} (hload : Archive.load archive' Outcome.ongoing = .ok ps) {limit' : Nat}
    (hcompletes' : Completes m now limit' ps) :
    ∃ r' : Report,
      run (Recorded.mk archive' saved') m now limit' = .ok (r', ⟨archive', saved'⟩) ∧
        r'.changed = .empty ∧ r'.errors = [] := by
  have hcompiled' : ∀ id p, (LawfulArchive.contents first).get? id = some p →
      p.id = id ∧ p.IsCompiled := fun id p hp =>
    ⟨(hkeyed.get?_eq_some_iff.1 hp).2, hcompiled p (hkeyed.get?_eq_some_iff.1 hp).1⟩
  have hfirst : IsSound (LawfulArchive.contents first) := fun id p hp =>
    ⟨(hcompiled' id p hp).1, (hcompiled' id p hp).2.isKept⟩
  have hsound := isSound_of_reaches hreached hfirst
  have hproper := areProper_of_reaches hreached hfirst fun id p hp =>
    (hcompiled' id p hp).2.isProper
  have hservable := areServable_of_reaches hreached hfirst fun id p hp =>
    (hcompiled' id p hp).2.isServable
  obtain ⟨rfl, hcontents⟩ := contents_of_run_ok (run_of_recorded hrun)
  obtain rfl := load_ongoing hload
  have hsound' := (allMoveForward_of_changed hsound hcontents).1
  have hidle : ∀ id q, (ongoing (LawfulArchive.contents archive')).get? id = some q →
      IsIdle m now (max limit' 1) q := by
    intro id q hq
    have hmem := (hsound'.isKeyedById.ongoing.get?_eq_some_iff.1 hq).1
    rw [ongoing, Keyed.get?_filter, Option.filter_eq_some_iff, Bool.not_eq_true'] at hq
    have hrel := makes_of_advance hsound.isKeyedById hcontents herrors hcompletes id
    rw [hq.1] at hrel
    generalize hp : (LawfulArchive.contents archive).get? id = x at hrel
    cases hrel with
    | @some p _ hmakes =>
        exact hmakes.isIdle hm (hsound id p hp).2 (hservable id p hp) (hproper id p hp) hq.2
          fun s hstart => hcompletes'.inactive hmem hstart
  obtain ⟨hchanged, hnone⟩ := advance_of_isIdle hsound'.isKeyedById.ongoing hidle
  have hload' : Archive.load (Recorded.mk archive' saved') Outcome.ongoing =
      .ok (ongoing (LawfulArchive.contents archive')) := hload
  refine ⟨_, ?_, hchanged, hnone⟩
  rw [run_of_load_ok hload', keep, hchanged]
  rfl

end Again

/-- Two candles below the level of `oneLevel`. -/
def quietCandles : List Candle :=
  [⟨0, 2, 2.5, 2, 2.5, 1⟩, ⟨60, 2.5, 2.5, 1, 1, 1⟩]

/-- A market that serves them. -/
def quiet : Market :=
  .ofChart ⟨["BINANCE"], 60⟩ fun _ => quietCandles

/-- The candles are a chart. -/
theorem quiet_serves : quiet.Serves fun _ => quietCandles :=
  Market.serves_ofChart (by decide) (by decide)
    (fun _ => Candle.areSlotted_of_aligned (by decide) (by decide) (by decide +kernel)
      (by decide +kernel) (by decide +kernel))
    (fun _ => by decide +kernel)

example : ((run oneShelved quiet 95 10).toOption.map fun done : Report × Shelf =>
    (done.1.passes, done.2.predictions.values.map (·.state))) =
      some (8, [⟨.started, 90, .running⟩]) := by
  decide +kernel

/-- A batch over `oneShelved` leaves the prediction open, and does nothing the second time. -/
theorem run_quiet_again :
    quiet.Serves (fun _ => quietCandles) ∧ IsKeyedById (LawfulArchive.contents oneShelved) ∧
      (∀ p ∈ (LawfulArchive.contents oneShelved).values, p.IsCompiled) ∧
      Completes quiet 95 10 (ongoing (LawfulArchive.contents oneShelved)) ∧
      ∃ (r : Report) (shelf : Shelf) (saved : List (Keyed Prediction)),
        run (Recorded.mk oneShelved []) quiet 95 10 = .ok (r, ⟨shelf, saved⟩) ∧ r.errors = [] ∧
          Completes quiet 95 10 (ongoing (LawfulArchive.contents shelf)) ∧
          ∃ r' : Report,
            run (Recorded.mk shelf saved) quiet 95 10 = .ok (r', ⟨shelf, saved⟩) ∧
              r'.changed = .empty ∧ r'.errors = [] := by
  have hkeyed : IsKeyedById (LawfulArchive.contents oneShelved) := by decide +kernel
  have hcompiled : ∀ p ∈ (LawfulArchive.contents oneShelved).values, p.IsCompiled :=
    List.forall_mem_singleton.2 (Prediction.isCompiled_of_isOk (by decide +kernel) _)
  have hcompletes : Completes quiet 95 10 (ongoing (LawfulArchive.contents oneShelved)) := by
    decide +kernel
  have hfacts : ((run (Recorded.mk oneShelved []) quiet 95 10).toOption.map
      fun done : Report × Recorded Shelf => (done.1.errors.isEmpty,
        decide (Completes quiet 95 10 (ongoing done.2.archive.predictions)))) =
          some (true, true) := by
    decide +kernel
  cases hrun : run (Recorded.mk oneShelved []) quiet 95 10 with
  | error f =>
      rw [hrun] at hfacts
      cases hfacts
  | ok done =>
      obtain ⟨r, shelf, saved⟩ := done
      rw [hrun] at hfacts
      simp only [Except.toOption, Option.map_some, Option.some.injEq, Prod.mk.injEq,
        List.isEmpty_iff, decide_eq_true_eq] at hfacts
      obtain ⟨herrors, hcompletes'⟩ := hfacts
      have hload := load_of_run (run_of_recorded hrun)
      exact ⟨quiet_serves, hkeyed, hcompiled, hcompletes, r, shelf, saved, rfl, herrors,
        hcompletes',
        run_again quiet_serves hkeyed hcompiled .refl hrun herrors hcompletes hload hcompletes'⟩

end Batch

end Forecast
