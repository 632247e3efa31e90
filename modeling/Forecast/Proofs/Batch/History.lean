import Forecast.Proofs.Batch.Independence

/-!
# Histories of an Archive

Batch after batch runs on an archive, each with its own market, second and limit. The market may
fail and deliver anything, the second may go back, and between batches the archive may begin and
cease to refuse reads or writes (`Batch.Reaches`). What it holds moves forward all the same
(`Batch.AllMoveForward`): a final prediction is not touched any more, every other one comes from the
one before by a run up to the second of the batch, and a batch that fails changes nothing.

The invariant is that everything in the archive stands under its own id and may have been kept
(`Batch.IsSound`). Compiled predictions satisfy it.

## Main results

* `Batch.allMoveForward_after`: what one batch does to an archive.
* `Batch.refused_of_error`: why a batch fails.
* `Batch.isSound_of_reaches`: what holds of an archive whatever has happened.
* `Batch.forall_of_reaches`: what else holds of every prediction that is held.
-/

namespace Forecast

namespace Batch

/-! ### What a batch does to an archive -/

/-- What is true between the predictions that are held at one time and at a later one. -/
def AllMoveForward (now : Int) (ps qs : Keyed Prediction) : Prop :=
  ∀ id : String, Option.Rel
    (fun p q => (p.isFinal = true → q = p) ∧ p.MovesForward now q) (ps.get? id) (qs.get? id)

/-- Whether predictions may be what an archive holds. -/
def IsSound (ps : Keyed Prediction) : Prop :=
  ∀ id p, ps.get? id = some p → p.id = id ∧ p.IsKept

/-- What is held may stay as it is. -/
theorem AllMoveForward.refl (now : Int) (ps : Keyed Prediction) : AllMoveForward now ps ps := by
  intro id
  cases ps.get? id with
  | none => exact .none
  | some p => exact .some ⟨fun _ => rfl, .refl now p⟩

/-- Predictions that may be held are held under their own ids. -/
theorem IsSound.isKeyedById {ps : Keyed Prediction} (h : IsSound ps) : IsKeyedById ps :=
  isKeyedById_of_get? fun id p hp => (h id p hp).1

/-- What becomes of a prediction alone comes from it by a run. -/
theorem runs_alone (m : Market) (now : Int) (limit : Nat) (p : Prediction) :
    Prediction.Runs now p (alone m now limit p).prediction := by
  cases hstart : Session.start m p now with
  | error e =>
      rw [alone_of_error hstart]
      exact .refl p
  | ok s =>
      have hruns := (Session.drain_advances m limit (Session.isBounded_start hstart)).runs
      rw [alone_of_ok hstart]
      rw [Session.start_eq_ok hstart] at hruns ⊢
      exact hruns

/-- What a batch has changed was not final, and it has moved forward. -/
theorem exists_of_changed {m : Market} {now : Int} {limit : Nat} {ps : Keyed Prediction}
    (hps : IsSound ps) {id : String} {q : Prediction}
    (h : (advance m now limit (ongoing ps)).changed.get? id = some q) :
    ∃ p, ps.get? id = some p ∧ p.isFinal = false ∧ q.IsKept ∧ p.MovesForward now q := by
  have hreport := isOfEachAlone_advance m now limit hps.isKeyedById.ongoing
  obtain ⟨p, hp, -, rfl, -⟩ := (hreport.changed id q).1 h
  rw [ongoing, Keyed.get?_filter, Option.filter_eq_some_iff] at hp
  obtain ⟨hp, hfinal⟩ := hp
  obtain ⟨hq, hforward⟩ := (runs_alone m now (max limit 1) p).movesForward (hps id p hp).2
  exact ⟨p, hp, Bool.not_eq_true' .. ▸ hfinal, hq, hforward⟩

/-- Keeping what a batch has changed moves everything forward. -/
theorem allMoveForward_of_changed {m : Market} {now : Int} {limit : Nat} {ps qs : Keyed Prediction}
    (hps : IsSound ps)
    (hqs : ∀ id, qs.get? id =
      ((advance m now limit (ongoing ps)).changed.get? id).or (ps.get? id)) :
    IsSound qs ∧ AllMoveForward now ps qs := by
  constructor
  · intro id q hq
    rw [hqs id] at hq
    cases hchanged : (advance m now limit (ongoing ps)).changed.get? id with
    | none =>
        rw [hchanged] at hq
        exact hps id q hq
    | some q' =>
        rw [hchanged] at hq
        cases hq
        obtain ⟨p, hp, -, hkept, hforward⟩ := exists_of_changed hps hchanged
        refine ⟨?_, hkept⟩
        rw [hforward.frame]
        exact (hps id p hp).1
  · intro id
    rw [hqs id]
    cases hchanged : (advance m now limit (ongoing ps)).changed.get? id with
    | none => exact AllMoveForward.refl now ps id
    | some q =>
        obtain ⟨p, hp, hfinal, -, hforward⟩ := exists_of_changed hps hchanged
        rw [hp]
        exact .some ⟨fun h => absurd h (Bool.eq_false_iff.1 hfinal), hforward⟩

/-! ### Histories -/

/-- The archive after a batch. One that fails leaves it as it was. -/
def after {σ : Type} (archive : σ) : Except Failure (Report × σ) → σ
  | .ok (_, archive') => archive'
  | .error _ => archive

/-- What becomes of an archive by batches, whatever they come to, while it may begin and cease to
refuse reads or writes in between. -/
inductive Reaches {σ : Type} [LawfulArchive σ] (archive : σ) : σ → Prop
  | refl : Reaches archive archive
  | batch {b : σ} (m : Market) (now : Int) (limit : Nat) :
      Reaches archive b → Reaches archive (after b (run b m now limit))
  | refusing {b b' : σ} :
      Reaches archive b → LawfulArchive.contents b' = LawfulArchive.contents b → Reaches archive b'

/-- A batch that succeeds has kept what it changed of what the archive handed out, if anything. -/
theorem exists_of_run_ok {σ : Type} [Archive σ] {archive archive' : σ} {m : Market} {now : Int}
    {limit : Nat} {r : Report} (h : run archive m now limit = .ok (r, archive')) :
    ∃ ps, Archive.load archive Outcome.ongoing = .ok ps ∧ r = advance m now limit ps ∧
      (r.changed.isEmpty = true ∧ archive' = archive ∨
        r.changed.isEmpty = false ∧ Archive.save archive r.changed = .ok archive') := by
  cases hload : Archive.load archive Outcome.ongoing with
  | error f =>
      rw [run_of_load_error hload] at h
      cases h
  | ok ps =>
      rw [run_of_load_ok hload, keep] at h
      split at h
      · next hnone =>
          cases h
          exact ⟨ps, rfl, rfl, Or.inl ⟨hnone, rfl⟩⟩
      · next hsome =>
          cases hsave : Archive.save archive (advance m now limit ps).changed with
          | error f =>
              rw [hsave] at h
              cases h
          | ok archive'' =>
              rw [hsave] at h
              cases h
              exact ⟨ps, rfl, rfl, Or.inr ⟨Bool.eq_false_iff.2 hsome, hsave⟩⟩

section History

variable {σ : Type} [LawfulArchive σ] {archive : σ}

/-- A batch fails when the archive refuses a request that is made of it as it was. -/
theorem refused_of_error {m : Market} {now : Int} {limit : Nat} {f : Failure}
    (h : run archive m now limit = .error f) :
    Archive.load archive Outcome.ongoing = .error f ∨
      ∃ ps, Archive.load archive Outcome.ongoing = .ok ps ∧
        Archive.save archive (advance m now limit ps).changed = .error f := by
  cases hload : Archive.load archive Outcome.ongoing with
  | error f' =>
      rw [run_of_load_error hload] at h
      cases h
      exact Or.inl rfl
  | ok ps =>
      rw [run_of_load_ok hload, keep] at h
      refine Or.inr ⟨ps, rfl, ?_⟩
      split at h
      · cases h
      · cases hsave : Archive.save archive (advance m now limit ps).changed with
        | error f' =>
            rw [hsave] at h
            cases h
            rfl
        | ok archive' =>
            rw [hsave] at h
            cases h

/-- What a batch that succeeds reports, and what the archive holds after it. -/
theorem contents_of_run_ok {archive' : σ} {m : Market} {now : Int} {limit : Nat} {r : Report}
    (h : run archive m now limit = .ok (r, archive')) :
    r = advance m now limit (ongoing (LawfulArchive.contents archive)) ∧
      ∀ id, (LawfulArchive.contents archive').get? id =
        (r.changed.get? id).or ((LawfulArchive.contents archive).get? id) := by
  obtain ⟨ps, hload, rfl, hkept⟩ := exists_of_run_ok h
  obtain rfl := load_ongoing hload
  refine ⟨rfl, fun id => ?_⟩
  rcases hkept with ⟨hnone, rfl⟩ | ⟨-, hsave⟩
  · rw [Keyed.get?_of_isEmpty hnone, Option.none_or]
  · exact LawfulArchive.get?_save hsave id

/-- **One batch moves everything forward** and leaves the archive with what it may hold. -/
theorem allMoveForward_after (m : Market) (now : Int) (limit : Nat)
    (h : IsSound (LawfulArchive.contents archive)) :
    IsSound (LawfulArchive.contents (after archive (run archive m now limit))) ∧
      AllMoveForward now (LawfulArchive.contents archive)
        (LawfulArchive.contents (after archive (run archive m now limit))) := by
  cases hrun : run archive m now limit with
  | error f => exact ⟨h, .refl now _⟩
  | ok done =>
      obtain ⟨r, archive'⟩ := done
      obtain ⟨rfl, hcontents⟩ := contents_of_run_ok hrun
      exact allMoveForward_of_changed h hcontents

/-- Whatever has happened, an archive has only what it may hold. -/
theorem isSound_of_reaches {b : σ} (h : Reaches archive b)
    (hsound : IsSound (LawfulArchive.contents archive)) : IsSound (LawfulArchive.contents b) := by
  induction h with
  | refl => exact hsound
  | batch m now limit _ ih => exact (allMoveForward_after m now limit ih).1
  | refusing _ hcontents ih => exact hcontents ▸ ih

/-- **What holds of every prediction that is held,** whatever has happened, if it did at first: what
becomes of one prediction alone has to keep it. -/
theorem forall_of_reaches {P : Prediction → Prop}
    (hkeeps : ∀ m now limit p, p.IsKept → P p → P (alone m now limit p).prediction) {b : σ}
    (h : Reaches archive b) (hsound : IsSound (LawfulArchive.contents archive))
    (hfirst : ∀ id p, (LawfulArchive.contents archive).get? id = some p → P p) :
    ∀ id p, (LawfulArchive.contents b).get? id = some p → P p := by
  induction h with
  | refl => exact hfirst
  | @batch b m now limit hreached ih =>
      have hsound' := isSound_of_reaches hreached hsound
      cases hrun : run b m now limit with
      | error f => exact ih
      | ok done =>
          obtain ⟨r, archive'⟩ := done
          obtain ⟨rfl, hcontents⟩ := contents_of_run_ok hrun
          intro id q hq
          rw [after, hcontents] at hq
          rcases Option.or_eq_some_iff.1 hq with hchanged | ⟨-, hold⟩
          · have hreport := isOfEachAlone_advance m now limit hsound'.isKeyedById.ongoing
            obtain ⟨p, hp, -, rfl, -⟩ := (hreport.changed id q).1 hchanged
            rw [ongoing, Keyed.get?_filter, Option.filter_eq_some_iff] at hp
            exact hkeeps m now _ p (hsound' id p hp.1).2 (ih id p hp.1)
          · exact ih id q hold
  | refusing _ hcontents ih => exact hcontents ▸ ih

/-- **What is held moves forward only.** In an archive that began with compiled predictions, every
batch after any history moves everything forward. If it fails, then because the archive refused a
request that was made of it as it was, and it is that still. -/
theorem held_moves_forward {b : σ} (hkeyed : IsKeyedById (LawfulArchive.contents archive))
    (hcompiled : ∀ p ∈ (LawfulArchive.contents archive).values, p.IsCompiled)
    (h : Reaches archive b) (m : Market) (now : Int) (limit : Nat) :
    AllMoveForward now (LawfulArchive.contents b)
        (LawfulArchive.contents (after b (run b m now limit))) ∧
      ∀ f, run b m now limit = .error f →
        after b (run b m now limit) = b ∧
          (Archive.load b Outcome.ongoing = .error f ∨
            ∃ ps, Archive.load b Outcome.ongoing = .ok ps ∧
              Archive.save b (advance m now limit ps).changed = .error f) := by
  have hsound : IsSound (LawfulArchive.contents archive) := by
    intro id p hp
    obtain ⟨hmem, hid⟩ := hkeyed.get?_eq_some_iff.1 hp
    exact ⟨hid, (hcompiled p hmem).isKept⟩
  refine ⟨(allMoveForward_after m now limit (isSound_of_reaches h hsound)).2, fun f hf => ?_⟩
  refine ⟨?_, refused_of_error hf⟩
  rw [hf]
  rfl

end History

/-- A prediction about one level, as an author writes it. -/
def oneLevelDraft : Draft where
  id := some "one-level"
  postedAt := "1970-01-01T00:00:00Z"
  reporter := ""
  postAuthor := ""
  postUrl := ""
  postText := ""
  given := .ofList [("high", ⟨"COIN:BINANCE:BTC-USDT > 3", none, none, some "1d", none⟩)]
  pre := none
  main := ⟨none, none, "high", false, false⟩

/-- The compiled prediction. -/
def oneLevel : Prediction :=
  (Compile.prediction oneLevelDraft ⟨0, 0⟩).toOption.getD Prediction.twoLevels

/-- An archive that holds it. -/
def oneShelved : Shelf :=
  .ofPredictions (.ofList [("one-level", oneLevel)])

/-- The archive after a batch, when it has begun to refuse writes. -/
def fullShelf : Shelf :=
  { after oneShelved (run oneShelved oneCandle 60 5) with writeFault := some "disk full" }

example : fullShelf.predictions.values.map (·.state) = [⟨.finished, 30, .correct⟩] := by
  decide +kernel

/-- A history of `oneShelved`, and a batch of an earlier second after it. -/
theorem fullShelf_moves_forward :
    IsKeyedById (LawfulArchive.contents oneShelved) ∧
      (∀ p ∈ (LawfulArchive.contents oneShelved).values, p.IsCompiled) ∧
      Reaches oneShelved fullShelf ∧
      AllMoveForward 10 fullShelf.predictions
        (after fullShelf (run fullShelf oneCandle 10 5)).predictions := by
  have hok : (Compile.prediction oneLevelDraft ⟨0, 0⟩).isOk = true := by decide +kernel
  have hcompiled : oneLevel.IsCompiled := by
    cases h : Compile.prediction oneLevelDraft ⟨0, 0⟩ with
    | error e => rw [h] at hok; cases hok
    | ok p => exact ⟨_, _, p, h, Or.inl (by rw [oneLevel, h]; rfl)⟩
  have hkeyed : IsKeyedById (LawfulArchive.contents oneShelved) := by decide +kernel
  have hall : ∀ p ∈ (LawfulArchive.contents oneShelved).values, p.IsCompiled :=
    List.forall_mem_singleton.2 hcompiled
  have hreached : Reaches oneShelved fullShelf :=
    .refusing (.batch oneCandle 60 5 .refl) rfl
  exact ⟨hkeyed, hall, hreached, (held_moves_forward hkeyed hall hreached oneCandle 10 5).1⟩

end Batch

end Forecast
