import Forecast.Archive
import Forecast.Proofs.Keyed.Merging

/-!
# What an Archive Promises

`Archive` says only which requests there are. What a batch relies on is the contract that goes with
them: an archive that hands something out hands out exactly what it holds of the outcomes asked for,
and one that takes predictions in holds all of them afterwards and all else as before. Either
request may be refused at any time, and what is refused changes nothing (`LawfulArchive`). An
archive is steady if nothing that it takes in makes it refuse what it would have handed out before
(`SteadyArchive`). The archive in memory keeps the contract and is steady. A database does as far as
it is given what it can hand out again.

`Recorded` puts a log of the predictions that were given to it beside any archive, so that it can be
said how often a batch writes, and what.
-/

namespace Forecast

/-- An archive that keeps its contract. -/
class LawfulArchive (σ : Type) extends Archive σ where
  /-- What the archive holds, under the names it was given. -/
  contents : σ → Keyed Prediction
  /-- What is handed out is what is held of the outcomes asked for. -/
  load_eq : ∀ {archive : σ} {outcomes : List Outcome} {ps : Keyed Prediction},
    Archive.load archive outcomes = .ok ps →
      ps = (contents archive).filter fun _ p => p.state.outcome.isAmong outcomes
  /-- What is taken in counts before what was held. -/
  get?_save : ∀ {archive archive' : σ} {ps : Keyed Prediction},
    Archive.save archive ps = .ok archive' →
      ∀ id, (contents archive').get? id = (ps.get? id).or ((contents archive).get? id)

instance : LawfulArchive Shelf where
  contents s := s.predictions
  load_eq {s outcomes ps} h := by
    change s.load outcomes = .ok ps at h
    rw [Shelf.load] at h
    cases hfault : s.readFault with
    | some reason => rw [hfault] at h; cases h
    | none => rw [hfault] at h; cases h; rfl
  get?_save {s s' ps} h id := by
    change s.save ps = .ok s' at h
    rw [Shelf.save] at h
    cases hfault : s.writeFault with
    | some reason => rw [hfault] at h; cases h
    | none =>
        rw [hfault] at h
        cases h
        exact Keyed.get?_foldl_insert ps.nodup_names s.predictions id

/-- An archive that hands something out after it has taken predictions in, if it did so before. -/
class SteadyArchive (σ : Type) extends LawfulArchive σ where
  exists_load : ∀ {archive archive' : σ} {ps qs : Keyed Prediction} {outcomes : List Outcome},
    Archive.save archive ps = .ok archive' → Archive.load archive outcomes = .ok qs →
      ∃ rs, Archive.load archive' outcomes = .ok rs

instance : SteadyArchive Shelf where
  exists_load {s s' ps qs outcomes} hsave hload := by
    change s.save ps = .ok s' at hsave
    change s.load outcomes = .ok qs at hload
    have hfault : s'.readFault = s.readFault := by
      rw [Shelf.save] at hsave
      cases hwrite : s.writeFault with
      | some reason => rw [hwrite] at hsave; cases hsave
      | none => rw [hwrite] at hsave; cases hsave; rfl
    change ∃ rs, s'.load outcomes = .ok rs
    rw [Shelf.load, hfault]
    rw [Shelf.load] at hload
    cases hread : s.readFault with
    | some reason => rw [hread] at hload; cases hload
    | none => exact ⟨_, rfl⟩

/-- The predictions that are not final. -/
def ongoing (ps : Keyed Prediction) : Keyed Prediction :=
  ps.filter fun _ p => !p.isFinal

/-- Asking for the ongoing outcomes is asking for what is not final. -/
theorem isAmong_ongoing (o : Outcome) : o.isAmong Outcome.ongoing = !o.isFinal := by
  cases o <;> rfl

/-- An archive that is asked for the ongoing predictions hands out exactly these. -/
theorem load_ongoing {σ : Type} [LawfulArchive σ] {archive : σ} {ps : Keyed Prediction}
    (h : Archive.load archive Outcome.ongoing = .ok ps) :
    ps = ongoing (LawfulArchive.contents archive) := by
  rw [LawfulArchive.load_eq h]
  simp only [isAmong_ongoing]
  rfl

/-- Whether every prediction is held under its own id. -/
def IsKeyedById (ps : Keyed Prediction) : Prop :=
  ∀ e ∈ ps.entries, e.1 = e.2.id

instance (ps : Keyed Prediction) : Decidable (IsKeyedById ps) :=
  inferInstanceAs (Decidable (∀ e ∈ ps.entries, e.1 = e.2.id))

/-- Predictions are held under their own ids if a look-up finds what it is asked for. -/
theorem isKeyedById_of_get? {ps : Keyed Prediction}
    (h : ∀ id p, ps.get? id = some p → p.id = id) : IsKeyedById ps :=
  fun e he => (h e.1 e.2 ((ps.mem_entries_iff e.1 e.2).1 he)).symm

namespace IsKeyedById

variable {ps : Keyed Prediction}

/-- Under an id there is the prediction with this id. -/
theorem get?_eq_some_iff (h : IsKeyedById ps) {id : String} {p : Prediction} :
    ps.get? id = some p ↔ p ∈ ps.values ∧ p.id = id := by
  rw [← Keyed.mem_entries_iff]
  constructor
  · intro hmem
    exact ⟨List.mem_map_of_mem hmem, (h _ hmem).symm⟩
  · rintro ⟨hmem, rfl⟩
    obtain ⟨e, he, rfl⟩ := List.mem_map.1 hmem
    exact h e he ▸ he

/-- No two predictions have the same id. -/
theorem nodup_ids (h : IsKeyedById ps) : (ps.values.map (·.id)).Nodup := by
  have hnames : ps.values.map (·.id) = ps.entries.map Prod.fst := by
    rw [Keyed.values, List.map_map]
    exact List.map_congr_left fun e he => (h e he).symm
  rw [hnames]
  exact ps.nodup_names

/-- Leaving predictions out keeps the others under their ids. -/
theorem ongoing (h : IsKeyedById ps) : IsKeyedById (ongoing ps) :=
  fun e he => h e (List.mem_filter.1 he).1

end IsKeyedById

/-- An archive with a log of what it was given to keep. -/
structure Recorded (σ : Type) where
  archive : σ
  /-- What was taken in, in order. -/
  saved : List (Keyed Prediction)

instance {σ : Type} [Archive σ] : Archive (Recorded σ) where
  load r outcomes := Archive.load r.archive outcomes
  save r ps := (Archive.save r.archive ps).map fun archive => ⟨archive, r.saved ++ [ps]⟩

/-- What is taken in is logged; what is refused is not. -/
theorem Recorded.save_eq {σ : Type} [Archive σ] (archive : σ) (saved : List (Keyed Prediction))
    (ps : Keyed Prediction) : Archive.save (Recorded.mk archive saved) ps =
      (Archive.save archive ps).map fun archive' => ⟨archive', saved ++ [ps]⟩ :=
  rfl

end Forecast
