import Forecast.Execution
import Forecast.Proofs.Batch.History
import Forecast.Proofs.Database.History
import Forecast.Proofs.Failure.Steps

/-!
# Batches over a Database

A database does not keep the contract of archives for whatever it is given: a prediction whose text
is not read back as the prediction is another one afterwards, or cannot be handed out at all. But it
is a ledger for predictions that are read back, and so is the context of a command, wherever its
database is. Both are of a class (`Ledgered`).

`Held` puts beside such an archive the ledger that it holds, and refuses what would not be read back.
What is held in this way is a lawful and steady archive, so that all that is known of batches over
lawful archives is known of it. It is also what happens: batches over the archive itself that change
only what is read back are the batches over what is held.

## Main results

* `Batch.runEach_held_iff`: batches over what is held are batches over the archive itself.
* `Context.allMoveForward_of_batch`: a batch of a command moves forward what its database holds.
-/

namespace Forecast

/-- An archive that hands out what a ledger does, as long as it takes in what is read back. -/
class Ledgered (σ : Type) extends Archive σ where
  /-- Whether an archive holds what a ledger does. -/
  Holds : σ → Ledger → Prop
  load_eq : ∀ {archive : σ} {ledger : Ledger}, Holds archive ledger → ∀ outcomes : List Outcome,
    Archive.load archive outcomes = .ok (ledger.filter fun _ p => p.state.outcome.isAmong outcomes)
  holds_save : ∀ {archive archive' : σ} {ledger : Ledger} {ps : Keyed Prediction},
    Holds archive ledger → (∀ p ∈ ps.values, p.IsReadBack) →
      Archive.save archive ps = .ok archive' → Holds archive' (Ledger.write ledger ps)

instance : Ledgered Database where
  Holds := Database.Holds
  load_eq := Database.Holds.load_eq
  holds_save := Database.Holds.save

/-- To write nothing leaves a ledger as it was. -/
theorem Ledger.write_of_isEmpty {ledger : Ledger} {ps : Keyed Prediction}
    (h : ps.isEmpty = true) : Ledger.write ledger ps = ledger := by
  refine Keyed.ext fun id => ?_
  rw [Ledger.get?_write, Keyed.get?_of_isEmpty h, Option.none_or]

/-- What is kept in a context is held by its database afterwards. -/
theorem Context.holds_save {c c' : Context} {ledger : Ledger} {ps : Keyed Prediction}
    (h : c.database.Holds ledger) (hread : ∀ p ∈ ps.values, p.IsReadBack)
    (hsave : c.save ps = .ok c') : c'.database.Holds (Ledger.write ledger ps) := by
  rw [Context.save.eq_def] at hsave
  split at hsave
  · split at hsave
    · next hempty =>
        cases hsave
        rwa [Ledger.write_of_isEmpty hempty]
    · cases hsave
  · obtain ⟨d, hd, rfl⟩ := map_eq_ok_iff.1 hsave
    exact h.save hread hd

instance : Ledgered Context where
  Holds c := c.database.Holds
  load_eq h := h.load_eq
  holds_save := Context.holds_save

/-! ### What is held -/

/-- An archive with the ledger that it holds. -/
@[ext]
structure Held (σ : Type) [Ledgered σ] where
  archive : σ
  ledger : Ledger
  holds : Ledgered.Holds archive ledger

namespace Held

variable {σ : Type} [Ledgered σ] {v v' : Held σ} {ps : Keyed Prediction}

/-- Takes in predictions if all of them are read back. -/
noncomputable def save (v : Held σ) (ps : Keyed Prediction) : Except Failure (Held σ) :=
  haveI := Classical.propDecidable (∀ p ∈ ps.values, p.IsReadBack)
  if hread : ∀ p ∈ ps.values, p.IsReadBack then
    match hsave : Archive.save v.archive ps with
    | .ok archive =>
      .ok ⟨archive, Ledger.write v.ledger ps, Ledgered.holds_save v.holds hread hsave⟩
    | .error f => .error f
  else .error (.serialization "a prediction would not be read back")

noncomputable instance : Archive (Held σ) := ⟨fun v => Archive.load v.archive, save⟩

theorem save_eq_ok_iff : v.save ps = .ok v' ↔ (∀ p ∈ ps.values, p.IsReadBack) ∧
    Archive.save v.archive ps = .ok v'.archive ∧ v'.ledger = Ledger.write v.ledger ps := by
  rw [save]
  split
  · next hread =>
      split
      · next archive hsave =>
          rw [Except.ok.injEq, Held.ext_iff, and_iff_right hread, hsave.congr_left,
            Except.ok.injEq, eq_comm (a := v'.ledger)]
      · next f hsave =>
          rw [hsave.congr_left]
          simp only [reduceCtorEq, false_and, and_false]
  · next hread => simp only [reduceCtorEq, hread, false_and]

/-- **What is held keeps the contract,** and nothing that it takes in makes it refuse a read. -/
noncomputable instance : SteadyArchive (Held σ) where
  contents v := v.ledger
  load_eq {v outcomes ps} h := by
    change Archive.load v.archive outcomes = .ok ps at h
    rw [Ledgered.load_eq v.holds] at h
    exact (Except.ok.inj h).symm
  get?_save {v v' ps} h id := by
    rw [(save_eq_ok_iff.1 h).2.2, Ledger.get?_write]
  exists_load {v v' ps qs outcomes} _ _ := ⟨_, Ledgered.load_eq v'.holds outcomes⟩

end Held

/-! ### Batches -/

namespace Batch

/-- What a batch is asked for. -/
structure Order where
  market : Market
  now : Int
  limit : Nat

/-- Batches over an archive, one after the other. The first that fails ends them. -/
def runEach {σ : Type} [Archive σ] (archive : σ) :
    List Order → Except Failure (List Report × σ)
  | [] => return ([], archive)
  | o :: os => do
    let (r, archive) ← run archive o.market o.now o.limit
    let (rs, archive) ← runEach archive os
    return (r :: rs, archive)

/-- Whether all that a batch has changed is read back. -/
def Report.IsReadBack (r : Report) : Prop :=
  ∀ p ∈ r.changed.values, p.IsReadBack

/-- Nothing that has changed is read back. -/
theorem Report.isReadBack_of_isEmpty {r : Report} (h : r.changed.isEmpty = true) :
    r.IsReadBack := by
  intro p hp
  rw [Keyed.values, List.isEmpty_iff.1 h] at hp
  cases hp

variable {σ : Type} [Ledgered σ] {m : Market} {now : Int} {limit : Nat}

/-- **A batch over what is held** is one over the archive itself that changes only what is read
back. -/
theorem run_held_iff {v : Held σ} {r : Report} {archive : σ} :
    (∃ v', run v m now limit = .ok (r, v') ∧ v'.archive = archive) ↔
      run v.archive m now limit = .ok (r, archive) ∧ r.IsReadBack := by
  constructor
  · rintro ⟨v', hrun, rfl⟩
    obtain ⟨ps, hload, rfl, hkept⟩ := exists_of_run_ok hrun
    change Archive.load v.archive Outcome.ongoing = .ok ps at hload
    rw [run_of_load_ok hload, keep]
    rcases hkept with ⟨hnone, rfl⟩ | ⟨hsome, hsave⟩
    · rw [if_pos hnone]
      exact ⟨rfl, Report.isReadBack_of_isEmpty hnone⟩
    · obtain ⟨hread, hsave, -⟩ := Held.save_eq_ok_iff.1 hsave
      rw [if_neg (Bool.eq_false_iff.1 hsome), hsave]
      exact ⟨rfl, hread⟩
  · rintro ⟨hrun, hread⟩
    obtain ⟨ps, hload, rfl, hkept⟩ := exists_of_run_ok hrun
    have hload' : Archive.load v Outcome.ongoing = .ok ps := hload
    rw [run_of_load_ok hload', keep]
    rcases hkept with ⟨hnone, rfl⟩ | ⟨hsome, hsave⟩
    · rw [if_pos hnone]
      exact ⟨v, rfl, rfl⟩
    · let v' : Held σ := ⟨archive, Ledger.write v.ledger (advance m now limit ps).changed,
        Ledgered.holds_save v.holds hread hsave⟩
      have hsave' : Archive.save v (advance m now limit ps).changed = .ok v' :=
        Held.save_eq_ok_iff.2 ⟨hread, hsave, rfl⟩
      rw [if_neg (Bool.eq_false_iff.1 hsome), hsave']
      exact ⟨v', rfl, rfl⟩

/-- Batches come to what the first of them comes to and what the others come to after it. -/
theorem runEach_cons_eq_ok_iff {τ : Type} [Archive τ] {o : Order} {os : List Order}
    {archive archive' : τ} {rs : List Report} : runEach archive (o :: os) = .ok (rs, archive') ↔
      ∃ r rest between, rs = r :: rest ∧ run archive o.market o.now o.limit = .ok (r, between) ∧
        runEach between os = .ok (rest, archive') := by
  rw [runEach]
  constructor
  · intro h
    obtain ⟨⟨r, between⟩, hrun, h⟩ := bind_eq_ok_iff.1 h
    obtain ⟨⟨rest, _⟩, hrest, h⟩ := bind_eq_ok_iff.1 h
    cases h
    exact ⟨r, rest, between, rfl, hrun, hrest⟩
  · rintro ⟨r, rest, between, rfl, hrun, hrest⟩
    exact bind_eq_ok_iff.2 ⟨_, hrun, bind_eq_ok_iff.2 ⟨_, hrest, rfl⟩⟩

/-- **So are any number of batches,** one after the other. -/
theorem runEach_held_iff {os : List Order} {v : Held σ} {rs : List Report} {archive : σ} :
    (∃ v', runEach v os = .ok (rs, v') ∧ v'.archive = archive) ↔
      runEach v.archive os = .ok (rs, archive) ∧ ∀ r ∈ rs, r.IsReadBack := by
  induction os generalizing v rs with
  | nil =>
      constructor
      · rintro ⟨v', h, rfl⟩
        cases h
        exact ⟨rfl, List.forall_mem_nil _⟩
      · rintro ⟨h, -⟩
        cases h
        exact ⟨v, rfl, rfl⟩
  | cons o os ih =>
      simp only [runEach_cons_eq_ok_iff]
      constructor
      · rintro ⟨v', ⟨r, rest, between, rfl, hrun, hrest⟩, hsame⟩
        obtain ⟨hfirst, hread⟩ := run_held_iff.1 ⟨between, hrun, rfl⟩
        obtain ⟨hlater, hreadLater⟩ := ih.1 ⟨v', hrest, hsame⟩
        exact ⟨⟨r, rest, _, rfl, hfirst, hlater⟩, List.forall_mem_cons.2 ⟨hread, hreadLater⟩⟩
      · rintro ⟨⟨r, rest, between, rfl, hrun, hrest⟩, hread⟩
        obtain ⟨hreadFirst, hreadLater⟩ := List.forall_mem_cons.1 hread
        obtain ⟨v₁, hfirst, rfl⟩ := run_held_iff.2 ⟨hrun, hreadFirst⟩
        obtain ⟨v', hlater, hsame⟩ := ih.2 ⟨hrest, hreadLater⟩
        exact ⟨v', ⟨r, rest, v₁, rfl, hfirst, hlater⟩, hsame⟩

/-- What becomes of a lawful archive by batches that succeed is reached. -/
theorem Reaches.runEach {τ : Type} [LawfulArchive τ] {os : List Order} {first archive archive' : τ}
    {rs : List Report} (hreached : Reaches first archive)
    (hrun : runEach archive os = .ok (rs, archive')) : Reaches first archive' := by
  induction os generalizing archive rs with
  | nil =>
      cases hrun
      exact hreached
  | cons o os ih =>
      obtain ⟨r, rest, between, rfl, hfirst, hrest⟩ := runEach_cons_eq_ok_iff.1 hrun
      have hnext := hreached.batch o.market o.now o.limit
      rw [hfirst] at hnext
      exact ih hnext hrest

/-! ### What an archive holds after batches -/

section Holding

variable {archive archive' : σ} {ledger : Ledger} (h : Ledgered.Holds archive ledger)
  (hsound : IsSound ledger)
include h hsound

/-- A batch that changes only what is read back reports what one over the ledger does, and moves
forward what is held. -/
theorem allMoveForward_of_holds {r : Report} (hrun : run archive m now limit = .ok (r, archive'))
    (hread : r.IsReadBack) : r = advance m now limit (ongoing ledger) ∧
      ∃ ledger', Ledgered.Holds archive' ledger' ∧ IsSound ledger' ∧
        AllMoveForward now ledger ledger' := by
  obtain ⟨v', hv', rfl⟩ := run_held_iff (v := ⟨archive, ledger, h⟩).2 ⟨hrun, hread⟩
  obtain ⟨rfl, hcontents⟩ := contents_of_run_ok hv'
  exact ⟨rfl, v'.ledger, v'.holds, allMoveForward_of_changed hsound hcontents⟩

/-- After any number of such batches an archive holds a ledger of predictions that may be held. -/
theorem exists_holds_of_runEach {os : List Order} {rs : List Report}
    (hrun : runEach archive os = .ok (rs, archive')) (hread : ∀ r ∈ rs, r.IsReadBack) :
    ∃ ledger', Ledgered.Holds archive' ledger' ∧ IsSound ledger' := by
  obtain ⟨v', hv', rfl⟩ := (runEach_held_iff (v := ⟨archive, ledger, h⟩)).2 ⟨hrun, hread⟩
  exact ⟨v'.ledger, v'.holds, isSound_of_reaches (Reaches.refl.runEach hv') hsound⟩

end Holding

end Batch

/-- **A batch of a command** is of this kind: if what it changes is read back, its report is that of a
batch over what the database of the command holds, and that moves forward. -/
theorem Context.allMoveForward_of_batch {env : Environment} {now : Calendar.Instant}
    {c c' : Context} {ledger : Ledger} (h : c.database.Holds ledger) (hsound : Batch.IsSound ledger)
    {r : Batch.Report} (hbatch : c.batch env now = .ok (r, c')) (hread : r.IsReadBack) :
    r = Batch.advance (c.market env) now.seconds c.setup.limit (ongoing ledger) ∧
      ∃ ledger', c'.database.Holds ledger' ∧ Batch.IsSound ledger' ∧
        Batch.AllMoveForward now.seconds ledger ledger' :=
  Batch.allMoveForward_of_holds h hsound hbatch hread

end Forecast
