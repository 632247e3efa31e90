import Mathlib.Data.List.Perm.Basic
import Forecast.Batch
import Forecast.Proofs.Archive.Contract
import Forecast.Proofs.Session.Pass
import Forecast.Proofs.Session.Steps

/-!
# Predictions of a Batch Are Brought Forward Independently

A batch lets its sessions take their passes in turn, sets those that have ended aside after every
round, and stops at a common limit. All this comes to draining each session on its own, up to the
same limit (`Batch.alone`): the sessions and errors of a batch are those of its predictions alone,
in some order, and it makes as many passes as the longest of them. So what becomes of a prediction
depends on no other prediction of the batch.

## Convention

A prediction has changed when it is no longer equal to what it was, in the sense in which
predictions are compared, where a price that is not a number differs from itself. One that cannot be
begun has not changed in any case.

## Main results

* `Batch.isDrained_run`: taking turns is draining, up to the order.
* `Batch.isOfEachAlone_advance`: what a batch reports of its predictions.
-/

namespace Forecast

open scoped List

/-! ### One session -/

namespace Session

/-- How many passes a session takes until it ends, at most `limit`. -/
def drainPasses (m : Market) : (limit : Nat) → Session → Nat
  | 0, _ => 0
  | limit + 1, s => if s.inactive then 0 else drainPasses m limit (s.pass m).session + 1

variable {m : Market} {s : Session}

/-- A session that has ended takes no passes. -/
theorem drainPasses_of_inactive (limit : Nat) (h : s.inactive = true) :
    s.drainPasses m limit = 0 := by
  cases limit with
  | zero => rfl
  | succ limit => rw [drainPasses, if_pos h]

/-- An active session takes a pass more than what comes of it. -/
theorem drainPasses_succ (limit : Nat) (h : s.inactive = false) :
    s.drainPasses m (limit + 1) = (s.pass m).session.drainPasses m limit + 1 := by
  rw [drainPasses, if_neg (Bool.eq_false_iff.1 h)]

end Session

namespace Batch

/-! ### Largest numbers -/

/-- The largest of some numbers, 0 if there are none. -/
def most (ns : List Nat) : Nat :=
  ns.foldr max 0

variable {α β : Type}

/-- Adding one to each of some numbers adds one to the largest. -/
theorem most_map_succ (f : α → Nat) {xs : List α} (h : xs ≠ []) :
    most (xs.map fun x => f x + 1) = most (xs.map f) + 1 := by
  induction xs with
  | nil => exact absurd rfl h
  | cons x xs ih =>
      rw [most, List.map_cons, List.map_cons, List.foldr_cons, most, List.foldr_cons]
      cases xs with
      | nil =>
          rw [List.map_nil, List.map_nil, List.foldr_nil]
          omega
      | cons y ys =>
          have hrest := ih (List.cons_ne_nil y ys)
          rw [most, most] at hrest
          omega

/-- What counts nothing may be left out of a maximum. -/
theorem most_map_filter {f : α → Nat} {keep : α → Bool} (h : ∀ x, keep x = false → f x = 0)
    (xs : List α) : most ((xs.filter keep).map f) = most (xs.map f) := by
  induction xs with
  | nil => rfl
  | cons x xs ih =>
      rw [most] at ih
      rw [most, most, List.map_cons, List.foldr_cons]
      cases hx : keep x with
      | true =>
          rw [List.filter_cons_of_pos hx, List.map_cons, List.foldr_cons, ih, most]
      | false =>
          rw [List.filter_cons_of_neg (Bool.eq_false_iff.1 hx), ih, h x hx, Nat.zero_max, most]

/-- What gives nothing may be left out of a concatenation. -/
theorem flatMap_filter {f : α → List β} {keep : α → Bool} (h : ∀ x, keep x = false → f x = [])
    (xs : List α) : (xs.filter keep).flatMap f = xs.flatMap f := by
  induction xs with
  | nil => rfl
  | cons x xs ih =>
      rw [List.flatMap_cons]
      cases hx : keep x with
      | true => rw [List.filter_cons_of_pos hx, List.flatMap_cons, ih]
      | false => rw [List.filter_cons_of_neg (Bool.eq_false_iff.1 hx), ih, h x hx, List.nil_append]

/-! ### The sessions of a batch -/

variable {m : Market}

/-- The sessions that a round of passes leads to. -/
def passed (m : Market) (t : Tally) : List Session :=
  t.active.map fun s => (s.pass m).session

/-- A round of passes sets the sessions aside that have ended. -/
theorem advance_eq (t : Tally) :
    t.advance m =
      { passes := t.passes + 1
        errors := t.errors ++ t.active.flatMap fun s => (s.pass m).errors
        opened := t.opened ++ t.active.flatMap fun s => (s.pass m).opened
        ended := t.ended ++ (passed m t).filter (·.inactive)
        active := (passed m t).filter (!·.inactive) } := by
  rw [Tally.advance]
  simp only [List.partition_eq_filter_filter, List.map_map, List.flatMap_map]
  rfl

/-- What draining every active session of a tally on its own leads to. -/
structure IsDrained (m : Market) (limit : Nat) (t t' : Tally) : Prop where
  sessions : t'.sessions ~ t.ended ++ t.active.map fun s => (s.drain m limit).1
  errors : t'.errors ~ t.errors ++ t.active.flatMap fun s => (s.drain m limit).2
  passes : t'.passes = t.passes + most (t.active.map fun s => s.drainPasses m limit)

section Advance

variable {limit : Nat} {t t' : Tally}

/-- What is found of the sessions after a round is found of the active sessions before it. -/
theorem map_passed (hactive : ∀ s ∈ t.active, s.inactive = false) {f g : Session → α}
    (h : ∀ s, s.inactive = false → g s = f (s.pass m).session) :
    (passed m t).map f = t.active.map g := by
  rw [passed, List.map_map]
  exact List.map_congr_left fun s hs => (h s (hactive s hs)).symm

/-- A round and draining afterwards loses no session. -/
theorem sessions_of_advance (hactive : ∀ s ∈ t.active, s.inactive = false)
    (h : IsDrained m limit (t.advance m) t') :
    t'.sessions ~ t.ended ++ t.active.map fun s => (s.drain m (limit + 1)).1 := by
  have hrest := h.sessions
  rw [advance_eq] at hrest
  have hended : ((passed m t).filter (·.inactive)).map (fun s => (s.drain m limit).1) =
      (passed m t).filter (·.inactive) := by
    refine (List.map_congr_left fun s hs => ?_).trans (List.map_id _)
    rw [Session.drain_of_inactive limit (List.mem_filter.1 hs).2]
    rfl
  have hpassed : (passed m t).map (fun s => (s.drain m limit).1) =
      t.active.map fun s => (s.drain m (limit + 1)).1 :=
    map_passed hactive fun s hs => by rw [Session.drain_succ limit hs]
  calc
    t'.sessions ~ (t.ended ++ (passed m t).filter (·.inactive)) ++
        ((passed m t).filter (!·.inactive)).map fun s => (s.drain m limit).1 := hrest
    _ = t.ended ++ ((passed m t).filter (·.inactive) ++
        (passed m t).filter (!·.inactive)).map fun s => (s.drain m limit).1 := by
          rw [List.map_append, hended, List.append_assoc]
    _ ~ t.ended ++ (passed m t).map fun s => (s.drain m limit).1 :=
          ((List.filter_append_perm _ _).map _).append_left _
    _ = t.ended ++ t.active.map fun s => (s.drain m (limit + 1)).1 := by rw [hpassed]

/-- A round and draining afterwards reports every error once. -/
theorem errors_of_advance (hactive : ∀ s ∈ t.active, s.inactive = false)
    (h : IsDrained m limit (t.advance m) t') :
    t'.errors ~ t.errors ++ t.active.flatMap fun s => (s.drain m (limit + 1)).2 := by
  have hrest := h.errors
  rw [advance_eq] at hrest
  have hended : ∀ s : Session, (!s.inactive) = false → (s.drain m limit).2 = [] := by
    intro s hs
    rw [Session.drain_of_inactive limit (Bool.not_eq_false' .. ▸ hs)]
  have hpassed : (passed m t).flatMap (fun s => (s.drain m limit).2) =
      t.active.flatMap fun s => ((s.pass m).session.drain m limit).2 := by
    rw [passed, List.flatMap_map]
  have hsplit : (t.active.flatMap fun s =>
      (s.pass m).errors ++ ((s.pass m).session.drain m limit).2) =
      t.active.flatMap fun s => (s.drain m (limit + 1)).2 := by
    refine List.flatMap_congr fun s hs => ?_
    rw [Session.drain_succ limit (hactive s hs)]
  calc
    t'.errors ~ (t.errors ++ t.active.flatMap fun s => (s.pass m).errors) ++
        ((passed m t).filter (!·.inactive)).flatMap fun s => (s.drain m limit).2 := hrest
    _ = t.errors ++ ((t.active.flatMap fun s => (s.pass m).errors) ++
        t.active.flatMap fun s => ((s.pass m).session.drain m limit).2) := by
          rw [flatMap_filter hended, hpassed, List.append_assoc]
    _ ~ t.errors ++ t.active.flatMap fun s =>
        (s.pass m).errors ++ ((s.pass m).session.drain m limit).2 :=
          (List.flatMap_append_perm _ _ _).append_left _
    _ = t.errors ++ t.active.flatMap fun s => (s.drain m (limit + 1)).2 := by rw [hsplit]

/-- A round and draining afterwards takes as many passes as the longest session does. -/
theorem passes_of_advance (hactive : ∀ s ∈ t.active, s.inactive = false) (hne : t.active ≠ [])
    (h : IsDrained m limit (t.advance m) t') :
    t'.passes = t.passes + most (t.active.map fun s => s.drainPasses m (limit + 1)) := by
  have hrest := h.passes
  rw [advance_eq] at hrest
  dsimp only at hrest
  have hended : ∀ s : Session, (!s.inactive) = false → s.drainPasses m limit = 0 :=
    fun s hs => Session.drainPasses_of_inactive limit (Bool.not_eq_false' .. ▸ hs)
  have hpassed : (passed m t).map (fun s => s.drainPasses m limit) =
      t.active.map fun s => (s.pass m).session.drainPasses m limit := by
    rw [passed, List.map_map]
    rfl
  have hsucc : (t.active.map fun s => s.drainPasses m (limit + 1)) =
      t.active.map fun s => (s.pass m).session.drainPasses m limit + 1 :=
    List.map_congr_left fun s hs => Session.drainPasses_succ limit (hactive s hs)
  rw [most_map_filter hended, hpassed] at hrest
  rw [hsucc, most_map_succ _ hne]
  omega

/-- Without passes every session stays as it is. -/
theorem isDrained_zero (t : Tally) : IsDrained m 0 t t where
  sessions := by
    rw [List.map_congr_left fun s _ => show (s.drain m 0).1 = id s from rfl, List.map_id]
    exact .refl _
  errors := by
    have hnone : (t.active.flatMap fun s => (s.drain m 0).2) = [] :=
      List.flatMap_eq_nil_iff.2 fun _ _ => rfl
    rw [hnone, List.append_nil]
  passes := by
    have hnone := @most_map_filter Session (fun s => s.drainPasses m 0) (fun _ => false)
      (fun _ _ => rfl) t.active
    rw [List.filter_false] at hnone
    rw [← hnone]
    rfl

/-- Nothing is left to do once no session is active. -/
theorem isDrained_of_ended (limit : Nat) (hended : t.active = []) : IsDrained m limit t t where
  sessions := by rw [Tally.sessions, hended, List.map_nil]
  errors := by rw [hended, List.flatMap_nil, List.append_nil]
  passes := by rw [hended]; rfl

/-- **Taking turns is draining,** up to the order: all active sessions of a tally end up as if each
was alone. -/
theorem isDrained_run (limit : Nat) {t : Tally} (hactive : ∀ s ∈ t.active, s.inactive = false) :
    IsDrained m limit t (t.run m limit) := by
  induction limit generalizing t with
  | zero => exact isDrained_zero t
  | succ limit ih =>
      rw [Tally.run]
      split
      · next hended => exact isDrained_of_ended _ (List.isEmpty_iff.1 hended)
      · next hne =>
          have hrest : IsDrained m limit (t.advance m) ((t.advance m).run m limit) := by
            refine ih fun s hs => ?_
            rw [advance_eq] at hs
            exact Bool.not_eq_true' .. ▸ (List.mem_filter.1 hs).2
          exact ⟨sessions_of_advance hactive hrest, errors_of_advance hactive hrest,
            passes_of_advance hactive (mt List.isEmpty_iff.2 hne) hrest⟩

end Advance

/-! ### Predictions alone -/

/-- What becomes of a prediction on its own. -/
structure Solo where
  /-- Whether a session could be begun. -/
  begun : Bool
  prediction : Prediction
  errors : List RunError
  passes : Nat

/-- Brings a prediction forward on its own. One that cannot be begun stays as it is. -/
def alone (m : Market) (now : Int) (limit : Nat) (p : Prediction) : Solo :=
  match Session.start m p now with
  | .error e => ⟨false, p, [e], 0⟩
  | .ok s =>
    let (s', errors) := s.drain m limit
    ⟨true, s'.prediction, errors, s.drainPasses m limit⟩

section Begin

variable {now : Int} {limit : Nat}

theorem alone_of_error {p : Prediction} {e : RunError} (h : Session.start m p now = .error e) :
    alone m now limit p = ⟨false, p, [e], 0⟩ := by
  rw [alone, h]

theorem alone_of_ok {p : Prediction} {s : Session} (h : Session.start m p now = .ok s) :
    alone m now limit p =
      ⟨true, (s.drain m limit).1.prediction, (s.drain m limit).2, s.drainPasses m limit⟩ := by
  rw [alone, h]

theorem begin_cons_of_error {p : Prediction} {e : RunError} (ps : List Prediction)
    (h : Session.start m p now = .error e) :
    begin m now (p :: ps) = (e :: (begin m now ps).1, (begin m now ps).2) := by
  rw [begin, h]

theorem begin_cons_of_ok {p : Prediction} {s : Session} (ps : List Prediction)
    (h : Session.start m p now = .ok s) :
    begin m now (p :: ps) = ((begin m now ps).1, s :: (begin m now ps).2) := by
  rw [begin, h]

/-- The sessions of a batch are those of the predictions that can be begun. -/
theorem mem_begin_iff {ps : List Prediction} {s : Session} :
    s ∈ (begin m now ps).2 ↔ ∃ p ∈ ps, Session.start m p now = .ok s := by
  induction ps with
  | nil =>
      refine ⟨fun h => absurd h List.not_mem_nil, ?_⟩
      rintro ⟨p, hp, -⟩
      exact absurd hp List.not_mem_nil
  | cons p ps ih =>
      rw [List.exists_mem_cons_iff]
      cases hstart : Session.start m p now with
      | error e =>
          rw [begin_cons_of_error ps hstart, ih]
          exact ⟨Or.inr, fun h => h.resolve_left (by rintro ⟨⟩)⟩
      | ok s' =>
          rw [begin_cons_of_ok ps hstart, List.mem_cons, ih, Except.ok.injEq, eq_comm]

/-- The ids of the sessions of a batch are among those of its predictions, in their order. -/
theorem sublist_begin (ps : List Prediction) :
    ((begin m now ps).2.map (·.prediction.id)).Sublist (ps.map (·.id)) := by
  induction ps with
  | nil => exact .slnil
  | cons p ps ih =>
      cases hstart : Session.start m p now with
      | error e =>
          rw [begin_cons_of_error ps hstart]
          exact ih.cons _
      | ok s =>
          obtain rfl := Session.start_eq_ok hstart
          rw [begin_cons_of_ok ps hstart]
          exact ih.cons_cons _

/-- Every error of the predictions alone comes up in the batch. -/
theorem errors_begin (ps : List Prediction) :
    ((begin m now ps).1 ++ (begin m now ps).2.flatMap fun s => (s.drain m limit).2) ~
      ps.flatMap fun p => (alone m now limit p).errors := by
  induction ps with
  | nil => exact .refl _
  | cons p ps ih =>
      rw [List.flatMap_cons]
      cases hstart : Session.start m p now with
      | error e =>
          rw [begin_cons_of_error ps hstart, alone_of_error hstart]
          exact ih.cons e
      | ok s =>
          rw [begin_cons_of_ok ps hstart, alone_of_ok hstart, List.flatMap_cons]
          exact (List.perm_append_comm_assoc _ _ _).trans (ih.append_left _)

/-- The longest session of a batch is the longest of the predictions alone. -/
theorem most_begin (ps : List Prediction) :
    most ((begin m now ps).2.map fun s => s.drainPasses m limit) =
      most (ps.map fun p => (alone m now limit p).passes) := by
  induction ps with
  | nil => rfl
  | cons p ps ih =>
      rw [most] at ih
      rw [List.map_cons, most, most, List.foldr_cons]
      cases hstart : Session.start m p now with
      | error e =>
          rw [begin_cons_of_error ps hstart, alone_of_error hstart, ih, Nat.zero_max, most]
      | ok s =>
          rw [begin_cons_of_ok ps hstart, alone_of_ok hstart, List.map_cons, List.foldr_cons, ih,
            most]

/-- A drained session is still about the prediction that it began with. -/
theorem id_drain {p : Prediction} {s : Session} (h : Session.start m p now = .ok s) :
    (s.drain m limit).1.prediction.id = p.id := by
  rw [(Session.drain_advances m limit (Session.isBounded_start h)).runs.frame,
    Session.start_eq_ok h]

/-- What a prediction becomes in its session is what becomes of it alone. -/
theorem exists_changed_iff {p q : Prediction} :
    (∃ s, Session.start m p now = .ok s ∧ (s.drain m limit).1.hasChanged = true ∧
        (s.drain m limit).1.prediction = q) ↔
      (alone m now limit p).begun = true ∧ (alone m now limit p).prediction = q ∧
        (q != p) = true := by
  cases hstart : Session.start m p now with
  | error e =>
      rw [alone_of_error hstart]
      constructor
      · rintro ⟨s, ⟨⟩, -⟩
      · rintro ⟨⟨⟩, -⟩
  | ok s =>
      have hinitial : (s.drain m limit).1.initial = p := by
        rw [(Session.drain_advances m limit (Session.isBounded_start hstart)).initial,
          Session.start_eq_ok hstart]
      rw [alone_of_ok hstart]
      constructor
      · rintro ⟨s', hs', hchanged, rfl⟩
        cases hs'
        rw [Session.hasChanged, hinitial] at hchanged
        exact ⟨rfl, rfl, hchanged⟩
      · rintro ⟨-, rfl, hne⟩
        rw [← hinitial] at hne
        exact ⟨s, rfl, hne, rfl⟩

end Begin

/-- The changes of sessions about different predictions are the predictions that have changed. -/
theorem get?_changes_iff {ss : List Session} (h : (ss.map (·.prediction.id)).Nodup) {id : String}
    {q : Prediction} :
    (changes ss).get? id = some q ↔
      ∃ s ∈ ss, s.hasChanged = true ∧ s.prediction = q ∧ q.id = id := by
  have hnames : (((ss.filter Session.hasChanged).map
      fun s => (s.prediction.id, s.prediction)).map Prod.fst).Nodup := by
    rw [List.map_map]
    exact h.sublist (List.filter_sublist.map _)
  rw [changes, Keyed.get?_ofList_eq_some_iff hnames, List.mem_map]
  constructor
  · rintro ⟨s, hs, heq⟩
    obtain ⟨hid, rfl⟩ := Prod.ext_iff.1 heq
    obtain ⟨hmem, hchanged⟩ := List.mem_filter.1 hs
    exact ⟨s, hmem, hchanged, rfl, hid⟩
  · rintro ⟨s, hmem, hchanged, rfl, rfl⟩
    exact ⟨s, List.mem_filter.2 ⟨hmem, hchanged⟩, rfl⟩

/-- The changes of drained sessions, in any order, are the predictions that have changed alone. -/
theorem get?_changes_drained_iff {m : Market} {now : Int} {limit : Nat} {ps : Keyed Prediction}
    (hkeyed : IsKeyedById ps) {ss : List Session}
    (hss : ss ~ (begin m now ps.values).2.map fun s => (s.drain m limit).1) {id : String}
    {q : Prediction} :
    (changes ss).get? id = some q ↔ ∃ p, ps.get? id = some p ∧
      (alone m now limit p).begun = true ∧ (alone m now limit p).prediction = q ∧
        (q != p) = true := by
  have hids : ((begin m now ps.values).2.map fun s => (s.drain m limit).1).map
      (·.prediction.id) = (begin m now ps.values).2.map (·.prediction.id) := by
    rw [List.map_map]
    refine List.map_congr_left fun s hs => ?_
    obtain ⟨p, -, hstart⟩ := mem_begin_iff.1 hs
    exact (id_drain hstart).trans (congrArg (·.prediction.id) (Session.start_eq_ok hstart)).symm
  have hnodup : (ss.map (·.prediction.id)).Nodup := by
    refine (hss.map _).nodup_iff.2 ?_
    rw [hids]
    exact hkeyed.nodup_ids.sublist (sublist_begin ps.values)
  rw [get?_changes_iff hnodup]
  constructor
  · rintro ⟨s', hs', hchanged, hq, hid⟩
    obtain ⟨s, hs, rfl⟩ := List.mem_map.1 (hss.mem_iff.1 hs')
    obtain ⟨p, hp, hstart⟩ := mem_begin_iff.1 hs
    have hpid : p.id = id := by rw [← hid, ← hq, id_drain hstart]
    exact ⟨p, hkeyed.get?_eq_some_iff.2 ⟨hp, hpid⟩,
      exists_changed_iff.1 ⟨s, hstart, hchanged, hq⟩⟩
  · rintro ⟨p, hp, hchanged⟩
    obtain ⟨hp, hid⟩ := hkeyed.get?_eq_some_iff.1 hp
    obtain ⟨s, hstart, hchanged, hq⟩ := exists_changed_iff.2 hchanged
    have hs := List.mem_map_of_mem (f := fun s => (s.drain m limit).1)
      (mem_begin_iff.2 ⟨p, hp, hstart⟩)
    exact ⟨_, hss.mem_iff.2 hs, hchanged, hq, by rw [← hid, ← hq, id_drain hstart]⟩

/-! ### Batches -/

/-- What a report says if every prediction was brought forward on its own. -/
structure Report.IsOfEachAlone (m : Market) (now : Int) (limit : Nat) (ps : Keyed Prediction)
    (r : Report) : Prop where
  loaded : r.loaded = ps.size
  changed : ∀ id q, r.changed.get? id = some q ↔ ∃ p, ps.get? id = some p ∧
    (alone m now limit p).begun = true ∧ (alone m now limit p).prediction = q ∧ (q != p) = true
  errors : r.errors ~ ps.values.flatMap fun p => (alone m now limit p).errors
  passes : r.passes = most (ps.values.map fun p => (alone m now limit p).passes)

/-- **A batch brings every prediction forward on its own.** -/
theorem isOfEachAlone_advance (m : Market) (now : Int) (limit : Nat) {ps : Keyed Prediction}
    (hkeyed : IsKeyedById ps) :
    (advance m now limit ps).IsOfEachAlone m now (max limit 1) ps := by
  have hactive : ∀ s ∈ (begin m now ps.values).2, s.inactive = false := by
    intro s hs
    obtain ⟨p, -, hstart⟩ := mem_begin_iff.1 hs
    rw [Session.start_eq_ok hstart]
  have hdrained := isDrained_run (m := m) (max limit 1)
    (t := ⟨0, (begin m now ps.values).1, [], [], (begin m now ps.values).2⟩) hactive
  have hsessions := hdrained.sessions
  rw [List.nil_append] at hsessions
  rw [advance]
  refine ⟨rfl, fun id q => get?_changes_drained_iff hkeyed hsessions,
    hdrained.errors.trans (errors_begin ps.values), ?_⟩
  rw [← most_begin]
  exact hdrained.passes.trans (Nat.zero_add _)

section Run

variable {σ : Type} [Archive σ] {archive : σ}

/-- An archive that refuses to be read ends a batch. -/
theorem run_of_load_error {f : Failure} (h : Archive.load archive Outcome.ongoing = .error f)
    (m : Market) (now : Int) (limit : Nat) : run archive m now limit = .error f := by
  rw [run, h]
  rfl

/-- A batch over what an archive hands out keeps what it has changed. -/
theorem run_of_load_ok {ps : Keyed Prediction} (h : Archive.load archive Outcome.ongoing = .ok ps)
    (m : Market) (now : Int) (limit : Nat) :
    run archive m now limit = (keep archive (advance m now limit ps)).map
      fun archive' => (advance m now limit ps, archive') := by
  rw [run, h]
  cases hkeep : keep archive (advance m now limit ps) with
  | error f =>
      simp only [bind, Except.bind, hkeep]
      rfl
  | ok archive' =>
      simp only [bind, Except.bind, hkeep]
      rfl

end Run

/-- **A batch is the independent draining of its predictions, kept once.** An archive that refuses
to be read ends it. Otherwise it reports of the ongoing predictions what becomes of each alone, and
gives the archive what has changed, in one go, unless nothing has. -/
theorem run_eq_each_alone {σ : Type} [LawfulArchive σ] (archive : σ)
    (saved : List (Keyed Prediction)) (m : Market) (now : Int) {limit : Nat} (hlimit : 1 ≤ limit)
    (hkeyed : IsKeyedById (LawfulArchive.contents archive)) :
    (∀ f, Archive.load archive Outcome.ongoing = .error f →
      run (Recorded.mk archive saved) m now limit = .error f) ∧
    ∀ ps, Archive.load archive Outcome.ongoing = .ok ps →
      ∃ r : Report, r.IsOfEachAlone m now limit (ongoing (LawfulArchive.contents archive)) ∧
        run (Recorded.mk archive saved) m now limit =
          if r.changed.isEmpty then .ok (r, ⟨archive, saved⟩)
          else (Archive.save archive r.changed).map
            fun archive' => (r, ⟨archive', saved ++ [r.changed]⟩) := by
  constructor
  · intro f hload
    have hload' : Archive.load (Recorded.mk archive saved) Outcome.ongoing = .error f := hload
    exact run_of_load_error hload' m now limit
  · intro ps hload
    obtain rfl := load_ongoing hload
    have hload' : Archive.load (Recorded.mk archive saved) Outcome.ongoing =
        .ok (ongoing (LawfulArchive.contents archive)) := hload
    have hreport := isOfEachAlone_advance m now limit hkeyed.ongoing
    rw [Nat.max_eq_left hlimit] at hreport
    refine ⟨_, hreport, ?_⟩
    rw [run_of_load_ok hload', keep]
    split
    · rfl
    · rw [Recorded.save_eq]
      cases Archive.save archive _ <;> rfl

/-- A market with one candle of the coin of `twoLevels`, which reaches the upper level. -/
def oneCandle : Market where
  providers := ["BINANCE"]
  interval := 60
  source _ _ := .ok [.ok ⟨0, 2, 5, 2, 5, 1⟩]

/-- `twoLevels` for a provider that `oneCandle` does not serve. -/
def elsewhere : Prediction :=
  { Prediction.twoLevels with
    id := "elsewhere"
    given := Prediction.twoLevels.given.map fun c =>
      { c with operands := [.market (.coin "KRAKEN" "BTC" "USDT"), .number 3] } }

/-- An archive that holds both predictions. -/
def twoShelved : Shelf :=
  .ofPredictions (.ofList [("two-levels", Prediction.twoLevels), ("elsewhere", elsewhere)])

example :
    (run twoShelved oneCandle 60 5).toOption.map (fun done : Report × Shelf =>
      (done.1.loaded, done.1.passes, done.1.errors.map RunError.id,
        done.1.resolved.map Prediction.id)) = some (2, 3, ["elsewhere"], ["two-levels"]) := by
  decide +kernel

/-- A batch over `twoShelved`. -/
theorem run_twoShelved :
    1 ≤ 5 ∧ IsKeyedById (LawfulArchive.contents twoShelved) ∧
      ∃ r : Report, r.IsOfEachAlone oneCandle 60 5 (ongoing (LawfulArchive.contents twoShelved)) ∧
        run (Recorded.mk twoShelved []) oneCandle 60 5 =
          if r.changed.isEmpty then .ok (r, ⟨twoShelved, []⟩)
          else (Archive.save twoShelved r.changed).map
            fun archive' => (r, ⟨archive', [r.changed]⟩) := by
  have hkeyed : IsKeyedById (LawfulArchive.contents twoShelved) := by decide +kernel
  exact ⟨by decide, hkeyed,
    (run_eq_each_alone twoShelved [] oneCandle 60 (by decide) hkeyed).2 _ rfl⟩

end Batch

end Forecast
