import Forecast.Proofs.Batch.History

/-!
# Batches That Complete

A batch completes (`Batch.Completes`) if it makes passes until no session is active, and is not
ended by the limit before that. Then all its sessions have ended (`exists_drained`), and it does not
matter what the limit was (`drain_of_ended`). So if there are no errors, what it makes of each
prediction that is held is settled by the market and the second alone (`Batch.Makes`).
-/

namespace Forecast

namespace Session

variable {m : Market} {s : Session}

/-- Draining goes on where it was left off. -/
theorem drain_add (n k : Nat) (s : Session) :
    s.drain m (n + k) =
      (((s.drain m n).1.drain m k).1, (s.drain m n).2 ++ ((s.drain m n).1.drain m k).2) := by
  induction n generalizing s with
  | zero => rw [Nat.zero_add, drain, List.nil_append]
  | succ n ih =>
      rw [Nat.add_right_comm]
      cases hactive : s.inactive with
      | true =>
          rw [drain_of_inactive _ hactive, drain_of_inactive _ hactive, drain_of_inactive _ hactive,
            List.append_nil]
      | false =>
          rw [drain_succ _ hactive, drain_succ _ hactive, ih, List.append_assoc]

/-- After the end of a session, more passes make no difference. -/
theorem drain_add_of_inactive {n : Nat} (k : Nat) (h : (s.drain m n).1.inactive = true) :
    s.drain m (n + k) = s.drain m n := by
  rw [drain_add, drain_of_inactive k h, List.append_nil]

/-- Two limits that are both large enough make no difference. -/
theorem drain_of_ended {n k : Nat} (hn : (s.drain m n).1.inactive = true)
    (hk : (s.drain m k).1.inactive = true) : s.drain m n = s.drain m k := by
  rw [← drain_add_of_inactive k hn, ← drain_add_of_inactive n hk, Nat.add_comm]

end Session

namespace Batch

variable {m : Market} {now : Int} {limit : Nat} {ps : Keyed Prediction}

/-- The sessions of a batch at its end, and what came up on the way. -/
def tally (m : Market) (now : Int) (limit : Nat) (ps : Keyed Prediction) : Tally :=
  Tally.run m (max limit 1) ⟨0, (begin m now ps.values).1, [], [], (begin m now ps.values).2⟩

/-- A batch reports what its sessions have come to. -/
theorem advance_eq_tally (m : Market) (now : Int) (limit : Nat) (ps : Keyed Prediction) :
    advance m now limit ps =
      { loaded := ps.size
        passes := (tally m now limit ps).passes
        errors := (tally m now limit ps).errors
        changed := changes (tally m now limit ps).sessions
        opened := (tally m now limit ps).opened } :=
  rfl

/-- Whether a batch ends because no session is active, and not by its limit. -/
def Completes (m : Market) (now : Int) (limit : Nat) (ps : Keyed Prediction) : Prop :=
  (tally m now limit ps).active = []

instance : Decidable (Completes m now limit ps) :=
  decidable_of_iff _ List.isEmpty_iff

/-- The sessions that are set aside have ended. -/
theorem inactive_of_mem_ended (limit : Nat) {t : Tally} (h : ∀ s ∈ t.ended, s.inactive = true) :
    ∀ s ∈ (t.run m limit).ended, s.inactive = true := by
  induction limit generalizing t with
  | zero => exact h
  | succ limit ih =>
      rw [Tally.run]
      split
      · exact h
      · refine ih fun s hs => ?_
        rw [advance_eq] at hs
        rcases List.mem_append.1 hs with hs | hs
        · exact h s hs
        · exact (List.mem_filter.1 hs).2

/-- What the sessions of a batch come to is what draining them one by one does. -/
theorem isDrained_tally (m : Market) (now : Int) (limit : Nat) (ps : Keyed Prediction) :
    IsDrained m (max limit 1)
      ⟨0, (begin m now ps.values).1, [], [], (begin m now ps.values).2⟩ (tally m now limit ps) := by
  refine isDrained_run _ fun s hs => ?_
  obtain ⟨p, -, hstart⟩ := mem_begin_iff.1 hs
  rw [Session.start_eq_ok hstart]

/-- In a batch that completes every session ends. -/
theorem Completes.inactive (h : Completes m now limit ps) {p : Prediction} (hp : p ∈ ps.values)
    {s : Session} (hstart : Session.start m p now = .ok s) :
    (s.drain m (max limit 1)).1.inactive = true := by
  have hdrained := (isDrained_tally m now limit ps).sessions
  rw [Tally.sessions, h, List.append_nil, List.nil_append] at hdrained
  refine inactive_of_mem_ended (max limit 1) (fun s hs => absurd hs List.not_mem_nil) _
    (hdrained.mem_iff.2 (List.mem_map.2 ⟨s, ?_, rfl⟩))
  exact mem_begin_iff.2 ⟨p, hp, hstart⟩

/-- **In a batch without errors,** every prediction can be begun, and its session has no errors. -/
theorem exists_start_of_errors (hkeyed : IsKeyedById ps)
    (herrors : (advance m now limit ps).errors = []) {p : Prediction} (hp : p ∈ ps.values) :
    ∃ s, Session.start m p now = .ok s ∧ (s.drain m (max limit 1)).2 = [] := by
  have hall := (isOfEachAlone_advance m now limit hkeyed).errors
  rw [herrors] at hall
  have hnone := List.flatMap_eq_nil_iff.1 hall.symm.eq_nil p hp
  cases hstart : Session.start m p now with
  | error e =>
      rw [alone_of_error hstart] at hnone
      cases hnone
  | ok s =>
      rw [alone_of_ok hstart] at hnone
      exact ⟨s, rfl, hnone⟩

/-- If it completes, then also its session ends. -/
theorem Completes.exists_drained (h : Completes m now limit ps) (hkeyed : IsKeyedById ps)
    (herrors : (advance m now limit ps).errors = []) {p : Prediction} (hp : p ∈ ps.values) :
    ∃ s, Session.start m p now = .ok s ∧ (s.drain m (max limit 1)).2 = [] ∧
      (s.drain m (max limit 1)).1.inactive = true := by
  obtain ⟨s, hstart, hnone⟩ := exists_start_of_errors hkeyed herrors hp
  exact ⟨s, hstart, hnone, h.inactive hp hstart⟩

/-! ### What is held after a batch -/

/-- Whether a prediction is what a batch that completes without errors makes of another. A final one
is left alone. Any other is drained, and what comes of it is kept if it is different. -/
structure Makes (m : Market) (now : Int) (p q : Prediction) : Prop where
  final : p.isFinal = true → q = p
  ongoing : p.isFinal = false → ∃ s limit, Session.start m p now = .ok s ∧
    (s.drain m limit).2 = [] ∧ (s.drain m limit).1.inactive = true ∧
    q = if ((s.drain m limit).1.prediction != p) = true then (s.drain m limit).1.prediction else p

/-- What a batch changes under an id. -/
theorem get?_changed (m : Market) (now : Int) (limit : Nat) (hkeyed : IsKeyedById ps)
    (id : String) : (advance m now limit ps).changed.get? id = (ps.get? id).bind fun p =>
      if (alone m now (max limit 1) p).begun && (alone m now (max limit 1) p).prediction != p
      then some (alone m now (max limit 1) p).prediction else none := by
  ext q
  rw [(isOfEachAlone_advance m now limit hkeyed).changed, Option.bind_eq_some_iff]
  refine exists_congr fun p => and_congr_right fun _ => ?_
  rw [Option.ite_none_right_eq_some, Bool.and_eq_true, Option.some.injEq, and_assoc]
  refine and_congr_right fun _ => ?_
  rw [and_comm]
  exact and_congr_left fun heq => heq ▸ Iff.rfl

/-- **What a batch that completes without errors makes of what is held.** -/
theorem makes_of_advance {ps qs : Keyed Prediction} (hkeyed : IsKeyedById ps)
    (hqs : ∀ id, qs.get? id =
      ((advance m now limit (ongoing ps)).changed.get? id).or (ps.get? id))
    (herrors : (advance m now limit (ongoing ps)).errors = [])
    (hcompletes : Completes m now limit (ongoing ps)) (id : String) :
    Option.Rel (Makes m now) (ps.get? id) (qs.get? id) := by
  have hongoing : (ongoing ps).get? id = (ps.get? id).filter fun p => !p.isFinal :=
    Keyed.get?_filter ..
  rw [hqs, get?_changed m now limit hkeyed.ongoing]
  cases hp : ps.get? id with
  | none =>
      rw [hongoing, hp]
      exact .none
  | some p =>
      rw [hp, Option.filter_some] at hongoing
      cases hfinal : p.isFinal with
      | true =>
          rw [hongoing, hfinal]
          exact .some ⟨fun _ => rfl, fun hopen => absurd (hfinal.symm.trans hopen) nofun⟩
      | false =>
          rw [hfinal] at hongoing
          obtain ⟨s, hstart, hnone, hended⟩ := hcompletes.exists_drained hkeyed.ongoing herrors
            (hkeyed.ongoing.get?_eq_some_iff.1 hongoing).1
          rw [hongoing]
          simp only [Bool.not_false, if_true, Option.bind_some, alone_of_ok hstart, Bool.true_and]
          have hmakes : Makes m now p (if ((s.drain m (max limit 1)).1.prediction != p) = true
              then (s.drain m (max limit 1)).1.prediction else p) :=
            ⟨fun h => absurd (hfinal.symm.trans h) nofun,
              fun _ => ⟨s, _, hstart, hnone, hended, rfl⟩⟩
          split at hmakes
          · next hne =>
              rw [if_pos hne]
              exact .some hmakes
          · next hsame =>
              rw [if_neg hsame]
              exact .some hmakes

end Batch

end Forecast
