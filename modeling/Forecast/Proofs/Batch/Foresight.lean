import Forecast.Proofs.Batch.Independence
import Forecast.Proofs.Session.Alike

/-!
# A Batch Does Not Look Ahead

A batch up to a second reports and keeps the same in two markets that have the same candles up to
that second, whatever they hold later. The two batches are run side by side: their sessions stay
alike (`Session.Alike`), end in the same rounds, and report the same.

## Main results

* `Batch.Alike.run`: two batches under way that are alike stay so.
* `Batch.run_congr_of_agreesUpTo`: candles after the second of a batch make no difference to it.
-/

namespace Forecast

/-- In markets that agree, sessions of a prediction begin alike. -/
theorem Session.start_congr {m m' : Market} {now : Int} (h : m.AgreesUpTo now m')
    (p : Prediction) : Session.start m p now = Session.start m' p now := by
  have hcheck : (fun i => m.check (.market i)) = fun i => m'.check (.market i) :=
    funext fun i => h.check (.market i)
  rw [Session.start, Session.start, hcheck]

/-- A session without streams is alike itself. -/
theorem Session.alike_start {m : Market} {p : Prediction} {now : Int} {s : Session}
    (h : Session.start m p now = .ok s) : s.Alike s := by
  obtain rfl := Session.start_eq_ok h
  refine ⟨rfl, rfl, rfl, rfl, rfl, fun i => ?_⟩
  rw [List.getElem?_map]
  cases p.given[i]? with
  | none => exact .none
  | some c => exact .none

namespace Batch

/-- In markets that agree the same sessions are begun. -/
theorem begin_congr {m m' : Market} {now : Int} (h : m.AgreesUpTo now m')
    (ps : List Prediction) : begin m now ps = begin m' now ps := by
  induction ps with
  | nil => rfl
  | cons p ps ih => rw [begin, begin, ih, Session.start_congr h]

/-- Sessions up to one second, of two batches, that are alike. -/
def AllAlike (now : Int) (ss ts : List Session) : Prop :=
  List.Forall₂ (fun s t => s.now = now ∧ s.Alike t) ss ts

/-- Two batches under way that have reported the same, and whose sessions are alike. -/
structure Alike (now : Int) (t u : Tally) : Prop where
  passes : t.passes = u.passes
  errors : t.errors = u.errors
  opened : t.opened = u.opened
  ended : AllAlike now t.ended u.ended
  active : AllAlike now t.active u.active

variable {now : Int}

/-- Of sessions that are alike the same are kept by a test that cannot tell them apart. -/
theorem AllAlike.filter {ss ts : List Session} (h : AllAlike now ss ts) {test : Session → Bool}
    (htest : ∀ s t : Session, s.Alike t → test s = test t) :
    AllAlike now (ss.filter test) (ts.filter test) := by
  induction h with
  | nil => exact .nil
  | @cons s t ss ts hst _ ih =>
      have hsame := htest s t hst.2
      cases hs : test s with
      | true =>
          rw [List.filter_cons_of_pos hs, List.filter_cons_of_pos (hsame ▸ hs)]
          exact .cons hst ih
      | false =>
          rw [List.filter_cons_of_neg (Bool.eq_false_iff.1 hs),
            List.filter_cons_of_neg (Bool.eq_false_iff.1 (hsame ▸ hs))]
          exact ih

/-- Sessions that are alike are about the same predictions. -/
theorem AllAlike.predictions {ss ts : List Session} (h : AllAlike now ss ts) :
    ss.map (·.prediction) = ts.map (·.prediction) := by
  induction h with
  | nil => rfl
  | cons hst _ ih => rw [List.map_cons, List.map_cons, hst.2.prediction, ih]

/-- What has changed, read off the predictions of the sessions that have changed. -/
theorem changes_eq (ss : List Session) :
    changes ss =
      .ofList (((ss.filter Session.hasChanged).map (·.prediction)).map fun p => (p.id, p)) := by
  rw [changes, List.map_map]
  rfl

/-- Sessions that are alike have the same changes. -/
theorem AllAlike.changes {ss ts : List Session} (h : AllAlike now ss ts) :
    changes ss = changes ts := by
  have hkept := h.filter fun s t hst => hst.hasChanged
  rw [changes_eq, changes_eq, hkept.predictions]

/-- The passes of sessions that are alike lead to sessions that are alike and report the same. -/
theorem AllAlike.pass {m m' : Market} (hm : m.AgreesUpTo now m') {ss ts : List Session}
    (h : AllAlike now ss ts) :
    AllAlike now (ss.map fun s => (s.pass m).session) (ts.map fun t => (t.pass m').session) ∧
      (ss.flatMap fun s => (s.pass m).errors) = (ts.flatMap fun t => (t.pass m').errors) ∧
      (ss.flatMap fun s => (s.pass m).opened) = ts.flatMap fun t => (t.pass m').opened := by
  induction h with
  | nil => exact ⟨.nil, by rw [List.flatMap_nil, List.flatMap_nil],
      by rw [List.flatMap_nil, List.flatMap_nil]⟩
  | @cons s t ss ts hst _ ih =>
      obtain ⟨rfl, halike⟩ := hst
      obtain ⟨hsessions, herrors, hopened⟩ := ih
      obtain ⟨hsession, hopened', herrors'⟩ := halike.pass hm
      refine ⟨.cons ⟨Session.pass_now m s, hsession⟩ hsessions, ?_, ?_⟩
      · rw [List.flatMap_cons, List.flatMap_cons, herrors, herrors']
      · rw [List.flatMap_cons, List.flatMap_cons, hopened, hopened']

/-- A round of passes keeps batches alike. -/
theorem Alike.advance {m m' : Market} (hm : m.AgreesUpTo now m') {t u : Tally}
    (h : Alike now t u) : Alike now (t.advance m) (u.advance m') := by
  obtain ⟨hsessions, herrors, hopened⟩ := h.active.pass hm
  rw [advance_eq, advance_eq]
  refine ⟨by rw [h.passes], by rw [h.errors, herrors], by rw [h.opened, hopened], ?_, ?_⟩
  · exact List.rel_append h.ended (hsessions.filter fun s t hst => hst.inactive)
  · exact hsessions.filter fun s t hst => congrArg _ hst.inactive

/-- **Batches that are alike stay so** and end after the same number of rounds. -/
theorem Alike.run {m m' : Market} (hm : m.AgreesUpTo now m') (limit : Nat) {t u : Tally}
    (h : Alike now t u) : Alike now (t.run m limit) (u.run m' limit) := by
  induction limit generalizing t u with
  | zero => exact h
  | succ limit ih =>
      have hempty : t.active.isEmpty = u.active.isEmpty := by
        rw [Bool.eq_iff_iff, List.isEmpty_iff_length_eq_zero, List.isEmpty_iff_length_eq_zero,
          h.active.length_eq]
      rw [Tally.run, Tally.run, hempty]
      split
      · exact h
      · exact ih (h.advance hm)

/-- In markets that agree predictions are brought forward alike. -/
theorem advance_congr {m m' : Market} (hm : m.AgreesUpTo now m') (limit : Nat)
    (ps : Keyed Prediction) : advance m now limit ps = advance m' now limit ps := by
  have hbegun : AllAlike now (begin m now ps.values).2 (begin m now ps.values).2 := by
    refine List.forall₂_same.2 fun s hs => ?_
    obtain ⟨p, -, hstart⟩ := mem_begin_iff.1 hs
    exact ⟨by rw [Session.start_eq_ok hstart], Session.alike_start hstart⟩
  have hrun := Alike.run hm (max limit 1)
    (t := ⟨0, (begin m now ps.values).1, [], [], (begin m now ps.values).2⟩)
    ⟨rfl, rfl, rfl, .nil, hbegun⟩
  have hsessions := List.rel_append hrun.ended hrun.active
  simp only [advance, Tally.sessions, ← begin_congr hm]
  rw [hrun.passes, hrun.errors, hrun.opened, AllAlike.changes hsessions]

/-- A market that has the candle of `oneCandle`, and a crash after it. -/
def crashLater : Market where
  providers := ["BINANCE"]
  interval := 60
  source _ _ := .ok [.ok ⟨0, 2, 5, 2, 5, 1⟩, .ok ⟨60, 5, 5, 0, 0, 1⟩]

example :
    (run twoShelved crashLater 60 5).toOption.map (fun done : Report × Shelf =>
      done.1.resolved.map fun p => p.state) = some [⟨.finished, 30, .correct⟩] := by
  decide +kernel

end Batch

end Forecast
