import Mathlib.Logic.Relation
import Forecast.Proofs.Batch.Completion
import Forecast.Proofs.Batch.Termination
import Forecast.Proofs.Session.Operations
import Forecast.Proofs.Session.Unseen

/-!
# Clearing Undoes Everything

Whatever is done with a prediction touches its state and what its conditions have seen, and nothing else.
Clearing sets all of that back. So a compiled prediction is again what it was once it is cleared
(`Stage.Leads`, `cleared_of_leads`).

This holds of sessions whatever their ports answer. What a pass makes of a prediction does not depend on
where its streams come from: some conditions are fed from some streams, and the prediction is evaluated
(`Session.PassesTo`).

To drain a session of the prediction that has been cleared is therefore what it was before. It makes no
difference either whether a compiled prediction is evaluated before its session is begun. The state says
something else then, but a round does not look at it, and the evaluation after the round writes over it
(`Session.pass_evaluated`).

## Main results

* `Session.passesTo_pass`: what a pass can lead to.
* `Stage.cleared_of_leads`: clearing undoes whatever has been done.
* `Session.unseen_withState`, `Session.pass_evaluated`: what a session makes of the state.
* `Stage.cleared_undoes_everything`: a cleared prediction, and one that is evaluated, have the sessions of
  a new one.
-/

namespace Forecast

/-! ### Conditions and clauses -/

/-- A fed condition is the same but for what it has seen. -/
theorem Condition.cleared_of_feed {c d : Condition Price} {ticks : TickSet Price}
    (h : c.feed ticks = .ok d) : d.cleared = c.cleared := by
  obtain ⟨-, rfl⟩ | ⟨-, ts, -, rfl⟩ := feed_eq_ok_iff.1 h
  · rfl
  · rfl

namespace Clause

variable {α β : Type} {f : α → β} {change : α → α}

/-- What does not show in a change to the conditions of clauses does not show in all of them. -/
theorem map_modifyAll {cs : List Clause}
    (h : ∀ c ∈ cs, ∀ xs, (c.modify change xs).map f = xs.map f) (xs : List α) :
    (modifyAll change cs xs).map f = xs.map f := by
  induction cs generalizing xs with
  | nil => rfl
  | cons c cs ih =>
      obtain ⟨hc, hcs⟩ := List.forall_mem_cons.1 h
      rw [modifyAll, ih hcs, hc]

/-- **A map that does not see a change to a condition** does not see it made to all conditions of a
clause. -/
theorem map_modify (h : ∀ x, f (change x) = f x) (c : Clause) (xs : List α) :
    (c.modify change xs).map f = xs.map f := by
  induction c using Clause.induction generalizing xs with
  | literal i =>
      refine List.ext_getElem? fun k => ?_
      rw [modify, List.getElem?_map, List.getElem?_map, List.getElem?_modify]
      cases xs[k]? with
      | none => rfl
      | some x =>
          by_cases hk : i = k
          · simp [hk, h]
          · simp [hk]
  | conj cs ih => exact map_modifyAll ih xs
  | disj cs ih => exact map_modifyAll ih xs
  | neg c ih => exact ih xs

end Clause

namespace Prediction

variable {p : Prediction}

/-- Clearing forgets what a condition has seen. -/
theorem cleared_setCondition {i : Nat} {c d : Condition Price} (hc : p.given[i]? = some c)
    (hd : d.cleared = c.cleared) : (p.setCondition i d).cleared = p.cleared := by
  have hgiven : (p.given.set i d).map Condition.cleared = p.given.map Condition.cleared := by
    obtain ⟨hi, rfl⟩ := List.getElem?_eq_some_iff.1 hc
    rw [List.map_set, hd, ← List.getElem_map Condition.cleared, List.set_getElem_self]
    rwa [List.length_map]
  rw [cleared, cleared, setCondition, hgiven]

/-- Clearing forgets what has been fed. -/
theorem cleared_feed (p : Prediction) (f : Feeding) : (p.feed f).cleared = p.cleared := by
  rcases p.feed_cases f with h | ⟨c, d, hc, hd, h⟩
  · rw [h]
  · rw [h, cleared_setCondition hc (Condition.cleared_of_feed hd)]

/-- Clearing forgets the state. -/
theorem cleared_evaluated (p : Prediction) : p.evaluated.cleared = p.cleared := rfl

/-- Evaluation writes over the whole state but its time. -/
theorem evaluated_of_lastTs {state : PredictionState} (h : state.lastTs = p.state.lastTs) :
    ({ p with state } : Prediction).evaluated = p.evaluated := by
  rw [evaluated, evaluated, h]
  rfl

/-- Clearing twice is clearing once. -/
theorem cleared_cleared (p : Prediction) : p.cleared.cleared = p.cleared := by
  have hgiven : (p.given.map Condition.cleared).map Condition.cleared =
      p.given.map Condition.cleared := by
    rw [List.map_map]
    rfl
  rw [cleared, cleared, hgiven]

/-- Clearing forgets that the conditions of some clauses were cleared before. -/
theorem map_clearMentioned (clauses : List (Option Clause)) (cs : List (Condition Price)) :
    (clearMentioned Condition.cleared clauses cs).map Condition.cleared =
      cs.map Condition.cleared := by
  have htwice (c : Condition Price) : c.cleared.cleared = c.cleared := rfl
  rw [clearMentioned, ← Clause.modifyAll_eq_foldl]
  exact Clause.map_modifyAll (fun c _ => Clause.map_modify htwice c) cs

theorem cleared_clearedPre (p : Prediction) : p.clearedPre.cleared = p.cleared := by
  rw [cleared, cleared, clearedPre, map_clearMentioned]

theorem cleared_clearedMain (p : Prediction) : p.clearedMain.cleared = p.cleared := by
  rw [cleared, cleared, clearedMain, map_clearMentioned]

/-- A prediction that has seen nothing is not changed by clearing. -/
theorem cleared_of_initial (hstate : p.state = .initial)
    (hgiven : ∀ c ∈ p.given, c.state = .initial) : p.cleared = p := by
  have hcleared : p.given.map Condition.cleared = p.given := by
    refine (List.map_congr_left fun c hc => ?_).trans (List.map_id p.given)
    rw [id_eq, Condition.cleared, ← hgiven c hc]
  rw [cleared, hcleared, ← hstate]

end Prediction

/-! ### Sessions against any ports -/

namespace Session

/-- What looking after a condition can lead to, whatever streams are opened for it: it is fed from some
streams, or nothing is done. -/
inductive LooksAfter : Session → Session → Prop
  | nothing (s : Session) : LooksAfter s s
  | feed {s : Session} {i : Nat} {c : Condition Price} (ss : List TickStream)
      (hc : s.prediction.given[i]? = some c) : LooksAfter s (s.feedFrom i c ss).1

/-- What a pass can lead to, whatever its ports answer: some conditions are looked after, and the
prediction is evaluated. A pass that looks after none may leave it at that. -/
inductive PassesTo : Session → Session → Prop
  | idle (s : Session) (inactive : Bool) : PassesTo s { s with inactive }
  | round {s r : Session} (inactive : Bool) (h : Relation.ReflTransGen LooksAfter s r) :
      PassesTo s { r with prediction := r.prediction.evaluated, inactive }

variable {m : Market} {s s' : Session}

/-- A step looks after a condition. -/
theorem looksAfter_step (m : Market) (s : Session) (i : Nat) :
    s.LooksAfter (s.step m i).session := by
  rcases step_cases m s i with ⟨-, h⟩ | ⟨c, hc, ⟨_, _, h⟩ | ⟨_, ss, -, h⟩⟩
  · rw [h]
    exact .nothing s
  · rw [h]
    exact .nothing s
  · rw [h]
    exact .feed ss hc

/-- A round looks after some conditions. -/
theorem looksAfter_round (m : Market) (s : Session) (is : List Nat) :
    Relation.ReflTransGen LooksAfter s (s.round m is).session := by
  induction is generalizing s with
  | nil => exact .refl
  | cons i is ih =>
      have hstep := s.looksAfter_step m i
      cases h : (s.step m i).result with
      | error fault =>
          rw [round_of_fault h]
          exact .single hstep
      | ok fed =>
          rw [round_of_ok h]
          exact .head hstep (ih _)

/-- A pass in a market is one of those that its ports may lead to. -/
theorem passesTo_pass (m : Market) (s : Session) : s.PassesTo (s.pass m).session := by
  cases hactive : s.inactive with
  | true =>
      rw [pass_of_inactive hactive]
      exact .idle s s.inactive
  | false =>
      cases hfinal : s.prediction.isFinal with
      | true =>
          rw [pass_of_final hactive hfinal]
          exact .idle s true
      | false =>
          have hround := s.looksAfter_round m s.prediction.actionable
          cases hfault : (s.round m s.prediction.actionable).fault with
          | none =>
              rw [pass_of_round hactive hfinal hfault]
              exact .round _ hround
          | some fault =>
              rw [pass_of_fault hactive hfinal hfault]
              exact .round true hround

/-- Clearing forgets that a condition has been looked after. -/
theorem LooksAfter.cleared (h : s.LooksAfter s') : s'.prediction.cleared = s.prediction.cleared := by
  cases h with
  | nothing => rfl
  | @feed i c ss hc =>
      rcases s.feedFrom_cases i c ss with ⟨_, h⟩ | ⟨ticks, d, -, hd, h⟩
      · rw [h]
        rfl
      · rw [h]
        exact Prediction.cleared_setCondition hc (Condition.cleared_of_feed hd)

/-- Clearing forgets a pass. -/
theorem PassesTo.cleared (h : s.PassesTo s') : s'.prediction.cleared = s.prediction.cleared := by
  cases h with
  | idle => rfl
  | @round r _ h =>
      change r.prediction.evaluated.cleared = s.prediction.cleared
      rw [Prediction.cleared_evaluated]
      induction h with
      | refl => rfl
      | tail _ hlast ih => exact hlast.cleared.trans ih

end Session

/-! ### Whatever is done -/

namespace Stage

/-- What can be done with a prediction: every operation, clearing one phase alone, and a pass of a
session whatever the ports answer. -/
inductive Leads : Stage → Stage → Prop
  | operation (g : Stage) (op : Operation) : Leads g (g.perform op)
  | clearedPre (g : Stage) : Leads g (.idle g.prediction.clearedPre)
  | clearedMain (g : Stage) : Leads g (.idle g.prediction.clearedMain)
  | pass {s s' : Session} (h : s.PassesTo s') : Leads (.running s) (.running s')

/-- Operations lead where they lead one after the other. -/
theorem leads_performAll (g : Stage) (ops : List Operation) :
    Relation.ReflTransGen Leads g (g.performAll ops) := by
  induction ops generalizing g with
  | nil => exact .refl
  | cons op ops ih => exact .head (.operation g op) (ih _)

/-- Clearing forgets an operation. -/
theorem cleared_perform (g : Stage) (op : Operation) :
    (g.perform op).prediction.cleared = g.prediction.cleared := by
  cases op with
  | feed f => exact g.prediction.cleared_feed f
  | evaluate => exact g.prediction.cleared_evaluated
  | findActionable => exact g.prediction.cleared_evaluated
  | clear => exact g.prediction.cleared_cleared
  | start m now =>
      rw [perform]
      cases hstart : Session.start m g.prediction now with
      | error e => rfl
      | ok s =>
          rw [Session.start_eq_ok hstart]
          rfl
  | pass m =>
      cases g with
      | idle p => rfl
      | running s => exact (s.passesTo_pass m).cleared

/-- Clearing forgets whatever has been done. -/
theorem Leads.cleared {g g' : Stage} (h : g.Leads g') :
    g'.prediction.cleared = g.prediction.cleared := by
  cases h with
  | operation _ op => exact g.cleared_perform op
  | clearedPre => exact g.prediction.cleared_clearedPre
  | clearedMain => exact g.prediction.cleared_clearedMain
  | pass h => exact h.cleared

/-- **Clearing undoes whatever has been done** with a compiled prediction. -/
theorem cleared_of_leads {draft : Draft} {createdAt : Calendar.Instant} {p : Prediction}
    (hp : Compile.prediction draft createdAt = .ok p) {g : Stage}
    (hg : Relation.ReflTransGen Leads (.idle p) g) : g.prediction.cleared = p := by
  induction hg with
  | refl =>
      obtain ⟨hstate, hgiven⟩ := Compile.state_of_prediction hp
      exact Prediction.cleared_of_initial hstate hgiven
  | tail _ hlast ih => exact hlast.cleared.trans ih

end Stage

/-! ### Sessions that begin from another state -/

namespace Session

variable {m : Market} {s t : Session}

/-- A session that has begun from another prediction. -/
def withInitial (s : Session) (p : Prediction) : Session :=
  { s with initial := p }

/-- A session that has begun from another prediction, and whose prediction has another state. -/
def withState (s : Session) (p : Prediction) (state : PredictionState) : Session :=
  { s with initial := p, prediction := { s.prediction with state } }

/-- Where conditions are looked after the state is not seen. -/
theorem unseen_withState (p : Prediction) (state : PredictionState) :
    Unseen (fun _ => True) (withState · p state) where
  given _ := rfl
  now _ := rfl
  streams _ _ _ := rfl
  withStreams _ _ _ _ := rfl
  withCondition _ _ _ := rfl

/-- **A pass looks at the state only to see whether it is final,** and writes over all but its time. -/
theorem pass_withState (hactive : s.inactive = false) (hopen : s.prediction.isFinal = false)
    {state : PredictionState} (hstate : state.outcome.isFinal = false)
    (hlast : state.lastTs = s.prediction.state.lastTs) (p : Prediction) :
    (s.withState p state).pass m =
      ⟨(s.pass m).session.withInitial p, (s.pass m).opened, (s.pass m).errors⟩ := by
  have hround := (unseen_withState p state).round m s
    fun i (_ : i ∈ s.prediction.actionable) => trivial
  have hkept : (s.round m s.prediction.actionable).session.prediction.state =
      s.prediction.state := by
    rw [round_frame]
  have hevaluated := Prediction.evaluated_of_lastTs (hlast.trans (congrArg _ hkept.symm))
  set t := s.withState p state
  have hactive' : t.inactive = false := hactive
  have hopen' : t.prediction.isFinal = false := hstate
  have hround : t.round m t.prediction.actionable = _ := hround
  cases hfault : (s.round m s.prediction.actionable).fault with
  | none =>
      rw [pass_of_round hactive hopen hfault,
        pass_of_round hactive' hopen' (by rw [hround, hfault]), hround]
      dsimp only [withState, withInitial]
      rw [hevaluated]
      rfl
  | some fault =>
      rw [pass_of_fault hactive hopen hfault,
        pass_of_fault hactive' hopen' (by rw [hround, hfault]), hround]
      dsimp only [withState, withInitial]
      rw [hevaluated]

/-- A pass does not look at what its session has begun from. -/
theorem pass_withInitial (m : Market) (s : Session) (p : Prediction) :
    (s.withInitial p).pass m =
      ⟨(s.pass m).session.withInitial p, (s.pass m).opened, (s.pass m).errors⟩ := by
  set t := s.withInitial p
  cases hactive : s.inactive with
  | true =>
      have hactive' : t.inactive = true := hactive
      rw [pass_of_inactive hactive, pass_of_inactive hactive']
  | false =>
      have hactive' : t.inactive = false := hactive
      cases hfinal : s.prediction.isFinal with
      | true =>
          have hfinal' : t.prediction.isFinal = true := hfinal
          rw [pass_of_final hactive hfinal, pass_of_final hactive' hfinal']
          rfl
      | false => exact pass_withState hactive hfinal hfinal rfl p

/-- Draining does not look at what its session has begun from. -/
theorem drain_withInitial (m : Market) (limit : Nat) (s : Session) (p : Prediction) :
    (s.withInitial p).drain m limit =
      ((s.drain m limit).1.withInitial p, (s.drain m limit).2) := by
  induction limit generalizing s with
  | zero => rfl
  | succ limit ih =>
      cases hactive : s.inactive with
      | true =>
          have hactive' : (s.withInitial p).inactive = true := hactive
          rw [drain_of_inactive _ hactive, drain_of_inactive _ hactive']
      | false =>
          have hactive' : (s.withInitial p).inactive = false := hactive
          rw [drain_succ limit hactive, drain_succ limit hactive', pass_withInitial, ih]

/-- **A pass of an evaluated prediction is a pass of the prediction,** unless evaluation moves its time:
if the outcome is final already, the pass of the prediction evaluates it and ends the session, too. -/
theorem pass_evaluated (hactive : s.inactive = false) (hopen : s.prediction.isFinal = false)
    (hlast : s.prediction.evaluated.state.lastTs = s.prediction.state.lastTs) (p : Prediction) :
    (s.withState p s.prediction.evaluated.state).pass m =
      ⟨(s.pass m).session.withInitial p, (s.pass m).opened, (s.pass m).errors⟩ := by
  cases hfinal : s.prediction.outcome.isFinal with
  | false => exact pass_withState hactive hopen hfinal hlast p
  | true =>
      have hround : s.round m s.prediction.actionable = ⟨s, [], 0, none⟩ := by
        rw [Prediction.actionable_eq_nil hfinal, round]
      rw [pass_of_round hactive hopen (by rw [hround]), hround, hfinal]
      exact pass_of_final hactive hfinal

/-- What draining leads to is what the passes lead to. -/
theorem drain_eq_afterPasses (m : Market) (limit : Nat) (s : Session) :
    (s.drain m limit).1 = afterPasses m limit s := by
  induction limit generalizing s with
  | zero => rfl
  | succ limit ih =>
      cases hactive : s.inactive with
      | true => rw [drain_of_inactive _ hactive, afterPasses_of_inactive _ hactive]
      | false => rw [drain_succ limit hactive, afterPasses, ih]

/-- What a session is drained to: if the limit is large enough it ends, with a prediction and with
errors. -/
def DrainsTo (m : Market) (s : Session) (p : Prediction) (errors : List RunError) : Prop :=
  ∃ n, ∀ limit, n ≤ limit →
    ∃ t, s.drain m limit = (t, errors) ∧ t.inactive = true ∧ t.prediction = p

/-- A compiled prediction is not stuck, since all its conditions quote something. -/
theorem not_isStuck_of_prediction {draft : Draft} {createdAt : Calendar.Instant} {p : Prediction}
    (h : Compile.prediction draft createdAt = .ok p) : ¬ p.IsStuck := by
  obtain ⟨-, hquoted⟩ := Compile.forall_of_prediction (fun _ _ _ _ => Compile.instruments_of_condition) h
  rintro ⟨i, -, c, hc, hnone, -⟩
  exact hquoted c (List.mem_of_getElem? hc) hnone

/-- A session of a prediction that is not stuck is drained to something. -/
theorem exists_drainsTo {p : Prediction} {now : Int} (hp : ¬ p.IsStuck)
    (h : start m p now = .ok s) : ∃ q errors, s.DrainsTo m q errors := by
  have hended {limit : Nat} (hlimit : 1 + p.reserve m ≤ limit) :
      (s.drain m limit).1.inactive = true := by
    rw [drain_eq_afterPasses]
    exact inactive_after_reserve hp h hlimit
  refine ⟨(s.drain m (1 + p.reserve m)).1.prediction, (s.drain m (1 + p.reserve m)).2,
    1 + p.reserve m, fun limit hlimit => ?_⟩
  rw [drain_of_ended (hended hlimit) (hended (Nat.le_refl _))]
  exact ⟨_, rfl, hended (Nat.le_refl _), rfl⟩

/-- Sessions whose first passes come to the same are drained to the same. -/
theorem DrainsTo.of_pass {p q : Prediction} {errors : List RunError} (h : s.DrainsTo m q errors)
    (hs : s.inactive = false) (ht : t.inactive = false)
    (hpass : t.pass m = ⟨(s.pass m).session.withInitial p, (s.pass m).opened, (s.pass m).errors⟩) :
    t.DrainsTo m q errors := by
  obtain ⟨n, hn⟩ := h
  refine ⟨n + 1, fun limit hlimit => ?_⟩
  obtain ⟨k, rfl⟩ := Nat.exists_eq_add_of_le' (Nat.le_trans (Nat.le_add_left 1 n) hlimit)
  obtain ⟨s', hdrain, hended, hprediction⟩ := hn (k + 1) (by omega)
  rw [drain_succ k hs, Prod.mk.injEq] at hdrain
  obtain ⟨rfl, rfl⟩ := hdrain
  refine ⟨((s.pass m).session.drain m k).1.withInitial p, ?_, hended, hprediction⟩
  rw [drain_succ k ht, hpass, drain_withInitial]

/-- **A session of an evaluated prediction is drained to what one of the prediction is,** if nothing has
been seen yet. -/
theorem exists_start_evaluated {p q : Prediction} {now : Int} {errors : List RunError}
    (hstate : p.state = .initial) (hgiven : ∀ c ∈ p.given, c.state = .initial)
    (hstart : start m p now = .ok s) (h : s.DrainsTo m q errors) :
    ∃ t, start m p.evaluated now = .ok t ∧ t.DrainsTo m q errors := by
  obtain ⟨hserved, rfl⟩ := start_eq_ok_iff.1 hstart
  have hopen : p.isFinal = false := by
    rw [Prediction.isFinal, hstate]
    rfl
  have hlast : p.evaluated.state.lastTs = p.state.lastTs := by
    have hlatest : p.latest = 0 := by
      rcases p.exists_latest with ⟨-, h⟩ | ⟨c, hc, h⟩
      · exact h
      · rw [h, hgiven c hc]
        rfl
    change max p.state.lastTs p.latest = p.state.lastTs
    rw [hlatest, hstate]
    rfl
  refine ⟨_, start_eq_ok_iff.2 ⟨hserved, rfl⟩, ?_⟩
  refine h.of_pass rfl rfl (p := p.evaluated) ?_
  exact pass_evaluated (s := ⟨p, p, now, p.given.map fun _ => none, false⟩) rfl hopen hlast p.evaluated

end Session

namespace Stage

/-- **Clearing undoes everything.** Whatever has been done with a compiled prediction, clearing makes it
what it was. A session of what has been cleared, and one of what the prediction is evaluated to, can be
begun wherever one of the prediction can, and all of them are drained to the same prediction with the
same errors. -/
theorem cleared_undoes_everything {draft : Draft} {createdAt : Calendar.Instant} {p : Prediction}
    (hp : Compile.prediction draft createdAt = .ok p) {g : Stage}
    (hg : Relation.ReflTransGen Leads (.idle p) g) :
    g.prediction.cleared = p ∧
      ∀ (m : Market) (now : Int) (s : Session), Session.start m p now = .ok s →
        ∃ q errors, s.DrainsTo m q errors ∧
          (∃ t, Session.start m g.prediction.cleared now = .ok t ∧ t.DrainsTo m q errors) ∧
          ∃ t, Session.start m p.evaluated now = .ok t ∧ t.DrainsTo m q errors := by
  have hcleared := cleared_of_leads hp hg
  refine ⟨hcleared, fun m now s hstart => ?_⟩
  obtain ⟨hstate, hgiven⟩ := Compile.state_of_prediction hp
  obtain ⟨q, errors, hdrains⟩ :=
    Session.exists_drainsTo (Session.not_isStuck_of_prediction hp) hstart
  refine ⟨q, errors, hdrains, ⟨s, ?_, hdrains⟩,
    Session.exists_start_evaluated hstate hgiven hstart hdrains⟩
  rw [hcleared, hstart]

open Session (raceDraft race compile_raceDraft riseAndFall)

/-- The race under way has a state, is what it was once it is cleared, and is drained to what it would be
drained to if it were evaluated first. -/
theorem race_cleared_undoes_everything :
    Compile.prediction raceDraft ⟨0, 0⟩ = .ok race ∧
      ((idle race).performAll begun).prediction.state = ⟨.started, 15, .running⟩ ∧
      ((idle race).performAll begun).prediction.cleared = race ∧
      ∃ s t q errors, Session.start riseAndFall race 120 = .ok s ∧ s.DrainsTo riseAndFall q errors ∧
        Session.start riseAndFall race.evaluated 120 = .ok t ∧ t.DrainsTo riseAndFall q errors := by
  obtain ⟨hcleared, hdrains⟩ :=
    cleared_undoes_everything compile_raceDraft ((idle race).leads_performAll begun)
  have hstart : Session.start riseAndFall race 120 =
      .ok ⟨race, race, 120, [none, none], false⟩ := by with_unfolding_all rfl
  obtain ⟨q, errors, hs, -, t, ht, hdrained⟩ := hdrains riseAndFall 120 _ hstart
  refine ⟨compile_raceDraft, ?_, hcleared, _, t, q, errors, hstart, hs, ht, hdrained⟩
  with_unfolding_all rfl

end Stage

end Forecast
