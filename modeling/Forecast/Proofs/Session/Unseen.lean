import Forecast.Proofs.Prediction.Actionable
import Forecast.Proofs.Session.Steps

/-!
# What a Session Does Not Look At

A session that looks after a condition reads this condition, the streams of its position and the last
second that may be looked at. A change of a session that leaves these alone, and is not undone by
putting streams or conditions in their places, is not seen (`Session.Unseen`): it makes no difference
whether it comes before a step or after it, and so on to rounds.

A pass looks only after conditions that the clauses mention. So the streams of all other conditions
may be closed before the first pass (`Session.closedBut`), and whatever is said of a session in which
every condition has streams to feed from can be said of one in which those that are mentioned have.

## Main results

* `Unseen.step`, `Unseen.round`: a change that is not seen.
* `drain_closedBut`: the streams of conditions that are not mentioned make no difference.
-/

namespace Forecast

namespace Session

variable {m : Market} {s : Session}

/-! ### Changes -/

/-- Whether a change of a session is not seen where some conditions are looked after. -/
structure Unseen (looked : Nat → Prop) (change : Session → Session) : Prop where
  given : ∀ s, (change s).prediction.given = s.prediction.given
  now : ∀ s, (change s).now = s.now
  streams : ∀ s {i}, looked i → (change s).streams[i]?.join = s.streams[i]?.join
  withStreams : ∀ s {i} ss, looked i →
    (change s).withStreams i ss = change (s.withStreams i ss)
  withCondition : ∀ s i c, (change s).withCondition i c = change (s.withCondition i c)

variable {looked : Nat → Prop} {change : Session → Session}

/-- What a condition is fed is the same, and so is what is drawn for it. -/
theorem Unseen.feedFrom (h : Unseen looked change) (s : Session) {i : Nat} (hi : looked i)
    (c : Condition Price) (ss : List TickStream) :
    (change s).feedFrom i c ss = (change (s.feedFrom i c ss).1, (s.feedFrom i c ss).2) := by
  cases hdrawn : drawAll ss with
  | mk drawn ss' =>
      cases drawn with
      | dry => rw [feedFrom_of_dry hdrawn, feedFrom_of_dry hdrawn, h.withStreams s ss' hi]
      | failed e => rw [feedFrom_of_failed hdrawn, feedFrom_of_failed hdrawn, h.withStreams s ss' hi]
      | ticks ticks =>
          cases hfeed : c.feed ticks with
          | error e =>
              rw [feedFrom_of_refused hdrawn hfeed, feedFrom_of_refused hdrawn hfeed,
                h.withStreams s ss' hi]
          | ok d =>
              rw [feedFrom_of_fed hdrawn hfeed, feedFrom_of_fed hdrawn hfeed,
                h.withStreams s ss' hi, h.withCondition]

/-- **A step does not see the change.** -/
theorem Unseen.step (h : Unseen looked change) (m : Market) (s : Session) {i : Nat}
    (hi : looked i) :
    (change s).step m i = ⟨change (s.step m i).session, (s.step m i).opened,
      (s.step m i).result⟩ := by
  have hgiven := h.given s
  have hstreams := h.streams s hi
  cases hc : s.prediction.given[i]? with
  | none => rw [step_of_none hc, step_of_none (by rw [hgiven, hc])]
  | some c =>
      have hc' : (change s).prediction.given[i]? = some c := by rw [hgiven, hc]
      cases hss : s.streams[i]?.join with
      | some ss => rw [step_of_open hc hss, step_of_open hc' (hstreams.trans hss), h.feedFrom s hi]
      | none =>
          have hclosed := hstreams.trans hss
          cases hopen : openStreams m (max c.fromTs c.state.lastTs) s.now c.instruments with
          | mk openings opened =>
              have hopen' := hopen
              rw [← h.now s] at hopen'
              cases opened with
              | error e => rw [step_of_unopened hc hss hopen, step_of_unopened hc' hclosed hopen']
              | ok ss =>
                  rw [step_of_opened hc hss hopen, step_of_opened hc' hclosed hopen',
                    h.feedFrom s hi]

/-- **A round does not see the change.** -/
theorem Unseen.round (h : Unseen looked change) (m : Market) (s : Session) {is : List Nat}
    (his : ∀ i ∈ is, looked i) :
    (change s).round m is = ⟨change (s.round m is).session, (s.round m is).opened,
      (s.round m is).fed, (s.round m is).fault⟩ := by
  induction is generalizing s with
  | nil => rfl
  | cons i is ih =>
      obtain ⟨hi, his⟩ := List.forall_mem_cons.1 his
      have hstep := h.step m s hi
      cases hresult : (s.step m i).result with
      | error fault =>
          rw [round_of_fault hresult, round_of_fault (by rw [hstep, hresult]), hstep]
      | ok fed =>
          rw [round_of_ok hresult, round_of_ok (by rw [hstep, hresult]), hstep]
          dsimp only
          rw [ih _ his]

/-! ### Closed streams -/

/-- A stream that has nothing to yield. -/
def spent : TickStream :=
  { TickStream.ofFeed "" [] 0 0 0 with exhausted := true }

/-- The session in which the streams of all conditions but some are closed. -/
def closedBut (is : List Nat) (s : Session) : Session :=
  { s with streams := s.streams.mapIdx fun i ss => if i ∈ is then ss else some [spent] }

variable {is : List Nat}

/-- The streams of the other conditions are left. -/
theorem getElem?_streams_closedBut {i : Nat} (hi : i ∈ is) :
    (s.closedBut is).streams[i]? = s.streams[i]? := by
  simp only [closedBut, List.getElem?_mapIdx, if_pos hi, Option.map_id']

/-- Closed streams are not seen where the other conditions are looked after. -/
theorem unseen_closedBut (is : List Nat) : Unseen (· ∈ is) (closedBut is) where
  given _ := rfl
  now _ := rfl
  streams s i hi := by rw [getElem?_streams_closedBut hi]
  withStreams s i ss hi := by
    simp only [closedBut, Session.withStreams, Session.mk.injEq, true_and, and_true]
    refine List.ext_getElem? fun j => ?_
    by_cases hj : i = j
    · subst hj
      simp only [List.getElem?_mapIdx, List.getElem?_set, List.length_mapIdx, if_pos hi,
        Option.map_id', if_true]
    · simp only [List.getElem?_mapIdx, List.getElem?_set_ne hj]
  withCondition _ _ _ := rfl

/-- A pass that looks after other conditions does not see closed streams. -/
theorem pass_closedBut (his : ∀ i ∈ s.prediction.actionable, i ∈ is) :
    (s.closedBut is).pass m = ⟨(s.pass m).session.closedBut is, (s.pass m).opened,
      (s.pass m).errors⟩ := by
  have hround := (unseen_closedBut is).round m s his
  set t := s.closedBut is
  cases hactive : s.inactive with
  | true =>
      have hactive' : t.inactive = true := hactive
      rw [pass_of_inactive hactive, pass_of_inactive hactive']
  | false =>
      have hactive' : t.inactive = false := hactive
      cases hfinal : s.prediction.isFinal with
      | true =>
          have hfinal' : t.prediction.isFinal = true := hfinal
          rw [pass_of_final hactive hfinal, pass_of_final hactive' hfinal']
          rfl
      | false =>
          have hfinal' : t.prediction.isFinal = false := hfinal
          have hround : t.round m t.prediction.actionable = _ := hround
          cases hfault : (s.round m s.prediction.actionable).fault with
          | none =>
              rw [pass_of_round hactive hfinal hfault,
                pass_of_round hactive' hfinal' (by rw [hround, hfault]), hround]
              rfl
          | some fault =>
              rw [pass_of_fault hactive hfinal hfault,
                pass_of_fault hactive' hfinal' (by rw [hround, hfault]), hround]
              rfl

/-- What is worth feeding is mentioned by the clauses of a phase. -/
theorem mentioned_of_mem_actionable {p : Prediction} {i : Nat} (hi : i ∈ p.actionable) :
    i ∈ mentioned p.pre.clauses ∨ i ∈ mentioned p.main.clauses := by
  obtain ⟨href, -⟩ := Prediction.mem_actionable_iff.1 hi
  rw [Prediction.activeReferences] at href
  split at href
  · exact .inl href
  · exact .inr href
  · exact absurd href List.not_mem_nil

/-- A pass leaves the clauses as they are. -/
theorem pass_clauses (m : Market) (s : Session) :
    (s.pass m).session.prediction.pre = s.prediction.pre ∧
      (s.pass m).session.prediction.main = s.prediction.main := by
  cases hactive : s.inactive with
  | true =>
      rw [pass_of_inactive hactive]
      exact ⟨rfl, rfl⟩
  | false =>
      cases hfinal : s.prediction.isFinal with
      | true =>
          rw [pass_of_final hactive hfinal]
          exact ⟨rfl, rfl⟩
      | false =>
          rw [pass_prediction hactive hfinal, round_frame]
          exact ⟨rfl, rfl⟩

/-- **Draining does not see closed streams** of conditions that the clauses do not mention. -/
theorem drain_closedBut (hpre : ∀ i ∈ mentioned s.prediction.pre.clauses, i ∈ is)
    (hmain : ∀ i ∈ mentioned s.prediction.main.clauses, i ∈ is) (limit : Nat) :
    (s.closedBut is).drain m limit =
      ((s.drain m limit).1.closedBut is, (s.drain m limit).2) := by
  induction limit generalizing s with
  | zero => rfl
  | succ limit ih =>
      cases hactive : s.inactive with
      | true =>
          have hactive' : (s.closedBut is).inactive = true := hactive
          rw [drain_of_inactive _ hactive, drain_of_inactive _ hactive']
      | false =>
          have hactive' : (s.closedBut is).inactive = false := hactive
          have hactionable : ∀ i ∈ s.prediction.actionable, i ∈ is := fun i hi =>
            (mentioned_of_mem_actionable hi).elim (hpre i) (hmain i)
          have hpass : (s.closedBut is).pass m = _ := pass_closedBut hactionable
          obtain ⟨hpre', hmain'⟩ := pass_clauses m s
          rw [drain_succ limit hactive, drain_succ limit hactive', hpass,
            ih (hpre' ▸ hpre) (hmain' ▸ hmain)]

end Session

end Forecast
