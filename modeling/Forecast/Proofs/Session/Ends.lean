import Mathlib.Data.Option.NAry
import Forecast.Proofs.Prediction.Agreement
import Forecast.Proofs.Session.Resumption

/-!
# Ends of a Prediction on a Chart

In a market that serves charts, sessions without errors bring a prediction to an end up to a second
(`Session.Ends`): every condition has been fed a first part of what lay before it, and those that
the prediction still waits for have been fed all of it. One session does this, and so do several in
a row (`Ends.trans`), since each resumes where the last one stopped.

Two ends of one prediction up to the same second need not be equal. But of each condition one is a
later stage of the other, and so they have in common what any two ends have (`Ends.agree`).

## Main results

* `ends_of_drain`: what a session brings a prediction to.
* `Ends.trans`: sessions in a row.
* `Ends.agree`: what two ends have in common.
-/

namespace Forecast

namespace Session

variable {m : Market} {chart : String → List Candle}

/-- What is true between a prediction and an end of it up to a second. -/
structure Ends (m : Market) (chart : String → List Candle) (now : Int) (p q : Prediction) :
    Prop where
  frame : q = { p with given := q.given, state := q.state }
  length : q.given.length = p.given.length
  given : ∀ (i : Nat) (c d : Condition Price), p.given[i]? = some c → q.given[i]? = some d →
    ∃ zs, zs <+: supplyOf m chart now c ∧ c.feedEach zs = .ok d
  evaluated : q.evaluated = q
  dry : ∀ i ∈ q.actionable, ∀ c d : Condition Price, p.given[i]? = some c →
    q.given[i]? = some d → c.feedEach (supplyOf m chart now c) = .ok d

/-- **A session without errors brings its prediction to an end.** -/
theorem ends_of_drain (hm : m.Serves chart) {p : Prediction} {now : Int} {s : Session}
    (hstart : Session.start m p now = .ok s) (hservable : p.IsServable)
    (hongoing : p.isFinal = false) {limit : Nat} (herrors : (s.drain m limit).2 = [])
    (hended : (s.drain m limit).1.inactive = true) :
    Ends m chart now p (s.drain m limit).1.prediction := by
  have hsupplied := isSupplied_of_start hm hstart hservable
  obtain ⟨-, rfl⟩ := start_eq_ok_iff.1 hstart
  obtain ⟨n, htaken, hevaluated, hends⟩ :=
    hsupplied.exists_hasTaken_drain limit rfl hongoing herrors hended
  generalize (drain m limit _).1 = s' at htaken hevaluated hends ⊢
  have hfed : ∀ (i : Nat) (c d : Condition Price), p.given[i]? = some c →
      s'.prediction.given[i]? = some d →
        c.feedEach ((supplyOf m chart now c).take (n i)) = .ok d := by
    intro i c d hc hd
    obtain ⟨c', hc', hcd⟩ := htaken.exists_before hd
    obtain rfl : c = c' := Option.some.inj (hc.symm.trans hc')
    rwa [suppliesOf_eq hc] at hcd
  refine ⟨htaken.frame, htaken.length_given, fun i c d hc hd => ?_, hevaluated,
    fun i hi c d hc hd => ?_⟩
  · exact ⟨_, List.take_prefix (n i) _, hfed i c d hc hd⟩
  · have hdry : (suppliesOf m chart now p i).drop (n i) = [] := by
      refine hends.resolve_left (fun hfinal => ?_) i hi
      rw [Prediction.actionable_eq_nil hfinal] at hi
      exact absurd hi List.not_mem_nil
    rw [suppliesOf_eq hc] at hdry
    have hcd := hfed i c d hc hd
    rwa [List.take_of_length_le (List.drop_eq_nil_iff.1 hdry)] at hcd

/-- A condition at a position of an end was there before. -/
theorem Ends.exists_before {now : Int} {p q : Prediction} (h : Ends m chart now p q) {i : Nat}
    {d : Condition Price} (hd : q.given[i]? = some d) : ∃ c, p.given[i]? = some c := by
  have hlt := (List.getElem?_eq_some_iff.1 hd).1
  rw [h.length] at hlt
  exact ⟨_, List.getElem?_eq_getElem hlt⟩

/-- Every condition of an end is a later stage of one that was there before. -/
theorem Ends.exists_earlier {now : Int} {p q : Prediction} (h : Ends m chart now p q)
    {d : Condition Price} (hd : d ∈ q.given) : ∃ c ∈ p.given, c.Continues d := by
  obtain ⟨i, hi⟩ := List.getElem?_of_mem hd
  obtain ⟨c, hc⟩ := h.exists_before hi
  obtain ⟨zs, -, hcd⟩ := h.given i c d hc hi
  exact ⟨c, List.mem_of_getElem? hc, Condition.continues_of_feedEach hcd⟩

/-- An end of a consistent prediction is consistent. -/
theorem Ends.isConsistent {now : Int} {p q : Prediction} (h : Ends m chart now p q)
    (hp : p.IsConsistent) : q.IsConsistent := by
  intro d hd
  obtain ⟨c, hc, hcd⟩ := h.exists_earlier hd
  exact hcd.consistent (hp c hc)

/-- An end of a servable prediction is servable. -/
theorem Ends.isServable {now : Int} {p q : Prediction} (h : Ends m chart now p q)
    (hp : p.IsServable) : q.IsServable := by
  intro d hd
  obtain ⟨c, hc, hcd⟩ := h.exists_earlier hd
  exact (hp c hc).of_frame hcd.frame

/-- Where a session can be begun, another can be begun at its end. -/
theorem Ends.start {now now' : Int} {p q : Prediction} (h : Ends m chart now p q) {s : Session}
    (hstart : Session.start m p now = .ok s) :
    Session.start m q now' = .ok ⟨q, q, now', q.given.map fun _ => none, false⟩ := by
  refine start_eq_ok_iff.2 ⟨fun d hd => ?_, rfl⟩
  obtain ⟨c, hc, hcd⟩ := h.exists_earlier hd
  rw [hcd.frame]
  exact (start_eq_ok_iff.1 hstart).1 c hc

/-! ### Sessions in a row -/

/-- A series for a condition that resumes is one for the condition as it was, after what it had been
fed before; and if it is all that lies before the one, it is so for the other. -/
theorem exists_series (hm : m.Serves chart) {now now' : Int} (hnow : now ≤ now')
    {c d : Condition Price} {zs ws : List (TickSet Price)} (hzs : zs <+: supplyOf m chart now c)
    (hfed : c.feedEach zs = .ok d) (hopen : d.isFinished = false)
    (hws : ws <+: supplyOf m chart now' d) :
    ∃ vs, zs ++ vs <+: supplyOf m chart now' c ∧ d.feedEach ws = d.feedEach vs ∧
      (ws = supplyOf m chart now' d → zs ++ vs = supplyOf m chart now' c) := by
  obtain ⟨rest, hrest⟩ := hzs.trans (supplyOf_isPrefix hm hnow c)
  have hfirst : (supplyOf m chart now c).take zs.length = zs := List.prefix_iff_eq_take.1 hzs ▸ rfl
  rcases resumes hm hnow hzs.length_le (by rwa [hfirst]) hopen with
    ⟨hnone, rfl⟩ | ⟨k, z, hlength, hz, hlater, hfeed⟩
  · obtain rfl := List.length_eq_zero_iff.1 hnone
    exact ⟨ws, hws, rfl, id⟩
  · -- the last set of the first series comes first again, and does nothing
    have hbefore : supplyOf m chart now' d = z :: rest := by
      rw [hlater, List.drop_eq_getElem?_toList_append, hz, ← hlength, ← hrest, List.drop_left]
      rfl
    rw [hbefore] at hws ⊢
    cases ws with
    | nil => exact ⟨[], by rw [List.append_nil]; exact ⟨rest, hrest⟩, rfl, nofun⟩
    | cons w vs =>
        obtain ⟨rfl, hvs⟩ := List.cons_prefix_cons.1 hws
        refine ⟨vs, ?_, ?_, fun hall => ?_⟩
        · rw [← hrest]
          exact (List.prefix_append_right_inj zs).2 hvs
        · rw [Condition.feedEach_cons_of_idle hfeed]
        · rw [(List.cons.inj hall).2, hrest]

/-- **An end of an end is an end,** up to the later second. -/
theorem Ends.trans (hm : m.Serves chart) {now now' : Int} (hnow : now ≤ now') {p q r : Prediction}
    (hp : p.IsConsistent) (hpq : Ends m chart now p q) (hqr : Ends m chart now' q r) :
    Ends m chart now' p r where
  frame := by
    calc r = { q with given := r.given, state := r.state } := hqr.frame
      _ = { p with given := r.given, state := r.state } := by rw [hpq.frame]
  length := hqr.length.trans hpq.length
  given i c e hc he := by
    obtain ⟨d, hd⟩ := hqr.exists_before he
    obtain ⟨zs, hzs, hcd⟩ := hpq.given i c d hc hd
    obtain ⟨ws, hws, hde⟩ := hqr.given i d e hd he
    cases hfin : d.isFinished with
    | true =>
        obtain rfl := (Condition.continues_of_feedEach hde).finished hfin
        exact ⟨zs, hzs.trans (supplyOf_isPrefix hm hnow c), hcd⟩
    | false =>
        obtain ⟨vs, hvs, hsame, -⟩ := exists_series hm hnow hzs hcd hfin hws
        exact ⟨zs ++ vs, hvs, Condition.feedEach_append_eq_ok_iff.2 ⟨d, hcd, hsame ▸ hde⟩⟩
  evaluated := hqr.evaluated
  dry i hi c e hc he := by
    obtain ⟨d, hd⟩ := hqr.exists_before he
    obtain ⟨zs, hzs, hcd⟩ := hpq.given i c d hc hd
    have hde := hqr.dry i hi d e hd he
    have hopen := Prediction.not_finished_of_mem_actionable
      (hqr.isConsistent (hpq.isConsistent hp)) hi he
    have hfin : d.isFinished = false := by
      by_contra hfinished
      rw [(Condition.continues_of_feedEach hde).finished (Bool.not_eq_false _ ▸ hfinished)] at hopen
      exact hfinished hopen
    obtain ⟨vs, -, hsame, hall⟩ := exists_series hm hnow hzs hcd hfin List.prefix_rfl
    rw [← hall rfl]
    exact Condition.feedEach_append_eq_ok_iff.2 ⟨d, hcd, hsame ▸ hde⟩

/-- A final end is one up to any later second. -/
theorem Ends.later (hm : m.Serves chart) {now now' : Int} (hnow : now ≤ now') {p q : Prediction}
    (h : Ends m chart now p q) (hfinal : q.isFinal = true) : Ends m chart now' p q where
  frame := h.frame
  length := h.length
  given i c d hc hd := by
    obtain ⟨zs, hzs, hcd⟩ := h.given i c d hc hd
    exact ⟨zs, hzs.trans (supplyOf_isPrefix hm hnow c), hcd⟩
  evaluated := h.evaluated
  dry i hi := by
    have hnone : q.actionable = [] := by
      refine Prediction.actionable_eq_nil ?_
      rw [← h.evaluated] at hfinal
      exact hfinal
    rw [hnone] at hi
    exact absurd hi List.not_mem_nil

/-! ### Two ends -/

/-- What is known at one of two moments. -/
def known (v w : Nat → Option Trilean) (i : Nat) : Option Trilean :=
  Option.map₂ Trilean.join (v i) (w i)

section Two

variable {now : Int} {p q r : Prediction}

/-- Of the conditions of two ends at a position, one is a later stage of the other; and if one end
still waits for it, the condition of the other is no later. -/
theorem Ends.continues (hq : Ends m chart now p q) (hr : Ends m chart now p r) {i : Nat}
    {d e : Condition Price} (hd : q.given[i]? = some d) (he : r.given[i]? = some e) :
    (d.Continues e ∨ e.Continues d) ∧ (i ∈ q.actionable → e.Continues d) ∧
      (i ∈ r.actionable → d.Continues e) := by
  obtain ⟨c, hc⟩ := hq.exists_before hd
  obtain ⟨zs, hzs, hcd⟩ := hq.given i c d hc hd
  obtain ⟨ws, hws, hce⟩ := hr.given i c e hc he
  refine ⟨?_, fun hi => ?_, fun hi => ?_⟩
  · exact (List.prefix_or_prefix_of_prefix hzs hws).imp
      (fun h => Condition.continues_of_isPrefix h hcd hce)
      (fun h => Condition.continues_of_isPrefix h hce hcd)
  · exact Condition.continues_of_isPrefix hws hce (hq.dry i hi c d hc hd)
  · exact Condition.continues_of_isPrefix hzs hcd (hr.dry i hi c e hc he)

/-- Two ends have conditions at the same positions. -/
theorem Ends.exists_condition (hq : Ends m chart now p q) (hr : Ends m chart now p r) {i : Nat}
    {d : Condition Price} (hd : q.given[i]? = some d) : ∃ e, r.given[i]? = some e := by
  have hlt := (List.getElem?_eq_some_iff.1 hd).1
  rw [hq.length, ← hr.length] at hlt
  exact ⟨_, List.getElem?_eq_getElem hlt⟩

/-- An end is one of what is known at it or at another. -/
theorem Ends.standsAt (hp : p.IsConsistent) (hq : Ends m chart now p q)
    (hr : Ends m chart now p r) : q.StandsAt (known q.valueAt r.valueAt) where
  known i := by
    rw [known, Prediction.valueAt, Prediction.valueAt]
    cases hd : q.given[i]? with
    | none => exact .none
    | some d =>
        obtain ⟨e, he⟩ := hq.exists_condition hr hd
        rw [he]
        exact .some (d.value.settlesTo_join e.value)
  unknown i hi := by
    obtain ⟨-, d, hd, hvalue⟩ := Prediction.mem_actionable_iff.1 hi
    obtain ⟨e, he⟩ := hq.exists_condition hr hd
    have hcons := (hr.isConsistent hp) e (List.mem_of_getElem? he)
    have hopen : e.value = .undecided := by
      rcases ((hq.continues hr hd he).2.1 hi).value_settlesTo hcons with h | h
      · exact h
      · rw [h, hvalue]
    rw [known, Prediction.valueAt, Prediction.valueAt, hd, he, Option.map_some, Option.map_some,
      hvalue, hopen]
    rfl

/-- It does not matter which of two ends is the first. -/
theorem Ends.known_comm (hp : p.IsConsistent) (hq : Ends m chart now p q)
    (hr : Ends m chart now p r) : known q.valueAt r.valueAt = known r.valueAt q.valueAt := by
  funext i
  rw [known, known, Prediction.valueAt, Prediction.valueAt]
  cases hd : q.given[i]? with
  | none =>
      cases he : r.given[i]? with
      | none => rfl
      | some e =>
          obtain ⟨d, hd'⟩ := hr.exists_condition hq he
          rw [hd] at hd'
          cases hd'
  | some d =>
      obtain ⟨e, he⟩ := hq.exists_condition hr hd
      have hdcons := (hq.isConsistent hp) d (List.mem_of_getElem? hd)
      have hecons := (hr.isConsistent hp) e (List.mem_of_getElem? he)
      rw [he]
      refine congrArg some (Trilean.join_comm ?_)
      exact (hq.continues hr hd he).1.imp (·.value_settlesTo hdcons) (·.value_settlesTo hecons)

/-- **What two ends of a prediction have in common.** -/
theorem Ends.agree (hp : p.IsConsistent) (hq : Ends m chart now p q) (hr : Ends m chart now p r) :
    Prediction.Agree p.pre p.main q.outcome r.outcome := by
  have hqpre : q.pre = p.pre := by rw [hq.frame]
  have hqmain : q.main = p.main := by rw [hq.frame]
  have hrpre : r.pre = q.pre := by rw [hr.frame, hqpre]
  have hrmain : r.main = q.main := by rw [hr.frame, hqmain]
  have hr' := hr.standsAt hp hq
  rw [← hq.known_comm hp hr] at hr'
  rw [← hqpre, ← hqmain]
  exact Prediction.StandsAt.agree hrpre hrmain (hq.standsAt hp hr) hr'

end Two

end Session

end Forecast
