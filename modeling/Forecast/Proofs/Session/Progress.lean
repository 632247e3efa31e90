import Forecast.Proofs.Session.Attention
import Forecast.Proofs.Session.Resumption

/-!
# Progress of Sessions

A session that is cut off, while there are still ticks to feed, is taken up again by another. Has it
got anything done until then? What counts is that a condition has seen a later time
(`Prediction.SeesMore`). A stream is reopened at the last time that its condition has seen, so the
first tick of a session may be one that the condition stands on already
(`Prediction.StandsOnTicks`). The second tick is a later one.

Every pass of a session that goes on feeds something, and what is fed in two passes has seen more.
If a condition is worth feeding in the second pass that was not in the first, the first phase has
been passed in between (`HasTaken.outcome_of_new`). As this happens but once, three passes are
enough (`Lasts.sees_more`). Two are, too, but for one case: what only the second phase mentions has
seen nothing while the first one waits (`Prediction.WaitsUntouched`), so that its first tick is
later than all that it has seen, if it is not one of the second 0 (`Lasts.sees_more_or_begins`).

## Main results

* `Session.drain_sees_more`: what a session over charts gets done that is cut off.
* `Session.not_hasTicksLeft_of_ended`: a session that is not cut off leaves no ticks.
* `Session.waitsUntouched_drain`: sessions feed nothing for the second phase before its time.
-/

namespace Forecast

/-! ### Where a condition stands -/

namespace Condition

variable {c d : Condition Price} {z : TickSet Price} {zs : List (TickSet Price)} {ts : Int}

/-- An open condition that is fed ticks of one time, not before its window, has seen this time. -/
theorem lastTs_of_feed (hopen : c.isFinished = false) (h : c.feed z = .ok d)
    (hz : ∀ t ∈ z.values, t.timestamp = ts) (hfrom : c.fromTs ≤ ts) :
    d.state.lastTs = ts ∧ d.state.status ≠ .unstarted := by
  rcases feed_eq_ok_iff.1 h with ⟨hfinished, -⟩ | ⟨-, ts', hacc, rfl⟩
  · rw [hopen] at hfinished
    cases hfinished
  · obtain ⟨hne, hall, -, -⟩ := accepts_eq_ok_iff.1 hacc
    obtain ⟨t, ht⟩ := List.exists_mem_of_ne_nil _ hne
    obtain rfl : ts' = ts := (hall t ht).symm.trans (hz t ht)
    have hadvance : (c.advance ts' z).lastTs = ts' ∧ (c.advance ts' z).status ≠ .unstarted := by
      rw [advance, if_neg (Int.not_lt.2 hfrom)]
      split
      · exact ⟨rfl, by simp⟩
      split
      · exact ⟨rfl, by simp⟩
      · exact ⟨rfl, by simp⟩
    exact hadvance

/-- A condition that is still open after a series of ticks from its window on has seen the times of
all of them. -/
theorem le_lastTs_of_feedEach (h : c.feedEach zs = .ok d) (hopen : d.isFinished = false)
    (hfrom : ∀ z ∈ zs, ∀ t ∈ z.values, c.fromTs ≤ t.timestamp) :
    ∀ z ∈ zs, ∀ t ∈ z.values, t.timestamp ≤ d.state.lastTs := by
  induction zs generalizing c with
  | nil => exact fun z hz => absurd hz List.not_mem_nil
  | cons z zs ih =>
      obtain ⟨e, he, hd⟩ := feedEach_cons_eq_ok_iff.1 h
      obtain ⟨hz, hzs⟩ := List.forall_mem_cons.1 hfrom
      have hcontinues := continues_of_feedEach hd
      have hopen' : e.isFinished = false := by
        by_contra hfinished
        rw [hcontinues.finished (Bool.not_eq_false _ ▸ hfinished)] at hopen
        exact hfinished hopen
      obtain ⟨ts, hacc, -, -, -, rfl⟩ := remembers_of_feed he hz hopen'
      obtain ⟨-, hall, -, -⟩ := accepts_eq_ok_iff.1 hacc
      refine List.forall_mem_cons.2 ⟨fun t ht => ?_, ih hd hzs⟩
      rw [hall t ht]
      exact hcontinues.lastTs

end Condition

/-! ### What sessions take -/

namespace Prediction

/-- Whether a condition has seen a later time than before. -/
def SeesMore (p q : Prediction) : Prop :=
  ∃ (i : Nat) (c d : Condition Price), p.given[i]? = some c ∧ q.given[i]? = some d ∧
    c.state.lastTs < d.state.lastTs

instance (p q : Prediction) : Decidable (p.SeesMore q) :=
  decidable_of_iff (∃ i ∈ List.range p.given.length, ∃ c ∈ p.given[i]?, ∃ d ∈ q.given[i]?,
    c.state.lastTs < d.state.lastTs) <| by
    constructor
    · rintro ⟨i, -, c, hc, d, hd, hlt⟩
      exact ⟨i, c, d, hc, hd, hlt⟩
    · rintro ⟨i, c, d, hc, hd, hlt⟩
      exact ⟨i, List.mem_range.2 (List.getElem?_eq_some_iff.1 hc).1, c, hc, d, hd, hlt⟩

/-- Whether a condition that had seen nothing has begun, at the second 0. -/
def BeginsAtZero (p q : Prediction) : Prop :=
  ∃ (i : Nat) (c d : Condition Price), p.given[i]? = some c ∧ q.given[i]? = some d ∧
    c.state = .initial ∧ d.state.status ≠ .unstarted ∧ d.state.lastTs = 0

/-- Whether a prediction that waits has seen nothing for the second phase alone. -/
def WaitsUntouched (p : Prediction) : Prop :=
  p.outcome = .waiting → ∀ i ∉ mentioned p.pre.clauses, ∀ c, p.given[i]? = some c →
    c.state = .initial

end Prediction

namespace Session

open Prediction (SeesMore BeginsAtZero WaitsUntouched)

variable {m : Market} {supply : Nat → List (TickSet Price)} {s s' : Session} {n : Nat → Nat}

/-- **What a session takes in any number of passes,** if it has no errors. -/
theorem IsSupplied.hasTaken_drain (h : s.IsSupplied m supply) (limit : Nat)
    (herrors : (s.drain m limit).2 = []) : ∃ n, HasTaken m supply s (s.drain m limit).1 n := by
  induction limit generalizing s supply with
  | zero => exact ⟨_, .refl h⟩
  | succ limit ih =>
      cases hactive : s.inactive with
      | true =>
          rw [drain_of_inactive _ hactive]
          exact ⟨_, .refl h⟩
      | false =>
          rw [drain_succ limit hactive] at herrors ⊢
          obtain ⟨hpass, hrest⟩ := List.append_eq_nil_iff.1 herrors
          cases hopen : s.prediction.isFinal with
          | true =>
              rw [pass_of_final hactive hopen, drain_of_inactive limit rfl]
              exact ⟨_, (HasTaken.refl h).withState s.prediction.state true⟩
          | false =>
              obtain ⟨htaken, -, -⟩ := h.hasTaken_pass hactive hopen hpass
              obtain ⟨n, hn⟩ := ih htaken.supplied hrest
              exact ⟨_, htaken.trans hn⟩

/-- A later time that was seen later on counts from the beginning. -/
theorem HasTaken.sees_more_after (h : HasTaken m supply s s' n) {r : Prediction}
    (hmore : SeesMore s'.prediction r) : SeesMore s.prediction r := by
  obtain ⟨i, d, e, hd, he, hlt⟩ := hmore
  obtain ⟨c, hc, hcd⟩ := h.exists_before hd
  exact ⟨i, c, e, hc, he, Int.lt_of_le_of_lt (Condition.continues_of_feedEach hcd).lastTs hlt⟩

/-- A later time that has been seen counts to the end. -/
theorem HasTaken.sees_more_before (h : HasTaken m supply s s' n) {p : Prediction}
    (hmore : SeesMore p s.prediction) : SeesMore p s'.prediction := by
  obtain ⟨i, c, d, hc, hd, hlt⟩ := hmore
  obtain ⟨e, he, hde⟩ := h.exists_after hd
  exact ⟨i, c, e, hc, he, Int.lt_of_lt_of_le hlt (Condition.continues_of_feedEach hde).lastTs⟩

/-- What is known of the conditions only grows. -/
theorem HasTaken.settling (h : HasTaken m supply s s' n) (hs : s.prediction.IsConsistent) :
    Settling s.prediction.valueAt s'.prediction.valueAt :=
  Prediction.settling_of_continues hs fun i =>
    Prediction.rel_mono (fun _ _ => Condition.continues_of_feedEach) (h.given i)

/-- **What is worth feeding all of a sudden** is so because the first phase has been passed. -/
theorem HasTaken.outcome_of_new (h : HasTaken m supply s s' n) (hs : s.prediction.IsConsistent)
    {j : Nat} (hj : j ∈ s'.prediction.actionable) (hnew : j ∉ s.prediction.actionable) :
    s.prediction.outcome = .waiting ∧ s'.prediction.outcome = .running := by
  have hpre : s'.prediction.pre = s.prediction.pre := by rw [h.frame]
  have hmain : s'.prediction.main = s.prediction.main := by rw [h.frame]
  obtain ⟨hrefs, d, hd, hundecided⟩ := Prediction.mem_actionable_iff.1 hj
  -- within one phase, what is open now was open before
  have hother : s'.prediction.activeReferences ≠ s.prediction.activeReferences := by
    intro hsame
    obtain ⟨c, hc, hcd⟩ := h.exists_before hd
    have hcons := hs c (List.mem_of_getElem? hc)
    rcases (Condition.continues_of_feedEach hcd).value_settlesTo hcons with hopen | hvalue
    · exact hnew (Prediction.mem_actionable_iff.2 ⟨hsame ▸ hrefs, c, hc, hopen⟩)
    · exact hnew (Prediction.mem_actionable_iff.2 ⟨hsame ▸ hrefs, c, hc, hvalue.trans hundecided⟩)
  have hleads := Prediction.outcome_leadsTo hpre hmain (h.settling hs)
  cases ho' : s'.prediction.outcome with
  | waiting =>
      have ho := Outcome.LeadsTo.eq_waiting (ho' ▸ hleads)
      rw [Prediction.activeReferences_of_waiting ho, Prediction.activeReferences_of_waiting ho',
        hpre] at hother
      exact absurd rfl hother
  | running =>
      rcases Outcome.LeadsTo.waiting_or_running (ho' ▸ hleads) with ho | ho
      · exact ⟨ho, rfl⟩
      · rw [Prediction.activeReferences_of_running ho, Prediction.activeReferences_of_running ho',
          hmain] at hother
        exact absurd rfl hother
  | _ =>
      rw [Prediction.actionable_eq_nil (by rw [ho']; rfl)] at hj
      exact absurd hj List.not_mem_nil

/-! ### Ticks in order -/

/-- Whether what lies before each condition are ticks of given times, one later than the other, and
none before its window or before what it has seen. -/
structure Ascends (times : Nat → List Int) (supply : Nat → List (TickSet Price)) (p : Prediction) :
    Prop where
  timed : ∀ i, List.Forall₂ (fun z ts => ∀ t ∈ z.values, t.timestamp = ts) (supply i) (times i)
  sorted : ∀ i, (times i).Pairwise (· < ·)
  after : ∀ (i : Nat) (c : Condition Price), p.given[i]? = some c →
    ∀ ts ∈ times i, c.fromTs ≤ ts ∧ c.state.lastTs ≤ ts

variable {times : Nat → List Int} {i : Nat} {c : Condition Price} {ts : Int} {rest : List Int}

/-- What is left is in order, too. -/
theorem HasTaken.ascends (h : HasTaken m supply s s' n)
    (hascends : Ascends times supply s.prediction) :
    Ascends (fun i => (times i).drop (n i)) (fun i => (supply i).drop (n i)) s'.prediction where
  timed i := List.forall₂_drop (n i) (hascends.timed i)
  sorted i := (hascends.sorted i).sublist (List.drop_sublist _ _)
  after i d hd ts hts := by
    obtain ⟨c, hc, hcd⟩ := h.exists_before hd
    obtain ⟨hfrom, hlast⟩ := hascends.after i c hc ts (List.mem_of_mem_drop hts)
    refine ⟨?_, ?_⟩
    · rw [(Condition.continues_of_feedEach hcd).frame]
      exact hfrom
    · -- everything that was taken is earlier than what is left
      have hsorted := hascends.sorted i
      have htimed := List.forall₂_take (n i) (hascends.timed i)
      rw [← List.take_append_drop (n i) (times i)] at hsorted
      have hearlier : ∀ z ∈ (supply i).take (n i), ∀ t ∈ z.values, t.timestamp ≤ ts := by
        intro z hz t ht
        obtain ⟨k, hk, rfl⟩ := List.getElem_of_mem hz
        have htime := htimed.get hk (htimed.length_eq ▸ hk) t ht
        rw [htime]
        exact Int.le_of_lt ((List.pairwise_append.1 hsorted).2.2 _ (List.getElem_mem _) ts hts)
      have hbound := Condition.lastTs_le_of_feedEach hearlier hcd
      omega

/-- **What a pass gets done.** A condition that is worth feeding and has ticks before it stands at
their time after the pass. -/
theorem HasTaken.stands (h : HasTaken m supply s s' (oneOf s.prediction.actionable))
    (hs : s.prediction.IsConsistent) (hascends : Ascends times supply s.prediction)
    (hi : i ∈ s.prediction.actionable) (hc : s.prediction.given[i]? = some c)
    (htimes : times i = ts :: rest) :
    ∃ d, s'.prediction.given[i]? = some d ∧ d.state.lastTs = ts ∧ d.state.status ≠ .unstarted ∧
      c.state.lastTs ≤ ts := by
  obtain ⟨d, hd, hcd⟩ := h.exists_after hc
  obtain ⟨hfrom, hlast⟩ := hascends.after i c hc ts (htimes ▸ List.mem_cons_self)
  have htimed := hascends.timed i
  rw [htimes] at htimed
  generalize hsupply : supply i = zs at htimed
  cases htimed with
  | @cons z _ zs _ hz _ =>
      rw [oneOf, if_pos hi, hsupply, Condition.feedEach_take_one] at hcd
      have hopen := Prediction.not_finished_of_mem_actionable hs hi hc
      obtain ⟨hseen, hstatus⟩ := Condition.lastTs_of_feed hopen hcd hz hfrom
      exact ⟨d, hd, hseen, hstatus, hlast⟩

/-! ### Sessions that last -/

/-- Whether a session, with ticks in order before it, goes on for some passes without errors. -/
structure Lasts (m : Market) (times : Nat → List Int) (supply : Nat → List (TickSet Price))
    (count : Nat) (s : Session) : Prop where
  supplied : s.IsSupplied m supply
  ascends : Ascends times supply s.prediction
  consistent : s.prediction.IsConsistent
  active : s.inactive = false
  opened : s.prediction.isFinal = false
  errors : (s.drain m count).2 = []
  goesOn : (s.drain m count).1.inactive = false

variable {count : Nat}

/-- **A session that lasts goes on with a pass** that takes something, and lasts then for the passes
that are left. -/
theorem Lasts.pass (h : Lasts m times supply (count + 1) s) :
    HasTaken m supply s (s.pass m).session (oneOf s.prediction.actionable) ∧
      (∃ i ∈ s.prediction.actionable, times i ≠ []) ∧
      (s.drain m (count + 1)).1 = ((s.pass m).session.drain m count).1 ∧
      Lasts m (fun i => (times i).drop (oneOf s.prediction.actionable i))
        (fun i => (supply i).drop (oneOf s.prediction.actionable i)) count (s.pass m).session := by
  have herrors := h.errors
  have hgoes := h.goesOn
  rw [drain_succ count h.active] at herrors hgoes ⊢
  obtain ⟨hpass, hrest⟩ := List.append_eq_nil_iff.1 herrors
  obtain ⟨htaken, -, hends⟩ := h.supplied.hasTaken_pass h.active h.opened hpass
  have hactive : (s.pass m).session.inactive = false := by
    by_contra hended
    rw [Bool.not_eq_false] at hended
    rw [drain_of_inactive count hended, hended] at hgoes
    cases hgoes
  refine ⟨htaken, ?_, rfl, htaken.supplied, htaken.ascends h.ascends,
    htaken.isConsistent h.consistent, hactive,
    h.supplied.isFinal_of_active h.active h.opened hpass hactive, hrest, hgoes⟩
  by_contra hnone
  have hended := hends.2 (Or.inr fun i hi => ?_)
  · rw [hactive] at hended
    cases hended
  · have htimes : times i = [] := by
      by_contra hne
      exact hnone ⟨i, hi, hne⟩
    have htimed := h.ascends.timed i
    rw [htimes, List.forall₂_nil_right_iff] at htimed
    exact htimed

/-- What comes of a session that lasts comes of what it is. -/
theorem Lasts.exists_hasTaken (h : Lasts m times supply count s) :
    ∃ n, HasTaken m supply s (s.drain m count).1 n :=
  h.supplied.hasTaken_drain count h.errors

/-- **One pass.** It lets a condition see more, or else every condition that is worth feeding stands
at the first of its ticks already. -/
theorem Lasts.sees_more_or_stands (h : Lasts m times supply (count + 1) s) :
    SeesMore s.prediction (s.drain m (count + 1)).1.prediction ∨
      ∀ i ∈ s.prediction.actionable, ∀ c, s.prediction.given[i]? = some c →
        ∀ ts ∈ (times i).head?, ts = c.state.lastTs := by
  obtain ⟨htaken, -, hdrain, hlasts⟩ := h.pass
  obtain ⟨n, hrest⟩ := hlasts.exists_hasTaken
  by_cases hmore : SeesMore s.prediction (s.pass m).session.prediction
  · exact Or.inl (hdrain ▸ hrest.sees_more_before hmore)
  · refine Or.inr fun i hi c hc ts hts => ?_
    obtain ⟨rest, htimes⟩ := List.head?_eq_some_iff.1 hts
    obtain ⟨d, hd, hseen, -, hle⟩ := htaken.stands h.consistent h.ascends hi hc htimes
    by_contra hne
    exact hmore ⟨i, c, d, hc, hd, by omega⟩

/-- **Two passes.** They let a condition see more, or else the first one passes the first phase, and
the second one feeds what was not worth feeding before. -/
theorem Lasts.sees_more_or_moves (h : Lasts m times supply (count + 2) s) :
    SeesMore s.prediction (s.drain m (count + 2)).1.prediction ∨
      s.prediction.outcome = .waiting ∧ (s.pass m).session.prediction.outcome = .running ∧
        ∃ j ∈ (s.pass m).session.prediction.actionable, j ∉ s.prediction.actionable ∧
          times j ≠ [] := by
  obtain ⟨htaken, -, hdrain, hlasts⟩ := h.pass
  obtain ⟨j, hj, hleft⟩ := hlasts.pass.2.1
  by_cases hagain : j ∈ s.prediction.actionable
  · -- what is fed in both passes sees the time of its second tick
    left
    rw [oneOf, if_pos hagain] at hleft
    obtain ⟨t, u, rest, htimes⟩ : ∃ t u rest, times j = t :: u :: rest := by
      cases htimes : times j with
      | nil => rw [htimes] at hleft; exact absurd rfl hleft
      | cons t us =>
          cases us with
          | nil => rw [htimes] at hleft; exact absurd rfl hleft
          | cons u rest => exact ⟨t, u, rest, rfl⟩
    have hsorted := h.ascends.sorted j
    rw [htimes] at hsorted
    have hlt := (List.pairwise_cons.1 hsorted).1 u List.mem_cons_self
    obtain ⟨-, c, hc, -⟩ := Prediction.mem_actionable_iff.1 hagain
    obtain ⟨d, hd, hseen, -, -⟩ := htaken.stands h.consistent h.ascends hagain hc htimes
    rw [hdrain]
    refine htaken.sees_more_after ?_
    refine (hlasts.sees_more_or_stands).resolve_right fun hstands => ?_
    have := hstands j hj d hd u (by rw [htimes, oneOf, if_pos hagain]; rfl)
    omega
  · obtain ⟨hwaiting, hrunning⟩ := htaken.outcome_of_new h.consistent hj hagain
    rw [oneOf, if_neg hagain] at hleft
    exact Or.inr ⟨hwaiting, hrunning, j, hj, hagain, hleft⟩

/-- **Three passes** let a condition see more: the first phase is passed but once. -/
theorem Lasts.sees_more (h : Lasts m times supply (count + 3) s) :
    SeesMore s.prediction (s.drain m (count + 3)).1.prediction := by
  obtain ⟨htaken, -, hdrain, hlasts⟩ := h.pass
  rcases h.sees_more_or_moves with hmore | ⟨-, hrunning, -⟩
  · exact hmore
  · rcases hlasts.sees_more_or_moves with hmore | ⟨hwaiting, -⟩
    · exact hdrain ▸ htaken.sees_more_after hmore
    · rw [hrunning] at hwaiting
      cases hwaiting

/-- **Two passes, and a second phase that has not begun.** They let a condition see more, or else
one that had seen nothing begins at the second 0. -/
theorem Lasts.sees_more_or_begins (h : Lasts m times supply 2 s)
    (huntouched : s.prediction.WaitsUntouched) :
    SeesMore s.prediction (s.drain m 2).1.prediction ∨
      BeginsAtZero s.prediction (s.drain m 2).1.prediction := by
  rcases h.sees_more_or_moves with hmore | ⟨hwaiting, -, j, hj, hnew, hleft⟩
  · exact Or.inl hmore
  by_cases hmore : SeesMore s.prediction (s.drain m 2).1.prediction
  · exact Or.inl hmore
  right
  obtain ⟨htaken, -, hdrain, hlasts⟩ := h.pass
  obtain ⟨htaken', -, hdrain', -⟩ := hlasts.pass
  obtain ⟨-, d, hd, hundecided⟩ := Prediction.mem_actionable_iff.1 hj
  have hd' : s.prediction.given[j]? = some d := by
    rw [← htaken.getElem?_given_eq, hd]
    rw [oneOf, if_neg hnew, List.take_zero]
  -- what is not worth feeding while the first phase waits is not mentioned by it
  have hfresh : d.state = .initial := by
    refine huntouched hwaiting j (fun hmentioned => hnew ?_) d hd'
    rw [← Prediction.activeReferences_of_waiting hwaiting] at hmentioned
    exact Prediction.mem_actionable_iff.2 ⟨hmentioned, d, hd', hundecided⟩
  obtain ⟨ts, rest, htimes⟩ := List.exists_cons_of_ne_nil hleft
  have htimes' : (times j).drop (oneOf s.prediction.actionable j) = ts :: rest := by
    rw [oneOf, if_neg hnew, htimes, List.drop_zero]
  obtain ⟨e, he, hseen, hstatus, hle⟩ :=
    htaken'.stands hlasts.consistent hlasts.ascends hj hd htimes'
  have hdrained : (s.drain m 2).1.prediction.given[j]? = some e := by
    rw [hdrain, hdrain', drain]
    exact he
  have hzero : ¬ d.state.lastTs < e.state.lastTs := fun hlt =>
    hmore ⟨j, d, e, hd', hdrained, hlt⟩
  refine ⟨j, d, e, hd', hdrained, hfresh, hstatus, ?_⟩
  have hlast : d.state.lastTs = 0 := by rw [hfresh]; rfl
  omega

/-! ### What waits for the second phase -/

/-- What is looked after goes on from stage to stage. -/
theorem Attends.continues {is : List Nat} {rs : List FeedRequest} (h : Attends m is rs s s')
    (i : Nat) :
    Option.Rel Condition.Continues s.prediction.given[i]? s'.prediction.given[i]? := by
  refine Prediction.rel_mono (fun c d hcd => ?_) (h.fed i)
  rcases hcd with rfl | ⟨z, hz⟩
  · exact .refl _
  · exact Condition.continues_of_feed hz

/-- **A pass over a prediction that waits for the first phase** touches nothing else. -/
theorem waitsUntouched_pass (m : Market) (hlength : s.streams.length = s.prediction.given.length)
    (hcons : s.prediction.IsConsistent) (h : s.prediction.WaitsUntouched) :
    (s.pass m).session.prediction.WaitsUntouched := by
  intro hwaiting' i hi d hd
  obtain ⟨hpass, -⟩ := attends_pass m hlength
  have hpre : (s.pass m).session.prediction.pre = s.prediction.pre := by rw [hpass.frame]
  have hmain : (s.pass m).session.prediction.main = s.prediction.main := by rw [hpass.frame]
  have hwaiting : s.prediction.outcome = .waiting := by
    have hleads := Prediction.outcome_leadsTo hpre hmain
      (Prediction.settling_of_continues hcons hpass.continues)
    exact Outcome.LeadsTo.eq_waiting (hwaiting' ▸ hleads)
  rw [hpre] at hi
  have hapart : i ∉ s.attended := by
    intro hmem
    obtain ⟨hrefs, -⟩ := Prediction.mem_actionable_iff.1 (attended_subset s hmem)
    rw [Prediction.activeReferences_of_waiting hwaiting] at hrefs
    exact hi hrefs
  rw [hpass.given_apart i hapart] at hd
  exact h hwaiting i hi d hd

/-- Draining a prediction that waits for the first phase touches nothing else. -/
theorem waitsUntouched_drain (m : Market) (limit : Nat)
    (hlength : s.streams.length = s.prediction.given.length) (hcons : s.prediction.IsConsistent)
    (h : s.prediction.WaitsUntouched) : (s.drain m limit).1.prediction.WaitsUntouched := by
  induction limit generalizing s with
  | zero => exact h
  | succ limit ih =>
      cases hactive : s.inactive with
      | true =>
          rw [drain_of_inactive _ hactive]
          exact h
      | false =>
          obtain ⟨hpass, -⟩ := attends_pass m hlength
          rw [drain_succ limit hactive]
          refine ih (by rw [hpass.streams_length, hlength, hpass.given_length]) ?_
            (waitsUntouched_pass m hlength hcons h)
          intro d hd
          obtain ⟨i, hi⟩ := List.getElem?_of_mem hd
          obtain ⟨c, hc, hcd⟩ := Prediction.rel_some_right (hi ▸ hpass.continues i)
          exact hcd.consistent (hcons c (List.mem_of_getElem? hc))

end Session

/-! ### Sessions over charts -/

namespace Prediction

variable (m : Market) (chart : String → List Candle) (now : Int) (p : Prediction)

/-- Whether a condition that is worth feeding has a tick in its window, up to a second, that is
later than what it has seen. -/
def HasTicksLeft : Prop :=
  ∃ i ∈ p.actionable, ∃ c ∈ p.given[i]?, ∃ j ∈ c.instruments, ∃ t ∈ m.chartTicks chart j.key,
    c.fromTs ≤ t.timestamp ∧ t.timestamp ≤ now ∧ c.state.lastTs < t.timestamp

/-- Whether all conditions that are worth feeding stand on their ticks: the first tick, up to a
second, that is neither before the window nor before what the condition has seen, if there is any,
is one of the very time that it has seen last. -/
def StandsOnTicks : Prop :=
  ∀ i ∈ p.actionable, ∀ c ∈ p.given[i]?, ∀ j ∈ c.instruments,
    ∀ t ∈ (span (max c.fromTs c.state.lastTs) now (m.chartTicks chart j.key)).head?,
      t.timestamp = c.state.lastTs

instance : Decidable (p.HasTicksLeft m chart now) :=
  inferInstanceAs (Decidable (∃ i ∈ p.actionable, _))

instance : Decidable (p.StandsOnTicks m chart now) :=
  inferInstanceAs (Decidable (∀ i ∈ p.actionable, _))

end Prediction

namespace Session

variable {chart : String → List Candle} {now : Int} {p : Prediction}

/-- The times of the ticks that lie before the condition at a position. -/
def timesBefore (m : Market) (chart : String → List Candle) (now : Int) (p : Prediction)
    (i : Nat) : List Int :=
  (p.given[i]?.map fun c => (c.instruments.flatMap fun j =>
    span (max c.fromTs c.state.lastTs) now (m.chartTicks chart j.key)).map (·.timestamp)).getD []

/-- The times of the ticks of one instrument. -/
theorem timesBefore_eq {j : Instrument} (hc : p.given[i]? = some c) (hj : c.instruments = [j]) :
    timesBefore m chart now p i =
      (span (max c.fromTs c.state.lastTs) now (m.chartTicks chart j.key)).map (·.timestamp) := by
  rw [timesBefore, hc, Option.map_some, Option.getD_some, hj, List.flatMap_singleton]

/-- What lies before a condition on one instrument. -/
theorem suppliesOf_of_single {j : Instrument} (hc : p.given[i]? = some c)
    (hj : c.instruments = [j]) :
    suppliesOf m chart now p i =
      oneByOne j.key (span (max c.fromTs c.state.lastTs) now (m.chartTicks chart j.key)) := by
  rw [suppliesOf_eq hc, supplyOf, hj, List.map_singleton, sets_singleton]

/-- In a market with charts, conditions on one instrument each have ticks in order before them. -/
theorem ascends_of_single (hm : m.Serves chart)
    (hsingle : ∀ c ∈ p.given, ∃ j, c.instruments = [j]) :
    Ascends (timesBefore m chart now p) (suppliesOf m chart now p) p := by
  have hcases (i : Nat) : (timesBefore m chart now p i = [] ∧ suppliesOf m chart now p i = []) ∨
      ∃ c j, p.given[i]? = some c ∧ c.instruments = [j] := by
    cases hc : p.given[i]? with
    | none => exact Or.inl ⟨by rw [timesBefore, hc]; rfl, by rw [suppliesOf, hc]; rfl⟩
    | some c =>
        obtain ⟨j, hj⟩ := hsingle c (List.mem_of_getElem? hc)
        exact Or.inr ⟨c, j, rfl, hj⟩
  refine ⟨fun i => ?_, fun i => ?_, fun i c hc ts hts => ?_⟩
  · rcases hcases i with ⟨htimes, hsupply⟩ | ⟨c, j, hc, hj⟩
    · rw [htimes, hsupply]
      exact .nil
    · rw [timesBefore_eq hc hj, suppliesOf_of_single hc hj, oneByOne, List.forall₂_map_left_iff,
        List.forall₂_map_right_iff, List.forall₂_same]
      exact fun t _ => List.forall_mem_singleton.2 rfl
  · rcases hcases i with ⟨htimes, -⟩ | ⟨c, j, hc, hj⟩
    · rw [htimes]
      exact .nil
    · rw [timesBefore_eq hc hj, List.pairwise_map]
      exact (hm.chartTicks_sorted j.key).filter _
  · obtain ⟨j, hj⟩ := hsingle c (List.mem_of_getElem? hc)
    rw [timesBefore_eq hc hj] at hts
    obtain ⟨t, ht, rfl⟩ := List.mem_map.1 hts
    have := (mem_span ht).1
    omega

/-- **A session that has ended without errors has fed all ticks** that there were for what would be
worth feeding. -/
theorem not_hasTicksLeft_of_ended (hm : m.Serves chart)
    (hservable : p.IsServable) (hsingle : ∀ c ∈ p.given, ∃ j, c.instruments = [j])
    (hcons : p.IsConsistent) (hongoing : p.isFinal = false) (hs : Session.start m p now = .ok s) {limit : Nat}
    (herrors : (s.drain m limit).2 = []) (hended : (s.drain m limit).1.inactive = true) :
    ¬ (s.drain m limit).1.prediction.HasTicksLeft m chart now := by
  rintro ⟨i, hi, d, hd, j, hj, t, ht, hfrom, hnow, hlater⟩
  have hsupplied := isSupplied_of_start hm hs hservable
  obtain ⟨-, rfl⟩ := start_eq_ok_iff.1 hs
  obtain ⟨n, htaken, -, hends⟩ :=
    hsupplied.exists_hasTaken_drain limit rfl hongoing herrors hended
  have hdry := hends.resolve_left (fun hfinal => by
    rw [Prediction.actionable_eq_nil hfinal] at hi
    exact absurd hi List.not_mem_nil) i hi
  obtain ⟨c, hc, hcd⟩ := htaken.exists_before hd
  have hframe := (Condition.continues_of_feedEach hcd).frame
  have hlast := (Condition.continues_of_feedEach hcd).lastTs
  have hquotes : j ∈ c.instruments := by
    rw [hframe] at hj
    exact hj
  have hfrom' : c.fromTs ≤ t.timestamp := by
    rw [hframe] at hfrom
    exact hfrom
  obtain ⟨j', hj'⟩ := hsingle c (List.mem_of_getElem? hc)
  obtain rfl : j = j' := List.mem_singleton.1 (hj' ▸ hquotes)
  rw [List.take_of_length_le (List.drop_eq_nil_iff.1 hdry)] at hcd
  have hseen := Condition.le_lastTs_of_feedEach hcd
    (Prediction.not_finished_of_mem_actionable (htaken.isConsistent hcons) hi hd)
    fun z hz u hu => by
      rw [suppliesOf_eq hc] at hz
      exact le_of_mem_supplyOf hz hu
  have hmem : t ∈ span (max c.fromTs c.state.lastTs) now (m.chartTicks chart j.key) :=
    List.mem_filter.2 ⟨ht, decide_eq_true ⟨by omega, hnow⟩⟩
  have := hseen _ (by rw [suppliesOf_of_single hc hj']; exact List.mem_map.2 ⟨t, hmem, rfl⟩) t
    List.mem_cons_self
  omega

/-- **What a session gets done that is cut off.** Take a prediction of conditions on one instrument
each in a market with charts, and a number of passes without errors after which a condition that is
worth feeding has ticks left. If there were three passes or more, a condition has seen more. If
there were two, this may be a first tick at the second 0. If there was one, it may be that every
condition worth feeding stood at a tick of its chart, and was fed this tick again. -/
theorem drain_sees_more (hm : m.Serves chart)
    (hservable : p.IsServable) (hsingle : ∀ c ∈ p.given, ∃ j, c.instruments = [j])
    (hcons : p.IsConsistent) (huntouched : p.WaitsUntouched) (hongoing : p.isFinal = false)
    (hs : Session.start m p now = .ok s) {limit : Nat} (hlimit : 1 ≤ limit)
    (herrors : (s.drain m limit).2 = [])
    (hleft : (s.drain m limit).1.prediction.HasTicksLeft m chart now) :
    p.SeesMore (s.drain m limit).1.prediction ∨ (limit = 1 ∧ p.StandsOnTicks m chart now) ∨
      (limit = 2 ∧ p.BeginsAtZero (s.drain m limit).1.prediction) := by
  have hgoes : (s.drain m limit).1.inactive = false := by
    by_contra hended
    exact not_hasTicksLeft_of_ended hm hservable hsingle hcons hongoing hs herrors
      (Bool.not_eq_false _ ▸ hended) hleft
  have hsupplied := isSupplied_of_start hm hs hservable
  obtain ⟨-, rfl⟩ := start_eq_ok_iff.1 hs
  have hlasts : Lasts m (timesBefore m chart now p) (suppliesOf m chart now p) limit _ :=
    ⟨hsupplied, ascends_of_single hm hsingle, hcons, rfl, hongoing, herrors, hgoes⟩
  obtain rfl | rfl | ⟨count, rfl⟩ : limit = 1 ∨ limit = 2 ∨ ∃ count, limit = count + 3 := by
    by_cases hlarge : 3 ≤ limit
    · exact Or.inr (Or.inr ⟨limit - 3, by omega⟩)
    · omega
  · refine hlasts.sees_more_or_stands.imp_right fun hstands => Or.inl ⟨rfl, ?_⟩
    intro i hi c hc j hj t ht
    obtain ⟨j', hj'⟩ := hsingle c (List.mem_of_getElem? hc)
    obtain rfl : j = j' := List.mem_singleton.1 (hj' ▸ hj)
    refine hstands i hi c hc t.timestamp ?_
    rw [timesBefore_eq hc hj', List.head?_map, Option.mem_def.1 ht]
    rfl
  · exact (hlasts.sees_more_or_begins huntouched).imp_right fun h => Or.inr ⟨rfl, h⟩
  · exact Or.inl hlasts.sees_more

end Session

end Forecast
