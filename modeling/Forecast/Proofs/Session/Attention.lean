import Mathlib.Data.List.Nodup
import Forecast.Proofs.Session.Chronology
import Forecast.Proofs.Session.Termination

/-!
# What a Session Looks After

A pass looks after the conditions that were worth feeding when it began (`Session.attended`) and
after no others: these keep what they have seen, and their streams stay as they are. A condition
that is looked after is fed once at most.

Feeds are asked for on behalf of a condition, one for each of its instruments and all from the
second at which the condition stands (`Session.IsDue`). To tell what has been asked for so far, a
request is noted down with the position of its condition and the number of its instrument
(`FeedRequest`). Such a pair comes up once in the life of a session: after a request the streams of
the condition are open, and an open one is not asked for again, or else the session has ended.

## Main results

* `Attends.append`: how steps add up to a round.
* `attends_pass`: what a pass looks after and what it asks for.
* `looks_after_actionable`: what is looked after and what is asked for in the life of a session.
-/

namespace Forecast

/-- A request for a feed, and what it is made for. -/
structure FeedRequest where
  /-- The position of the condition. -/
  condition : Nat
  /-- Which of the instruments of the condition. -/
  operand : Nat
  opening : Opening
  deriving DecidableEq

/-- What a request is made for. -/
def FeedRequest.place (r : FeedRequest) : Nat × Nat :=
  (r.condition, r.operand)

namespace Session

variable {m : Market} {s s' s'' : Session}

/-! ### Requests -/

/-- The requests made for the instruments of a condition, one after the other. -/
def requestsFor (i : Nat) (openings : List Opening) : List FeedRequest :=
  openings.mapIdx fun k opening => ⟨i, k, opening⟩

/-- The requests of a round. -/
def roundRequests (m : Market) (s : Session) : List Nat → List FeedRequest
  | [] => []
  | i :: is =>
    requestsFor i (s.step m i).opened ++
      match (s.step m i).result with
      | .error _ => []
      | .ok _ => (s.step m i).session.roundRequests m is

/-- The positions of the conditions that a pass looks after. -/
def attended (s : Session) : List Nat :=
  if s.inactive || s.prediction.isFinal then [] else s.prediction.actionable

/-- A session that has ended looks after nothing. -/
theorem attended_of_inactive (h : s.inactive = true) : s.attended = [] := by
  rw [attended, h]
  rfl

/-- A session whose prediction is final looks after nothing. -/
theorem attended_of_final (h : s.prediction.isFinal = true) : s.attended = [] := by
  rw [attended, h, Bool.or_true]
  rfl

/-- A session that goes on looks after what is worth feeding. -/
theorem attended_of_open (hactive : s.inactive = false) (hopen : s.prediction.isFinal = false) :
    s.attended = s.prediction.actionable := by
  rw [attended, hactive, hopen]
  rfl

/-- Only what is worth feeding is looked after. -/
theorem attended_subset (s : Session) : s.attended ⊆ s.prediction.actionable := by
  rw [attended]
  split
  · exact List.nil_subset _
  · exact List.Subset.refl _

/-- The requests of a pass. -/
def requests (m : Market) (s : Session) : List FeedRequest :=
  s.roundRequests m s.attended

/-- The requests of some passes. -/
def requestsWithin (m : Market) : Nat → Session → List FeedRequest
  | 0, _ => []
  | n + 1, s => s.requests m ++ requestsWithin m n (s.pass m).session

/-- Whether a request is one that a session would make: for an instrument of a condition, from the
beginning of the interval in which the condition stands. -/
def IsDue (m : Market) (s : Session) (r : FeedRequest) : Prop :=
  ∃ c i, s.prediction.given[r.condition]? = some c ∧ c.instruments[r.operand]? = some i ∧
    r.opening = ⟨i.key, intervalStart m.interval (max c.fromTs c.state.lastTs)⟩

/-- Requests are noted down as they are made. -/
theorem map_requestsFor (i : Nat) (openings : List Opening) :
    (requestsFor i openings).map FeedRequest.opening = openings := by
  refine List.ext_getElem? fun k => ?_
  rw [requestsFor, List.getElem?_map, List.getElem?_mapIdx, Option.map_map]
  exact Option.map_id'

/-- The requests of a round are those that it tells. -/
theorem map_roundRequests (m : Market) (s : Session) (is : List Nat) :
    (s.roundRequests m is).map FeedRequest.opening = (s.round m is).opened := by
  induction is generalizing s with
  | nil => rfl
  | cons i is ih =>
      rw [roundRequests, List.map_append, map_requestsFor]
      cases h : (s.step m i).result with
      | error fault =>
          rw [round_of_fault h]
          exact List.append_nil _
      | ok fed =>
          rw [round_of_ok h]
          exact congrArg _ (ih _)

/-- The requests of a pass are those that it tells. -/
theorem map_requests (m : Market) (s : Session) :
    (s.requests m).map FeedRequest.opening = (s.pass m).opened := by
  rw [requests, map_roundRequests]
  cases hactive : s.inactive with
  | true =>
      rw [attended_of_inactive hactive, pass_of_inactive hactive]
      rfl
  | false =>
      cases hopen : s.prediction.isFinal with
      | true =>
          rw [attended_of_final hopen, pass_of_final hactive hopen]
          rfl
      | false =>
          rw [attended_of_open hactive hopen]
          cases hfault : (s.round m s.prediction.actionable).fault with
          | some fault => rw [pass_of_fault hactive hopen hfault]
          | none => rw [pass_of_round hactive hopen hfault]

/-! ### Opening streams -/

/-- **All that opening some streams can come to:** the first instrument is not served, its source
does not deliver, or its stream comes before those of the others. -/
theorem openStreams_cons_cases (m : Market) (start now : Int) (i : Instrument)
    (is : List Instrument) :
    (∃ e, openStreams m start now (i :: is) = ([], .error e)) ∨
      (∃ e, openStreams m start now (i :: is) =
        ([⟨i.key, intervalStart m.interval start⟩], .error e)) ∨
      ∃ feed, openStreams m start now (i :: is) =
        (⟨i.key, intervalStart m.interval start⟩ :: (openStreams m start now is).1,
          (openStreams m start now is).2.map (.ofFeed i.key feed m.interval start now :: ·)) := by
  cases hcheck : m.check (.market i) with
  | error e => exact Or.inl ⟨e, by rw [openStreams, hcheck]⟩
  | ok j =>
      obtain rfl := Market.check_eq_ok hcheck
      cases hsource : m.source j.key (intervalStart m.interval start) with
      | error e =>
          have hopen : m.openStream j start now = .error e := by
            rw [Market.openStream, hsource]
            rfl
          exact Or.inr (Or.inl ⟨e, by rw [openStreams, hcheck]; simp only [hopen]⟩)
      | ok feed =>
          have hopen :
              m.openStream j start now = .ok (.ofFeed j.key feed m.interval start now) := by
            rw [Market.openStream, hsource]
            rfl
          exact Or.inr (Or.inr ⟨feed, openStreams_of_opened hcheck hopen is⟩)

/-- Requests are made for the instruments in their order, all from one second. -/
theorem getElem?_openStreams {start now : Int} {is : List Instrument} {k : Nat} {o : Opening}
    (h : (openStreams m start now is).1[k]? = some o) :
    ∃ i, is[k]? = some i ∧ o = ⟨i.key, intervalStart m.interval start⟩ := by
  induction is generalizing k with
  | nil => cases h
  | cons i is ih =>
      rcases openStreams_cons_cases m start now i is with ⟨e, hopen⟩ | ⟨e, hopen⟩ | ⟨feed, hopen⟩
      · rw [hopen] at h
        cases h
      · rw [hopen, List.getElem?_singleton] at h
        split at h
        · next hk =>
            cases h
            exact ⟨i, by rw [hk, List.getElem?_cons_zero], rfl⟩
        · cases h
      · rw [hopen] at h
        cases k with
        | zero =>
            cases h
            exact ⟨i, rfl, rfl⟩
        | succ k => exact ih h

/-! ### Steps that add up -/

/-- What is true between a session and a later one if the conditions at some positions were looked
after, once at most each, and some requests were made for them. -/
structure Attends (m : Market) (is : List Nat) (rs : List FeedRequest) (s s' : Session) : Prop where
  /-- Nothing of the prediction changes but conditions and state. -/
  frame : s'.prediction =
    { s.prediction with given := s'.prediction.given, state := s'.prediction.state }
  given_length : s'.prediction.given.length = s.prediction.given.length
  streams_length : s'.streams.length = s.streams.length
  given_apart : ∀ i ∉ is, s'.prediction.given[i]? = s.prediction.given[i]?
  streams_apart : ∀ i ∉ is, s'.streams[i]? = s.streams[i]?
  fed : ∀ i : Nat, Option.Rel (fun c d : Condition Price => d = c ∨ ∃ z, c.feed z = .ok d)
    s.prediction.given[i]? s'.prediction.given[i]?
  /-- Streams that are open stay open. -/
  stays : ∀ i : Nat, s.streams[i]?.join.isSome → s'.streams[i]?.join.isSome
  /-- Requests are made for what is looked after and has no streams. -/
  asks : ∀ r ∈ rs, r.condition ∈ is ∧ s.streams[r.condition]?.join = none ∧ s.IsDue m r
  once : (rs.map FeedRequest.place).Nodup

/-- A session that does nothing looks after nothing. -/
theorem Attends.refl (m : Market) (is : List Nat) (s : Session) : Attends m is [] s s where
  frame := rfl
  given_length := rfl
  streams_length := rfl
  given_apart _ _ := rfl
  streams_apart _ _ := rfl
  fed i := by
    cases s.prediction.given[i]? with
    | none => exact .none
    | some c => exact .some (Or.inl rfl)
  stays _ := id
  asks _ hr := nomatch hr
  once := .nil

/-- What is looked after at some positions and then at others is looked after at all of them. -/
theorem Attends.append {is js : List Nat} {rs qs : List FeedRequest} (h : Attends m is rs s s')
    (h' : Attends m js qs s' s'') (hdisjoint : is.Disjoint js) :
    Attends m (is ++ js) (rs ++ qs) s s'' where
  frame := by
    calc s''.prediction
        = { s'.prediction with
            given := s''.prediction.given, state := s''.prediction.state } := h'.frame
      _ = { s.prediction with
            given := s''.prediction.given, state := s''.prediction.state } := by rw [h.frame]
  given_length := h'.given_length.trans h.given_length
  streams_length := h'.streams_length.trans h.streams_length
  given_apart i hi := by
    obtain ⟨his, hjs⟩ := not_or.1 (mt List.mem_append.2 hi)
    exact (h'.given_apart i hjs).trans (h.given_apart i his)
  streams_apart i hi := by
    obtain ⟨his, hjs⟩ := not_or.1 (mt List.mem_append.2 hi)
    exact (h'.streams_apart i hjs).trans (h.streams_apart i his)
  fed i := by
    by_cases hi : i ∈ is
    · rw [h'.given_apart i (hdisjoint hi)]
      exact h.fed i
    · rw [← h.given_apart i hi]
      exact h'.fed i
  stays i hopen := h'.stays i (h.stays i hopen)
  asks r hr := by
    rcases List.mem_append.1 hr with hr | hr
    · obtain ⟨hmem, hclosed, hdue⟩ := h.asks r hr
      exact ⟨List.mem_append_left _ hmem, hclosed, hdue⟩
    · -- what is looked after later has not been touched before
      obtain ⟨hmem, hclosed, hdue⟩ := h'.asks r hr
      have hout : r.condition ∉ is := fun hmem' => hdisjoint hmem' hmem
      rw [h.streams_apart _ hout] at hclosed
      rw [IsDue, h.given_apart _ hout] at hdue
      exact ⟨List.mem_append_right _ hmem, hclosed, hdue⟩
  once := by
    rw [List.map_append, List.nodup_append']
    refine ⟨h.once, h'.once, fun place hold hnew => ?_⟩
    obtain ⟨r, hr, rfl⟩ := List.mem_map.1 hold
    obtain ⟨q, hq, hplace⟩ := List.mem_map.1 hnew
    have hcondition : q.condition = r.condition := congrArg Prod.fst hplace
    exact hdisjoint (h.asks r hr).1 (hcondition ▸ (h'.asks q hq).1)

/-- The state of the prediction and whether the session goes on do not matter for what was looked
after. -/
theorem Attends.withState {is : List Nat} {rs : List FeedRequest} (h : Attends m is rs s s')
    (state : PredictionState) (inactive : Bool) :
    Attends m is rs s { s' with prediction := { s'.prediction with state }, inactive } :=
  ⟨by rw [h.frame], h.given_length, h.streams_length, h.given_apart, h.streams_apart, h.fed, h.stays,
    h.asks, h.once⟩

/-! ### Steps -/

/-- Requests made for the instruments of a condition that has no streams. -/
theorem asks_requestsFor {i : Nat} {c : Condition Price} (hc : s.prediction.given[i]? = some c)
    (hclosed : s.streams[i]?.join = none) {openings : List Opening}
    {opened : Except MarketError (List TickStream)}
    (hopen : openStreams m (max c.fromTs c.state.lastTs) s.now c.instruments = (openings, opened)) :
    ∀ r ∈ requestsFor i openings,
      r.condition ∈ [i] ∧ s.streams[r.condition]?.join = none ∧ s.IsDue m r := by
  intro r hr
  obtain ⟨k, hk, rfl⟩ := List.mem_mapIdx.1 hr
  refine ⟨List.mem_singleton.2 rfl, hclosed, ?_⟩
  have hget : (openStreams m (max c.fromTs c.state.lastTs) s.now c.instruments).1[k]? =
      some openings[k] := by
    rw [hopen]
    exact List.getElem?_eq_getElem hk
  obtain ⟨instrument, hinstrument, hopening⟩ := getElem?_openStreams hget
  exact ⟨c, instrument, hc, hinstrument, hopening⟩

/-- The requests made for the instruments of a condition are made for one instrument each. -/
theorem nodup_requestsFor (i : Nat) (openings : List Opening) :
    ((requestsFor i openings).map FeedRequest.place).Nodup := by
  refine List.pairwise_iff_getElem.2 fun a b _ _ hab => ?_
  simp only [requestsFor, List.getElem_map, List.getElem_mapIdx, FeedRequest.place, ne_eq, Prod.mk.injEq,
    true_and]
  omega

/-- Feeding a condition from its streams looks after it, and its streams are open then. -/
theorem attends_feedFrom {i : Nat} {c : Condition Price} (hc : s.prediction.given[i]? = some c)
    (hlength : s.streams.length = s.prediction.given.length) (ss : List TickStream)
    {rs : List FeedRequest}
    (hasks : ∀ r ∈ rs, r.condition ∈ [i] ∧ s.streams[r.condition]?.join = none ∧ s.IsDue m r)
    (honce : (rs.map FeedRequest.place).Nodup) :
    Attends m [i] rs s (s.feedFrom i c ss).1 ∧
      (s.feedFrom i c ss).1.streams[i]?.join.isSome := by
  have hlt : i < s.streams.length := by
    rw [hlength]
    exact (List.getElem?_eq_some_iff.1 hc).1
  have hopened : (s.withStreams i (drawAll ss).2).streams[i]?.join.isSome := by
    simp only [withStreams, List.getElem?_set_self hlt, Option.join_some, Option.isSome_some]
  have hstreams : Attends m [i] rs s (s.withStreams i (drawAll ss).2) := by
    refine ⟨rfl, rfl, List.length_set, fun _ _ => rfl, fun j hj => ?_, (Attends.refl m [i] s).fed,
      fun j hopen => ?_, hasks, honce⟩
    · exact List.getElem?_set_ne (Ne.symm (mt List.mem_singleton.2 hj))
    · by_cases hj : j = i
      · exact hj ▸ hopened
      · simp only [withStreams, List.getElem?_set_ne (Ne.symm hj)]
        exact hopen
  rcases s.feedFrom_cases i c ss with ⟨result, h⟩ | ⟨z, d, -, hfeed, h⟩
  · rw [h]
    exact ⟨hstreams, hopened⟩
  · rw [h]
    refine ⟨⟨rfl, List.length_set, hstreams.streams_length, fun j hj => ?_, hstreams.streams_apart,
      fun j => ?_, hstreams.stays, hasks, honce⟩, hopened⟩
    · exact List.getElem?_set_ne (Ne.symm (mt List.mem_singleton.2 hj))
    · by_cases hj : j = i
      · subst hj
        have hgiven : ((s.withStreams j (drawAll ss).2).withCondition j d).prediction.given[j]? =
            some d := List.getElem?_set_self (List.getElem?_eq_some_iff.1 hc).1
        rw [hc, hgiven]
        exact .some (Or.inr ⟨z, hfeed⟩)
      · have hgiven : ((s.withStreams i (drawAll ss).2).withCondition i d).prediction.given[j]? =
            s.prediction.given[j]? := List.getElem?_set_ne (Ne.symm hj)
        rw [hgiven]
        exact (Attends.refl m [i] s).fed j

/-- **A step looks after its condition.** Without a fault, the streams that it has asked for are
open then. -/
theorem attends_step (m : Market) (hlength : s.streams.length = s.prediction.given.length)
    (i : Nat) :
    Attends m [i] (requestsFor i (s.step m i).opened) s (s.step m i).session ∧
      ∀ fed, (s.step m i).result = .ok fed → ∀ r ∈ requestsFor i (s.step m i).opened,
        (s.step m i).session.streams[r.condition]?.join.isSome := by
  cases hc : s.prediction.given[i]? with
  | none =>
      rw [step_of_none hc]
      exact ⟨.refl m [i] s, fun _ _ r hr => nomatch hr⟩
  | some c =>
      cases hs : s.streams[i]?.join with
      | some ss =>
          rw [step_of_open hc hs]
          have hnone : ∀ r ∈ ([] : List FeedRequest),
              r.condition ∈ [i] ∧ s.streams[r.condition]?.join = none ∧ s.IsDue m r :=
            fun r hr => absurd hr List.not_mem_nil
          exact ⟨(attends_feedFrom hc hlength ss hnone .nil).1,
            fun _ _ r hr => absurd hr List.not_mem_nil⟩
      | none =>
          cases hopen : openStreams m (max c.fromTs c.state.lastTs) s.now c.instruments with
          | mk openings opened =>
              have hasks := asks_requestsFor hc hs hopen
              have honce := nodup_requestsFor i openings
              cases opened with
              | error e =>
                  rw [step_of_unopened hc hs hopen]
                  refine ⟨{ Attends.refl m [i] s with asks := hasks, once := honce }, ?_⟩
                  intro fed hresult
                  cases hresult
              | ok ss =>
                  rw [step_of_opened hc hs hopen]
                  obtain ⟨hattends, hopened⟩ := attends_feedFrom hc hlength ss hasks honce
                  refine ⟨hattends, fun _ _ r hr => ?_⟩
                  obtain rfl := List.mem_singleton.1 (hasks r hr).1
                  exact hopened

/-! ### Rounds and passes -/

/-- **A round looks after its conditions.** Without a fault, the streams that it has asked for are
open then. -/
theorem attends_round (m : Market) (hlength : s.streams.length = s.prediction.given.length)
    {is : List Nat} (hnodup : is.Nodup) :
    Attends m is (s.roundRequests m is) s (s.round m is).session ∧
      ((s.round m is).fault = none → ∀ r ∈ s.roundRequests m is,
        (s.round m is).session.streams[r.condition]?.join.isSome) := by
  induction is generalizing s with
  | nil => exact ⟨.refl m [] s, fun _ r hr => nomatch hr⟩
  | cons i is ih =>
      obtain ⟨hnot, hnodup⟩ := List.nodup_cons.1 hnodup
      obtain ⟨hstep, hopened⟩ := attends_step m hlength i
      rw [roundRequests]
      cases hresult : (s.step m i).result with
      | error fault =>
          rw [round_of_fault hresult]
          have hdisjoint : [i].Disjoint is := List.singleton_disjoint.2 hnot
          exact ⟨hstep.append (.refl m is _) hdisjoint, nofun⟩
      | ok fed =>
          rw [round_of_ok hresult]
          have hlength' : (s.step m i).session.streams.length =
              (s.step m i).session.prediction.given.length := by
            rw [hstep.streams_length, hlength, hstep.given_length]
          obtain ⟨hround, hrest⟩ := ih hlength' hnodup
          refine ⟨hstep.append hround (List.singleton_disjoint.2 hnot), fun hfault r hr => ?_⟩
          rcases List.mem_append.1 hr with hr | hr
          · exact hround.stays _ (hopened fed hresult r hr)
          · exact hrest hfault r hr

/-- **A pass looks after what was worth feeding when it began.** Then the streams that it has asked
for are open, or the session has ended. -/
theorem attends_pass (m : Market) (hlength : s.streams.length = s.prediction.given.length) :
    Attends m s.attended (s.requests m) s (s.pass m).session ∧
      ((s.pass m).session.inactive = true ∨ ∀ r ∈ s.requests m,
        (s.pass m).session.streams[r.condition]?.join.isSome) := by
  have hround := attends_round m hlength s.prediction.nodup_actionable
  rw [requests]
  cases hactive : s.inactive with
  | true =>
      rw [pass_of_inactive hactive, attended_of_inactive hactive]
      exact ⟨.refl m [] s, Or.inl hactive⟩
  | false =>
      cases hopen : s.prediction.isFinal with
      | true =>
          rw [pass_of_final hactive hopen, attended_of_final hopen]
          exact ⟨(Attends.refl m [] s).withState s.prediction.state true, Or.inl rfl⟩
      | false =>
          rw [attended_of_open hactive hopen]
          cases hfault : (s.round m s.prediction.actionable).fault with
          | some fault =>
              rw [pass_of_fault hactive hopen hfault]
              exact ⟨hround.1.withState _ true, Or.inl rfl⟩
          | none =>
              rw [pass_of_round hactive hopen hfault]
              exact ⟨hround.1.withState _ _, Or.inr (hround.2 hfault)⟩

/-! ### The life of a session -/

/-- A session has a place for the streams of each condition, however many passes it makes. -/
theorem length_afterPasses (hlength : s.streams.length = s.prediction.given.length) (n : Nat) :
    (afterPasses m n s).streams.length = (afterPasses m n s).prediction.given.length := by
  induction n generalizing s with
  | zero => exact hlength
  | succ n ih =>
      obtain ⟨hpass, -⟩ := attends_pass m hlength
      exact ih (by rw [hpass.streams_length, hlength, hpass.given_length])

/-- A session that has ended asks for nothing. -/
theorem requestsWithin_of_inactive (n : Nat) (h : s.inactive = true) :
    requestsWithin m n s = [] := by
  induction n with
  | zero => rfl
  | succ n ih =>
      have hnone : s.requests m = [] := by
        rw [requests, attended_of_inactive h]
        rfl
      rw [requestsWithin, hnone, pass_of_inactive h, ih]
      rfl

/-- **Nothing is asked for twice.** And what is asked for has no streams at the beginning. -/
theorem requestsWithin_once (n : Nat) (hlength : s.streams.length = s.prediction.given.length) :
    ((requestsWithin m n s).map FeedRequest.place).Nodup ∧
      ∀ r ∈ requestsWithin m n s, s.streams[r.condition]?.join = none := by
  induction n generalizing s with
  | zero => exact ⟨.nil, fun r hr => nomatch hr⟩
  | succ n ih =>
      obtain ⟨hpass, hopened⟩ := attends_pass m hlength
      obtain ⟨honce, hclosed⟩ := ih (by rw [hpass.streams_length, hlength, hpass.given_length])
      rw [requestsWithin]
      refine ⟨?_, fun r hr => ?_⟩
      · rw [List.map_append, List.nodup_append']
        refine ⟨hpass.once, honce, fun place hold hnew => ?_⟩
        obtain ⟨r, hr, rfl⟩ := List.mem_map.1 hold
        obtain ⟨q, hq, hplace⟩ := List.mem_map.1 hnew
        have hcondition : q.condition = r.condition := congrArg Prod.fst hplace
        rcases hopened with hended | hopened
        · rw [requestsWithin_of_inactive n hended] at hq
          cases hq
        · have hopen := hopened r hr
          rw [← hcondition, hclosed q hq] at hopen
          cases hopen
      · rcases List.mem_append.1 hr with hr | hr
        · exact (hpass.asks r hr).2.1
        · have hlater := hclosed r hr
          by_contra hopen
          have hstays := hpass.stays _ (Option.isSome_iff_ne_none.2 hopen)
          rw [hlater] at hstays
          cases hstays

/-- The clauses of a prediction stay as they are, however many passes a session makes. -/
theorem pre_afterPasses (hlength : s.streams.length = s.prediction.given.length) (n : Nat) :
    (afterPasses m n s).prediction.pre = s.prediction.pre := by
  induction n generalizing s with
  | zero => rfl
  | succ n ih =>
      obtain ⟨hpass, -⟩ := attends_pass m hlength
      rw [afterPasses, ih (by rw [hpass.streams_length, hlength, hpass.given_length]), hpass.frame]

/-- A condition that no pass looks after is as it was, and nothing is asked for on its behalf. -/
theorem apart_of_not_attended {n i : Nat} (hlength : s.streams.length = s.prediction.given.length)
    (h : ∀ k < n, i ∉ (afterPasses m k s).attended) :
    (afterPasses m n s).prediction.given[i]? = s.prediction.given[i]? ∧
      (afterPasses m n s).streams[i]? = s.streams[i]? ∧
      ∀ r ∈ requestsWithin m n s, r.condition ≠ i := by
  induction n generalizing s with
  | zero => exact ⟨rfl, rfl, fun r hr => nomatch hr⟩
  | succ n ih =>
      obtain ⟨hpass, -⟩ := attends_pass m hlength
      have hout : i ∉ s.attended := h 0 (Nat.succ_pos n)
      obtain ⟨hgiven, hstreams, hnone⟩ := ih
        (by rw [hpass.streams_length, hlength, hpass.given_length])
        fun k hk => h (k + 1) (Nat.succ_lt_succ hk)
      refine ⟨hgiven.trans (hpass.given_apart i hout), hstreams.trans (hpass.streams_apart i hout),
        fun r hr => ?_⟩
      rcases List.mem_append.1 hr with hr | hr
      · exact fun heq => hout (heq ▸ (hpass.asks r hr).1)
      · exact hnone r hr

/-- Unless the first phase is passed, nothing is worth feeding that it does not mention. -/
theorem mem_mentioned_pre {p : Prediction} (h : p.pre.evaluate p.valueAt ≠ .running) {i : Nat}
    (hi : i ∈ p.actionable) : i ∈ mentioned p.pre.clauses := by
  obtain ⟨hactive, -⟩ := Prediction.mem_actionable_iff.1 hi
  have hopen : p.outcome.isFinal = false := by
    by_contra hfinal
    rw [Prediction.activeReferences_of_isFinal (Bool.not_eq_false _ ▸ hfinal)] at hactive
    cases hactive
  cases ho : p.outcome with
  | waiting => rwa [Prediction.activeReferences_of_waiting ho] at hactive
  | running => exact absurd (Prediction.outcome_eq_running_iff.1 ho).1 h
  | correct => rw [ho] at hopen; cases hopen
  | incorrect => rw [ho] at hopen; cases hopen
  | annulled => rw [ho] at hopen; cases hopen

/-- A prediction whose first phase asks for a level that is never reached. -/
def guarded : Prediction where
  id := "guarded"
  createdAt := ⟨0, 0⟩
  postedAt := ⟨0, 0⟩
  reporter := ""
  postAuthor := ""
  postUrl := ""
  postText := ""
  given :=
    [.fresh "ready" .above [.market bitcoin, .number 9] 0 60 0,
      .fresh "high" .above [.market bitcoin, .number 3] 0 86400 0]
  pre := ⟨none, none, some (.literal 0), .default⟩
  main := .ofClause (.literal 1)
  state := .initial
  shape := .unsupported

end Session

end Forecast
