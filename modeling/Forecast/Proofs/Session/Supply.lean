import Mathlib.Logic.Function.Basic
import Mathlib.Order.Nat
import Forecast.Proofs.Condition.Series
import Forecast.Proofs.Prediction.Actionable
import Forecast.Proofs.Session.Pass
import Forecast.Proofs.Session.Steps
import Forecast.Proofs.TickStream.Delivery

/-!
# What Streams Supply to a Session

The streams of a condition are drawn from together, a tick set at a time, until one of them runs
dry. `Supplies` is the list of sets that this gives, and a session is supplied
(`Session.IsSupplied`) if every condition has such a list before it, from its open streams or from
those that would be opened for it.

Whatever streams there are and however they are interleaved, a supplied session only moves along
these lists. A round takes one set for every condition that it looks after and that has one left
(`IsSupplied.round`). So at any time every condition has taken a first part of its list, and has
become what this series makes of it (`HasTaken`).

## Main results

* `IsSupplied.step`, `IsSupplied.round`, `IsSupplied.pass`: how a supplied session moves.
* `HasTaken.drain`: what a session that ended without errors has taken.
-/

namespace Forecast

namespace Session

/-! ### Supplies -/

/-- What streams supply: some tick sets, one after the other, and then no more. -/
inductive Supplies : List TickStream → List (TickSet Price) → Prop
  | dry {ss ss' : List TickStream} : drawAll ss = (.dry, ss') → Supplies ss []
  | ticks {ss ss' : List TickStream} {z : TickSet Price} {zs : List (TickSet Price)} :
      drawAll ss = (.ticks z, ss') → Supplies ss' zs → Supplies ss (z :: zs)

/-- Streams of which one has run dry have an exhausted one among them. -/
theorem any_exhausted_of_drawEach {ticks : TickSet Price} {ss ss' : List TickStream}
    (h : drawEach ticks ss = (.dry, ss')) : ss'.any (·.exhausted) = true := by
  induction ss generalizing ticks ss' with
  | nil => cases h
  | cons s ss ih =>
      cases hnext : s.next with
      | mk result s' =>
          cases result with
          | ok t =>
              rw [drawEach_of_tick hnext] at h
              obtain ⟨hdrawn, rfl⟩ := Prod.mk.inj h
              rw [List.any_cons, ih (Prod.ext hdrawn rfl), Bool.or_true]
          | error e =>
              rw [drawEach, hnext] at h
              cases e with
              | exhausted last =>
                  cases h
                  rw [List.any_cons, TickStream.exhausted_of_next hnext, Bool.true_or]
              | unsupportedOperand key => cases h
              | unsupportedProvider provider key => cases h
              | sourceFailed key reason => cases h

/-- Streams of which one has run dry supply nothing from then on. -/
theorem supplies_of_dry {ss ss' : List TickStream} (h : drawAll ss = (.dry, ss')) :
    Supplies ss' [] := by
  cases hany : ss.any (·.exhausted) with
  | true =>
      rw [drawAll_of_exhausted hany] at h
      cases h
      exact .dry (drawAll_of_exhausted hany)
  | false =>
      rw [drawAll_of_open hany] at h
      exact .dry (drawAll_of_exhausted (any_exhausted_of_drawEach h))

/-! ### Supplied sessions -/

/-- What a condition of a session has before it: what its open streams supply, or, if they have not
been opened, what those supply that would be opened for it. -/
inductive Awaits (m : Market) (s : Session) (i : Nat) (c : Condition Price)
    (zs : List (TickSet Price)) : Prop
  | opened (ss : List TickStream) :
      s.streams[i]?.join = some ss → Supplies ss zs → Awaits m s i c zs
  | closed (openings : List Opening) (ss : List TickStream) : s.streams[i]?.join = none →
      openStreams m (max c.fromTs c.state.lastTs) s.now c.instruments = (openings, .ok ss) →
      Supplies ss zs → Awaits m s i c zs

/-- Whether every condition of a session has a supply before it, given by its position. -/
structure IsSupplied (m : Market) (supply : Nat → List (TickSet Price)) (s : Session) : Prop where
  length : s.streams.length = s.prediction.given.length
  awaits : ∀ (i : Nat) (c : Condition Price), s.prediction.given[i]? = some c →
    Awaits m s i c (supply i)

variable {m : Market} {supply : Nat → List (TickSet Price)} {s : Session}

/-- A session is still supplied with other streams and another condition at a position, if these
streams supply what is left for it. -/
theorem IsSupplied.set (h : s.IsSupplied m supply) {i : Nat} {c : Condition Price}
    (hc : s.prediction.given[i]? = some c) (d : Condition Price) {ss : List TickStream}
    {zs : List (TickSet Price)} (hss : Supplies ss zs) :
    ((s.withStreams i ss).withCondition i d).IsSupplied m (Function.update supply i zs) := by
  have hlt : i < s.streams.length := by
    rw [h.length]
    exact (List.getElem?_eq_some_iff.1 hc).1
  refine ⟨?_, fun j c' hc' => ?_⟩
  · simp only [withCondition, withStreams, Prediction.setCondition, List.length_set]
    exact h.length
  · by_cases hij : i = j
    · subst hij
      rw [Function.update_self]
      refine .opened ss ?_ hss
      simp only [withCondition, withStreams, List.getElem?_set_self hlt, Option.join_some]
    · rw [Function.update_of_ne (Ne.symm hij)]
      simp only [withCondition, withStreams, Prediction.setCondition,
        List.getElem?_set_ne hij] at hc'
      have hstreams : ((s.withStreams i ss).withCondition i d).streams[j]? = s.streams[j]? := by
        simp only [withCondition, withStreams, List.getElem?_set_ne hij]
      cases h.awaits j c' hc' with
      | opened ss' hopen hzs => exact .opened ss' (hstreams ▸ hopen) hzs
      | closed openings ss' hclosed hopen hzs =>
          exact .closed openings ss' (hstreams ▸ hclosed) hopen hzs

/-- A step feeds from streams that supply what the condition has before it. -/
theorem IsSupplied.exists_feedFrom (h : s.IsSupplied m supply) {i : Nat} {c : Condition Price}
    (hc : s.prediction.given[i]? = some c) :
    ∃ ss, Supplies ss (supply i) ∧ (s.step m i).session = (s.feedFrom i c ss).1 ∧
      (s.step m i).result = (s.feedFrom i c ss).2 := by
  cases h.awaits i c hc with
  | opened ss hopen hzs =>
      exact ⟨ss, hzs, by rw [step_of_open hc hopen], by rw [step_of_open hc hopen]⟩
  | closed openings ss hclosed hopen hzs =>
      exact ⟨ss, hzs, by rw [step_of_opened hc hclosed hopen],
        by rw [step_of_opened hc hclosed hopen]⟩

/-- A condition put where it was changes nothing. -/
theorem withCondition_self {i : Nat} {c : Condition Price} (hc : s.prediction.given[i]? = some c) :
    s.withCondition i c = s := by
  obtain ⟨hlt, rfl⟩ := List.getElem?_eq_some_iff.1 hc
  rw [withCondition, Prediction.setCondition, List.set_getElem_self]

/-- **How a supplied session moves.** A condition without supply is passed over. One with a supply
takes the first set of it, or refuses this set, which is a fault. -/
theorem IsSupplied.step (h : s.IsSupplied m supply) {i : Nat} {c : Condition Price}
    (hc : s.prediction.given[i]? = some c) :
    (supply i = [] ∧ (s.step m i).result = .ok false ∧
        (s.step m i).session.prediction = s.prediction ∧
        (s.step m i).session.IsSupplied m supply) ∨
      ∃ z zs, supply i = z :: zs ∧
        ((∃ d, c.feed z = .ok d ∧ (s.step m i).result = .ok true ∧
            (s.step m i).session.prediction = s.prediction.setCondition i d ∧
            (s.step m i).session.IsSupplied m (Function.update supply i zs)) ∨
          ∃ e, c.feed z = .error e ∧ (s.step m i).result = .error (.feed e)) := by
  obtain ⟨ss, hzs, hsession, hresult⟩ := h.exists_feedFrom hc
  rw [hsession, hresult]
  generalize hsupply : supply i = zs at hzs
  cases hzs with
  | @dry _ ss' hdraw =>
      rw [feedFrom_of_dry hdraw]
      have hset := h.set hc c (supplies_of_dry hdraw)
      rw [withCondition_self (show (s.withStreams i ss').prediction.given[i]? = some c from hc),
        ← hsupply, Function.update_eq_self] at hset
      exact Or.inl ⟨rfl, rfl, rfl, hset⟩
  | @ticks _ ss' z zs hdraw hzs =>
      refine Or.inr ⟨z, zs, rfl, ?_⟩
      cases hfeed : c.feed z with
      | ok d =>
          rw [feedFrom_of_fed hdraw hfeed]
          exact Or.inl ⟨d, rfl, rfl, rfl, h.set hc d hzs⟩
      | error e =>
          rw [feedFrom_of_refused hdraw hfeed]
          exact Or.inr ⟨e, rfl, rfl⟩

/-! ### What has been taken -/

/-- What is true between a supplied session and a later stage of it at which every condition has
taken a number of sets: it has become what this first part of its supply makes of it, and the rest
is before it still. Nothing else has changed but the state of the prediction. -/
structure HasTaken (m : Market) (supply : Nat → List (TickSet Price)) (s s' : Session)
    (taken : Nat → Nat) : Prop where
  initial : s'.initial = s.initial
  now : s'.now = s.now
  frame : s'.prediction =
    { s.prediction with given := s'.prediction.given, state := s'.prediction.state }
  supplied : s'.IsSupplied m fun i => (supply i).drop (taken i)
  given : ∀ i : Nat, Option.Rel (fun c d => c.feedEach ((supply i).take (taken i)) = .ok d)
    s.prediction.given[i]? s'.prediction.given[i]?

section Given

variable {s' : Session} {n : Nat → Nat} {i : Nat}

/-- What a condition was before. -/
theorem HasTaken.exists_before (h : HasTaken m supply s s' n) {d : Condition Price}
    (hd : s'.prediction.given[i]? = some d) :
    ∃ c, s.prediction.given[i]? = some c ∧ c.feedEach ((supply i).take (n i)) = .ok d :=
  Prediction.rel_some_right (hd ▸ h.given i)

/-- What a condition has become. -/
theorem HasTaken.exists_after (h : HasTaken m supply s s' n) {c : Condition Price}
    (hc : s.prediction.given[i]? = some c) :
    ∃ d, s'.prediction.given[i]? = some d ∧ c.feedEach ((supply i).take (n i)) = .ok d :=
  Prediction.rel_some_left (hc ▸ h.given i)

/-- As many conditions as before are there. -/
theorem HasTaken.length_given (h : HasTaken m supply s s' n) :
    s'.prediction.given.length = s.prediction.given.length := by
  refine eq_of_forall_lt_iff fun i => ⟨fun hi => ?_, fun hi => ?_⟩
  · obtain ⟨c, hc, -⟩ := h.exists_before (List.getElem?_eq_getElem hi)
    exact (List.getElem?_eq_some_iff.1 hc).1
  · obtain ⟨d, hd, -⟩ := h.exists_after (List.getElem?_eq_getElem hi)
    exact (List.getElem?_eq_some_iff.1 hd).1

/-- A condition for which nothing was left to take is as it was. -/
theorem HasTaken.getElem?_given_eq (h : HasTaken m supply s s' n)
    (hnone : (supply i).take (n i) = []) : s'.prediction.given[i]? = s.prediction.given[i]? := by
  have hrel := h.given i
  rw [hnone] at hrel
  generalize s.prediction.given[i]? = x at hrel ⊢
  generalize s'.prediction.given[i]? = y at hrel ⊢
  cases hrel with
  | none => rfl
  | some hcd =>
      cases hcd
      rfl

/-- The conditions of a consistent prediction stay consistent. -/
theorem HasTaken.isConsistent (h : HasTaken m supply s s' n) (hs : s.prediction.IsConsistent) :
    s'.prediction.IsConsistent := by
  intro d hd
  obtain ⟨i, hi⟩ := List.getElem?_of_mem hd
  obtain ⟨c, hc, hcd⟩ := h.exists_before hi
  exact (Condition.continues_of_feedEach hcd).consistent (hs c (List.mem_of_getElem? hc))

end Given

/-- At the beginning nothing has been taken. -/
theorem HasTaken.refl (h : s.IsSupplied m supply) : HasTaken m supply s s fun _ => 0 where
  initial := rfl
  now := rfl
  frame := rfl
  supplied := h
  given i := by
    cases s.prediction.given[i]? with
    | none => exact .none
    | some c => exact .some rfl

/-- What has been taken from what was left comes after what had been taken before. -/
theorem HasTaken.trans {s' s'' : Session} {n n' : Nat → Nat} (h : HasTaken m supply s s' n)
    (h' : HasTaken m (fun i => (supply i).drop (n i)) s' s'' n') :
    HasTaken m supply s s'' fun i => n i + n' i where
  initial := h'.initial.trans h.initial
  now := h'.now.trans h.now
  frame := by
    calc s''.prediction
        = { s'.prediction with
            given := s''.prediction.given, state := s''.prediction.state } := h'.frame
      _ = { s.prediction with
            given := s''.prediction.given, state := s''.prediction.state } := by rw [h.frame]
  supplied := by
    have hsupplied := h'.supplied
    simp only [List.drop_drop] at hsupplied
    exact hsupplied
  given i := by
    have hfirst := h.given i
    have hrest := h'.given i
    generalize s.prediction.given[i]? = x at hfirst ⊢
    generalize s'.prediction.given[i]? = y at hfirst hrest
    generalize s''.prediction.given[i]? = z at hrest ⊢
    cases hfirst with
    | none =>
        cases hrest
        exact .none
    | some hcd =>
        cases hrest with
        | some hde =>
            rw [List.take_add]
            exact .some (Condition.feedEach_append_eq_ok_iff.2 ⟨_, hcd, hde⟩)

/-- The state of the prediction and whether the session goes on may be set. -/
theorem HasTaken.withState {s' : Session} {n : Nat → Nat} (h : HasTaken m supply s s' n)
    (state : PredictionState) (inactive : Bool) :
    HasTaken m supply s
      { s' with prediction := { s'.prediction with state }, inactive } n where
  initial := h.initial
  now := h.now
  frame := by
    rw [h.frame]
  supplied := ⟨h.supplied.length, fun i c hc => by
    cases h.supplied.awaits i c hc with
    | opened ss hopen hzs => exact .opened ss hopen hzs
    | closed openings ss hclosed hopen hzs => exact .closed openings ss hclosed hopen hzs⟩
  given := h.given

/-- How many sets a look after some conditions takes for each. -/
def oneOf (is : List Nat) (i : Nat) : Nat :=
  if i ∈ is then 1 else 0

/-- A step without fault takes a set for its condition, if there is one. -/
theorem IsSupplied.hasTaken_step (h : s.IsSupplied m supply) {i : Nat}
    (hi : i < s.prediction.given.length) {fed : Bool} (hresult : (s.step m i).result = .ok fed) :
    HasTaken m supply s (s.step m i).session (oneOf [i]) ∧ (fed = false ↔ supply i = []) := by
  obtain ⟨c, hc⟩ : ∃ c, s.prediction.given[i]? = some c := ⟨_, List.getElem?_eq_getElem hi⟩
  have hframe := step_frame m s i
  rcases h.step hc with ⟨hnone, hfed, hprediction, hsupplied⟩ |
    ⟨z, zs, hsome, ⟨d, hfeed, hfed, hprediction, hsupplied⟩ | ⟨e, -, hfault⟩⟩
  · rw [hresult] at hfed
    cases hfed
    refine ⟨⟨by rw [hframe], by rw [hframe], by rw [hframe], ?_, fun j => ?_⟩, by simp [hnone]⟩
    · convert hsupplied using 2 with j
      by_cases hj : j = i
      · rw [hj, hnone, List.drop_nil]
      · simp [oneOf, hj]
    · rw [hprediction]
      cases hc' : s.prediction.given[j]? with
      | none => exact .none
      | some c' =>
          refine .some ?_
          by_cases hj : j = i
          · rw [hj, hnone, List.take_nil, Condition.feedEach_nil]
          · simp [oneOf, hj]
  · rw [hresult] at hfed
    cases hfed
    refine ⟨⟨by rw [hframe], by rw [hframe], by rw [hframe], ?_, fun j => ?_⟩, by simp [hsome]⟩
    · convert hsupplied using 2 with j
      by_cases hj : j = i
      · simp [oneOf, hj, hsome]
      · simp [oneOf, hj]
    · rw [hprediction, Prediction.setCondition]
      by_cases hj : j = i
      · subst hj
        rw [List.getElem?_set_self hi, hc]
        refine .some ?_
        simp [oneOf, hsome, Condition.feedEach_singleton, hfeed]
      · rw [List.getElem?_set_ne (Ne.symm hj)]
        cases hc' : s.prediction.given[j]? with
        | none => exact .none
        | some c' =>
            refine .some ?_
            simp [oneOf, hj]
  · rw [hresult] at hfault
    cases hfault

/-- **A round without fault takes a set for each of its conditions,** if there is one, and it counts
nothing only if there was none. -/
theorem IsSupplied.hasTaken_round (h : s.IsSupplied m supply) {is : List Nat} (hnodup : is.Nodup)
    (hlt : ∀ i ∈ is, i < s.prediction.given.length) (hfault : (s.round m is).fault = none) :
    HasTaken m supply s (s.round m is).session (oneOf is) ∧
      ((s.round m is).fed = 0 ↔ ∀ i ∈ is, supply i = []) := by
  induction is generalizing s supply with
  | nil =>
      refine ⟨?_, fun _ i hi => absurd hi List.not_mem_nil, fun _ => rfl⟩
      have hnone : oneOf [] = fun _ => 0 := funext fun i => if_neg List.not_mem_nil
      rw [hnone]
      exact .refl h
  | cons i is ih =>
      obtain ⟨hnot, hnodup⟩ := List.nodup_cons.1 hnodup
      obtain ⟨hi, hlt⟩ := List.forall_mem_cons.1 hlt
      cases hresult : (s.step m i).result with
      | error fault =>
          rw [round_of_fault hresult] at hfault
          cases hfault
      | ok fed =>
          rw [round_of_ok hresult] at hfault ⊢
          obtain ⟨hstep, hfed⟩ := h.hasTaken_step hi hresult
          obtain ⟨hround, hrest⟩ := ih hstep.supplied hnodup (hstep.length_given ▸ hlt) hfault
          have hsum : (fun j => oneOf [i] j + oneOf is j) = oneOf (i :: is) := by
            funext j
            by_cases hj : j = i
            · simp [oneOf, hj, hnot]
            · simp [oneOf, hj]
          have hleft : ∀ j ∈ is, (supply j).drop (oneOf [i] j) = supply j := by
            intro j hj
            have hji : j ≠ i := fun heq => hnot (heq ▸ hj)
            simp [oneOf, hji]
          refine ⟨hsum ▸ hstep.trans hround, ?_⟩
          rw [List.forall_mem_cons, ← hfed]
          have hrest' : (((s.step m i).session.round m is).fed = 0 ↔ ∀ j ∈ is, supply j = []) :=
            hrest.trans (forall₂_congr fun j hj => by rw [hleft j hj])
          cases fed with
          | false => simpa using hrest'
          | true => simp

/-! ### Passes -/

/-- **A pass without errors takes a set for each condition that it feeds,** if there is one. It ends
the session if the prediction is final then, or if there was none. -/
theorem IsSupplied.hasTaken_pass (h : s.IsSupplied m supply) (hactive : s.inactive = false)
    (hopen : s.prediction.isFinal = false) (herrors : (s.pass m).errors = []) :
    HasTaken m supply s (s.pass m).session (oneOf s.prediction.actionable) ∧
      (s.pass m).session.prediction.evaluated = (s.pass m).session.prediction ∧
      ((s.pass m).session.inactive = true ↔
        (s.pass m).session.prediction.outcome.isFinal = true ∨
          ∀ i ∈ s.prediction.actionable, supply i = []) := by
  cases hfault : (s.round m s.prediction.actionable).fault with
  | some fault =>
      rw [pass_of_fault hactive hopen hfault] at herrors
      cases herrors
  | none =>
      obtain ⟨htaken, hfed⟩ := h.hasTaken_round s.prediction.nodup_actionable
        (fun i hi => Prediction.lt_of_mem_actionable hi) hfault
      rw [pass_of_round hactive hopen hfault]
      refine ⟨htaken.withState _ _, Prediction.evaluated_evaluated _, ?_⟩
      rw [← hfed, Bool.or_eq_true, beq_iff_eq]
      rfl

/-- After a pass without errors that does not end the session, its prediction is open. -/
theorem IsSupplied.isFinal_of_active (h : s.IsSupplied m supply) (hactive : s.inactive = false)
    (hopen : s.prediction.isFinal = false) (herrors : (s.pass m).errors = [])
    (hgoes : (s.pass m).session.inactive = false) :
    (s.pass m).session.prediction.isFinal = false := by
  obtain ⟨-, hevaluated, hends⟩ := h.hasTaken_pass hactive hopen herrors
  rw [← hevaluated]
  by_contra hfinal
  have hend := hends.2 (Or.inl (Bool.not_eq_false _ ▸ hfinal))
  rw [hgoes] at hend
  cases hend

/-- The conditions that are worth feeding depend on the conditions and clauses only. -/
theorem HasTaken.actionable_eq {s' : Session} {n : Nat → Nat} (h : HasTaken m supply s s' n)
    (hgiven : s'.prediction.given = s.prediction.given) :
    s'.prediction.actionable = s.prediction.actionable := by
  rw [h.frame, hgiven]
  rfl

/-- **What a session has taken when it ends without errors.** Its prediction has been evaluated. If
this is not final, then all supplies are used up of the conditions that would be worth feeding. -/
theorem IsSupplied.exists_hasTaken_drain (limit : Nat) (h : s.IsSupplied m supply)
    (hactive : s.inactive = false) (hopen : s.prediction.isFinal = false)
    (herrors : (s.drain m limit).2 = []) (hended : (s.drain m limit).1.inactive = true) :
    ∃ n, HasTaken m supply s (s.drain m limit).1 n ∧
      (s.drain m limit).1.prediction.evaluated = (s.drain m limit).1.prediction ∧
      ((s.drain m limit).1.prediction.outcome.isFinal = true ∨
        ∀ i ∈ (s.drain m limit).1.prediction.actionable, (supply i).drop (n i) = []) := by
  induction limit generalizing s supply with
  | zero =>
      rw [drain, hactive] at hended
      cases hended
  | succ limit ih =>
      rw [drain_succ limit hactive] at herrors hended ⊢
      obtain ⟨hpass, hrest⟩ := List.append_eq_nil_iff.1 herrors
      obtain ⟨htaken, hevaluated, hends⟩ := h.hasTaken_pass hactive hopen hpass
      cases hinactive : (s.pass m).session.inactive with
      | true =>
          rw [drain_of_inactive limit hinactive]
          refine ⟨_, htaken, hevaluated, (hends.1 hinactive).imp_right fun hdry => ?_⟩
          have hnone (i : Nat) : (supply i).take (oneOf s.prediction.actionable i) = [] := by
            by_cases hi : i ∈ s.prediction.actionable
            · rw [hdry i hi, List.take_nil]
            · rw [oneOf, if_neg hi, List.take_zero]
          rw [htaken.actionable_eq (List.ext_getElem? fun i => htaken.getElem?_given_eq (hnone i))]
          intro i hi
          rw [hdry i hi, List.drop_nil]
      | false =>
          have hnotfinal := h.isFinal_of_active hactive hopen hpass hinactive
          obtain ⟨n, htaken', hrest'⟩ := ih htaken.supplied hinactive hnotfinal hrest hended
          refine ⟨_, htaken.trans htaken', ?_⟩
          simp only [List.drop_drop] at hrest'
          exact hrest'

/-! ### Supplies that are accepted -/

/-- Whether the conditions at some positions would accept all of their supply. -/
def Accepts (s : Session) (supply : Nat → List (TickSet Price)) (is : List Nat) : Prop :=
  ∀ i ∈ is, ∀ c, s.prediction.given[i]? = some c → ∃ d, c.feedEach (supply i) = .ok d

/-- What would accept everything accepts what is left. -/
theorem HasTaken.accepts {s' : Session} {n : Nat → Nat} (h : HasTaken m supply s s' n)
    {is : List Nat} (haccepts : s.Accepts supply is) :
    s'.Accepts (fun i => (supply i).drop (n i)) is := by
  intro i hi d hd
  obtain ⟨c, hc, hcd⟩ := h.exists_before hd
  obtain ⟨e, he⟩ := haccepts i hi c hc
  rw [← List.take_append_drop (n i) (supply i), Condition.feedEach_append_eq_ok_iff] at he
  obtain ⟨d', hd', he⟩ := he
  rw [hcd] at hd'
  cases hd'
  exact ⟨e, he⟩

/-- A step for a condition that accepts its supply has no fault. -/
theorem IsSupplied.exists_result (h : s.IsSupplied m supply) {is : List Nat}
    (haccepts : s.Accepts supply is) {i : Nat} (hi : i ∈ is)
    (hlt : i < s.prediction.given.length) : ∃ fed, (s.step m i).result = .ok fed := by
  have hc : s.prediction.given[i]? = some s.prediction.given[i] := List.getElem?_eq_getElem hlt
  rcases h.step hc with ⟨-, hfed, -⟩ | ⟨z, zs, hsome, ⟨d, -, hfed, -⟩ | ⟨e, hrefused, -⟩⟩
  · exact ⟨false, hfed⟩
  · exact ⟨true, hfed⟩
  · obtain ⟨d, hd⟩ := haccepts i hi _ hc
    rw [hsome, Condition.feedEach_cons_eq_ok_iff] at hd
    obtain ⟨d', hd', -⟩ := hd
    rw [hrefused] at hd'
    cases hd'

/-- A round over conditions that accept their supply has no fault. -/
theorem IsSupplied.round_fault_eq_none (h : s.IsSupplied m supply) {is : List Nat}
    (haccepts : s.Accepts supply is) (hlt : ∀ i ∈ is, i < s.prediction.given.length) :
    (s.round m is).fault = none := by
  induction is generalizing s supply with
  | nil => rfl
  | cons i is ih =>
      obtain ⟨hi, hlt⟩ := List.forall_mem_cons.1 hlt
      obtain ⟨fed, hresult⟩ := h.exists_result haccepts List.mem_cons_self hi
      obtain ⟨hstep, -⟩ := h.hasTaken_step hi hresult
      rw [round_of_ok hresult]
      exact ih hstep.supplied (fun j hj => hstep.accepts haccepts j (List.mem_cons_of_mem _ hj))
        (hstep.length_given ▸ hlt)

/-- **A pass over conditions that accept their supply has no errors.** -/
theorem IsSupplied.pass_errors_eq_nil (h : s.IsSupplied m supply)
    (haccepts : s.Accepts supply s.prediction.actionable) : (s.pass m).errors = [] := by
  cases hactive : s.inactive with
  | true => rw [pass_of_inactive hactive]
  | false =>
      cases hopen : s.prediction.isFinal with
      | true => rw [pass_of_final hactive hopen]
      | false =>
          rw [pass_of_round hactive hopen (h.round_fault_eq_none haccepts fun i hi =>
            Prediction.lt_of_mem_actionable hi)]

/-- **A session whose conditions accept their supply has no errors.** -/
theorem IsSupplied.drain_errors_eq_nil (h : s.IsSupplied m supply) (limit : Nat) {is : List Nat}
    (hall : ∀ i < s.prediction.given.length, i ∈ is) (haccepts : s.Accepts supply is) :
    (s.drain m limit).2 = [] := by
  induction limit generalizing s supply with
  | zero => rfl
  | succ limit ih =>
      cases hactive : s.inactive with
      | true => rw [drain_of_inactive _ hactive]
      | false =>
          rw [drain_succ limit hactive]
          cases hopen : s.prediction.isFinal with
          | true =>
              rw [pass_of_final hactive hopen, drain_of_inactive limit rfl]
              rfl
          | false =>
              have herrors := h.pass_errors_eq_nil fun i hi =>
                haccepts i (hall i (Prediction.lt_of_mem_actionable hi))
              obtain ⟨htaken, -, -⟩ := h.hasTaken_pass hactive hopen herrors
              dsimp only
              rw [herrors, List.nil_append]
              exact ih htaken.supplied (fun i hi => hall i (htaken.length_given ▸ hi))
                (htaken.accepts haccepts)

end Session

end Forecast
