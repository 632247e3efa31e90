import Forecast.Proofs.Session.Pass
import Forecast.Proofs.Session.Steps

/-!
# What Sessions Keep

A session changes its prediction by feeding its conditions, and feeds them what its streams yield. So
a property of conditions is kept if feeding keeps it, as long as the ticks are what the streams may
yield; and for that the streams must have been opened for a condition with the property
(`Session.Keeper`). Nothing else has to be known about the market.

## Main results

* `Upholds.step`, `Upholds.pass`, `Upholds.drain`: what a session has of conditions and streams, it
  has after a step, after a pass and when it is drained.
-/

namespace Forecast

namespace Session

/-- A property of conditions, one of streams and one of ticks that depend on each other in a way that
a session up to a second keeps them. -/
structure Keeper (C : Condition Price → Prop) (Q : TickStream → Prop) (R : Tick Price → Prop)
    (now : Int) : Prop extends Keeps Q R where
  feed : ∀ {c d : Condition Price} {z : TickSet Price}, C c → (∀ t ∈ z.values, R t) →
    c.feed z = .ok d → C d
  opened : ∀ {c : Condition Price}, C c → ∀ (key : String) (feed : Feed) (interval : Int),
    Q (.ofFeed key feed interval (max c.fromTs c.state.lastTs) now)

/-- Whether the conditions of a session have a property, and its open streams another. -/
structure Upholds (C : Condition Price → Prop) (Q : TickStream → Prop) (s : Session) : Prop where
  given : ∀ c ∈ s.prediction.given, C c
  streams : ∀ ss, some ss ∈ s.streams → ∀ stream ∈ ss, Q stream

variable {C : Condition Price → Prop} {Q : TickStream → Prop} {R : Tick Price → Prop}
  {m : Market} {s : Session}

theorem Upholds.withStreams (h : s.Upholds C Q) (i : Nat) {ss : List TickStream}
    (hss : ∀ stream ∈ ss, Q stream) : (s.withStreams i ss).Upholds C Q where
  given := h.given
  streams ss' hss' := by
    rcases List.mem_or_eq_of_mem_set hss' with hold | hnew
    · exact h.streams ss' hold
    · cases hnew
      exact hss

theorem Upholds.withCondition (h : s.Upholds C Q) (i : Nat) {c : Condition Price} (hc : C c) :
    (s.withCondition i c).Upholds C Q where
  given d hd := by
    rcases List.mem_or_eq_of_mem_set hd with hold | rfl
    · exact h.given d hold
    · exact hc
  streams := h.streams

/-- Feeding a condition from its streams keeps what a session has. -/
theorem Upholds.feedFrom (hkeeper : Keeper C Q R s.now) (h : s.Upholds C Q) {i : Nat}
    {c : Condition Price} (hc : C c) {ss : List TickStream} (hss : ∀ stream ∈ ss, Q stream) :
    (s.feedFrom i c ss).1.Upholds C Q := by
  obtain ⟨hstreams, hticks⟩ := hkeeper.toKeeps.drawAll hss
  have hrest := h.withStreams i hstreams
  rcases s.feedFrom_cases i c ss with ⟨_, hfed⟩ | ⟨ticks, d, hdraw, hfeed, hfed⟩
  · rw [hfed]
    exact hrest
  · rw [hfed]
    exact hrest.withCondition i (hkeeper.feed hc (hticks _ hdraw) hfeed)

/-- **A step keeps what a session has.** -/
theorem Upholds.step (hkeeper : Keeper C Q R s.now) (h : s.Upholds C Q) (i : Nat) :
    (s.step m i).session.Upholds C Q := by
  rcases step_cases m s i with ⟨-, hstep⟩ | ⟨c, hc, ⟨_, _, hstep⟩ | ⟨_, ss, hss | ⟨-, hss⟩, hstep⟩⟩
  · rw [hstep]
    exact h
  · rw [hstep]
    exact h
  · rw [hstep]
    have hmem : some ss ∈ s.streams := List.mem_of_getElem? (Option.join_eq_some_iff.1 hss)
    exact h.feedFrom hkeeper (h.given c (List.mem_of_getElem? hc)) (h.streams ss hmem)
  · rw [hstep]
    have hopened := h.given c (List.mem_of_getElem? hc)
    exact h.feedFrom hkeeper hopened
      (forall_of_openStreams (fun key feed => hkeeper.opened hopened key feed m.interval) hss)

/-- A round keeps what a session has. -/
theorem Upholds.round (hkeeper : Keeper C Q R s.now) (h : s.Upholds C Q) (is : List Nat) :
    (s.round m is).session.Upholds C Q := by
  induction is generalizing s with
  | nil => exact h
  | cons i is ih =>
      cases hresult : (s.step m i).result with
      | error fault =>
          rw [round_of_fault hresult]
          exact h.step hkeeper i
      | ok fed =>
          rw [round_of_ok hresult]
          exact ih ((step_now m s i).symm ▸ hkeeper) (h.step hkeeper i)

/-- **A pass keeps what a session has.** -/
theorem Upholds.pass (hkeeper : Keeper C Q R s.now) (h : s.Upholds C Q) :
    (s.pass m).session.Upholds C Q := by
  have hround := h.round (m := m) hkeeper s.prediction.actionable
  cases hactive : s.inactive with
  | true =>
      rw [pass_of_inactive hactive]
      exact h
  | false =>
      cases hopen : s.prediction.isFinal with
      | true =>
          rw [pass_of_final hactive hopen]
          exact ⟨h.given, h.streams⟩
      | false =>
          cases hfault : (s.round m s.prediction.actionable).fault with
          | some fault =>
              rw [pass_of_fault hactive hopen hfault]
              exact ⟨hround.given, hround.streams⟩
          | none =>
              rw [pass_of_round hactive hopen hfault]
              exact ⟨hround.given, hround.streams⟩

/-- **Draining keeps what a session has.** -/
theorem Upholds.drain (hkeeper : Keeper C Q R s.now) (h : s.Upholds C Q) (limit : Nat) :
    (s.drain m limit).1.Upholds C Q := by
  induction limit generalizing s with
  | zero => exact h
  | succ limit ih =>
      cases hactive : s.inactive with
      | true =>
          rw [drain_of_inactive _ hactive]
          exact h
      | false =>
          rw [drain_succ limit hactive]
          exact ih ((pass_now m s).symm ▸ hkeeper) (h.pass hkeeper)

/-- A session begins with what its prediction has. -/
theorem upholds_of_start {p : Prediction} {now : Int} (hp : ∀ c ∈ p.given, C c)
    (h : Session.start m p now = .ok s) : s.Upholds C Q := by
  obtain rfl := start_eq_ok h
  refine ⟨hp, fun ss hss => ?_⟩
  obtain ⟨c, -, hnone⟩ := List.mem_map.1 hss
  cases hnone

end Session

end Forecast
