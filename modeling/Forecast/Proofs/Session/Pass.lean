import Forecast.Proofs.Prediction.Runs
import Forecast.Proofs.Session.Steps
import Forecast.Proofs.TickStream.Span

/-!
# What a Session Does to Its Prediction

A session touches its prediction in two ways only: it feeds conditions ticks from its streams, none
of them later than the second that the session may look at, and it evaluates. So whatever its market
delivers, the prediction of a session comes from the one it began with by a run
(`Session.Advances`). This holds of one step, a round, a pass and a whole drain alike; the invariant
that carries it is that all open streams end at the second of the session (`Session.IsBounded`).
-/

namespace Forecast

namespace Session

/-! ### Ticks of one moment -/

/-- Whether asking streams keeps a property of them, and all ticks that they yield have one. -/
structure Keeps (Q : TickStream → Prop) (R : Tick Price → Prop) : Prop where
  next : ∀ {s : TickStream}, Q s → Q s.next.2
  tick : ∀ {s : TickStream} {t : Tick Price}, Q s → s.next.1 = .ok t → R t

/-- A value of a map after an insertion is the new one or was there. -/
theorem mem_values_insert {m : TickSet Price} {key : String} {t u : Tick Price}
    (h : u ∈ (m.insert key t).values) : u = t ∨ u ∈ m.values := by
  obtain ⟨e, he, rfl⟩ := List.mem_map.1 h
  rcases Keyed.mem_insertEntry he with rfl | he
  · exact Or.inl rfl
  · exact Or.inr (List.mem_map_of_mem he)

section Drawing

variable {Q : TickStream → Prop} {R : Tick Price → Prop}

/-- Drawing from streams keeps what asking each of them does. -/
theorem Keeps.drawEach (h : Keeps Q R) {ticks : TickSet Price} {ss : List TickStream}
    (hss : ∀ s ∈ ss, Q s) (hticks : ∀ t ∈ ticks.values, R t) :
    (∀ s ∈ (drawEach ticks ss).2, Q s) ∧
      ∀ drawn, (drawEach ticks ss).1 = .ticks drawn → ∀ t ∈ drawn.values, R t := by
  induction ss generalizing ticks with
  | nil =>
      refine ⟨hss, fun drawn hdrawn => ?_⟩
      cases hdrawn
      exact hticks
  | cons s ss ih =>
      obtain ⟨hs, hss⟩ := List.forall_mem_cons.1 hss
      have hkeep : Q s.next.2 := h.next hs
      rw [Session.drawEach]
      cases hnext : s.next with
      | mk result s' =>
          rw [hnext] at hkeep
          cases result with
          | ok t =>
              have ht : R t := h.tick hs (congrArg Prod.fst hnext)
              have hvalues : ∀ u ∈ (ticks.insert s'.key t).values, R u := by
                intro u hu
                rcases mem_values_insert hu with rfl | hu
                · exact ht
                · exact hticks u hu
              obtain ⟨hrest, hdrawn⟩ := ih hss hvalues
              exact ⟨List.forall_mem_cons.2 ⟨hkeep, hrest⟩, hdrawn⟩
          | error e =>
              refine ⟨?_, ?_⟩
              · cases e <;> exact List.forall_mem_cons.2 ⟨hkeep, hss⟩
              · cases e <;> rintro drawn ⟨⟩

/-- Drawing from streams, or finding one exhausted, keeps what asking each of them does. -/
theorem Keeps.drawAll (h : Keeps Q R) {ss : List TickStream} (hss : ∀ s ∈ ss, Q s) :
    (∀ s ∈ (drawAll ss).2, Q s) ∧
      ∀ drawn, (drawAll ss).1 = .ticks drawn → ∀ t ∈ drawn.values, R t := by
  rw [Session.drawAll]
  split
  · exact ⟨hss, by rintro drawn ⟨⟩⟩
  · exact h.drawEach hss fun t ht => absurd ht List.not_mem_nil

/-- What holds of every stream that may be opened holds of those that are. -/
theorem forall_of_openStreams {m : Market} {start now : Int}
    (hQ : ∀ key feed, Q (.ofFeed key feed m.interval start now)) {is : List Instrument}
    {ss : List TickStream} (h : (openStreams m start now is).2 = .ok ss) : ∀ s ∈ ss, Q s := by
  induction is generalizing ss with
  | nil =>
      rw [openStreams] at h
      cases h
      exact fun s hs => absurd hs List.not_mem_nil
  | cons i is ih =>
      obtain ⟨feed, rest, -, hrest, rfl⟩ := exists_of_openStreams_cons h
      exact List.forall_mem_cons.2 ⟨hQ i.key feed, ih hrest⟩

end Drawing

/-- Asking streams leaves their end as it is, and they yield no later tick. -/
theorem keeps_now (now : Int) : Keeps (·.now = now) (·.timestamp ≤ now) where
  next {s} hs := s.next_span.2.trans hs
  tick hs ht := hs ▸ (TickStream.next_tick ht).2

/-! ### Sessions that advance -/

/-- Whether all open streams end at the second of the session. -/
def IsBounded (s : Session) : Prop :=
  ∀ ss, some ss ∈ s.streams → ∀ stream ∈ ss, stream.now = s.now

/-- What is true between a session and a later stage of it. -/
structure Advances (s s' : Session) : Prop where
  initial : s'.initial = s.initial
  now : s'.now = s.now
  bounded : s'.IsBounded
  runs : Prediction.Runs s.now s.prediction s'.prediction

/-- Every bounded session is a stage of itself. -/
theorem Advances.refl {s : Session} (hs : s.IsBounded) : s.Advances s :=
  ⟨rfl, rfl, hs, .refl _⟩

/-- A later stage of a later stage is a later stage. -/
theorem Advances.trans {s s' s'' : Session} (h : s.Advances s') (h' : s'.Advances s'') :
    s.Advances s'' :=
  ⟨h'.initial.trans h.initial, h'.now.trans h.now, h'.bounded, h.runs.trans (h.now ▸ h'.runs)⟩

/-- Putting bounded streams in their place keeps a session bounded. -/
theorem isBounded_set {s : Session} (hs : s.IsBounded) (i : Nat) {ss : List TickStream}
    (hss : ∀ stream ∈ ss, stream.now = s.now) :
    IsBounded { s with streams := s.streams.set i (some ss) } := by
  intro ss' hss'
  rcases List.mem_or_eq_of_mem_set hss' with hold | hnew
  · exact hs ss' hold
  · cases hnew
    exact hss

/-- Feeding a condition from its streams advances the session. -/
theorem feedFrom_advances {s : Session} (hs : s.IsBounded) {i : Nat} {c : Condition Price}
    (hc : s.prediction.given[i]? = some c) {ss : List TickStream}
    (hss : ∀ stream ∈ ss, stream.now = s.now) : s.Advances (s.feedFrom i c ss).1 := by
  obtain ⟨hends, hticks⟩ := (keeps_now s.now).drawAll hss
  have hset := isBounded_set hs i hends
  rcases s.feedFrom_cases i c ss with ⟨_, h⟩ | ⟨ticks, d, hdraw, hd, h⟩
  · rw [h]
    exact ⟨rfl, rfl, hset, .refl _⟩
  · rw [h]
    refine ⟨rfl, rfl, hset, ?_⟩
    rw [withCondition, withStreams, ← Prediction.feed_of_ok hc hd]
    exact .feed (.refl _) (hticks _ hdraw)

/-- **A step advances the session,** whichever condition it looks after. -/
theorem step_advances (m : Market) {s : Session} (hs : s.IsBounded) (i : Nat) :
    s.Advances (s.step m i).session := by
  rcases step_cases m s i with ⟨-, h⟩ | ⟨c, hc, ⟨_, _, h⟩ | ⟨_, ss, hss | ⟨-, hss⟩, h⟩⟩
  · rw [h]
    exact .refl hs
  · rw [h]
    exact .refl hs
  · rw [h]
    have hmem : some ss ∈ s.streams := List.mem_of_getElem? (Option.join_eq_some_iff.1 hss)
    exact feedFrom_advances hs hc (hs ss hmem)
  · rw [h]
    have hnow := forall_of_openStreams (Q := (·.now = s.now)) (fun _ _ => rfl) hss
    exact feedFrom_advances hs hc hnow

/-- A round advances the session, also one that ends early. -/
theorem round_advances (m : Market) {s : Session} (hs : s.IsBounded) (is : List Nat) :
    s.Advances (s.round m is).session := by
  induction is generalizing s with
  | nil => exact .refl hs
  | cons i is ih =>
      have hstep := step_advances m hs i
      rw [round]
      dsimp only
      split
      · exact hstep
      · exact hstep.trans (ih hstep.bounded)

/-- **A pass advances the session,** also one that ends in a fault. -/
theorem pass_advances (m : Market) {s : Session} (hs : s.IsBounded) :
    s.Advances (s.pass m).session := by
  have hround := round_advances m hs s.prediction.actionable
  rw [pass]
  split
  · exact .refl hs
  split
  · exact ⟨rfl, rfl, hs, .refl _⟩
  · dsimp only
    split
    · exact ⟨hround.initial, hround.now, hround.bounded, hround.runs.evaluate⟩
    · exact ⟨hround.initial, hround.now, hround.bounded, hround.runs.evaluate⟩

/-- Draining advances the session. -/
theorem drain_advances (m : Market) (limit : Nat) {s : Session} (hs : s.IsBounded) :
    s.Advances (s.drain m limit).1 := by
  induction limit generalizing s with
  | zero => exact .refl hs
  | succ limit ih =>
      have hpass := pass_advances m hs
      rw [drain]
      split
      · exact .refl hs
      · exact hpass.trans (ih hpass.bounded)

/-! ### The beginning of a session -/

/-- A session begins with the prediction as it is, active and without streams. -/
theorem start_eq_ok {m : Market} {p : Prediction} {now : Int} {s : Session}
    (h : start m p now = .ok s) : s = ⟨p, p, now, p.given.map fun _ => none, false⟩ := by
  rw [start] at h
  split at h
  · cases h
  · cases h
    rfl

/-- A session begins bounded. -/
theorem isBounded_start {m : Market} {p : Prediction} {now : Int} {s : Session}
    (h : start m p now = .ok s) : s.IsBounded := by
  obtain rfl := start_eq_ok h
  intro ss hss
  obtain ⟨c, -, hnone⟩ := List.mem_map.1 hss
  cases hnone

end Session

end Forecast
