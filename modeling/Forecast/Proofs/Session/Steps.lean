import Forecast.Session

/-!
# The Steps of a Session

What the beginning of a session, drawing ticks, a step, a round, a pass and a drain come to, case by
case. Everything else about sessions is derived from these equations, so that nobody has to look
into their definitions.
-/

namespace Forecast

/-- A function that succeeds on every member of a list succeeds on the list. -/
theorem mapM_eq_ok {α β ε : Type} {f : α → Except ε β} {g : α → β} {xs : List α}
    (h : ∀ x ∈ xs, f x = .ok (g x)) : xs.mapM f = .ok (xs.map g) := by
  induction xs with
  | nil => rfl
  | cons x xs ih =>
      obtain ⟨hx, hxs⟩ := List.forall_mem_cons.1 h
      rw [List.mapM_cons, hx, ih hxs]
      rfl

/-- A function that succeeds on a list succeeds on each of its members. -/
theorem exists_of_mapM_eq_ok {α β ε : Type} {f : α → Except ε β} {xs : List α} {ys : List β}
    (h : xs.mapM f = .ok ys) : ∀ x ∈ xs, ∃ y, f x = .ok y := by
  induction xs generalizing ys with
  | nil => exact fun x hx => absurd hx List.not_mem_nil
  | cons x xs ih =>
      rw [List.mapM_cons] at h
      cases hx : f x with
      | error e =>
          rw [hx] at h
          cases h
      | ok y =>
          cases hxs : xs.mapM f with
          | error e =>
              rw [hx, hxs] at h
              cases h
          | ok ys => exact List.forall_mem_cons.2 ⟨⟨y, hx⟩, ih hxs⟩

/-- An instrument is served as itself. -/
theorem Market.check_eq_ok {m : Market} {i j : Instrument} (h : m.check (.market i) = .ok j) :
    j = i := by
  rw [Market.check] at h
  split at h
  · cases h
    rfl
  · cases h

namespace Session

/-! ### Beginning -/

/-- A session can be begun if everything is served that the conditions quote, and then it begins
with the prediction as it is, active and without streams. -/
theorem start_eq_ok_iff {m : Market} {p : Prediction} {now : Int} {s : Session} :
    start m p now = .ok s ↔
      (∀ c ∈ p.given, ∀ i ∈ c.instruments, m.check (.market i) = .ok i) ∧
        s = ⟨p, p, now, p.given.map fun _ => none, false⟩ := by
  rw [start]
  constructor
  · intro h
    cases hall : (p.given.flatMap Condition.instruments).mapM fun i => m.check (.market i) with
    | error e =>
        rw [hall] at h
        cases h
    | ok is =>
        rw [hall] at h
        cases h
        refine ⟨fun c hc i hi => ?_, rfl⟩
        obtain ⟨j, hj⟩ := exists_of_mapM_eq_ok hall i (List.mem_flatMap.2 ⟨c, hc, hi⟩)
        rw [hj, Market.check_eq_ok hj]
  · rintro ⟨hserved, rfl⟩
    have hall : ∀ i ∈ p.given.flatMap Condition.instruments, m.check (.market i) = .ok i := by
      intro i hi
      obtain ⟨c, hc, hi⟩ := List.mem_flatMap.1 hi
      exact hserved c hc i hi
    rw [mapM_eq_ok (g := id) hall]

/-! ### Drawing ticks -/

/-- A tick that is drawn goes into the set. -/
theorem drawEach_of_tick {s s' : TickStream} {t : Tick Price} (h : s.next = (.ok t, s'))
    (ticks : TickSet Price) (ss : List TickStream) :
    drawEach ticks (s :: ss) =
      ((drawEach (ticks.insert s'.key t) ss).1, s' :: (drawEach (ticks.insert s'.key t) ss).2) := by
  rw [drawEach, h]

/-- The first stream that is exhausted ends the drawing. -/
theorem drawEach_of_exhausted {s s' : TickStream} {last : Option (Tick Price)}
    (h : s.next = (.error (.exhausted last), s')) (ticks : TickSet Price) (ss : List TickStream) :
    drawEach ticks (s :: ss) = (.dry, s' :: ss) := by
  rw [drawEach, h]

/-- Where a stream is known to be exhausted, nothing is drawn. -/
theorem drawAll_of_exhausted {ss : List TickStream} (h : ss.any (·.exhausted) = true) :
    drawAll ss = (.dry, ss) := by
  rw [drawAll, if_pos h]

/-- Where no stream is known to be exhausted, each is asked. -/
theorem drawAll_of_open {ss : List TickStream} (h : ss.any (·.exhausted) = false) :
    drawAll ss = drawEach .empty ss := by
  rw [drawAll, if_neg (Bool.eq_false_iff.1 h)]

/-! ### Opening streams -/

section Opening

variable {m : Market} {start now : Int} {i : Instrument}

/-- A stream that is opened comes before the others. -/
theorem openStreams_of_opened {j : Instrument} {s : TickStream}
    (hcheck : m.check (.market i) = .ok j) (h : m.openStream j start now = .ok s)
    (is : List Instrument) :
    openStreams m start now (i :: is) =
      (⟨j.key, intervalStart m.interval start⟩ :: (openStreams m start now is).1,
        (openStreams m start now is).2.map (s :: ·)) := by
  rw [openStreams, hcheck]
  simp only [h]

/-- Streams are opened one by one, each on what the source delivers under its key. -/
theorem exists_of_openStreams_cons {is : List Instrument} {ss : List TickStream}
    (h : (openStreams m start now (i :: is)).2 = .ok ss) :
    ∃ feed rest, m.source i.key (intervalStart m.interval start) = .ok feed ∧
      (openStreams m start now is).2 = .ok rest ∧
      ss = .ofFeed i.key feed m.interval start now :: rest := by
  rw [openStreams] at h
  cases hcheck : m.check (.market i) with
  | error e =>
      rw [hcheck] at h
      cases h
  | ok j =>
      obtain rfl := Market.check_eq_ok hcheck
      rw [hcheck] at h
      simp only [Market.openStream] at h
      cases hsource : m.source j.key (intervalStart m.interval start) with
      | error e =>
          rw [hsource] at h
          cases h
      | ok feed =>
          rw [hsource] at h
          dsimp only [Except.map] at h
          cases hrest : (openStreams m start now is).2 with
          | error e =>
              rw [hrest] at h
              cases h
          | ok rest =>
              rw [hrest] at h
              cases h
              exact ⟨feed, rest, rfl, rfl, rfl⟩

end Opening

/-! ### Feeding -/

section Feeding

variable {s : Session} {i : Nat} {c : Condition Price} {ss ss' : List TickStream}

/-- A session with other streams for a condition. -/
def withStreams (s : Session) (i : Nat) (ss : List TickStream) : Session :=
  { s with streams := s.streams.set i (some ss) }

/-- A session with another condition at a position. -/
def withCondition (s : Session) (i : Nat) (c : Condition Price) : Session :=
  { s with prediction := s.prediction.setCondition i c }

/-- Without a tick from every stream the condition is not fed. -/
theorem feedFrom_of_dry (h : drawAll ss = (.dry, ss')) :
    s.feedFrom i c ss = (s.withStreams i ss', .ok false) := by
  rw [feedFrom, h]
  rfl

/-- A stream that fails ends the feeding. -/
theorem feedFrom_of_failed {e : MarketError} (h : drawAll ss = (.failed e, ss')) :
    s.feedFrom i c ss = (s.withStreams i ss', .error (.market e)) := by
  rw [feedFrom, h]
  rfl

/-- Ticks that the condition refuses end the feeding. -/
theorem feedFrom_of_refused {ticks : TickSet Price} {e : FeedError}
    (h : drawAll ss = (.ticks ticks, ss')) (hfeed : c.feed ticks = .error e) :
    s.feedFrom i c ss = (s.withStreams i ss', .error (.feed e)) := by
  rw [feedFrom, h]
  dsimp only
  rw [hfeed]
  rfl

/-- Ticks that the condition accepts are fed. -/
theorem feedFrom_of_fed {ticks : TickSet Price} {d : Condition Price}
    (h : drawAll ss = (.ticks ticks, ss')) (hfeed : c.feed ticks = .ok d) :
    s.feedFrom i c ss = ((s.withStreams i ss').withCondition i d, .ok true) := by
  rw [feedFrom, h]
  dsimp only
  rw [hfeed]
  rfl

/-- **All that feeding can come to:** other streams, and the condition as it is or as it is fed. -/
theorem feedFrom_cases (s : Session) (i : Nat) (c : Condition Price) (ss : List TickStream) :
    (∃ result, s.feedFrom i c ss = (s.withStreams i (drawAll ss).2, result)) ∨
      ∃ ticks d, (drawAll ss).1 = .ticks ticks ∧ c.feed ticks = .ok d ∧
        s.feedFrom i c ss = ((s.withStreams i (drawAll ss).2).withCondition i d, .ok true) := by
  cases h : drawAll ss with
  | mk drawn ss' =>
      cases drawn with
      | dry => exact Or.inl ⟨_, feedFrom_of_dry h⟩
      | failed e => exact Or.inl ⟨_, feedFrom_of_failed h⟩
      | ticks ticks =>
          cases hfeed : c.feed ticks with
          | error e => exact Or.inl ⟨_, feedFrom_of_refused h hfeed⟩
          | ok d => exact Or.inr ⟨ticks, d, rfl, hfeed, feedFrom_of_fed h hfeed⟩

/-- Feeding changes nothing but streams and conditions. -/
theorem feedFrom_frame :
    (s.feedFrom i c ss).1 =
      { s with
          prediction := { s.prediction with given := (s.feedFrom i c ss).1.prediction.given }
          streams := (s.feedFrom i c ss).1.streams } := by
  rcases s.feedFrom_cases i c ss with ⟨_, h⟩ | ⟨_, d, -, -, h⟩
  · rw [h, withStreams]
  · rw [h, withStreams, withCondition, Prediction.setCondition]

end Feeding

/-! ### Steps -/

section Steps

variable {m : Market} {s : Session} {i : Nat} {c : Condition Price}

/-- Without a condition at the position nothing is done. -/
theorem step_of_none (h : s.prediction.given[i]? = none) : s.step m i = ⟨s, [], .ok false⟩ := by
  rw [step, h]

/-- A condition whose streams are open is fed from them. -/
theorem step_of_open {ss : List TickStream} (hc : s.prediction.given[i]? = some c)
    (hss : s.streams[i]?.join = some ss) :
    s.step m i = ⟨(s.feedFrom i c ss).1, [], (s.feedFrom i c ss).2⟩ := by
  rw [step, hc]
  dsimp only
  rw [hss]

/-- The streams of a condition that have not been opened are, and the condition is fed from them. -/
theorem step_of_opened {openings : List Opening} {ss : List TickStream}
    (hc : s.prediction.given[i]? = some c) (hclosed : s.streams[i]?.join = none)
    (hopen : openStreams m (max c.fromTs c.state.lastTs) s.now c.instruments = (openings, .ok ss)) :
    s.step m i = ⟨(s.feedFrom i c ss).1, openings, (s.feedFrom i c ss).2⟩ := by
  rw [step, hc]
  dsimp only
  rw [hclosed]
  dsimp only
  rw [hopen]

/-- Streams that cannot be opened end the step. -/
theorem step_of_unopened {openings : List Opening} {e : MarketError}
    (hc : s.prediction.given[i]? = some c) (hclosed : s.streams[i]?.join = none)
    (hopen : openStreams m (max c.fromTs c.state.lastTs) s.now c.instruments =
      (openings, .error e)) :
    s.step m i = ⟨s, openings, .error (.market e)⟩ := by
  rw [step, hc]
  dsimp only
  rw [hclosed]
  dsimp only
  rw [hopen]

/-- **All that a step can come to:** nothing if there is no condition, a fault if its streams cannot
be opened, and else a feeding from its streams, which are open or have just been opened. -/
theorem step_cases (m : Market) (s : Session) (i : Nat) :
    (s.prediction.given[i]? = none ∧ s.step m i = ⟨s, [], .ok false⟩) ∨
      ∃ c, s.prediction.given[i]? = some c ∧
        ((∃ openings e, s.step m i = ⟨s, openings, .error (.market e)⟩) ∨
          ∃ openings ss,
            (s.streams[i]?.join = some ss ∨ s.streams[i]?.join = none ∧
              (openStreams m (max c.fromTs c.state.lastTs) s.now c.instruments).2 = .ok ss) ∧
            s.step m i = ⟨(s.feedFrom i c ss).1, openings, (s.feedFrom i c ss).2⟩) := by
  cases hc : s.prediction.given[i]? with
  | none => exact Or.inl ⟨rfl, step_of_none hc⟩
  | some c =>
      refine Or.inr ⟨c, rfl, ?_⟩
      cases hs : s.streams[i]?.join with
      | some ss => exact Or.inr ⟨_, ss, Or.inl rfl, step_of_open hc hs⟩
      | none =>
          cases hopen : openStreams m (max c.fromTs c.state.lastTs) s.now c.instruments with
          | mk openings opened =>
              cases opened with
              | error e => exact Or.inl ⟨openings, e, step_of_unopened hc hs hopen⟩
              | ok ss => exact Or.inr ⟨openings, ss, Or.inr ⟨rfl, rfl⟩, step_of_opened hc hs hopen⟩

/-- A step changes nothing but streams and conditions. -/
theorem step_frame (m : Market) (s : Session) (i : Nat) :
    (s.step m i).session =
      { s with
          prediction := { s.prediction with given := (s.step m i).session.prediction.given }
          streams := (s.step m i).session.streams } := by
  rcases step_cases m s i with ⟨-, h⟩ | ⟨c, -, ⟨_, _, h⟩ | ⟨_, ss, -, h⟩⟩
  · rw [h]
  · rw [h]
  · rw [h]
    exact feedFrom_frame

/-- The end of a session does not move in a step. -/
@[simp] theorem step_now (m : Market) (s : Session) (i : Nat) :
    (s.step m i).session.now = s.now := by
  rw [step_frame]

end Steps

/-! ### Rounds, passes and drains -/

section Passes

variable {m : Market} {s : Session}

/-- A fault ends a round. -/
theorem round_of_fault {i : Nat} {fault : RunFault} (h : (s.step m i).result = .error fault)
    (is : List Nat) :
    s.round m (i :: is) = ⟨(s.step m i).session, (s.step m i).opened, 0, some fault⟩ := by
  rw [round]
  dsimp only
  rw [h]

/-- Without a fault a round goes on. -/
theorem round_of_ok {i : Nat} {fed : Bool} (h : (s.step m i).result = .ok fed) (is : List Nat) :
    s.round m (i :: is) =
      ⟨((s.step m i).session.round m is).session,
        (s.step m i).opened ++ ((s.step m i).session.round m is).opened,
        ((s.step m i).session.round m is).fed + (if fed then 1 else 0),
        ((s.step m i).session.round m is).fault⟩ := by
  rw [round]
  dsimp only
  rw [h]

/-- A round changes nothing but streams and conditions. -/
theorem round_frame (m : Market) (s : Session) (is : List Nat) :
    (s.round m is).session =
      { s with
          prediction := { s.prediction with given := (s.round m is).session.prediction.given }
          streams := (s.round m is).session.streams } := by
  induction is generalizing s with
  | nil => rfl
  | cons i is ih =>
      cases h : (s.step m i).result with
      | error fault =>
          rw [round_of_fault h]
          exact step_frame m s i
      | ok fed =>
          rw [round_of_ok h]
          dsimp only
          rw [ih, step_frame]

/-- The end of a session does not move in a round. -/
@[simp] theorem round_now (m : Market) (s : Session) (is : List Nat) :
    (s.round m is).session.now = s.now := by
  rw [round_frame]

/-- A session that has ended makes no more passes. -/
theorem pass_of_inactive (h : s.inactive = true) : s.pass m = ⟨s, [], []⟩ := by
  rw [pass, if_pos h]

/-- A session whose prediction is final ends. -/
theorem pass_of_final (h : s.inactive = false) (hfinal : s.prediction.isFinal = true) :
    s.pass m = ⟨{ s with inactive := true }, [], []⟩ := by
  rw [pass, if_neg (Bool.eq_false_iff.1 h), if_pos hfinal]

/-- A round with a fault ends the session. -/
theorem pass_of_fault (h : s.inactive = false) (hopen : s.prediction.isFinal = false)
    {fault : RunFault} (hfault : (s.round m s.prediction.actionable).fault = some fault) :
    s.pass m =
      ⟨{ (s.round m s.prediction.actionable).session with
          prediction := (s.round m s.prediction.actionable).session.prediction.evaluated
          inactive := true },
        (s.round m s.prediction.actionable).opened,
        [⟨(s.round m s.prediction.actionable).session.prediction.id, fault⟩]⟩ := by
  rw [pass, if_neg (Bool.eq_false_iff.1 h), if_neg (Bool.eq_false_iff.1 hopen)]
  dsimp only
  rw [hfault]
  rfl

/-- A round without a fault ends the session if the prediction is final then, or if it fed
nothing. -/
theorem pass_of_round (h : s.inactive = false) (hopen : s.prediction.isFinal = false)
    (hfault : (s.round m s.prediction.actionable).fault = none) :
    s.pass m =
      ⟨{ (s.round m s.prediction.actionable).session with
          prediction := (s.round m s.prediction.actionable).session.prediction.evaluated
          inactive := (s.round m s.prediction.actionable).session.prediction.outcome.isFinal ||
            (s.round m s.prediction.actionable).fed == 0 },
        (s.round m s.prediction.actionable).opened, []⟩ := by
  rw [pass, if_neg (Bool.eq_false_iff.1 h), if_neg (Bool.eq_false_iff.1 hopen)]
  dsimp only
  rw [hfault]
  rfl

/-- The end of a session does not move in a pass. -/
@[simp] theorem pass_now (m : Market) (s : Session) : (s.pass m).session.now = s.now := by
  cases hinactive : s.inactive with
  | true => rw [pass_of_inactive hinactive]
  | false =>
      cases hfinal : s.prediction.isFinal with
      | true => rw [pass_of_final hinactive hfinal]
      | false =>
          cases hf : (s.round m s.prediction.actionable).fault with
          | none =>
              rw [pass_of_round hinactive hfinal hf]
              exact round_now m s _
          | some fault =>
              rw [pass_of_fault hinactive hfinal hf]
              exact round_now m s _

/-- A pass evaluates what its round makes of the prediction, also after a fault. -/
theorem pass_prediction (h : s.inactive = false) (hopen : s.prediction.isFinal = false) :
    (s.pass m).session.prediction =
      (s.round m s.prediction.actionable).session.prediction.evaluated := by
  cases hfault : (s.round m s.prediction.actionable).fault with
  | none => rw [pass_of_round h hopen hfault]
  | some fault => rw [pass_of_fault h hopen hfault]

/-- A session that has ended is left alone. -/
theorem drain_of_inactive (limit : Nat) (h : s.inactive = true) : s.drain m limit = (s, []) := by
  cases limit with
  | zero => rfl
  | succ limit => rw [drain, if_pos h]

/-- Draining an active session is a pass and draining what comes of it. -/
theorem drain_succ (limit : Nat) (h : s.inactive = false) :
    s.drain m (limit + 1) =
      (((s.pass m).session.drain m limit).1,
        (s.pass m).errors ++ ((s.pass m).session.drain m limit).2) := by
  rw [drain, if_neg (Bool.eq_false_iff.1 h)]

end Passes

end Session

end Forecast
