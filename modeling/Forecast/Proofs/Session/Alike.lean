import Mathlib.Data.List.Forall2
import Forecast.Proofs.Session.Steps
import Forecast.Proofs.TickStream.Delivery

/-!
# Sessions That See the Same

Two markets may hold different candles from some second on. A session that may look no further than
that second never notices: the streams that it opens in the one market and in the other deliver the
same ticks. They need not be in the same state. One may have come to the end of its feed, where the
other has met a tick that is too late; a candle under way may be used in part.

So the sessions are compared by what their streams deliver (`Session.Alike`). A step, a round and a
pass keep them alike, with the same requests, the same errors and the same prediction.

## Main results

* `Market.AgreesUpTo.openStream`: streams opened in markets that agree deliver the same.
* `Session.Alike.pass`: sessions that are alike stay so.
-/

namespace Forecast

/-! ### Markets that agree up to a second -/

/-- Whether candles are listed in the order of their times. -/
def Candle.InOrder (cs : List Candle) : Prop :=
  cs.Pairwise fun c d => c.timestamp ≤ d.timestamp

/-- Whether two lists of candles are in order, have finite prices only, and have the same candles
that begin at a second or earlier. -/
structure Candle.AgreeUpTo (now : Int) (cs ds : List Candle) : Prop where
  inOrder : InOrder cs ∧ InOrder ds
  finite : ∀ c ∈ cs ++ ds, c.hasFinitePrices = true
  same : (cs.filter fun c => c.timestamp ≤ now) = ds.filter fun c => c.timestamp ≤ now

/-- Whether two markets serve the same operands, never fail, and have the same candles that begin
at a second or earlier. Candles that begin later may differ in any way. -/
structure Market.AgreesUpTo (now : Int) (m m' : Market) : Prop where
  config : m.toMarketConfig = m'.toMarketConfig
  source : ∀ key start, ∃ cs ds, m.source key start = .ok (cs.map .ok) ∧
    m'.source key start = .ok (ds.map .ok) ∧ Candle.AgreeUpTo now cs ds

namespace Candle

/-- Candles in order are those up to a second and then some that begin later. -/
theorem InOrder.exists_split {cs : List Candle} (h : InOrder cs) (now : Int) :
    ∃ later, cs = (cs.filter fun c => c.timestamp ≤ now) ++ later ∧
      ∀ c ∈ later.head?, now < c.timestamp := by
  induction cs with
  | nil => exact ⟨[], rfl, nofun⟩
  | cons c cs ih =>
      obtain ⟨hfirst, hrest⟩ := List.pairwise_cons.1 h
      by_cases hc : c.timestamp ≤ now
      · obtain ⟨later, heq, hlater⟩ := ih hrest
        refine ⟨later, ?_, hlater⟩
        have hkept : decide (c.timestamp ≤ now) = true := decide_eq_true hc
        simp only [List.filter_cons, hkept, if_true, List.cons_append, ← heq]
      · refine ⟨c :: cs, ?_, fun d hd => ?_⟩
        · have hnone : (c :: cs).filter (fun c => c.timestamp ≤ now) = [] := by
            refine List.filter_eq_nil_iff.2 fun d hd => ?_
            rw [decide_eq_true_iff]
            rcases List.mem_cons.1 hd with rfl | hd
            · exact hc
            · have := hfirst d hd
              omega
          rw [hnone, List.nil_append]
        · cases hd
          omega

/-- The ticks of candles of which the first begins after a second begin after it. -/
theorem beginsAfter_ticks {now : Int} (interval : Int) {cs : List Candle}
    (h : ∀ c ∈ cs.head?, now < c.timestamp) :
    TickStream.BeginsAfter now (cs.flatMap (ticks interval)) := by
  cases cs with
  | nil => exact nofun
  | cons c cs =>
      intro t ht
      cases ht
      exact h c rfl

/-- A stream lets the same ticks pass of candles that agree up to its end. -/
theorem AgreeUpTo.passing_eq {now : Int} {cs ds : List Candle} (h : AgreeUpTo now cs ds)
    (interval start : Int) (last : Option (Tick Price)) :
    TickStream.passing start now last (cs.flatMap (ticks interval)) =
      TickStream.passing start now last (ds.flatMap (ticks interval)) := by
  obtain ⟨later, hcs, hlater⟩ := h.inOrder.1.exists_split now
  obtain ⟨later', hds, hlater'⟩ := h.inOrder.2.exists_split now
  rw [hcs, hds, h.same, List.flatMap_append, List.flatMap_append]
  refine TickStream.passing_append_congr _ (fun last => ?_) last
  rw [TickStream.passing_of_beginsAfter (beginsAfter_ticks interval hlater),
    TickStream.passing_of_beginsAfter (beginsAfter_ticks interval hlater')]

end Candle

namespace Market

variable {now : Int} {m m' : Market}

/-- Markets that agree serve the same operands. -/
theorem AgreesUpTo.check (h : m.AgreesUpTo now m') (o : Operand Price) :
    m.check o = m'.check o := by
  cases o with
  | number v => rfl
  | market i =>
      rw [Market.check, Market.check, MarketConfig.supports, MarketConfig.supports, h.config]

/-- **Streams opened in markets that agree deliver the same.** -/
theorem AgreesUpTo.openStream (h : m.AgreesUpTo now m') (i : Instrument) (start : Int) :
    ∃ s t, m.openStream i start now = .ok s ∧ m'.openStream i start now = .ok t ∧ s.Alike t := by
  have hinterval : m.interval = m'.interval := congrArg MarketConfig.interval h.config
  obtain ⟨cs, ds, hcs, hds, hagree⟩ := h.source i.key (intervalStart m.interval start)
  have hs := TickStream.delivers_passing
    (s := .ofFeed i.key (cs.map .ok) m.interval start now)
    ⟨rfl, rfl, fun c hc => hagree.finite c (List.mem_append_left _ hc)⟩
  have ht := TickStream.delivers_passing
    (s := .ofFeed i.key (ds.map .ok) m.interval start now)
    ⟨rfl, rfl, fun c hc => hagree.finite c (List.mem_append_right _ hc)⟩
  refine ⟨.ofFeed i.key (cs.map .ok) m.interval start now,
    .ofFeed i.key (ds.map .ok) m.interval start now, ?_, ?_, rfl, rfl, _, hs, ?_⟩
  · rw [Market.openStream, hcs]
    rfl
  · rw [Market.openStream, ← hinterval, hds]
    rfl
  · have hsame := hagree.passing_eq m.interval start none
    exact hsame ▸ ht

end Market

namespace Session

open TickStream (Alike)

/-! ### Streams of a condition -/

/-- Streams that are alike give the same ticks, and are alike afterwards. -/
theorem drawEach_alike {ss ts : List TickStream} (h : List.Forall₂ TickStream.Alike ss ts)
    (ticks : TickSet Price) :
    (drawEach ticks ss).1 = (drawEach ticks ts).1 ∧
      List.Forall₂ TickStream.Alike (drawEach ticks ss).2 (drawEach ticks ts).2 := by
  induction h generalizing ticks with
  | nil => exact ⟨rfl, .nil⟩
  | @cons s t ss ts hst hrest ih =>
      obtain ⟨hsame, halike⟩ := hst.next
      rcases hsame with ⟨u, hs, ht⟩ | ⟨last, last', hs, ht⟩
      · rw [drawEach_of_tick (Prod.ext hs rfl), drawEach_of_tick (Prod.ext ht rfl), ← halike.key]
        obtain ⟨hdrawn, hstreams⟩ := ih (ticks.insert s.next.2.key u)
        exact ⟨hdrawn, .cons halike hstreams⟩
      · rw [drawEach_of_exhausted (Prod.ext hs rfl), drawEach_of_exhausted (Prod.ext ht rfl)]
        exact ⟨rfl, .cons halike hrest⟩

/-- Streams that are alike give the same ticks, and are alike afterwards. -/
theorem drawAll_alike {ss ts : List TickStream} (h : List.Forall₂ TickStream.Alike ss ts) :
    (drawAll ss).1 = (drawAll ts).1 ∧
      List.Forall₂ TickStream.Alike (drawAll ss).2 (drawAll ts).2 := by
  have hany : ss.any (·.exhausted) = ts.any (·.exhausted) := by
    induction h with
    | nil => rfl
    | cons hst _ ih => rw [List.any_cons, List.any_cons, hst.exhausted, ih]
  rw [drawAll, drawAll, hany]
  split
  · exact ⟨rfl, h⟩
  · exact drawEach_alike h .empty

/-- In markets that agree the same streams are requested and opened. -/
theorem openStreams_alike {m m' : Market} {now : Int} (h : m.AgreesUpTo now m') (start : Int)
    (is : List Instrument) :
    (openStreams m start now is).1 = (openStreams m' start now is).1 ∧
      ((∃ e, (openStreams m start now is).2 = .error e ∧
          (openStreams m' start now is).2 = .error e) ∨
        ∃ ss ts, (openStreams m start now is).2 = .ok ss ∧
          (openStreams m' start now is).2 = .ok ts ∧ List.Forall₂ TickStream.Alike ss ts) := by
  have hinterval : m.interval = m'.interval := congrArg MarketConfig.interval h.config
  induction is with
  | nil => exact ⟨rfl, Or.inr ⟨[], [], rfl, rfl, .nil⟩⟩
  | cons i is ih =>
      obtain ⟨hopenings, hstreams⟩ := ih
      rw [openStreams, openStreams, h.check]
      cases hcheck : m'.check (.market i) with
      | error e => exact ⟨rfl, Or.inl ⟨e, rfl, rfl⟩⟩
      | ok i =>
          obtain ⟨s, t, hs, ht, halike⟩ := h.openStream i start
          simp only [hs, ht, hinterval]
          refine ⟨by rw [hopenings], ?_⟩
          rcases hstreams with ⟨e, hss, hts⟩ | ⟨ss, ts, hss, hts, hrest⟩
          · exact Or.inl ⟨e, by rw [hss]; rfl, by rw [hts]; rfl⟩
          · exact Or.inr ⟨s :: ss, t :: ts, by rw [hss]; rfl, by rw [hts]; rfl,
              .cons halike hrest⟩

/-! ### Sessions -/

/-- Two sessions of one prediction whose streams deliver the same. -/
structure Alike (s t : Session) : Prop where
  initial : s.initial = t.initial
  prediction : s.prediction = t.prediction
  now : s.now = t.now
  inactive : s.inactive = t.inactive
  length : s.streams.length = t.streams.length
  streams : ∀ i : Nat, Option.Rel (List.Forall₂ TickStream.Alike) s.streams[i]?.join
    t.streams[i]?.join

variable {m m' : Market} {s t : Session}

/-- Sessions that are alike have both changed or both not. -/
theorem Alike.hasChanged (h : s.Alike t) : s.hasChanged = t.hasChanged := by
  rw [Session.hasChanged, Session.hasChanged, h.prediction, h.initial]

/-- Streams that are alike may be put in. -/
theorem Alike.withStreams (h : s.Alike t) (i : Nat) {ss ts : List TickStream}
    (hss : List.Forall₂ TickStream.Alike ss ts) :
    (s.withStreams i ss).Alike (t.withStreams i ts) where
  initial := h.initial
  prediction := h.prediction
  now := h.now
  inactive := h.inactive
  length := by
    rw [Session.withStreams, Session.withStreams, List.length_set, List.length_set, h.length]
  streams j := by
    simp only [Session.withStreams, List.getElem?_set, h.length]
    split
    · split
      · exact .some hss
      · exact .none
    · exact h.streams j

/-- A condition may be put in. -/
theorem Alike.withCondition (h : s.Alike t) (i : Nat) (c : Condition Price) :
    (s.withCondition i c).Alike (t.withCondition i c) :=
  { h with prediction := congrArg (Prediction.setCondition · i c) h.prediction }

/-- The prediction may be evaluated, and the sessions be ended or not. -/
theorem Alike.evaluated (h : s.Alike t) {b b' : Bool} (hb : b = b') :
    Alike { s with prediction := s.prediction.evaluated, inactive := b }
      { t with prediction := t.prediction.evaluated, inactive := b' } :=
  { h with prediction := congrArg Prediction.evaluated h.prediction, inactive := hb }

/-- Feeding a condition from streams that are alike comes to the same. -/
theorem Alike.feedFrom (h : s.Alike t) (i : Nat) (c : Condition Price) {ss ts : List TickStream}
    (hss : List.Forall₂ TickStream.Alike ss ts) :
    (s.feedFrom i c ss).1.Alike (t.feedFrom i c ts).1 ∧
      (s.feedFrom i c ss).2 = (t.feedFrom i c ts).2 := by
  obtain ⟨hdrawn, hstreams⟩ := drawAll_alike hss
  cases hs : drawAll ss with
  | mk drawn ss' =>
      have ht : drawAll ts = (drawn, (drawAll ts).2) := by
        rw [hs] at hdrawn
        exact Prod.ext hdrawn.symm rfl
      rw [hs] at hstreams
      have hput := h.withStreams i hstreams
      cases drawn with
      | dry =>
          rw [feedFrom_of_dry hs, feedFrom_of_dry ht]
          exact ⟨hput, rfl⟩
      | failed e =>
          rw [feedFrom_of_failed hs, feedFrom_of_failed ht]
          exact ⟨hput, rfl⟩
      | ticks ticks =>
          cases hfeed : c.feed ticks with
          | error e =>
              rw [feedFrom_of_refused hs hfeed, feedFrom_of_refused ht hfeed]
              exact ⟨hput, rfl⟩
          | ok d =>
              rw [feedFrom_of_fed hs hfeed, feedFrom_of_fed ht hfeed]
              exact ⟨hput.withCondition i d, rfl⟩

/-- **A step keeps sessions alike** and comes to the same in both. -/
theorem Alike.step (h : s.Alike t) (hm : m.AgreesUpTo s.now m') (i : Nat) :
    (s.step m i).session.Alike (t.step m' i).session ∧
      (s.step m i).opened = (t.step m' i).opened ∧ (s.step m i).result = (t.step m' i).result := by
  cases hc : s.prediction.given[i]? with
  | none =>
      rw [step_of_none hc, step_of_none (h.prediction ▸ hc)]
      exact ⟨h, rfl, rfl⟩
  | some c =>
      have hc' : t.prediction.given[i]? = some c := h.prediction ▸ hc
      have hstreams := h.streams i
      cases hs : s.streams[i]?.join with
      | some ss =>
          cases ht : t.streams[i]?.join with
          | none =>
              rw [hs, ht] at hstreams
              cases hstreams
          | some ts =>
              rw [hs, ht] at hstreams
              cases hstreams with
              | some hss =>
                  rw [step_of_open hc hs, step_of_open hc' ht]
                  obtain ⟨hsession, hresult⟩ := h.feedFrom i c hss
                  exact ⟨hsession, rfl, hresult⟩
      | none =>
          have ht : t.streams[i]?.join = none := by
            rw [hs] at hstreams
            cases ht : t.streams[i]?.join with
            | none => rfl
            | some ts =>
                rw [ht] at hstreams
                cases hstreams
          obtain ⟨hopenings, hopened⟩ :=
            openStreams_alike hm (max c.fromTs c.state.lastTs) c.instruments
          rcases hopened with ⟨e, hs', ht'⟩ | ⟨ss, ts, hs', ht', hss⟩
          · rw [step_of_unopened hc hs (Prod.ext rfl hs'),
              step_of_unopened hc' ht (Prod.ext rfl (h.now ▸ ht')), ← h.now]
            exact ⟨h, hopenings, rfl⟩
          · rw [step_of_opened hc hs (Prod.ext rfl hs'),
              step_of_opened hc' ht (Prod.ext rfl (h.now ▸ ht')), ← h.now]
            obtain ⟨hsession, hresult⟩ := h.feedFrom i c hss
            exact ⟨hsession, hopenings, hresult⟩

/-- A round keeps sessions alike and comes to the same in both. -/
theorem Alike.round (h : s.Alike t) (hm : m.AgreesUpTo s.now m') (is : List Nat) :
    (s.round m is).session.Alike (t.round m' is).session ∧
      (s.round m is).opened = (t.round m' is).opened ∧
      (s.round m is).fed = (t.round m' is).fed ∧
      (s.round m is).fault = (t.round m' is).fault := by
  induction is generalizing s t with
  | nil => exact ⟨h, rfl, rfl, rfl⟩
  | cons i is ih =>
      obtain ⟨hsession, hopened, hresult⟩ := h.step hm i
      cases hs : (s.step m i).result with
      | error fault =>
          rw [round_of_fault hs, round_of_fault (hresult ▸ hs)]
          exact ⟨hsession, hopened, rfl, rfl⟩
      | ok fed =>
          rw [round_of_ok hs, round_of_ok (hresult ▸ hs)]
          rw [← step_now m s i] at hm
          obtain ⟨hrest, hopened', hfed, hfault⟩ := ih hsession hm
          exact ⟨hrest, by rw [hopened, hopened'], by rw [hfed], hfault⟩

/-- **A pass keeps sessions alike** and comes to the same in both. -/
theorem Alike.pass (h : s.Alike t) (hm : m.AgreesUpTo s.now m') :
    (s.pass m).session.Alike (t.pass m').session ∧ (s.pass m).opened = (t.pass m').opened ∧
      (s.pass m).errors = (t.pass m').errors := by
  have hp := h.prediction
  cases hinactive : s.inactive with
  | true =>
      rw [pass_of_inactive hinactive, pass_of_inactive (h.inactive ▸ hinactive)]
      exact ⟨h, rfl, rfl⟩
  | false =>
      have hinactive' : t.inactive = false := h.inactive ▸ hinactive
      cases hfinal : s.prediction.isFinal with
      | true =>
          rw [pass_of_final hinactive hfinal, pass_of_final hinactive' (hp ▸ hfinal)]
          exact ⟨{ h with inactive := rfl }, rfl, rfl⟩
      | false =>
          have hfinal' : t.prediction.isFinal = false := hp ▸ hfinal
          obtain ⟨hround, hopened, hfed, hfault⟩ := h.round hm s.prediction.actionable
          cases hf : (s.round m s.prediction.actionable).fault with
          | none =>
              rw [pass_of_round hinactive hfinal hf,
                pass_of_round hinactive' hfinal' (hp ▸ hfault ▸ hf)]
              rw [hp] at hround hopened hfed ⊢
              exact ⟨hround.evaluated (by rw [hround.prediction, hfed]), hopened, rfl⟩
          | some fault =>
              rw [pass_of_fault hinactive hfinal hf,
                pass_of_fault hinactive' hfinal' (hp ▸ hfault ▸ hf)]
              rw [hp] at hround hopened ⊢
              exact ⟨hround.evaluated rfl, hopened, by rw [hround.prediction]⟩

end Session

end Forecast
