import Forecast.Proofs.TickStream.Span

/-!
# What a Tick Stream Delivers

A stream is used by asking it for one tick after the other until it is exhausted. `Delivers` is the
list of ticks that this gives. Where a feed has candles only, and only finite prices, this list can
be read off the candles without the stream (`passing`): of all their ticks in order, those from the
start of the stream on and later than the one before, up to the first that lies after its end.

Three facts about the list are used later. It does not depend on what the feed has after the end of
the stream (`passing_of_beginsAfter`), nor on ticks that are earlier than one in front of them
(`passing_cons_append`); and of ticks in order it is those within the span of the stream
(`passing_of_sorted`).

## Main results

* `next_cases`: all that asking a stream can come to.
* `delivers_passing`: what a stream over candles delivers.
* `Alike.next`: streams that deliver the same stay so.
-/

namespace Forecast

namespace TickStream

/-! ### One tick -/

/-- All that drawing candles can come to: a tick, the end, or a failure that is not the end. -/
theorem draw_cases (s : TickStream) (feed : Feed) :
    (∃ t buffer rest, s.draw feed = s.yielding t buffer rest) ∨
      (∃ rest, s.draw feed = s.finish rest) ∨
        ∃ e rest, (∀ last, e ≠ .exhausted last) ∧
          s.draw feed = (.error e, { s with buffer := [], feed := rest }) := by
  induction feed with
  | nil => exact Or.inr (Or.inl ⟨[], rfl⟩)
  | cons e feed ih =>
      cases e with
      | error e =>
          cases e with
          | exhausted last => exact Or.inr (Or.inl ⟨feed, rfl⟩)
          | unsupportedOperand key =>
              exact Or.inr (Or.inr ⟨.unsupportedOperand key, feed, by simp, rfl⟩)
          | unsupportedProvider provider key =>
              exact Or.inr (Or.inr ⟨.unsupportedProvider provider key, feed, by simp, rfl⟩)
          | sourceFailed key reason =>
              exact Or.inr (Or.inr ⟨.sourceFailed key reason, feed, by simp, rfl⟩)
      | ok c =>
          rw [draw]
          split
          · split
            · exact Or.inl ⟨_, _, feed, rfl⟩
            · exact Or.inr (Or.inl ⟨feed, rfl⟩)
            · exact ih
          · exact Or.inr (Or.inr ⟨s.badCandle c, feed, by simp [badCandle], rfl⟩)

/-- **All that asking a stream can come to.** An exhausted stream says so and stays as it is. Any
other yields a tick, is exhausted now, or reports a failure that is not the end. -/
theorem next_cases (s : TickStream) :
    (s.exhausted = true ∧ s.next = (.error (.exhausted s.lastTick), s)) ∨
      s.exhausted = false ∧
        ((∃ t buffer rest, s.next = s.yielding t buffer rest) ∨
          (∃ rest, s.next = s.finish rest) ∨
            ∃ e rest, (∀ last, e ≠ .exhausted last) ∧
              s.next = (.error e, { s with buffer := [], feed := rest })) := by
  rw [next]
  split
  · next hex => exact Or.inl ⟨hex, rfl⟩
  · next hopen =>
      refine Or.inr ⟨Bool.eq_false_iff.2 hopen, ?_⟩
      split
      · exact Or.inl ⟨_, _, _, rfl⟩
      · exact Or.inr (Or.inl ⟨_, rfl⟩)
      · exact s.draw_cases s.feed

/-- The key of a stream never changes. -/
theorem next_key (s : TickStream) : s.next.2.key = s.key := by
  rcases s.next_cases with ⟨-, h⟩ | ⟨-, ⟨_, _, _, h⟩ | ⟨_, h⟩ | ⟨_, _, -, h⟩⟩
  · rw [h]
  · rw [h]
    rfl
  · rw [h]
    rfl
  · rw [h]

/-- A stream that yields a tick is not exhausted, neither before nor after. -/
theorem not_exhausted_of_next {s s' : TickStream} {t : Tick Price} (h : s.next = (.ok t, s')) :
    s.exhausted = false ∧ s'.exhausted = false := by
  rcases s.next_cases with ⟨-, h'⟩ | ⟨hex, ⟨_, _, _, h'⟩ | ⟨_, h'⟩ | ⟨_, _, -, h'⟩⟩
  · rw [h] at h'
    cases h'
  · rw [h] at h'
    cases h'
    exact ⟨hex, hex⟩
  · rw [h] at h'
    cases h'
  · rw [h] at h'
    cases h'

/-- A stream that says it is exhausted is so from then on. -/
theorem exhausted_of_next {s s' : TickStream} {last : Option (Tick Price)}
    (h : s.next = (.error (.exhausted last), s')) : s'.exhausted = true := by
  rcases s.next_cases with ⟨hex, h'⟩ | ⟨-, ⟨_, _, _, h'⟩ | ⟨_, h'⟩ | ⟨e, _, hne, h'⟩⟩
  · rw [h] at h'
    cases h'
    exact hex
  · rw [h] at h'
    cases h'
  · rw [h] at h'
    cases h'
    rfl
  · rw [h] at h'
    cases h'
    exact absurd rfl (hne last)

/-- A tick that is found is no repetition. -/
theorem isRepeat_of_search {s : TickStream} {ts rest : List (Tick Price)} {t : Tick Price}
    (h : s.search ts = .tick t rest) : s.isRepeat t = false := by
  induction ts with
  | nil => cases h
  | cons u us ih =>
      rw [search] at h
      split at h
      · cases h
      split at h
      · exact ih h
      · next hskip =>
          cases h
          exact Bool.eq_false_iff.2 (not_or.1 hskip).2

/-- A tick that is drawn is no repetition. -/
theorem isRepeat_of_draw {s : TickStream} {feed : Feed} {t : Tick Price}
    (h : (s.draw feed).1 = .ok t) : s.isRepeat t = false := by
  induction feed with
  | nil => cases h
  | cons e feed ih =>
      cases e with
      | error e => cases e <;> cases h
      | ok c =>
          rw [draw] at h
          split at h
          · split at h
            · next hfound =>
                cases h
                exact isRepeat_of_search hfound
            · cases h
            · exact ih h
          · cases h

/-- A tick that a stream yields is no repetition. -/
theorem isRepeat_of_next {s : TickStream} {t : Tick Price} (h : s.next.1 = .ok t) :
    s.isRepeat t = false := by
  rw [next] at h
  split at h
  · cases h
  split at h
  · next hfound =>
      cases h
      exact isRepeat_of_search hfound
  · cases h
  · exact isRepeat_of_draw h

/-- A stream remembers the tick that it has yielded. -/
theorem lastTick_of_next {s s' : TickStream} {t : Tick Price} (h : s.next = (.ok t, s')) :
    s'.lastTick = some t := by
  rcases s.next_cases with ⟨-, h'⟩ | ⟨-, ⟨_, _, _, h'⟩ | ⟨_, h'⟩ | ⟨_, _, -, h'⟩⟩
  · rw [h] at h'
    cases h'
  · rw [h] at h'
    cases h'
    rfl
  · rw [h] at h'
    cases h'
  · rw [h] at h'
    cases h'

/-! ### The ticks delivered -/

/-- What a stream delivers: some ticks, one after the other, and then no more. A stream whose feed
fails before that delivers nothing in this sense. -/
inductive Delivers : TickStream → List (Tick Price) → Prop
  | nothing {s s' : TickStream} {last : Option (Tick Price)} :
      s.next = (.error (.exhausted last), s') → Delivers s []
  | tick {s s' : TickStream} {t : Tick Price} {ts : List (Tick Price)} :
      s.next = (.ok t, s') → Delivers s' ts → Delivers s (t :: ts)

/-- An exhausted stream delivers nothing. -/
theorem delivers_of_exhausted {s : TickStream} (h : s.exhausted = true) : s.Delivers [] := by
  rcases s.next_cases with ⟨-, hnext⟩ | ⟨hopen, -⟩
  · exact .nothing hnext
  · rw [h] at hopen
    cases hopen

/-- A stream delivers one list of ticks only. -/
theorem Delivers.unique {s : TickStream} {ts us : List (Tick Price)} (hts : s.Delivers ts)
    (hus : s.Delivers us) : ts = us := by
  induction hts generalizing us with
  | nothing h =>
      cases hus with
      | nothing => rfl
      | tick h' => rw [h] at h'; cases h'
  | tick h _ ih =>
      cases hus with
      | nothing h' => rw [h] at h'; cases h'
      | tick h' hrest =>
          rw [h] at h'
          cases h'
          rw [ih hrest]

/-- **What a stream delivers is in order,** from its start on and after what it has yielded. -/
theorem Delivers.sorted {s : TickStream} {ts : List (Tick Price)} (h : s.Delivers ts) :
    (ts.Pairwise fun t u => t.timestamp < u.timestamp) ∧
      ∀ t ∈ ts, s.start ≤ t.timestamp ∧ ∀ u ∈ s.lastTick, u.timestamp < t.timestamp := by
  induction h with
  | nothing => exact ⟨.nil, fun t ht => absurd ht List.not_mem_nil⟩
  | @tick s s' t ts hnext _ ih =>
      obtain ⟨hsorted, hrest⟩ := ih
      have hresult : s.next.1 = .ok t := congrArg Prod.fst hnext
      have hstart : s'.start = s.start := by
        have hspan := s.next_span.1
        rwa [hnext] at hspan
      have hafter : ∀ u ∈ ts, t.timestamp < u.timestamp := fun u hu =>
        (hrest u hu).2 t (lastTick_of_next hnext)
      have hlast : ∀ u ∈ s.lastTick, u.timestamp < t.timestamp := by
        intro u hu
        have hnew := isRepeat_of_next hresult
        rw [isRepeat, Option.mem_def.1 hu, Option.any_some, decide_eq_false_iff_not] at hnew
        exact Int.not_le.1 hnew
      refine ⟨List.pairwise_cons.2 ⟨hafter, hsorted⟩, List.forall_mem_cons.2 ⟨?_, fun u hu => ?_⟩⟩
      · exact ⟨(next_tick hresult).1, hlast⟩
      · have := (hrest u hu).1
        refine ⟨by omega, fun v hv => Int.lt_trans (hlast v hv) (hafter u hu)⟩

/-- Two streams under one key that deliver the same and are both exhausted or both not. -/
structure Alike (s t : TickStream) : Prop where
  key : s.key = t.key
  exhausted : s.exhausted = t.exhausted
  delivers : ∃ ts, s.Delivers ts ∧ t.Delivers ts

/-- **Streams that deliver the same stay so:** they yield the same tick, or both are exhausted. -/
theorem Alike.next {s t : TickStream} (h : s.Alike t) :
    ((∃ u, s.next.1 = .ok u ∧ t.next.1 = .ok u) ∨
      ∃ last last', s.next.1 = .error (.exhausted last) ∧ t.next.1 = .error (.exhausted last')) ∧
      s.next.2.Alike t.next.2 := by
  obtain ⟨hkey, -, ts, hs, ht⟩ := h
  have hkeys : s.next.2.key = t.next.2.key := by rw [next_key, next_key, hkey]
  cases hs with
  | nothing hs =>
      cases ht with
      | nothing ht =>
          have hs' := exhausted_of_next hs
          have ht' := exhausted_of_next ht
          rw [hs, ht] at hkeys ⊢
          exact ⟨Or.inr ⟨_, _, rfl, rfl⟩, hkeys, hs'.trans ht'.symm, [], delivers_of_exhausted hs',
            delivers_of_exhausted ht'⟩
  | tick hs hsrest =>
      cases ht with
      | tick ht htrest =>
          have hs' := (not_exhausted_of_next hs).2
          have ht' := (not_exhausted_of_next ht).2
          rw [hs, ht] at hkeys ⊢
          exact ⟨Or.inl ⟨_, rfl, rfl⟩, hkeys, hs'.trans ht'.symm, _, hsrest, htrest⟩

/-! ### Streams over candles -/

/-- What a stream from `start` to `now` lets pass of some ticks, when `last` was the last to pass:
those from the start on and later than the one before, up to the first after the end. -/
def passing (start now : Int) : Option (Tick Price) → List (Tick Price) → List (Tick Price)
  | _, [] => []
  | last, t :: ts =>
    if now < t.timestamp then []
    else if t.timestamp < start ∨ last.any fun u => t.timestamp ≤ u.timestamp then
      passing start now last ts
    else t :: passing start now (some t) ts

/-- What passes of some ticks begins with what a search among the first of them finds. -/
theorem passing_append (s : TickStream) (ts us : List (Tick Price)) :
    passing s.start s.now s.lastTick (ts ++ us) =
      match s.search ts with
      | .tick t rest => t :: passing s.start s.now (some t) (rest ++ us)
      | .ending => []
      | .nothing => passing s.start s.now s.lastTick us := by
  induction ts with
  | nil => rfl
  | cons t ts ih =>
      rw [List.cons_append, passing, search, isRepeat]
      split
      · rfl
      split
      · exact ih
      · rfl

/-- A stream that is not exhausted and whose feed has some candles left and nothing else, all of
finite prices. -/
structure HasLeft (s : TickStream) (cs : List Candle) : Prop where
  exhausted : s.exhausted = false
  feed : s.feed = cs.map .ok
  finite : ∀ c ∈ cs, c.hasFinitePrices = true

/-- The ticks that a stream has in front of it. -/
def ahead (s : TickStream) (cs : List Candle) : List (Tick Price) :=
  s.buffer ++ cs.flatMap (Candle.ticks s.interval)

/-- What comes of drawing candles of finite prices. -/
theorem draw_candles (s : TickStream) {cs : List Candle}
    (hfinite : ∀ c ∈ cs, c.hasFinitePrices = true) :
    (∃ feed, s.draw (cs.map .ok) = s.finish feed ∧
        passing s.start s.now s.lastTick (cs.flatMap (Candle.ticks s.interval)) = []) ∨
      ∃ (t : Tick Price) (buffer : List (Tick Price)) (cs' : List Candle),
        s.draw (cs.map .ok) = s.yielding t buffer (cs'.map .ok) ∧
        (∀ c ∈ cs', c.hasFinitePrices = true) ∧
          passing s.start s.now s.lastTick (cs.flatMap (Candle.ticks s.interval)) =
            t :: passing s.start s.now (some t)
              (buffer ++ cs'.flatMap (Candle.ticks s.interval)) := by
  induction cs with
  | nil => exact Or.inl ⟨[], rfl, rfl⟩
  | cons c cs ih =>
      obtain ⟨hc, hcs⟩ := List.forall_mem_cons.1 hfinite
      rw [List.map_cons, List.flatMap_cons, passing_append, draw, if_pos hc]
      cases s.search (c.ticks s.interval) with
      | tick t buffer => exact Or.inr ⟨t, buffer, cs, rfl, hcs, rfl⟩
      | ending => exact Or.inl ⟨_, rfl, rfl⟩
      | nothing => exact ih hcs

/-- What comes of asking a stream over candles. -/
theorem HasLeft.next {s : TickStream} {cs : List Candle} (h : s.HasLeft cs) :
    (∃ feed, s.next = s.finish feed ∧ passing s.start s.now s.lastTick (s.ahead cs) = []) ∨
      ∃ (t : Tick Price) (buffer : List (Tick Price)) (cs' : List Candle),
        s.next = s.yielding t buffer (cs'.map .ok) ∧
        (∀ c ∈ cs', c.hasFinitePrices = true) ∧
          passing s.start s.now s.lastTick (s.ahead cs) =
            t :: passing s.start s.now (some t)
              (buffer ++ cs'.flatMap (Candle.ticks s.interval)) := by
  have hex : ¬ s.exhausted = true := Bool.eq_false_iff.1 h.exhausted
  rw [TickStream.next, if_neg hex, h.feed, ahead, passing_append]
  cases s.search s.buffer with
  | tick t buffer => exact Or.inr ⟨t, buffer, cs, rfl, h.finite, rfl⟩
  | ending => exact Or.inl ⟨_, rfl, rfl⟩
  | nothing => exact s.draw_candles h.finite

/-- **A stream over candles delivers what passes of their ticks.** -/
theorem delivers_passing {s : TickStream} {cs : List Candle} (h : s.HasLeft cs) :
    s.Delivers (passing s.start s.now s.lastTick (s.ahead cs)) := by
  generalize hts : passing s.start s.now s.lastTick (s.ahead cs) = ts
  induction ts generalizing s cs with
  | nil =>
      rcases h.next with ⟨feed, hnext, -⟩ | ⟨t, buffer, cs', -, -, hpassing⟩
      · exact .nothing hnext
      · rw [hts] at hpassing
        cases hpassing
  | cons t ts ih =>
      rcases h.next with ⟨feed, -, hpassing⟩ | ⟨u, buffer, cs', hnext, hfinite, hpassing⟩
      · rw [hts] at hpassing
        cases hpassing
      · rw [hts] at hpassing
        obtain ⟨rfl, hrest⟩ := List.cons_eq_cons.1 hpassing
        exact .tick hnext (ih ⟨h.exhausted, rfl, hfinite⟩ hrest.symm)

/-! ### Ticks after the end, ticks that lag, and ticks in order -/

/-- Whether the first of some ticks, if there is one, lies after a second. -/
def BeginsAfter (now : Int) (ts : List (Tick Price)) : Prop :=
  ∀ t ∈ ts.head?, now < t.timestamp

/-- Nothing passes of ticks that begin after the end. -/
theorem passing_of_beginsAfter {start now : Int} {last : Option (Tick Price)}
    {ts : List (Tick Price)} (h : BeginsAfter now ts) : passing start now last ts = [] := by
  cases ts with
  | nil => rfl
  | cons t ts => rw [passing, if_pos (h t rfl)]

/-- Ticks of which always the same pass may replace each other behind others. -/
theorem passing_append_congr {start now : Int} (ts : List (Tick Price))
    {us vs : List (Tick Price)}
    (h : ∀ last, passing start now last us = passing start now last vs)
    (last : Option (Tick Price)) :
    passing start now last (ts ++ us) = passing start now last (ts ++ vs) := by
  induction ts generalizing last with
  | nil => exact h last
  | cons t ts ih =>
      rw [List.cons_append, List.cons_append, passing, passing, ih, ih]

/-- Ticks do not pass that are earlier than a second that has been reached, be it by the start of
the stream or by the last tick that passed. -/
theorem passing_append_of_reached {start now second : Int} (hnow : second ≤ now)
    {last : Option (Tick Price)} (h : second ≤ start ∨ ∃ u ∈ last, second ≤ u.timestamp)
    (ts us : List (Tick Price)) :
    passing start now last (ts ++ us) =
      passing start now last (ts.filter (fun t => second ≤ t.timestamp) ++ us) := by
  induction ts generalizing last with
  | nil => rfl
  | cons t ts ih =>
      by_cases ht : second ≤ t.timestamp
      · rw [List.filter_cons_of_pos (by rwa [decide_eq_true_eq]), List.cons_append,
          List.cons_append, passing, passing, ih h, ih (Or.inr ⟨t, rfl, ht⟩)]
      · have hskip : t.timestamp < start ∨ last.any fun u => t.timestamp ≤ u.timestamp := by
          rcases h with hstart | ⟨u, hu, hle⟩
          · exact Or.inl (by omega)
          · exact Or.inr (Option.any_eq_true _ _ |>.2 ⟨u, hu, decide_eq_true (by omega)⟩)
        rw [List.filter_cons_of_neg (by rwa [decide_eq_true_eq]), List.cons_append, passing,
          if_neg (by omega), if_pos hskip, ih h]

/-- Ticks do not pass that are earlier than one in front of them. -/
theorem passing_cons_append {start now : Int} {last : Option (Tick Price)} (t : Tick Price)
    (ts us : List (Tick Price)) :
    passing start now last (t :: ts ++ us) =
      passing start now last
        (t :: ts.filter (fun u => t.timestamp ≤ u.timestamp) ++ us) := by
  rw [List.cons_append, List.cons_append, passing, passing]
  split
  · rfl
  split
  · next hskip =>
      refine passing_append_of_reached (by omega) (hskip.imp Int.le_of_lt fun hany => ?_) ts us
      obtain ⟨u, hu, hle⟩ := Option.any_eq_true _ _ |>.1 hany
      exact ⟨u, hu, of_decide_eq_true hle⟩
  · rw [passing_append_of_reached (by omega) (Or.inr ⟨t, rfl, Int.le_refl _⟩)]

/-- Of ticks in order, none of which was yielded before, those within the span pass. -/
theorem passing_of_sorted {start now : Int} {last : Option (Tick Price)} {ts : List (Tick Price)}
    (hsorted : ts.Pairwise fun t u => t.timestamp < u.timestamp)
    (hlast : ∀ u ∈ last, ∀ t ∈ ts, u.timestamp < t.timestamp) :
    passing start now last ts = ts.filter fun t => start ≤ t.timestamp ∧ t.timestamp ≤ now := by
  induction ts generalizing last with
  | nil => rfl
  | cons t ts ih =>
      obtain ⟨hfirst, hrest⟩ := List.pairwise_cons.1 hsorted
      rw [passing]
      split
      · next hend =>
          have hnone : ∀ u ∈ t :: ts, ¬ (start ≤ u.timestamp ∧ u.timestamp ≤ now) := by
            intro u hu
            rcases List.mem_cons.1 hu with rfl | hu
            · omega
            · have := hfirst u hu
              omega
          exact (List.filter_eq_nil_iff.2 fun u hu => by simpa using hnone u hu).symm
      · next hend =>
          have hnew : ¬ last.any (fun u => t.timestamp ≤ u.timestamp) = true := by
            intro h
            obtain ⟨u, hu, hle⟩ := Option.any_eq_true _ _ |>.1 h
            have := hlast u hu t List.mem_cons_self
            have := of_decide_eq_true hle
            omega
          by_cases hstart : t.timestamp < start
          · rw [if_pos (Or.inl hstart), ih hrest fun u hu v hv =>
              hlast u hu v (List.mem_cons_of_mem _ hv)]
            rw [List.filter_cons_of_neg (by simp; omega)]
          · rw [if_neg (by simp [hstart, hnew]), ih hrest fun u hu v hv => by
              cases hu; exact hfirst v hv]
            rw [List.filter_cons_of_pos (by simp; omega)]

end TickStream

end Forecast
