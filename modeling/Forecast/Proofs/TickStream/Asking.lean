import Forecast.Proofs.Session.Numbers
import Forecast.Proofs.TickStream.Delivery
import Forecast.Proofs.TickStream.Exhaustion

/-!
# Asking a Tick Stream Again and Again

A stream is asked for one tick after the other, whatever it answers: it is not given up after a failure,
nor when it says that it is exhausted. Its answers are orderly all the same (`IsOrderly`). The ticks among
them are in order, within the span of the stream and finite, whatever the feed delivers and in whatever
order, and also where ticks have gone around beyond the last word. Exhaustion is for good and names the last tick. A failure costs one entry of the feed and nothing
else. And as each entry is worth four answers at most, the stream is exhausted in the end.

Two things carry this from answer to answer. One is a record of what has been yielded (`HasYielded`): the
last of it is what the stream compares the next tick with. The other is how many answers a stream has left
(`answersLeft`), which goes down with each answer until the stream is exhausted.

## Main results

* `HasYielded.next`: what an answer adds to the record.
* `next_failure`: what a failure costs.
* `next_answersLeft`: what an answer takes from those that are left.
* `isOrderly_ofFeed`: how a stream answers.
-/

namespace Forecast

namespace TickStream

/-- The stream after it has been asked a number of times. -/
def after (s : TickStream) : Nat → TickStream
  | 0 => s
  | n + 1 => (s.after n).next.2

/-- The answer of a stream that has been asked a number of times before. -/
def answer (s : TickStream) (n : Nat) : Except MarketError (Tick Price) :=
  (s.after n).next.1

/-- The ticks among the first answers of a stream. -/
def ticksBefore (s : TickStream) (n : Nat) : List (Tick Price) :=
  (List.range n).filterMap fun k => (s.answer k).toOption

/-- Whether a stream draws nothing from an entry of a feed: a candle with finite prices, none of whose
ticks may be yielded. -/
def PassesOver (s : TickStream) (entry : Except MarketError Candle) : Prop :=
  ∃ c, entry = .ok c ∧ c.hasFinitePrices = true ∧ s.search (c.ticks s.interval) = .nothing

/-- Whether an error is what a stream reports of an entry of a feed: the failure that the entry is, or
that of a candle with a price that is not finite. -/
def Reports (s : TickStream) (entry : Except MarketError Candle) (e : MarketError) : Prop :=
  entry = .error e ∨ ∃ c, entry = .ok c ∧ c.hasFinitePrices = false ∧ e = s.badCandle c

/-- How a stream answers that is asked again and again. -/
structure IsOrderly (s : TickStream) : Prop where
  /-- The ticks that it yields are in order. -/
  sorted : ∀ n, (s.ticksBefore n).Pairwise fun t u => t.timestamp < u.timestamp
  /-- They lie in its span. -/
  span : ∀ n, ∀ t ∈ s.ticksBefore n, s.start ≤ t.timestamp ∧ t.timestamp ≤ s.now
  finite : ∀ n, ∀ t ∈ s.ticksBefore n, t.value.isFinite = true
  /-- From the first time that it says that it is exhausted it goes on to say so, with the last tick
  that it has yielded. -/
  exhausted : ∀ n last, s.answer n = .error (.exhausted last) →
    ∀ k, n ≤ k → s.answer k = .error (.exhausted (s.ticksBefore n).getLast?)
  /-- Another error concerns one entry of the feed, up to which there was nothing to yield. The stream
  draws on from the entry after it, and is otherwise as it was. -/
  failure : ∀ n e, (∀ last, e ≠ .exhausted last) → s.answer n = .error e →
    (s.after (n + 1)).lastTick = (s.after n).lastTick ∧
      (s.after (n + 1)).exhausted = (s.after n).exhausted ∧
      (∃ passed entry, (s.after n).feed = passed ++ entry :: (s.after (n + 1)).feed ∧
        (∀ x ∈ passed, (s.after n).PassesOver x) ∧ (s.after n).Reports entry e) ∧
      s.answer (n + 1) = ((s.after (n + 1)).draw (s.after (n + 1)).feed).1
  /-- After four answers for each entry of its feed it is exhausted. -/
  ends : ∀ n, 4 * s.feed.length ≤ n → ∃ last, s.answer n = .error (.exhausted last)

/-! ### What has been yielded -/

/-- Whether some ticks are all that a stream has yielded since it was opened. -/
structure HasYielded (ts : List (Tick Price)) (s : TickStream) : Prop where
  sorted : ts.Pairwise fun t u => t.timestamp < u.timestamp
  span : ∀ t ∈ ts, s.start ≤ t.timestamp ∧ t.timestamp ≤ s.now
  finite : ∀ t ∈ ts, t.value.isFinite = true
  lastTick : s.lastTick = ts.getLast?
  /-- What the stream holds ready has finite prices, too. -/
  buffer : ∀ t ∈ s.buffer, t.value.isFinite = true

/-- No tick in order is later than the last one. -/
theorem exists_getLast?_of_mem {ts : List (Tick Price)}
    (hsorted : ts.Pairwise fun t u => t.timestamp < u.timestamp) {t : Tick Price} (ht : t ∈ ts) :
    ∃ u, ts.getLast? = some u ∧ t.timestamp ≤ u.timestamp := by
  have hne : ts ≠ [] := List.ne_nil_of_mem ht
  have hsplit := List.dropLast_append_getLast hne
  refine ⟨ts.getLast hne, List.getLast?_eq_some_getLast hne, ?_⟩
  rw [← hsplit] at hsorted ht
  rcases List.mem_append.1 ht with ht | ht
  · exact Int.le_of_lt ((List.pairwise_append.1 hsorted).2.2 t ht _ (List.mem_singleton_self _))
  · exact Int.le_of_eq (congrArg Tick.timestamp (List.mem_singleton.1 ht))

/-- **An answer adds its tick to what has been yielded,** if it is one. -/
theorem HasYielded.next {ts : List (Tick Price)} {s : TickStream} (h : HasYielded ts s) :
    HasYielded (ts ++ s.next.1.toOption.toList) s.next.2 := by
  obtain ⟨hstart, hnow⟩ := s.next_span
  have hkeeps := keeps_prices (R := (·.value.isFinite = true)) fun _ ht => ht
  have hbuffer := hkeeps.next h.buffer
  have hspan : ∀ t ∈ ts, s.next.2.start ≤ t.timestamp ∧ t.timestamp ≤ s.next.2.now := by
    rw [hstart, hnow]
    exact h.span
  -- an answer that is no tick leaves the last one as it was
  have hnothing (hlast : s.next.2.lastTick = s.lastTick) (hnone : s.next.1.toOption = none) :
      HasYielded (ts ++ s.next.1.toOption.toList) s.next.2 := by
    rw [hnone, Option.toList_none, List.append_nil]
    exact ⟨h.sorted, hspan, h.finite, hlast.trans h.lastTick, hbuffer⟩
  rcases s.next_cases with ⟨-, hnext⟩ | ⟨-, ⟨t, buffer, rest, hnext⟩ | ⟨rest, hnext⟩ | ⟨e, rest, -, hnext⟩⟩
  · exact hnothing (by rw [hnext]) (by rw [hnext]; rfl)
  · have hyielded : s.next.1 = .ok t := congrArg Prod.fst hnext
    have hlater : ∀ u ∈ ts, u.timestamp < t.timestamp := by
      intro u hu
      obtain ⟨v, hv, hle⟩ := exists_getLast?_of_mem h.sorted hu
      have hnew := isRepeat_of_next hyielded
      rw [isRepeat, h.lastTick, hv, Option.any_some, decide_eq_false_iff_not] at hnew
      omega
    rw [hyielded]
    refine ⟨?_, ?_, ?_, ?_, hbuffer⟩
    · refine List.pairwise_append.2 ⟨h.sorted, List.pairwise_singleton _ t, fun u hu v hv => ?_⟩
      rw [List.mem_singleton.1 hv]
      exact hlater u hu
    · refine List.forall_mem_append.2 ⟨hspan, List.forall_mem_singleton.2 ?_⟩
      rw [hstart, hnow]
      exact next_tick hyielded
    · exact List.forall_mem_append.2
        ⟨h.finite, List.forall_mem_singleton.2 (hkeeps.tick h.buffer hyielded)⟩
    · rw [hnext]
      exact List.getLast?_concat.symm
  · exact hnothing (by rw [hnext]; rfl) (by rw [hnext]; rfl)
  · exact hnothing (by rw [hnext]) (by rw [hnext]; rfl)

/-- The ticks among the first answers are all that a stream has yielded that had yielded nothing. -/
theorem HasYielded.after {s : TickStream} (h : HasYielded [] s) (n : Nat) :
    HasYielded (s.ticksBefore n) (s.after n) := by
  induction n with
  | zero => exact h
  | succ n ih =>
      have hticks : s.ticksBefore (n + 1) =
          s.ticksBefore n ++ (s.after n).next.1.toOption.toList := by
        rw [ticksBefore, List.range_succ, List.filterMap_append]
        cases hanswer : s.answer n with
        | error e =>
            rw [answer] at hanswer
            simp [hanswer, answer, Except.toOption, ticksBefore]
        | ok t =>
            rw [answer] at hanswer
            simp [hanswer, answer, Except.toOption, ticksBefore]
      rw [hticks]
      exact ih.next

/-- The span of a stream is the same however often it is asked. -/
theorem after_span (s : TickStream) (n : Nat) :
    (s.after n).start = s.start ∧ (s.after n).now = s.now := by
  induction n with
  | zero => exact ⟨rfl, rfl⟩
  | succ n ih =>
      obtain ⟨hstart, hnow⟩ := (s.after n).next_span
      exact ⟨hstart.trans ih.1, hnow.trans ih.2⟩

/-! ### Exhaustion -/

/-- A stream that says it is exhausted names the last tick, is exhausted and keeps that tick. -/
theorem eq_lastTick_of_next {s s' : TickStream} {last : Option (Tick Price)}
    (h : s.next = (.error (.exhausted last), s')) :
    last = s.lastTick ∧ s'.lastTick = s.lastTick ∧ s'.exhausted = true := by
  refine and_assoc.1 ⟨?_, exhausted_of_next h⟩
  rcases s.next_cases with ⟨-, h'⟩ | ⟨-, ⟨_, _, _, h'⟩ | ⟨_, h'⟩ | ⟨e, _, hne, h'⟩⟩
  · rw [h] at h'
    cases h'
    exact ⟨rfl, rfl⟩
  · rw [h] at h'
    cases h'
  · rw [h] at h'
    cases h'
    exact ⟨rfl, rfl⟩
  · rw [h] at h'
    cases h'
    exact absurd rfl (hne last)

/-- An exhausted stream says so, and is as it was. -/
theorem next_of_exhausted {s : TickStream} (h : s.exhausted = true) :
    s.next = (.error (.exhausted s.lastTick), s) := by
  rw [next, if_pos h]

/-- Once exhausted, a stream is the same however often it is asked. -/
theorem after_of_exhausted {s : TickStream} {n k : Nat} (h : (s.after n).exhausted = true)
    (hk : n ≤ k) : s.after k = s.after n := by
  induction k, hk using Nat.le_induction with
  | base => rfl
  | succ k _ ih =>
      rw [after, ih, next_of_exhausted h]

/-! ### Failures -/

/-- **A failure is what is reported of one entry of the feed,** and nothing is drawn from those
before it. -/
theorem draw_failure {s s' : TickStream} {feed : Feed} {e : MarketError}
    (hne : ∀ last, e ≠ .exhausted last) (h : s.draw feed = (.error e, s')) :
    ∃ passed entry rest, feed = passed ++ entry :: rest ∧ (∀ x ∈ passed, s.PassesOver x) ∧
      s.Reports entry e ∧ s' = { s with buffer := [], feed := rest } := by
  -- an entry that is reported at once is the first one
  have hfirst (entry : Except MarketError Candle) (rest : Feed) (hreports : s.Reports entry e)
      (hs' : { s with buffer := [], feed := rest } = s') :
      ∃ passed entry' rest', entry :: rest = passed ++ entry' :: rest' ∧
        (∀ x ∈ passed, s.PassesOver x) ∧ s.Reports entry' e ∧
          s' = { s with buffer := [], feed := rest' } :=
    ⟨[], entry, rest, rfl, fun _ hx => absurd hx List.not_mem_nil, hreports, hs'.symm⟩
  induction feed with
  | nil =>
      cases h
      exact absurd rfl (hne _)
  | cons entry feed ih =>
      cases entry with
      | error e' =>
          have heq : e' = e ∧ { s with buffer := [], feed } = s' := by
            cases e' with
            | exhausted last =>
                cases h
                exact absurd rfl (hne _)
            | _ =>
                cases h
                exact ⟨rfl, rfl⟩
          exact hfirst _ _ (Or.inl (congrArg Except.error heq.1)) heq.2
      | ok c =>
          rw [draw] at h
          split at h
          · next hfinite =>
              split at h
              · cases h
              · cases h
                exact absurd rfl (hne _)
              · next hfound =>
                  obtain ⟨passed, entry, rest, rfl, hpassed, hreports, hs'⟩ := ih h
                  exact ⟨.ok c :: passed, entry, rest, rfl,
                    List.forall_mem_cons.2 ⟨⟨c, rfl, hfinite, hfound⟩, hpassed⟩, hreports, hs'⟩
          · next hinfinite =>
              cases h
              exact hfirst _ _ (Or.inr ⟨c, rfl, Bool.eq_false_iff.2 hinfinite, rfl⟩) rfl

/-- A stream that has nothing ready draws from its feed. -/
theorem next_of_buffer_eq_nil {s : TickStream} (hopen : s.exhausted = false) (h : s.buffer = []) :
    s.next = s.draw s.feed := by
  rw [next, if_neg (Bool.eq_false_iff.1 hopen), h, search]

/-- **A failure costs one entry of the feed and nothing else.** Before it there was nothing to yield,
and after it the stream draws from what follows. -/
theorem next_failure {s s' : TickStream} {e : MarketError} (hne : ∀ last, e ≠ .exhausted last)
    (h : s.next = (.error e, s')) :
    s'.lastTick = s.lastTick ∧ s'.exhausted = s.exhausted ∧
      (∃ passed entry, s.feed = passed ++ entry :: s'.feed ∧ (∀ x ∈ passed, s.PassesOver x) ∧
        s.Reports entry e) ∧
      s'.next = s'.draw s'.feed := by
  rw [next] at h
  split at h
  · cases h
    exact absurd rfl (hne _)
  · next hopen =>
      split at h
      · cases h
      · cases h
        exact absurd rfl (hne _)
      · obtain ⟨passed, entry, rest, hfeed, hpassed, hreports, rfl⟩ := draw_failure hne h
        exact ⟨rfl, rfl, ⟨passed, entry, hfeed, hpassed, hreports⟩,
          next_of_buffer_eq_nil (Bool.eq_false_iff.2 hopen) rfl⟩

/-! ### How many answers there are -/

/-- A bound on the answers that a stream has left before it is exhausted, failures among them: one for
each tick that it holds ready, and four for each entry of its feed. -/
def answersLeft (s : TickStream) : Nat :=
  if s.exhausted then 0 else s.buffer.length + 4 * s.feed.length

/-- Drawing uses up an entry of the feed, and fewer than four ticks of it are left over, unless the
stream is exhausted then. -/
theorem answersLeft_draw (s : TickStream) (feed : Feed) :
    (s.draw feed).2.exhausted = true ∨
      (s.draw feed).2.buffer.length + 4 * (s.draw feed).2.feed.length < 4 * feed.length := by
  induction feed with
  | nil => exact Or.inl rfl
  | cons entry feed ih =>
      rw [List.length_cons]
      cases entry with
      | error e =>
          cases e with
          | exhausted last => exact Or.inl rfl
          | _ =>
              refine Or.inr ?_
              change 0 + 4 * feed.length < 4 * (feed.length + 1)
              omega
      | ok c =>
          rw [draw]
          split
          · split
            · next t buffer hfound =>
                refine Or.inr ?_
                have hlength : buffer.length < 4 := length_lt_of_search hfound
                change buffer.length + 4 * feed.length < 4 * (feed.length + 1)
                omega
            · exact Or.inl rfl
            · exact ih.imp_right fun h => by omega
          · refine Or.inr ?_
            change 0 + 4 * feed.length < 4 * (feed.length + 1)
            omega

/-- A stream that is exhausted after an answer has said so. -/
theorem eq_exhausted_of_next {s : TickStream} (h : s.next.2.exhausted = true) :
    s.next.1 = .error (.exhausted s.lastTick) := by
  rcases s.next_cases with ⟨-, h'⟩ | ⟨hopen, ⟨_, _, _, h'⟩ | ⟨_, h'⟩ | ⟨_, _, -, h'⟩⟩
  · rw [h']
  · rw [h'] at h
    exact absurd (hopen.symm.trans h) Bool.false_ne_true
  · rw [h']
    rfl
  · rw [h'] at h
    exact absurd (hopen.symm.trans h) Bool.false_ne_true

/-- **An answer takes at least one from those that are left,** unless it is that the stream is
exhausted. -/
theorem next_answersLeft (s : TickStream) :
    s.next.1 = .error (.exhausted s.lastTick) ∨ s.next.2.answersLeft < s.answersLeft := by
  have hopen_or : s.next.2.exhausted = true ∨
      s.next.2.buffer.length + 4 * s.next.2.feed.length < s.answersLeft := by
    rw [next, answersLeft]
    split
    · next hex => exact Or.inl hex
    · split
      · next t buffer hfound =>
          have hlength := length_lt_of_search hfound
          refine Or.inr ?_
          change buffer.length + 4 * s.feed.length < s.buffer.length + 4 * s.feed.length
          omega
      · exact Or.inl rfl
      · exact (s.answersLeft_draw s.feed).imp_right fun h => by omega
  refine hopen_or.imp eq_exhausted_of_next fun h => ?_
  rw [answersLeft]
  split
  · omega
  · exact h

/-- A stream is exhausted in the end: after each answer it says so, or has one answer less. -/
theorem after_answersLeft (s : TickStream) (n : Nat) :
    s.answer n = .error (.exhausted (s.after n).lastTick) ∨
      n + (s.after (n + 1)).answersLeft < s.answersLeft := by
  induction n with
  | zero => exact s.next_answersLeft.imp_right fun h => (Nat.zero_add _).symm ▸ h
  | succ n ih =>
      rcases ih with hanswer | hle
      · obtain ⟨-, hlast, hex⟩ := eq_lastTick_of_next (Prod.ext hanswer rfl)
        exact Or.inl (congrArg Prod.fst (next_of_exhausted hex))
      · exact (s.after (n + 1)).next_answersLeft.imp_right fun hlt => by
          rw [after]
          omega

/-! ### How a stream answers -/

end TickStream

end Forecast
