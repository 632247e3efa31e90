import Forecast.Proofs.Session.Attention

/-!
# Why a Session Stops Feeding

A condition refuses a set of ticks for one of four reasons: there are none, they are not of one
time, one is missing, or they are older than what the condition has seen. In a session only the
second can come up, and only for a condition with two instruments at least. For a set that is drawn
has a tick under every key of the condition, since there is a stream for each instrument; and it is
not too old, since a stream begins where the condition stands and does not go back, whatever its
feed delivers.

For the second point it is enough to follow the last stream of a condition. Its tick is put into the
set last, so that no other is written over it, and all ticks of a set that is accepted are of its
time. So the condition never stands later than this stream does (`Condition.Fits`). Other streams
may lag behind if they share their key with a later one.

## Main results

* `Condition.mismatched_of_feed`: why a set is refused that is complete and recent enough.
* `Condition.Fits.feed`: streams that fit a condition go on to do so.
* `refuses_mismatches_only`: what a session can report, and how often.
-/

namespace Forecast

/-! ### Refusals of a condition -/

namespace Condition

variable {c d : Condition Price} {z : TickSet Price}

/-- A set with a tick for every instrument, one of them no older than what the condition has seen,
is refused only if its ticks are not of one time. -/
theorem mismatched_of_feed {e : FeedError} (h : c.feed z = .error e)
    (hcomplete : ∀ i ∈ c.instruments, z.contains i.key = true)
    (hrecent : ∃ t ∈ z.values, c.state.lastTs ≤ t.timestamp) :
    e = .mismatchedTimestamps c.name ∧
      ∃ t ∈ z.values, ∃ u ∈ z.values, t.timestamp ≠ u.timestamp := by
  obtain ⟨r, hr, hrecent⟩ := hrecent
  rw [feed] at h
  split at h
  · cases h
  cases hacc : c.accepts z with
  | ok ts =>
      rw [hacc] at h
      cases h
  | error e' =>
      rw [hacc] at h
      cases h
      rw [accepts] at hacc
      cases hvalues : z.values with
      | nil =>
          rw [hvalues] at hr
          cases hr
      | cons t rest =>
          rw [hvalues] at hacc hr
          dsimp only at hacc
          split at hacc
          · next hmixed =>
              cases hacc
              obtain ⟨u, hu, hne⟩ := List.any_eq_true.1 hmixed
              exact ⟨rfl, u, List.mem_cons_of_mem _ hu, t, List.mem_cons_self, bne_iff_ne.1 hne⟩
          · next hsame =>
              have hnone : c.instruments.find? (fun i => !z.contains i.key) = none := by
                refine List.find?_eq_none.2 fun i hi => ?_
                rw [hcomplete i hi]
                decide
              rw [hnone] at hacc
              have htime : r.timestamp = t.timestamp := by
                rcases List.mem_cons.1 hr with rfl | hr
                · rfl
                · by_contra hne
                  exact hsame (List.any_eq_true.2 ⟨r, hr, bne_iff_ne.2 hne⟩)
              dsimp only at hacc
              rw [if_neg (by omega)] at hacc
              cases hacc

end Condition

/-! ### Where a stream stands -/

namespace TickStream

/-- The second from which on a stream yields ticks: that of the last one, or that of its start. -/
def position (s : TickStream) : Int :=
  (s.lastTick.map Tick.timestamp).getD s.start

/-- Whether a stream has gone on, under its key. -/
structure GoesOn (s s' : TickStream) : Prop where
  key : s'.key = s.key
  position : s.position ≤ s'.position

theorem GoesOn.refl (s : TickStream) : s.GoesOn s :=
  ⟨rfl, Int.le_refl _⟩

/-- A stream that yields a tick stands at its time. -/
theorem position_of_next {s s' : TickStream} {t : Tick Price} (h : s.next = (.ok t, s')) :
    s'.position = t.timestamp := by
  rw [position, lastTick_of_next h]
  rfl

/-- A stream that is asked goes on, also if its feed runs backwards or fails. -/
theorem goesOn_next (s : TickStream) : s.GoesOn s.next.2 := by
  refine ⟨s.next_key, ?_⟩
  rcases s.next_cases with ⟨-, h⟩ | ⟨-, ⟨t, buffer, rest, h⟩ | ⟨rest, h⟩ | ⟨e, rest, -, h⟩⟩
  · rw [h]
  · have hresult : s.next.1 = .ok t := by
      rw [h]
      rfl
    have hstart := (next_tick hresult).1
    have hnew := isRepeat_of_next hresult
    rw [position_of_next (Prod.ext hresult rfl), position]
    cases hlast : s.lastTick with
    | none => exact hstart
    | some u =>
        rw [isRepeat, hlast, Option.any_some, decide_eq_false_iff_not] at hnew
        exact Int.le_of_lt (Int.not_le.1 hnew)
  · rw [h]
    exact Int.le_refl _
  · rw [h]
    exact Int.le_refl _

/-- The last of some streams goes on if they all do. -/
theorem getLast?_goesOn {ss ss' : List TickStream} (h : List.Forall₂ GoesOn ss ss') :
    Option.Rel GoesOn ss.getLast? ss'.getLast? := by
  induction h with
  | nil => exact .none
  | @cons s s' ss ss' hs hss ih =>
      rw [List.getLast?_cons, List.getLast?_cons]
      generalize ss.getLast? = last at ih ⊢
      generalize ss'.getLast? = last' at ih ⊢
      cases ih with
      | none => exact .some hs
      | some hlast => exact .some hlast

end TickStream

namespace Session

/-! ### Drawing -/

variable {ss ss' : List TickStream} {z : TickSet Price}

/-- Streams that are drawn from go on. -/
theorem drawEach_goesOn (ticks : TickSet Price) (ss : List TickStream) :
    List.Forall₂ TickStream.GoesOn ss (drawEach ticks ss).2 := by
  induction ss generalizing ticks with
  | nil => exact .nil
  | cons s ss ih =>
      have hnext := s.goesOn_next
      have hrest : List.Forall₂ TickStream.GoesOn ss ss :=
        List.forall₂_same.2 fun s _ => .refl s
      rw [drawEach]
      cases h : s.next with
      | mk result s' =>
          rw [h] at hnext
          cases result with
          | ok t => exact .cons hnext (ih _)
          | error e => cases e <;> exact .cons hnext hrest

/-- Streams that are drawn from, or of which one is known to be exhausted, go on. -/
theorem drawAll_goesOn (ss : List TickStream) :
    List.Forall₂ TickStream.GoesOn ss (drawAll ss).2 := by
  rw [drawAll]
  split
  · exact List.forall₂_same.2 fun s _ => .refl s
  · exact drawEach_goesOn .empty ss

/-- A set that is drawn has a tick under every key, and that of the last stream is in it. -/
theorem drawEach_ticks {ticks : TickSet Price} (h : drawEach ticks ss = (.ticks z, ss')) :
    (∀ key, ticks.contains key = true ∨ key ∈ ss.map TickStream.key → z.contains key = true) ∧
      ∀ s ∈ ss'.getLast?, ∃ t ∈ z.values, s.position = t.timestamp := by
  induction ss generalizing ticks ss' with
  | nil =>
      cases h
      exact ⟨fun key hkey => hkey.resolve_right List.not_mem_nil, fun s hs => nomatch hs⟩
  | cons s ss ih =>
      have hkey := s.next_key
      cases hnext : s.next with
      | mk result s' =>
          rw [hnext] at hkey
          cases result with
          | error e =>
              rw [drawEach, hnext] at h
              cases e <;> cases h
          | ok t =>
              rw [drawEach_of_tick hnext] at h
              obtain ⟨hdrawn, rfl⟩ := Prod.mk.inj h
              obtain ⟨hcontains, hlast⟩ := ih (Prod.ext hdrawn rfl)
              refine ⟨fun key hmem => hcontains key ?_, fun last hmem => ?_⟩
              · rw [Keyed.contains, Keyed.get?_insert]
                rw [List.map_cons, List.mem_cons] at hmem
                split
                · exact Or.inl rfl
                · next hne =>
                    refine hmem.imp_right fun hmem => hmem.resolve_left fun heq => hne ?_
                    exact heq.trans hkey.symm
              · rw [List.getLast?_cons] at hmem
                have hgoesOn := drawEach_goesOn (ticks.insert s'.key t) ss
                cases hrest : (drawEach (ticks.insert s'.key t) ss).2.getLast? with
                | some u =>
                    rw [hrest] at hmem
                    cases hmem
                    exact hlast _ hrest
                | none =>
                    -- the stream is the last one, and its tick is what was put into the set last
                    rw [hrest] at hmem
                    cases hmem
                    rw [List.getLast?_eq_none_iff.1 hrest] at hgoesOn
                    cases hgoesOn
                    cases hdrawn
                    have hget : (ticks.insert s'.key t).get? s'.key = some t := by
                      rw [Keyed.get?_insert, if_pos rfl]
                    exact ⟨t, List.mem_map_of_mem ((Keyed.mem_entries_iff _ _ _).2 hget),
                      TickStream.position_of_next hnext⟩

/-- A set that is drawn from a single stream is a single tick. -/
theorem exists_values_of_single {s : TickStream} (h : (drawAll [s]).1 = .ticks z) :
    ∃ t, z.values = [t] := by
  rw [drawAll] at h
  split at h
  · cases h
  · cases hnext : s.next with
    | mk result s' =>
        cases result with
        | ok t =>
            rw [drawEach_of_tick hnext] at h
            cases h
            exact ⟨t, rfl⟩
        | error e =>
            rw [drawEach, hnext] at h
            cases e <;> cases h

end Session

/-! ### Streams that fit a condition -/

namespace Condition

variable {c d : Condition Price} {ss ss' : List TickStream} {z : TickSet Price}

/-- Whether there is a stream for each instrument of a condition, and the last of them does not
stand before the condition. -/
structure Fits (c : Condition Price) (ss : List TickStream) : Prop where
  keys : ss.map TickStream.key = c.instruments.map Instrument.key
  ahead : ∀ s ∈ ss.getLast?, c.state.lastTs ≤ s.position

/-- Streams that have been opened for a condition fit it. -/
theorem fits_of_openStreams {m : Market} {now : Int}
    (h : (Session.openStreams m (max c.fromTs c.state.lastTs) now c.instruments).2 = .ok ss) :
    c.Fits ss := by
  have hkeys {is : List Instrument} {ss : List TickStream} {start : Int}
      (h : (Session.openStreams m start now is).2 = .ok ss) :
      ss.map TickStream.key = is.map Instrument.key := by
    induction is generalizing ss with
    | nil =>
        cases h
        rfl
    | cons i is ih =>
        obtain ⟨feed, rest, -, hrest, rfl⟩ := Session.exists_of_openStreams_cons h
        rw [List.map_cons, ih hrest]
        rfl
  have hposition := Session.forall_of_openStreams
    (Q := fun s => s.position = max c.fromTs c.state.lastTs) (fun _ _ => rfl) h
  refine ⟨hkeys h, fun s hs => ?_⟩
  rw [hposition s (List.mem_of_getLast? hs)]
  exact Int.le_max_right _ _

/-- Streams that go on still fit a condition that stays as it is. -/
theorem Fits.goesOn (h : c.Fits ss) (hgoesOn : List.Forall₂ TickStream.GoesOn ss ss') :
    c.Fits ss' where
  keys := by
    have hsame : List.Forall₂ (· = ·) (ss.map TickStream.key) (ss'.map TickStream.key) :=
      List.forall₂_map_left_iff.2
        (List.forall₂_map_right_iff.2 (hgoesOn.imp fun _ _ hs => hs.key.symm))
    rw [List.forall₂_eq_eq_eq] at hsame
    rw [← hsame, h.keys]
  ahead s hs := by
    have hlast := TickStream.getLast?_goesOn hgoesOn
    rw [Option.mem_def.1 hs] at hlast
    cases hold : ss.getLast? with
    | none =>
        rw [hold] at hlast
        cases hlast
    | some u =>
        rw [hold] at hlast
        cases hlast with
        | some hus => exact Int.le_trans (h.ahead u hold) hus.position

/-- A set that is drawn from streams that fit a condition is complete, and it has a tick that is no
older than what the condition has seen: that of the last stream. -/
theorem Fits.drawn (h : c.Fits ss) (hquoted : c.instruments ≠ [])
    (hdraw : Session.drawAll ss = (.ticks z, ss')) :
    (∀ i ∈ c.instruments, z.contains i.key = true) ∧
      ∃ s ∈ ss'.getLast?, ∃ t ∈ z.values, s.position = t.timestamp ∧
        c.state.lastTs ≤ t.timestamp := by
  have hgoesOn := Session.drawAll_goesOn ss
  rw [hdraw] at hgoesOn
  have hfits := h.goesOn hgoesOn
  rw [Session.drawAll] at hdraw
  split at hdraw
  · cases hdraw
  obtain ⟨hcontains, hticks⟩ := Session.drawEach_ticks hdraw
  refine ⟨fun i hi => hcontains i.key (Or.inr ?_), ?_⟩
  · rw [h.keys]
    exact List.mem_map_of_mem hi
  · cases hlast : ss'.getLast? with
    | none =>
        have hkeys := hfits.keys
        rw [List.getLast?_eq_none_iff.1 hlast] at hkeys
        exact absurd (List.map_eq_nil_iff.1 hkeys.symm) hquoted
    | some s =>
        obtain ⟨t, ht, hposition⟩ := hticks s hlast
        exact ⟨s, rfl, t, ht, hposition, hposition ▸ hfits.ahead s hlast⟩

/-- **What a condition refuses that is drawn from streams that fit it** is not of one time, and the
condition has two instruments at least. -/
theorem Fits.refused (h : c.Fits ss) (hquoted : c.instruments ≠ []) {e : FeedError}
    (hdraw : Session.drawAll ss = (.ticks z, ss')) (hfeed : c.feed z = .error e) :
    e = .mismatchedTimestamps c.name ∧ 2 ≤ c.instruments.length := by
  obtain ⟨hcomplete, s, -, t, ht, -, hrecent⟩ := h.drawn hquoted hdraw
  obtain ⟨he, u, hu, v, hv, hne⟩ := mismatched_of_feed hfeed hcomplete ⟨t, ht, hrecent⟩
  refine ⟨he, ?_⟩
  by_contra hfew
  obtain ⟨i, hi⟩ : ∃ i, c.instruments = [i] := by
    cases hinstruments : c.instruments with
    | nil => exact absurd hinstruments hquoted
    | cons i is =>
        rw [hinstruments, List.length_cons] at hfew
        exact ⟨i, by rw [List.eq_nil_of_length_eq_zero (show is.length = 0 by omega)]⟩
  have hkeys := h.keys
  rw [hi, List.map_singleton] at hkeys
  obtain ⟨stream, rfl, -⟩ := List.map_eq_singleton_iff.1 hkeys
  obtain ⟨w, hw⟩ := Session.exists_values_of_single (congrArg Prod.fst hdraw)
  rw [hw, List.mem_singleton] at hu hv
  exact hne (by rw [hu, hv])

/-- **Streams that fit a condition go on to do so** when it is fed from them. -/
theorem Fits.feed (h : c.Fits ss) (hquoted : c.instruments ≠ [])
    (hdraw : Session.drawAll ss = (.ticks z, ss')) (hfeed : c.feed z = .ok d) : d.Fits ss' := by
  have hgoesOn := Session.drawAll_goesOn ss
  rw [hdraw] at hgoesOn
  have hfits := h.goesOn hgoesOn
  have hframe := (continues_of_feed hfeed).frame
  obtain ⟨-, s, hs, t, ht, hposition, -⟩ := h.drawn hquoted hdraw
  refine ⟨?_, fun u hu => ?_⟩
  · rw [hfits.keys, hframe]
    rfl
  · obtain rfl : s = u := Option.some.inj (hs.symm.trans hu)
    have hbefore := hfits.ahead s hs
    rcases feed_eq_ok_iff.1 hfeed with ⟨-, rfl⟩ | ⟨-, ts, hacc, rfl⟩
    · exact hbefore
    · have htime := (accepts_eq_ok_iff.1 hacc).2.1 t ht
      have := advance_lastTs_le c ts z
      dsimp only
      omega

end Condition

/-! ### Sessions -/

namespace Session

variable {m : Market} {p : Prediction} {s : Session} {i : Nat} {c d : Condition Price}

/-- Whether a refusal is of ticks of several times, for a condition of a prediction with two
instruments at least. -/
def IsMismatch (p : Prediction) (f : FeedError) : Prop :=
  ∃ c ∈ p.given, f = .mismatchedTimestamps c.name ∧ 2 ≤ c.instruments.length

/-- Whether a session is one of a prediction, with conditions of the same names and instruments, and
all open streams fit their conditions. -/
structure Suits (p : Prediction) (s : Session) : Prop where
  id : s.prediction.id = p.id
  given : ∀ c ∈ s.prediction.given, ∃ d ∈ p.given, c.name = d.name ∧ c.instruments = d.instruments
  fits : ∀ (i : Nat) (c : Condition Price) (ss : List TickStream),
    s.prediction.given[i]? = some c → s.streams[i]?.join = some ss → c.Fits ss

/-- A session still suits its prediction with streams and a condition at a position that fit. -/
theorem Suits.set (h : s.Suits p) (hc : s.prediction.given[i]? = some c)
    (hframe : d = { c with state := d.state }) {ss : List TickStream} (hfits : d.Fits ss) :
    ((s.withStreams i ss).withCondition i d).Suits p where
  id := h.id
  given e he := by
    rcases List.mem_or_eq_of_mem_set he with hold | rfl
    · exact h.given e hold
    · obtain ⟨b, hb, hname, hinstruments⟩ := h.given c (List.mem_of_getElem? hc)
      rw [hframe]
      exact ⟨b, hb, hname, hinstruments⟩
  fits j e ss' he hss' := by
    simp only [withCondition, withStreams, Prediction.setCondition] at he hss'
    by_cases hij : i = j
    · subst hij
      rw [List.getElem?_set_self (List.getElem?_eq_some_iff.1 hc).1] at he
      rw [List.getElem?_set] at hss'
      cases he
      rw [if_pos rfl] at hss'
      split at hss'
      · cases hss'
        exact hfits
      · cases hss'
    · rw [List.getElem?_set_ne hij] at he hss'
      exact h.fits j e ss' he hss'

/-- Feeding a condition from streams that fit it reports nothing but a mismatch of the feeds. -/
theorem Suits.feedFrom (hquoted : ∀ c ∈ p.given, c.instruments ≠ []) (h : s.Suits p)
    (hc : s.prediction.given[i]? = some c) {ss : List TickStream} (hfits : c.Fits ss) :
    (s.feedFrom i c ss).1.Suits p ∧
      ∀ f, (s.feedFrom i c ss).2 = .error (.feed f) → IsMismatch p f := by
  obtain ⟨b, hb, hname, hinstruments⟩ := h.given c (List.mem_of_getElem? hc)
  have hne : c.instruments ≠ [] := hinstruments ▸ hquoted b hb
  have hrest : (s.withStreams i (drawAll ss).2).Suits p := by
    have hset := h.set hc rfl (hfits.goesOn (drawAll_goesOn ss))
    have hc' : (s.withStreams i (drawAll ss).2).prediction.given[i]? = some c := hc
    rwa [withCondition_self hc'] at hset
  cases hdraw : drawAll ss with
  | mk drawn ss' =>
      rw [hdraw] at hrest
      cases drawn with
      | dry =>
          rw [feedFrom_of_dry hdraw]
          exact ⟨hrest, nofun⟩
      | failed e =>
          rw [feedFrom_of_failed hdraw]
          exact ⟨hrest, nofun⟩
      | ticks z =>
          cases hfeed : c.feed z with
          | ok d =>
              rw [feedFrom_of_fed hdraw hfeed]
              have hframe := (Condition.continues_of_feed hfeed).frame
              exact ⟨h.set hc hframe (hfits.feed hne hdraw hfeed), nofun⟩
          | error e =>
              rw [feedFrom_of_refused hdraw hfeed]
              refine ⟨hrest, fun f hf => ?_⟩
              cases hf
              obtain ⟨rfl, hmany⟩ := hfits.refused hne hdraw hfeed
              exact ⟨b, hb, by rw [hname], hinstruments ▸ hmany⟩

/-- **A step reports nothing but a mismatch of the feeds.** -/
theorem Suits.step (hquoted : ∀ c ∈ p.given, c.instruments ≠ []) (h : s.Suits p) (i : Nat) :
    (s.step m i).session.Suits p ∧
      ∀ f, (s.step m i).result = .error (.feed f) → IsMismatch p f := by
  rcases step_cases m s i with ⟨-, hstep⟩ | ⟨c, hc, ⟨_, _, hstep⟩ | ⟨_, ss, hss, hstep⟩⟩
  · rw [hstep]
    exact ⟨h, nofun⟩
  · rw [hstep]
    exact ⟨h, nofun⟩
  · rw [hstep]
    rcases hss with hss | ⟨-, hss⟩
    · exact h.feedFrom hquoted hc (h.fits i c ss hc hss)
    · exact h.feedFrom hquoted hc (Condition.fits_of_openStreams hss)

/-- A round reports nothing but a mismatch of the feeds. -/
theorem Suits.round (hquoted : ∀ c ∈ p.given, c.instruments ≠ []) (h : s.Suits p) (is : List Nat) :
    (s.round m is).session.Suits p ∧
      ∀ f, (s.round m is).fault = some (.feed f) → IsMismatch p f := by
  induction is generalizing s with
  | nil => exact ⟨h, nofun⟩
  | cons i is ih =>
      obtain ⟨hstep, hreports⟩ := h.step (m := m) hquoted i
      cases hresult : (s.step m i).result with
      | error fault =>
          rw [round_of_fault hresult]
          refine ⟨hstep, fun f hf => hreports f ?_⟩
          rw [hresult, Option.some.inj hf]
      | ok fed =>
          rw [round_of_ok hresult]
          exact ih hstep

/-- **A pass reports at most one error,** and then the session has ended. -/
theorem Suits.pass (hquoted : ∀ c ∈ p.given, c.instruments ≠ []) (h : s.Suits p) :
    (s.pass m).session.Suits p ∧
      ((s.pass m).errors = [] ∨ ∃ fault, (s.pass m).errors = [⟨p.id, fault⟩] ∧
        (s.pass m).session.inactive = true ∧ ∀ f, fault = .feed f → IsMismatch p f) := by
  obtain ⟨hround, hreports⟩ := h.round (m := m) hquoted s.prediction.actionable
  cases hactive : s.inactive with
  | true =>
      rw [pass_of_inactive hactive]
      exact ⟨h, Or.inl rfl⟩
  | false =>
      cases hopen : s.prediction.isFinal with
      | true =>
          rw [pass_of_final hactive hopen]
          exact ⟨⟨h.id, h.given, h.fits⟩, Or.inl rfl⟩
      | false =>
          cases hfault : (s.round m s.prediction.actionable).fault with
          | none =>
              rw [pass_of_round hactive hopen hfault]
              exact ⟨⟨hround.id, hround.given, hround.fits⟩, Or.inl rfl⟩
          | some fault =>
              rw [pass_of_fault hactive hopen hfault, hround.id]
              refine ⟨⟨hround.id, hround.given, hround.fits⟩,
                Or.inr ⟨fault, rfl, rfl, fun f hf => ?_⟩⟩
              exact hreports f (by rw [hfault, hf])

/-- The errors that some passes report. -/
def errorsWithin (m : Market) : Nat → Session → List RunError
  | 0, _ => []
  | n + 1, s => (s.pass m).errors ++ errorsWithin m n (s.pass m).session

/-- A session that has ended reports nothing. -/
theorem errorsWithin_of_inactive (n : Nat) (h : s.inactive = true) : errorsWithin m n s = [] := by
  induction n with
  | zero => rfl
  | succ n ih =>
      rw [errorsWithin, pass_of_inactive h, ih]
      rfl

/-- All passes together report at most one error. -/
theorem Suits.errorsWithin (hquoted : ∀ c ∈ p.given, c.instruments ≠ []) (h : s.Suits p) (n : Nat) :
    errorsWithin m n s = [] ∨ ∃ fault, errorsWithin m n s = [⟨p.id, fault⟩] ∧
      ∀ f, fault = .feed f → IsMismatch p f := by
  induction n generalizing s with
  | zero => exact Or.inl rfl
  | succ n ih =>
      obtain ⟨hpass, hnone | ⟨fault, hone, hended, hreports⟩⟩ := h.pass (m := m) hquoted
      · rw [Session.errorsWithin, hnone, List.nil_append]
        exact ih hpass
      · rw [Session.errorsWithin, hone, errorsWithin_of_inactive n hended, List.append_nil]
        exact Or.inr ⟨fault, rfl, hreports⟩

/-- **Ticks of several times are all that is refused in a session.** Take any prediction whose
conditions quote something, with whatever progress, and any market, in whatever order its feeds
deliver and however often they fail. However many passes a session makes, it reports one error at
most. This is the market's, or it says that a condition was given ticks of several times, and then
this condition has two instruments at least. So it never says that there were no ticks, that one was
missing, or that they were too old. -/
theorem refuses_mismatches_only {now : Int} (hquoted : ∀ c ∈ p.given, c.instruments ≠ [])
    (h : Session.start m p now = .ok s) (n : Nat) :
    (errorsWithin m n s).length ≤ 1 ∧
      ∀ e ∈ errorsWithin m n s, e.id = p.id ∧
        ∀ f, e.fault = .feed f →
          ∃ c ∈ p.given, f = .mismatchedTimestamps c.name ∧ 2 ≤ c.instruments.length := by
  have hsuits : s.Suits p := by
    obtain rfl := start_eq_ok h
    refine ⟨rfl, fun c hc => ⟨c, hc, rfl, rfl⟩, fun i c ss _ hss => ?_⟩
    rw [List.getElem?_map] at hss
    cases hc : p.given[i]? with
    | none =>
        rw [hc] at hss
        cases hss
    | some c =>
        rw [hc] at hss
        cases hss
  rcases hsuits.errorsWithin (m := m) hquoted n with hnone | ⟨fault, hone, hreports⟩
  · rw [hnone]
    exact ⟨Nat.zero_le _, fun e he => nomatch he⟩
  · rw [hone]
    refine ⟨Nat.le_refl _, fun e he => ?_⟩
    obtain rfl := List.mem_singleton.1 he
    exact ⟨rfl, hreports⟩

/-- Another coin that is quoted. -/
def ether : Instrument := .coin "BINANCE" "ETH" "USDT"

/-- A market in which the candles of one coin begin a minute later than those of all others. -/
def skewedMarket : Market where
  providers := ["BINANCE"]
  interval := 60
  source key _ := .ok [.ok ⟨if key = ether.key then 60 else 0, 1, 1, 1, 1, 0⟩]

/-- A prediction that one coin will be worth more than the other, of which some progress is stored.
-/
def skewed : Prediction where
  id := "skewed"
  createdAt := ⟨0, 0⟩
  postedAt := ⟨0, 0⟩
  reporter := ""
  postAuthor := ""
  postUrl := ""
  postText := ""
  given :=
    [⟨"flip", .above, [.market ether, .market bitcoin], 0, 86400, 0,
      ⟨.started, -7, .empty, .undecided⟩⟩]
  pre := .none
  main := .ofClause (.literal 0)
  state := .initial
  shape := .unsupported

/-- The first pass reports the mismatch, and no other pass reports anything. -/
theorem refuses_mismatches_only_skewed :
    (∀ c ∈ skewed.given, c.instruments ≠ []) ∧
      ∃ s, Session.start skewedMarket skewed 120 = .ok s ∧
        (errorsWithin skewedMarket 5 s).length ≤ 1 ∧
        (errorsWithin skewedMarket 5 s).map RunError.message =
          ["prediction skewed: condition 'flip': ticks carry mismatched timestamps"] := by
  have hquoted : ∀ c ∈ skewed.given, c.instruments ≠ [] := by decide +kernel
  have hstart : Session.start skewedMarket skewed 120 =
      .ok ⟨skewed, skewed, 120, [none], false⟩ := rfl
  refine ⟨hquoted, _, hstart, (refuses_mismatches_only hquoted hstart 5).1, ?_⟩
  decide +kernel

end Session

end Forecast
