import Mathlib.Algebra.BigOperators.Group.Finset.Basic
import Forecast.Proofs.Condition.Feeding
import Forecast.Proofs.Prediction.Actionable
import Forecast.Proofs.Session.Steps
import Forecast.Proofs.TickStream.Exhaustion

/-!
# Sessions End

A session goes on only after a pass that fed a condition. Feeding takes a tick from each stream of
the condition, so it takes one from the first of them; and the streams of a condition are opened
once, from where the condition stands at the beginning. So each pass after which a session is still
active is paid for with a tick of the first stream of some condition, and there are no more of these
than the market has for the instruments that the conditions quote first (`Prediction.reserve`).

What is left to be spent is counted for each condition: the ticks left in its first stream if its
streams are open, and else what the market has for it (`Session.room`). A step spends from the room
of its own condition and from no other.

## Convention

A condition that quotes nothing has no stream to take ticks from, and would be fed for ever if it
accepted the empty tick set. It does so only if it is finished, and then nobody asks for it, unless
it is finished without a value. No operation leaves a condition like this, but a prediction may be
handed over with one; if a clause mentions it, the prediction is stuck (`Prediction.IsStuck`).

## Main results

* `step_spends`, `round_spends`, `pass_spends`: what is fed is spent.
* `inactive_afterPasses`: a session has ended after one pass more than it can pay for.
-/

namespace Forecast

/-- How many ticks a market has for what a condition quotes first, from where the condition
stands. -/
def Condition.reserve (m : Market) (c : Condition Price) : Nat :=
  match c.instruments with
  | [] => 0
  | i :: _ =>
    match m.source i.key (intervalStart m.interval (max c.fromTs c.state.lastTs)) with
    | .ok feed => 4 * Feed.candles feed
    | .error _ => 0

/-- Whether a condition waits for nothing that could be fed to it: it quotes nothing, and is
finished without a value. -/
def Condition.IsStuck (c : Condition Price) : Prop :=
  c.instruments = [] ∧ c.isFinished = true ∧ c.value = .undecided

namespace Prediction

/-- How many ticks a market has for what the conditions quote first, all taken together. -/
def reserve (m : Market) (p : Prediction) : Nat :=
  p.given.foldr (fun c rest => c.reserve m + rest) 0

/-- Whether a clause mentions a condition that is stuck. -/
def IsStuck (p : Prediction) : Prop :=
  ∃ i ∈ mentioned (p.pre.clauses ++ p.main.clauses), ∃ c, p.given[i]? = some c ∧ c.IsStuck

/-- Some clause mentions what is worth feeding. -/
theorem mentioned_of_mem_actionable {p : Prediction} {i : Nat} (h : i ∈ p.actionable) :
    i ∈ mentioned (p.pre.clauses ++ p.main.clauses) := by
  obtain ⟨hactive, -⟩ := mem_actionable_iff.1 h
  have hsplit : mentioned (p.pre.clauses ++ p.main.clauses) =
      mentioned p.pre.clauses ++ mentioned p.main.clauses := by
    rw [mentioned, List.filterMap_append, List.flatMap_append]
    rfl
  rw [hsplit, List.mem_append]
  rw [activeReferences] at hactive
  split at hactive
  · exact Or.inl hactive
  · exact Or.inr hactive
  · exact absurd hactive List.not_mem_nil

/-- What is worth feeding and quotes nothing is not finished, unless the prediction is stuck. -/
theorem not_finished_of_not_isStuck {p : Prediction} (h : ¬ p.IsStuck) {i : Nat}
    (hi : i ∈ p.actionable) {c : Condition Price} (hc : p.given[i]? = some c)
    (hnone : c.instruments = []) : c.isFinished = false := by
  obtain ⟨-, d, hd, hopen⟩ := mem_actionable_iff.1 hi
  obtain rfl : c = d := Option.some.inj (hc.symm.trans hd)
  by_contra hfinished
  rw [Bool.not_eq_false] at hfinished
  exact h ⟨i, mentioned_of_mem_actionable hi, c, hc, hnone, hfinished, hopen⟩

end Prediction

namespace Session

variable {m : Market} {s s' s'' : Session} {i : Nat} {c d : Condition Price}
  {ss ss' : List TickStream}

/-! ### Drawing -/

/-- How many ticks the first of some streams has left. -/
def firstLeft : List TickStream → Nat
  | [] => 0
  | t :: _ => t.ticksLeft

/-- How many tick sets come of drawing. -/
def Drawn.count : Drawn → Nat
  | .ticks _ => 1
  | .dry => 0
  | .failed _ => 0

/-- Drawing a tick set takes a tick from the first stream. -/
theorem drawEach_firstLeft (ticks : TickSet Price) (t : TickStream) (ss : List TickStream) :
    (drawEach ticks (t :: ss)).2 ≠ [] ∧
      firstLeft (drawEach ticks (t :: ss)).2 + (drawEach ticks (t :: ss)).1.count ≤
        t.ticksLeft := by
  have hnext := t.next_ticksLeft
  rw [drawEach]
  cases h : t.next with
  | mk answer t' =>
      rw [h] at hnext
      cases answer with
      | ok tick =>
          refine ⟨List.cons_ne_nil _ _, ?_⟩
          have hcount : ∀ drawn : Drawn, drawn.count ≤ 1 := by
            intro drawn
            cases drawn <;> simp [Drawn.count]
          exact Nat.le_trans (Nat.add_le_add_left (hcount _) _) hnext
      | error e => cases e <;> exact ⟨List.cons_ne_nil _ _, hnext⟩

/-- Drawing from streams takes a tick from the first of them, if it comes to a tick set. -/
theorem drawAll_firstLeft (h : ss ≠ []) :
    (drawAll ss).2 ≠ [] ∧ firstLeft (drawAll ss).2 + (drawAll ss).1.count ≤ firstLeft ss := by
  obtain ⟨t, ss, rfl⟩ := List.exists_cons_of_ne_nil h
  rw [drawAll]
  split
  · exact ⟨h, Nat.le_refl _⟩
  · exact drawEach_firstLeft .empty t ss

/-- A condition that is fed from its streams takes a tick from the first of them, and goes on
quoting what it quotes. -/
theorem exists_of_feedFrom (hc : s.prediction.given[i]? = some c) (hne : ss ≠ []) {fed : Bool}
    (h : (s.feedFrom i c ss).2 = .ok fed) :
    ∃ ss' d, (s.feedFrom i c ss).1 = (s.withStreams i ss').withCondition i d ∧ ss' ≠ [] ∧
      firstLeft ss' + fed.toNat ≤ firstLeft ss ∧ d.instruments = c.instruments := by
  have hleft := drawAll_firstLeft hne
  cases hdraw : drawAll ss with
  | mk drawn ss' =>
      rw [hdraw] at hleft
      obtain ⟨hne', hleft⟩ := hleft
      cases drawn with
      | dry =>
          rw [feedFrom_of_dry hdraw] at h ⊢
          cases h
          obtain ⟨hlt, hget⟩ := List.getElem?_eq_some_iff.1 hc
          refine ⟨ss', c, ?_, hne', hleft, rfl⟩
          rw [withCondition, Prediction.setCondition, withStreams]
          dsimp only
          rw [← hget, List.set_getElem_self]
      | failed e =>
          rw [feedFrom_of_failed hdraw] at h
          cases h
      | ticks ticks =>
          cases hfeed : c.feed ticks with
          | error e =>
              rw [feedFrom_of_refused hdraw hfeed] at h
              cases h
          | ok d =>
              rw [feedFrom_of_fed hdraw hfeed] at h ⊢
              cases h
              refine ⟨ss', d, rfl, hne', hleft, ?_⟩
              rw [(Condition.continues_of_feed hfeed).frame]
              rfl

/-- The streams that are opened for a condition have left what the market has for it. -/
theorem firstLeft_of_openStreams {now : Int}
    (h : (openStreams m (max c.fromTs c.state.lastTs) now c.instruments).2 = .ok ss) :
    firstLeft ss = c.reserve m ∧ (c.instruments = [] ↔ ss = []) := by
  rw [Condition.reserve]
  cases hquoted : c.instruments with
  | nil =>
      rw [hquoted, openStreams] at h
      cases h
      exact ⟨rfl, iff_of_true rfl rfl⟩
  | cons j js =>
      rw [hquoted] at h
      obtain ⟨feed, rest, hsource, -, rfl⟩ := exists_of_openStreams_cons h
      rw [firstLeft, TickStream.ticksLeft_ofFeed]
      dsimp only
      rw [hsource]
      exact ⟨rfl, iff_of_false (List.cons_ne_nil _ _) (List.cons_ne_nil _ _)⟩

/-! ### What a session can spend -/

/-- How many ticks may still be taken from the first stream of the condition at a position. -/
def room (m : Market) (s : Session) (i : Nat) : Nat :=
  match s.streams[i]?.join with
  | some ss => firstLeft ss
  | none => (s.prediction.given[i]?.map (Condition.reserve m)).getD 0

/-- How many ticks may still be taken from first streams. -/
def left (m : Market) (s : Session) : Nat :=
  ∑ i ∈ Finset.range s.prediction.given.length, s.room m i

/-- Whether the streams of a session are of its conditions, and open only where something is
quoted. -/
structure IsSound (s : Session) : Prop where
  length : s.streams.length = s.prediction.given.length
  quoted : ∀ (i : Nat) (c : Condition Price) (ss : List TickStream),
    s.prediction.given[i]? = some c → s.streams[i]?.join = some ss →
      ss ≠ [] ∧ c.instruments ≠ []

/-- What is true between a session and a later stage of it when conditions have been fed a number
of times in between. -/
structure Spends (m : Market) (n : Nat) (s s' : Session) : Prop where
  sound : s'.IsSound
  clauses : s'.prediction.pre = s.prediction.pre ∧ s'.prediction.main = s.prediction.main
  /-- What quotes nothing is as it was. -/
  numbers : ∀ (i : Nat) (c : Condition Price), s'.prediction.given[i]? = some c →
    c.instruments = [] → s.prediction.given[i]? = some c
  left : s'.left m + n ≤ s.left m

/-- A session that stays as it is spends nothing. -/
theorem Spends.refl (hs : s.IsSound) : Spends m 0 s s :=
  ⟨hs, ⟨rfl, rfl⟩, fun _ _ hc _ => hc, Nat.le_refl _⟩

/-- What is spent one after the other is spent together. -/
theorem Spends.trans {n k : Nat} (h : Spends m n s s') (h' : Spends m k s' s'') :
    Spends m (k + n) s s'' where
  sound := h'.sound
  clauses := ⟨h'.clauses.1.trans h.clauses.1, h'.clauses.2.trans h.clauses.2⟩
  numbers i c hc hnone := h.numbers i c (h'.numbers i c hc hnone) hnone
  left := by
    have := h.left
    have := h'.left
    omega

/-- Spending leaves a prediction not stuck that is not. -/
theorem Spends.not_isStuck {n : Nat} (h : Spends m n s s') (hs : ¬ s.prediction.IsStuck) :
    ¬ s'.prediction.IsStuck := by
  rintro ⟨i, hi, c, hc, hstuck⟩
  rw [h.clauses.1, h.clauses.2] at hi
  exact hs ⟨i, hi, c, h.numbers i c hc hstuck.1, hstuck⟩

/-- A session in which one condition and its streams have changed spends what is gone from the
first of the streams. -/
theorem spends_of_withStreams (hs : s.IsSound) (hc : s.prediction.given[i]? = some c)
    (hquoted : c.instruments ≠ []) (hd : d.instruments = c.instruments) (hne : ss' ≠ []) {n : Nat}
    (hleft : firstLeft ss' + n ≤ s.room m i) :
    Spends m n s ((s.withStreams i ss').withCondition i d) := by
  obtain ⟨hlt, -⟩ := List.getElem?_eq_some_iff.1 hc
  have hstreams : ((s.withStreams i ss').withCondition i d).streams =
      s.streams.set i (some ss') := rfl
  have hgiven : ((s.withStreams i ss').withCondition i d).prediction.given =
      s.prediction.given.set i d := rfl
  have hself : room m ((s.withStreams i ss').withCondition i d) i = firstLeft ss' := by
    rw [room, hstreams, List.getElem?_set_self (hs.length.symm ▸ hlt), Option.join_some]
  have hother : ∀ j, j ≠ i → room m ((s.withStreams i ss').withCondition i d) j = s.room m j := by
    intro j hj
    rw [room, room, hstreams, hgiven, List.getElem?_set_ne hj.symm, List.getElem?_set_ne hj.symm]
  refine ⟨⟨?_, ?_⟩, ⟨rfl, rfl⟩, ?_, ?_⟩
  · rw [hstreams, hgiven, List.length_set, List.length_set, hs.length]
  · intro j c' ss hc' hss
    rw [hgiven] at hc'
    rw [hstreams] at hss
    by_cases hj : j = i
    · subst hj
      rw [List.getElem?_set_self hlt, Option.some.injEq] at hc'
      rw [List.getElem?_set_self (hs.length.symm ▸ hlt), Option.join_some,
        Option.some.injEq] at hss
      subst hc' hss
      exact ⟨hne, hd ▸ hquoted⟩
    · rw [List.getElem?_set_ne (Ne.symm hj)] at hc' hss
      exact hs.quoted j c' ss hc' hss
  · intro j c' hc' hnone
    rw [hgiven] at hc'
    by_cases hj : j = i
    · subst hj
      rw [List.getElem?_set_self hlt, Option.some.injEq] at hc'
      subst hc'
      exact absurd (hd.symm.trans hnone) hquoted
    · rwa [List.getElem?_set_ne (Ne.symm hj)] at hc'
  · have hmem : i ∈ Finset.range s.prediction.given.length := Finset.mem_range.2 hlt
    have hrest : ∑ j ∈ (Finset.range s.prediction.given.length).erase i,
          room m ((s.withStreams i ss').withCondition i d) j =
        ∑ j ∈ (Finset.range s.prediction.given.length).erase i, s.room m j :=
      Finset.sum_congr rfl fun j hj => hother j (Finset.ne_of_mem_erase hj)
    rw [left, left, hgiven, List.length_set, ← Finset.add_sum_erase _ _ hmem,
      ← Finset.add_sum_erase _ _ hmem, hrest, hself]
    omega

/-! ### Steps, rounds and passes -/

/-- What quotes nothing refuses the empty tick set, unless it is finished. -/
theorem feedFrom_nil (h : c.isFinished = false) :
    (s.feedFrom i c []).2 = .error (.feed (.noTicks c.name)) := by
  have hrefused : c.feed .empty = .error (.noTicks c.name) := by
    rw [Condition.feed, h]
    rfl
  rw [feedFrom_of_refused (drawAll_of_open rfl) hrefused]

/-- A condition that quotes something spends what it is fed from the room that its streams are. -/
theorem feedFrom_spends (hs : s.IsSound) (hc : s.prediction.given[i]? = some c)
    (hquoted : c.instruments ≠ []) (hne : ss ≠ []) (hroom : s.room m i = firstLeft ss) {fed : Bool}
    (h : (s.feedFrom i c ss).2 = .ok fed) : Spends m fed.toNat s (s.feedFrom i c ss).1 := by
  obtain ⟨ss', d, hsession, hne', hleft, hd⟩ := exists_of_feedFrom hc hne h
  rw [hsession]
  exact spends_of_withStreams hs hc hquoted hd hne' (hroom ▸ hleft)

/-- **A step without a fault spends what it feeds,** unless it feeds what quotes nothing. -/
theorem step_spends (hs : s.IsSound)
    (hnumbers : ∀ c, s.prediction.given[i]? = some c → c.instruments = [] → c.isFinished = false)
    {fed : Bool} (h : (s.step m i).result = .ok fed) :
    Spends m fed.toNat s (s.step m i).session := by
  rcases step_cases m s i with ⟨-, hstep⟩ | ⟨c, hc, ⟨_, _, hstep⟩ | ⟨_, ss, hss, hstep⟩⟩
  · rw [hstep] at h ⊢
    cases h
    exact .refl hs
  · rw [hstep] at h
    cases h
  · rw [hstep] at h ⊢
    rcases hss with hss | ⟨hclosed, hopened⟩
    · obtain ⟨hne, hquoted⟩ := hs.quoted i c ss hc hss
      refine feedFrom_spends hs hc hquoted hne ?_ h
      rw [room, hss]
    · obtain ⟨hleft, hnil⟩ := firstLeft_of_openStreams hopened
      by_cases hquoted : c.instruments = []
      · obtain rfl := hnil.1 hquoted
        rw [feedFrom_nil (hnumbers c hc hquoted)] at h
        cases h
      · refine feedFrom_spends hs hc hquoted (mt hnil.2 hquoted) ?_ h
        rw [room, hclosed, hc, hleft]
        rfl

/-- **A round without a fault spends what it feeds.** -/
theorem round_spends {is : List Nat} (hs : s.IsSound)
    (hnumbers : ∀ i ∈ is, ∀ c, s.prediction.given[i]? = some c → c.instruments = [] →
      c.isFinished = false)
    (h : (s.round m is).fault = none) : Spends m (s.round m is).fed s (s.round m is).session := by
  induction is generalizing s with
  | nil => exact .refl hs
  | cons i is ih =>
      obtain ⟨hi, his⟩ := List.forall_mem_cons.1 hnumbers
      cases hstep : (s.step m i).result with
      | error fault =>
          rw [round_of_fault hstep] at h
          cases h
      | ok fed =>
          rw [round_of_ok hstep] at h ⊢
          have hfirst := step_spends hs hi hstep
          have hrest := ih hfirst.sound (fun j hj c hc hnone =>
            his j hj c (hfirst.numbers j c hc hnone) hnone) h
          have hsum := hfirst.trans hrest
          cases fed <;> exact hsum

/-- **A pass after which a session is still active spends something.** -/
theorem pass_spends (hs : s.IsSound) (hstuck : ¬ s.prediction.IsStuck)
    (h : (s.pass m).session.inactive = false) : Spends m 1 s (s.pass m).session := by
  cases hactive : s.inactive with
  | true =>
      rw [pass_of_inactive hactive, hactive] at h
      cases h
  | false =>
      cases hfinal : s.prediction.isFinal with
      | true =>
          rw [pass_of_final hactive hfinal] at h
          cases h
      | false =>
          cases hfault : (s.round m s.prediction.actionable).fault with
          | some fault =>
              rw [pass_of_fault hactive hfinal hfault] at h
              cases h
          | none =>
              have hround := round_spends hs (fun i hi c hc hnone =>
                Prediction.not_finished_of_not_isStuck hstuck hi hc hnone) hfault
              rw [pass_of_round hactive hfinal hfault] at h ⊢
              rw [Bool.or_eq_false_iff, beq_eq_false_iff_ne] at h
              have hleft := hround.left
              refine ⟨⟨hround.sound.length, hround.sound.quoted⟩, hround.clauses, hround.numbers,
                ?_⟩
              have hfed : 1 ≤ (s.round m s.prediction.actionable).fed :=
                Nat.one_le_iff_ne_zero.2 h.2
              exact Nat.le_trans (Nat.add_le_add_left hfed _) hleft

/-! ### Pass after pass -/

/-- A session after a number of passes, also of passes after its end. -/
def afterPasses (m : Market) : Nat → Session → Session
  | 0, s => s
  | n + 1, s => afterPasses m n (s.pass m).session

/-- Passes one after the other. -/
theorem afterPasses_add (n k : Nat) (s : Session) :
    afterPasses m (n + k) s = afterPasses m k (afterPasses m n s) := by
  induction n generalizing s with
  | zero => rw [Nat.zero_add, afterPasses]
  | succ n ih => rw [Nat.add_right_comm, afterPasses, afterPasses, ih]

/-- Passes after the end of a session come to nothing. -/
theorem afterPasses_of_inactive (n : Nat) (h : s.inactive = true) : afterPasses m n s = s := by
  induction n with
  | zero => rfl
  | succ n ih => rw [afterPasses, pass_of_inactive h, ih]

/-- A session that is active after some passes has spent something in each of them. -/
theorem afterPasses_spends {n : Nat} (hs : s.IsSound) (hstuck : ¬ s.prediction.IsStuck)
    (h : (afterPasses m n s).inactive = false) : Spends m n s (afterPasses m n s) := by
  induction n generalizing s with
  | zero => exact .refl hs
  | succ n ih =>
      rw [afterPasses] at h ⊢
      cases hpass : (s.pass m).session.inactive with
      | true =>
          rw [afterPasses_of_inactive n hpass, hpass] at h
          cases h
      | false =>
          have hfirst := pass_spends hs hstuck hpass
          exact hfirst.trans (ih hfirst.sound (hfirst.not_isStuck hstuck) h)

/-- **A session has ended after one pass more than it can pay for.** -/
theorem inactive_afterPasses {n : Nat} (hs : s.IsSound) (hstuck : ¬ s.prediction.IsStuck)
    (h : s.left m < n) : (afterPasses m n s).inactive = true := by
  by_contra hactive
  rw [Bool.not_eq_true] at hactive
  have hleft := (afterPasses_spends hs hstuck hactive).left
  omega

/-! ### Beginnings -/

/-- Conditions are counted by their positions or one after the other. -/
theorem sum_range_getElem? (f : Condition Price → Nat) (cs : List (Condition Price)) :
    ∑ i ∈ Finset.range cs.length, (cs[i]?.map f).getD 0 =
      cs.foldr (fun c rest => f c + rest) 0 := by
  induction cs with
  | nil => rfl
  | cons c cs ih =>
      rw [List.length_cons, Finset.sum_range_succ', List.foldr_cons, ← ih, Nat.add_comm]
      rfl

/-- A session begins sound, and can spend what the market has for its prediction. -/
theorem isSound_of_start {p : Prediction} {now : Int} (h : Session.start m p now = .ok s) :
    s.IsSound ∧ s.prediction = p ∧ s.left m = p.reserve m := by
  obtain ⟨-, rfl⟩ := start_eq_ok_iff.1 h
  have hclosed (i : Nat) :
      ((p.given.map fun _ => (none : Option (List TickStream)))[i]?).join = none := by
    rw [List.getElem?_map]
    cases p.given[i]? <;> rfl
  refine ⟨⟨List.length_map _, fun i c ss _ hss => ?_⟩, rfl, ?_⟩
  · rw [hclosed] at hss
    cases hss
  · rw [left, Prediction.reserve, ← sum_range_getElem?]
    refine Finset.sum_congr rfl fun i _ => ?_
    rw [room, hclosed]

end Session

end Forecast
