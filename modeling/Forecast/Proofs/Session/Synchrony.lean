import Forecast.Proofs.Prediction.Openness
import Forecast.Proofs.Session.Refusals

/-!
# One Condition on Several Streams

A prediction with a single condition is open as long as this condition is, and final when it is
settled (`Session.isFinal_iff_of_single`). So a session with such a prediction does nothing but draw
sets of ticks for the condition and feed them to it. It stops at the first of three things: the
condition is settled, the streams have run dry, or the condition refuses a set (`Session.Stops`).

What is drawn are the first ticks of all streams, then the second ones, and so on. Since the ticks
of a stream are in order, no set is older than the one before it, and a set is refused only if its
ticks are not of one time.

## Main results

* `IsAlone.exists_stops`: a session with one condition stops.
* `mismatched_of_sets`: why a set of ticks of one number is refused.
* `feeds_synchronized_sets`: what the condition has been fed when the session stops.
-/

namespace Forecast

namespace Session

open Prediction (HasSoundClauses)

variable {m : Market} {s : Session} {c d : Condition Price} {z : TickSet Price}
  {zs : List (TickSet Price)}

/-! ### Predictions with one condition -/

/-- A prediction with a single condition is final exactly if this is settled. -/
theorem isFinal_iff_of_single {p : Prediction} (hsound : p.HasSoundClauses)
    (hgiven : p.given = [c]) :
    p.outcome.isFinal = true ↔ c.value ≠ .undecided := by
  constructor
  · intro hfinal hopen
    have hall : ∀ e ∈ p.given, e.value = .undecided := by
      rw [hgiven]
      exact List.forall_mem_singleton.2 hopen
    rw [hsound.open_of_undecided hall] at hfinal
    cases hfinal
  · intro hsettled
    by_contra hfinal
    obtain ⟨i, hi⟩ := List.exists_mem_of_ne_nil _
      (Prediction.actionable_ne_nil (Bool.eq_false_iff.2 hfinal))
    obtain ⟨-, e, he, hopen⟩ := Prediction.mem_actionable_iff.1 hi
    rw [hgiven] at he
    obtain rfl := List.mem_singleton.1 (List.mem_of_getElem? he)
    exact hsettled hopen

/-- A prediction with a single condition that is open waits for it and for nothing else. -/
theorem actionable_of_single {p : Prediction} (hsound : p.HasSoundClauses) (hgiven : p.given = [c])
    (hopen : c.value = .undecided) : p.actionable = [0] := by
  have hzero : ∀ i ∈ p.actionable, i = 0 := by
    intro i hi
    have hlt := Prediction.lt_of_mem_actionable hi
    rw [hgiven] at hlt
    exact Nat.lt_one_iff.1 hlt
  have hnotfinal : p.outcome.isFinal = false :=
    Bool.eq_false_iff.2 fun hfinal => (isFinal_iff_of_single hsound hgiven).1 hfinal hopen
  have hne := Prediction.actionable_ne_nil hnotfinal
  have hnodup := p.nodup_actionable
  cases hactionable : p.actionable with
  | nil => exact absurd hactionable hne
  | cons i is =>
      rw [hactionable] at hzero hnodup
      obtain ⟨rfl, hrest⟩ := List.forall_mem_cons.1 hzero
      cases is with
      | nil => rfl
      | cons j js =>
          have hj := hrest j List.mem_cons_self
          exact absurd (hj ▸ List.mem_cons_self) (List.nodup_cons.1 hnodup).1

/-! ### Passes -/

/-- Whether a session goes on with a single condition and has some sets of ticks before it. -/
structure IsAlone (m : Market) (zs : List (TickSet Price)) (c : Condition Price) (s : Session) :
    Prop where
  active : s.inactive = false
  stored : s.prediction.isFinal = false
  given : s.prediction.given = [c]
  sound : s.prediction.HasSoundClauses
  supplied : ∃ supply, s.IsSupplied m supply ∧ supply 0 = zs

/-- A step with a fault leaves the prediction as it was. -/
theorem step_prediction_of_fault {i : Nat} {fault : RunFault}
    (h : (s.step m i).result = .error fault) : (s.step m i).session.prediction = s.prediction := by
  rcases step_cases m s i with ⟨-, hstep⟩ | ⟨c, -, ⟨_, _, hstep⟩ | ⟨_, ss, -, hstep⟩⟩
  · rw [hstep]
  · rw [hstep]
  · rw [hstep] at h ⊢
    rcases s.feedFrom_cases i c ss with ⟨_, hfed⟩ | ⟨_, _, -, -, hfed⟩
    · rw [hfed]
      rfl
    · rw [hfed] at h
      cases h

/-- **A pass feeds the next set,** if there is one and the condition accepts it. The session goes on
if there was one and the condition is still open. -/
theorem IsAlone.pass (h : s.IsAlone m zs c) (hopen : c.value = .undecided)
    (hd : c.feedEach (zs.take 1) = .ok d) :
    (s.pass m).errors = [] ∧ (s.pass m).session.prediction.given = [d] ∧
      ((s.pass m).session.inactive = true ↔ d.value ≠ .undecided ∨ zs = []) ∧
      ((s.pass m).session.inactive = false → (s.pass m).session.IsAlone m zs.tail d) := by
  obtain ⟨supply, hsupplied, rfl⟩ := h.supplied
  have hc : s.prediction.given[0]? = some c := by rw [h.given]; rfl
  have hactionable := actionable_of_single h.sound h.given hopen
  have hfault : (s.round m s.prediction.actionable).fault = none := by
    rw [hactionable]
    rcases hsupplied.step hc with
      ⟨-, hresult, -⟩ | ⟨z, rest, hz, ⟨e, -, hresult, -⟩ | ⟨e, hrefused, -⟩⟩
    · rw [round_of_ok hresult]
      rfl
    · rw [round_of_ok hresult]
      rfl
    · rw [hz, List.take_succ_cons, List.take_zero, Condition.feedEach_singleton, hrefused] at hd
      cases hd
  have herrors : (s.pass m).errors = [] := by rw [pass_of_round h.active h.stored hfault]
  obtain ⟨htaken, -, hends⟩ := hsupplied.hasTaken_pass h.active h.stored herrors
  have hone : oneOf s.prediction.actionable 0 = 1 := by rw [hactionable]; rfl
  have hgiven : (s.pass m).session.prediction.given = [d] := by
    obtain ⟨e, he, hfed⟩ := htaken.exists_after hc
    rw [hone, hd] at hfed
    cases hfed
    obtain ⟨e, heq⟩ := List.length_eq_one_iff.1 (htaken.length_given.trans (congrArg _ h.given))
    rw [heq] at he ⊢
    cases he
    rfl
  have hsound : (s.pass m).session.prediction.HasSoundClauses := by
    refine h.sound.congr ?_ ?_ htaken.length_given
    · rw [htaken.frame]
    · rw [htaken.frame]
  refine ⟨herrors, hgiven, ?_, fun hgoes => ⟨hgoes, ?_, hgiven, hsound, _, htaken.supplied, ?_⟩⟩
  · rw [hends, isFinal_iff_of_single hsound hgiven, hactionable, List.forall_mem_singleton]
  · exact hsupplied.isFinal_of_active h.active h.stored herrors hgoes
  · rw [hone, List.drop_one]

/-- A pass in which the condition refuses the next set reports this and ends the session. -/
theorem IsAlone.pass_of_refused (h : s.IsAlone m (z :: zs) c) (hopen : c.value = .undecided)
    {e : FeedError} (he : c.feed z = .error e) :
    (s.pass m).errors = [⟨s.prediction.id, .feed e⟩] ∧ (s.pass m).session.inactive = true ∧
      (s.pass m).session.prediction.given = [c] := by
  obtain ⟨supply, hsupplied, hsupply⟩ := h.supplied
  have hc : s.prediction.given[0]? = some c := by rw [h.given]; rfl
  have hactionable := actionable_of_single h.sound h.given hopen
  have hresult : (s.step m 0).result = .error (.feed e) := by
    rcases hsupplied.step hc with ⟨hnone, -⟩ | ⟨z', rest, hz, hfed⟩
    · rw [hsupply] at hnone
      cases hnone
    · rw [hsupply] at hz
      cases hz
      rcases hfed with ⟨d, hd, -⟩ | ⟨e', he', hresult⟩
      · rw [he] at hd
        cases hd
      · rw [he] at he'
        cases he'
        exact hresult
  have hprediction := step_prediction_of_fault hresult
  have hround : s.round m s.prediction.actionable =
      ⟨(s.step m 0).session, (s.step m 0).opened, 0, some (.feed e)⟩ := by
    rw [hactionable, round_of_fault hresult]
  have hfault : (s.round m s.prediction.actionable).fault = some (.feed e) := by rw [hround]
  rw [pass_of_fault h.active h.stored hfault, hround]
  dsimp only
  rw [hprediction]
  exact ⟨rfl, rfl, h.given⟩

/-! ### Stopping -/

/-- Whether a session with a single condition stops when this has been fed a number of sets, one in
each pass. Before, it was open. Then it is settled, or no set is left, or it refuses the next one.
-/
structure Stops (m : Market) (zs : List (TickSet Price)) (c : Condition Price) (s : Session)
    (count : Nat) (d : Condition Price) : Prop where
  le : count ≤ zs.length
  fed : c.feedEach (zs.take count) = .ok d
  passes : ∀ n ≤ count, ∃ e, c.feedEach (zs.take n) = .ok e ∧
    (afterPasses m n s).prediction.given = [e] ∧ (n < count → e.value = .undecided)
  drained : ∀ limit, count < limit →
    (s.drain m limit).1.inactive = true ∧ (s.drain m limit).1.prediction.given = [d] ∧
      ((s.drain m limit).2 = [] ∧ (d.value ≠ .undecided ∨ count = zs.length) ∨
        d.value = .undecided ∧ ∃ z e, zs[count]? = some z ∧ d.feed z = .error e ∧
          (s.drain m limit).2 = [⟨s.prediction.id, .feed e⟩])

/-- A session that ends with its first pass has been drained when it has made one. -/
theorem drain_of_pass (hactive : s.inactive = false) (hended : (s.pass m).session.inactive = true)
    {limit : Nat} (hlimit : 0 < limit) :
    s.drain m limit = ((s.pass m).session, (s.pass m).errors) := by
  obtain ⟨limit, rfl⟩ := Nat.exists_eq_add_one.2 hlimit
  rw [drain_succ limit hactive, drain_of_inactive limit hended, List.append_nil]

/-- A session that ends with its first pass and leaves the condition as it was stops at once. -/
theorem IsAlone.stops_at_once (h : s.IsAlone m zs c) (hended : (s.pass m).session.inactive = true)
    (hleft : (s.pass m).session.prediction.given = [c])
    (hreason : (s.pass m).errors = [] ∧ zs = [] ∨
      c.value = .undecided ∧ ∃ z e, zs[0]? = some z ∧ c.feed z = .error e ∧
        (s.pass m).errors = [⟨s.prediction.id, .feed e⟩]) :
    Stops m zs c s 0 c := by
  refine ⟨Nat.zero_le _, rfl, fun n hn => ?_, fun limit hlimit => ?_⟩
  · obtain rfl := Nat.le_zero.1 hn
    exact ⟨c, rfl, h.given, fun hlt => absurd hlt (Nat.lt_irrefl 0)⟩
  · rw [drain_of_pass h.active hended hlimit]
    refine ⟨hended, hleft, hreason.imp_left fun hdry => ⟨hdry.1, Or.inr ?_⟩⟩
    rw [hdry.2, List.length_nil]

/-- If the next set settles the condition, the session stops with it. -/
theorem IsAlone.stops_of_settled (h : s.IsAlone m (z :: zs) c) (hopen : c.value = .undecided)
    (hd : c.feed z = .ok d) (hsettled : d.value ≠ .undecided) : Stops m (z :: zs) c s 1 d := by
  have hone : c.feedEach ((z :: zs).take 1) = .ok d := (c.feedEach_take_one z zs).trans hd
  obtain ⟨herrors, hgiven, hends, -⟩ := h.pass hopen hone
  have hended := hends.2 (Or.inl hsettled)
  refine ⟨Nat.succ_le_succ (Nat.zero_le _), hone, fun n hn => ?_, fun limit hlimit => ?_⟩
  · cases n with
    | zero => exact ⟨c, rfl, h.given, fun _ => hopen⟩
    | succ n =>
        obtain rfl : n = 0 := Nat.le_zero.1 (Nat.le_of_succ_le_succ hn)
        exact ⟨d, hone, hgiven, fun hlt => absurd hlt (Nat.lt_irrefl 1)⟩
  · rw [drain_of_pass h.active hended (Nat.lt_trans Nat.zero_lt_one hlimit)]
    exact ⟨hended, hgiven, Or.inl ⟨herrors, Or.inl hsettled⟩⟩

/-- If the condition is still open after the next set, the session stops when the one that goes on
does. -/
theorem IsAlone.stops_of_fed {e : Condition Price} {count : Nat} (h : s.IsAlone m (z :: zs) c)
    (hopen : c.value = .undecided) (he : c.feed z = .ok e)
    (hstops : Stops m zs e (s.pass m).session count d) : Stops m (z :: zs) c s (count + 1) d := by
  obtain ⟨herrors, -, -, -⟩ := h.pass hopen ((c.feedEach_take_one z zs).trans he)
  have hid : (s.pass m).session.prediction.id = s.prediction.id := by
    obtain ⟨supply, hsupplied, -⟩ := h.supplied
    rw [(attends_pass m hsupplied.length).1.frame]
  refine ⟨Nat.succ_le_succ hstops.le, ?_, fun n hn => ?_, fun limit hlimit => ?_⟩
  · rw [List.take_succ_cons]
    exact Condition.feedEach_cons_eq_ok_iff.2 ⟨e, he, hstops.fed⟩
  · cases n with
    | zero => exact ⟨c, rfl, h.given, fun _ => hopen⟩
    | succ n =>
        obtain ⟨b, hb, hgiven, hbopen⟩ := hstops.passes n (Nat.le_of_succ_le_succ hn)
        refine ⟨b, ?_, hgiven, fun hlt => hbopen (Nat.lt_of_succ_lt_succ hlt)⟩
        rw [List.take_succ_cons]
        exact Condition.feedEach_cons_eq_ok_iff.2 ⟨e, he, hb⟩
  · obtain ⟨limit, rfl⟩ := Nat.exists_eq_add_one.2 (Nat.zero_lt_of_lt hlimit)
    rw [drain_succ limit h.active, herrors, List.nil_append]
    obtain ⟨hended, hgiven, hreason⟩ := hstops.drained limit (Nat.lt_of_succ_lt_succ hlimit)
    rw [hid] at hreason
    refine ⟨hended, hgiven, hreason.imp (fun hreason => ⟨hreason.1, ?_⟩) id⟩
    exact hreason.2.imp_right fun hcount => by rw [hcount, List.length_cons]

/-- **A session with a single open condition stops.** -/
theorem IsAlone.exists_stops (h : s.IsAlone m zs c) (hopen : c.value = .undecided) :
    ∃ count d, Stops m zs c s count d := by
  induction zs generalizing c s with
  | nil =>
      obtain ⟨herrors, hleft, hends, -⟩ := h.pass hopen rfl
      exact ⟨0, c, h.stops_at_once (hends.2 (Or.inr rfl)) hleft (Or.inl ⟨herrors, rfl⟩)⟩
  | cons z zs ih =>
      cases hfeed : c.feed z with
      | error e =>
          obtain ⟨herrors, hended, hleft⟩ := h.pass_of_refused hopen hfeed
          exact ⟨0, c, h.stops_at_once hended hleft (Or.inr ⟨hopen, z, e, rfl, hfeed, herrors⟩)⟩
      | ok e =>
          by_cases heopen : e.value = .undecided
          · obtain ⟨-, -, hends, hgoes⟩ := h.pass hopen ((c.feedEach_take_one z zs).trans hfeed)
            have hactive : (s.pass m).session.inactive = false := by
              refine Bool.eq_false_iff.2 fun hended => ?_
              rcases hends.1 hended with hsettled | hnil
              · exact hsettled heopen
              · cases hnil
            obtain ⟨count, d, hstops⟩ := ih (hgoes hactive) heopen
            exact ⟨count + 1, d, h.stops_of_fed hopen hfeed hstops⟩
          · exact ⟨1, e, h.stops_of_settled hopen hfeed heopen⟩

/-! ### Sets of one time -/

section Sets

variable {keys : List String} {ticks : String → List (Tick Price)} {n : Nat}

/-- Whether all lists have a tick of a number and these are of one time. -/
def AreSynchronous (keys : List String) (ticks : String → List (Tick Price)) (n : Nat) : Prop :=
  ∃ ts, ∀ key ∈ keys, ∃ t, (ticks key)[n]? = some t ∧ t.timestamp = ts

/-- The ticks of a set that an open condition accepts are of one time. -/
theorem areSynchronous_of_feed (hc : c.IsConsistent) (hopen : c.value = .undecided)
    (hz : (sets keys ticks)[n]? = some z) (h : c.feed z = .ok d) : AreSynchronous keys ticks n := by
  rcases Condition.feed_eq_ok_iff.1 h with ⟨hfinished, -⟩ | ⟨-, ts, hacc, -⟩
  · rw [(value_eq_undecided_iff hc).1 hopen] at hfinished
    cases hfinished
  · refine ⟨ts, fun key hkey => ?_⟩
    obtain ⟨t, ht, hmem⟩ := exists_of_getElem?_sets hz hkey
    exact ⟨t, ht, (Condition.accepts_eq_ok_iff.1 hacc).2.1 t hmem⟩

/-- Ticks of sets of one time are earlier than later ticks of any list. -/
theorem lt_of_mem_take {count : Nat} (hsynchronous : ∀ n < count, AreSynchronous keys ticks n)
    {key : String} (hkey : key ∈ keys)
    (hsorted : (ticks key).Pairwise fun t u => t.timestamp < u.timestamp) {t : Tick Price}
    (ht : (ticks key)[count]? = some t) {w : TickSet Price} (hw : w ∈ (sets keys ticks).take count)
    {u : Tick Price} (hu : u ∈ w.values) : u.timestamp < t.timestamp := by
  obtain ⟨n, hn⟩ := List.getElem?_of_mem hw
  rw [List.getElem?_take] at hn
  split at hn
  · next hlt =>
      rw [getElem?_sets] at hn
      split at hn
      · cases hn
        obtain ⟨key', hkey', hu⟩ := exists_of_mem_setAt hu
        obtain ⟨ts, hall⟩ := hsynchronous n hlt
        obtain ⟨u', hu', htime'⟩ := hall key' hkey'
        obtain ⟨v, hv, htime⟩ := hall key hkey
        rw [hu] at hu'
        cases hu'
        obtain ⟨hvlt, rfl⟩ := List.getElem?_eq_some_iff.1 hv
        obtain ⟨htlt, rfl⟩ := List.getElem?_eq_some_iff.1 ht
        have hbefore := List.pairwise_iff_getElem.1 hsorted n count hvlt htlt hlt
        rw [htime', ← htime]
        exact hbefore
      · cases hn
  · cases hn

/-- **Why a set of ticks of one number is refused.** Let a condition have accepted the sets before
it, which are of one time each, from lists in order. Then the ticks of the set are not of one time.
-/
theorem mismatched_of_sets (hquoted : c.instruments ≠ []) (hlast : c.state.lastTs ≤ c.fromTs)
    (hticks : ∀ i ∈ c.instruments,
      ((ticks i.key).Pairwise fun t u => t.timestamp < u.timestamp) ∧
        ∀ t ∈ ticks i.key, c.fromTs ≤ t.timestamp)
    {count : Nat}
    (hsynchronous : ∀ n < count, AreSynchronous (c.instruments.map Instrument.key) ticks n)
    (hfed : c.feedEach ((sets (c.instruments.map Instrument.key) ticks).take count) = .ok d)
    (hz : (sets (c.instruments.map Instrument.key) ticks)[count]? = some z) {e : FeedError}
    (he : d.feed z = .error e) :
    e = .mismatchedTimestamps c.name ∧
      ¬ AreSynchronous (c.instruments.map Instrument.key) ticks count := by
  have hframe := (Condition.continues_of_feedEach hfed).frame
  have hname : d.name = c.name := by rw [hframe]
  have hinstruments : d.instruments = c.instruments := by
    rw [hframe]
    rfl
  have hset : z = setAt (c.instruments.map Instrument.key) ticks count := by
    rw [getElem?_sets] at hz
    split at hz
    · exact (Option.some.inj hz).symm
    · cases hz
  have hcomplete : ∀ i ∈ d.instruments, z.contains i.key = true := by
    intro i hi
    rw [hinstruments] at hi
    have hkey := List.mem_map_of_mem (f := Instrument.key) hi
    obtain ⟨t, ht, -⟩ := exists_of_getElem?_sets hz hkey
    rw [Keyed.contains, hset, get?_setAt count hkey, ht]
    rfl
  obtain ⟨i, hi⟩ := List.exists_mem_of_ne_nil _ hquoted
  obtain ⟨hsorted, hafter⟩ := hticks i hi
  have hkey := List.mem_map_of_mem (f := Instrument.key) hi
  obtain ⟨t, ht, hmem⟩ := exists_of_getElem?_sets hz hkey
  have hrecent : d.state.lastTs ≤ t.timestamp := by
    have hbound := Condition.lastTs_le_of_feedEach
      (fun w hw u hu => Int.le_of_lt (lt_of_mem_take hsynchronous hkey hsorted ht hw hu)) hfed
    have hfrom := hafter t (List.mem_of_getElem? ht)
    omega
  obtain ⟨rfl, u, hu, v, hv, hne⟩ := Condition.mismatched_of_feed he hcomplete ⟨t, hmem, hrecent⟩
  refine ⟨by rw [hname], ?_⟩
  rintro ⟨ts, hall⟩
  have htime {u : Tick Price} (hu : u ∈ z.values) : u.timestamp = ts := by
    rw [hset] at hu
    obtain ⟨key, hkey, hu⟩ := exists_of_mem_setAt hu
    obtain ⟨u', hu', htime⟩ := hall key hkey
    rw [hu] at hu'
    cases hu'
    exact htime
  exact hne ((htime hu).trans (htime hv).symm)

end Sets

/-! ### Sessions that begin -/

/-- A session that begins with a compiled prediction of one condition, which is open, has the sets
of its streams before it. -/
theorem exists_isAlone {p : Prediction} (hp : p.IsCompiled) (hgiven : p.given = [c])
    (hfrom : 0 ≤ c.fromTs) {now : Int} {ticks : String → List (Tick Price)}
    (hticks : ∀ i ∈ c.instruments, ∃ stream, m.ticks (.market i) c.fromTs now = .ok stream ∧
      stream.Delivers (ticks i.key)) :
    ∃ s, Session.start m p now = .ok s ∧ s.prediction = p ∧
      s.IsAlone m (sets (c.instruments.map Instrument.key) ticks) c := by
  have hc : c ∈ p.given := by
    rw [hgiven]
    exact List.mem_singleton_self c
  obtain ⟨hfresh, hfinal⟩ := hp.fresh
  have hinitial := hfresh c hc
  have hmax : max c.fromTs c.state.lastTs = c.fromTs := by
    rw [hinitial]
    exact Int.max_eq_left hfrom
  have hopened : ∀ i ∈ c.instruments, m.check (.market i) = .ok i ∧
      ∃ s, m.openStream i c.fromTs now = .ok s ∧ s.key = i.key ∧ s.exhausted = false ∧
        s.Delivers (ticks i.key) := by
    intro i hi
    obtain ⟨stream, hstream, hdelivers⟩ := hticks i hi
    obtain ⟨hcheck, hopen⟩ := Market.ticks_eq_ok_iff.1 hstream
    obtain ⟨hkey, hexhausted, -⟩ := Market.of_openStream hopen
    exact ⟨hcheck, stream, hopen, hkey, hexhausted, hdelivers⟩
  obtain ⟨openings, ss, hss, hdeliver⟩ := exists_openStreams_of_deliver hopened
  have hkeys : c.instruments.map Instrument.key ≠ [] :=
    mt List.map_eq_nil_iff.1 (hp.quoted c hc)
  have hserved : ∀ c ∈ p.given, ∀ i ∈ c.instruments, m.check (.market i) = .ok i := by
    rw [hgiven]
    exact List.forall_mem_singleton.2 fun i hi => (hopened i hi).1
  have hongoing : p.isFinal = false := by
    refine Bool.eq_false_iff.2 fun hstored => ?_
    have houtcome : p.outcome.isFinal = true := by
      rw [← hfinal hstored] at hstored
      exact hstored
    refine (isFinal_iff_of_single hp.hasSoundClauses hgiven).1 houtcome ?_
    rw [Condition.value, hinitial]
    rfl
  refine ⟨_, start_eq_ok_iff.2 ⟨hserved, rfl⟩, rfl, rfl, hongoing, hgiven, hp.hasSoundClauses,
    fun _ => sets (c.instruments.map Instrument.key) ticks,
    ⟨List.length_map _, fun i d hd => ?_⟩, rfl⟩
  have hd' := List.mem_of_getElem? hd
  rw [hgiven] at hd'
  obtain rfl := List.mem_singleton.1 hd'
  refine .closed openings ss ?_ (hmax.symm ▸ hss) (supplies_sets hkeys hdeliver)
  simp only [List.getElem?_map]
  cases p.given[i]? <;> rfl

/-- The sets that a condition has been fed when its session stops are of one time each. -/
theorem Stops.areSynchronous {keys : List String} {ticks : String → List (Tick Price)} {count : Nat}
    (h : Stops m (sets keys ticks) c s count d) (hc : c.IsConsistent) :
    ∀ n < count, AreSynchronous keys ticks n := by
  intro n hn
  obtain ⟨e, he, -, hopen⟩ := h.passes n (Nat.le_of_lt hn)
  obtain ⟨e', he', -⟩ := h.passes (n + 1) hn
  obtain ⟨z, hz⟩ : ∃ z, (sets keys ticks)[n]? = some z :=
    ⟨_, List.getElem?_eq_getElem (Nat.lt_of_lt_of_le hn h.le)⟩
  rw [List.take_add_one, hz, Option.toList_some, Condition.feedEach_append_eq_ok_iff] at he'
  obtain ⟨b, hb, hfeed⟩ := he'
  rw [he] at hb
  cases hb
  rw [Condition.feedEach_singleton] at hfeed
  have hconsistent := (Condition.continues_of_feedEach he).consistent hc
  exact areSynchronous_of_feed hconsistent (hopen hn) hz hfeed

/-- **A session feeds the ticks of its streams number by number.** Take a freshly compiled
prediction of a single condition, and a market whose streams of its instruments, from the second
from which on it is valid, deliver some ticks. Then a session can be begun, and there is a number of
sets that it feeds, one in each pass: the first ticks of all streams, then the second ones, and so
on. Each of these sets is of one time, and the condition is open before each of them. Every drain of
more passes than that ends the session, and leaves the condition as these sets have made it. Either
there are no errors, and the condition is settled or a stream has no tick for the next set. Or else
every stream has one but they are not of one time, and the only error says so. -/
theorem feeds_synchronized_sets {p : Prediction} (hp : p.IsCompiled) (hgiven : p.given = [c])
    (hfrom : 0 ≤ c.fromTs) {now : Int} {ticks : String → List (Tick Price)}
    (hticks : ∀ i ∈ c.instruments, ∃ stream, m.ticks (.market i) c.fromTs now = .ok stream ∧
      stream.Delivers (ticks i.key)) :
    ∃ s, Session.start m p now = .ok s ∧ ∃ (stage : Nat → Condition Price) (count : Nat),
      (∀ n ≤ count,
        c.feedEach ((List.range n).map (setAt (c.instruments.map Instrument.key) ticks)) =
          .ok (stage n) ∧
        (afterPasses m n s).prediction.given = [stage n]) ∧
      (∀ n < count, (stage n).value = .undecided ∧
        AreSynchronous (c.instruments.map Instrument.key) ticks n) ∧
      ∀ limit, count < limit → ∃ done errors, s.drain m limit = (done, errors) ∧
        done.inactive = true ∧ done.prediction.given = [stage count] ∧
        (errors = [] ∧
            ((stage count).value ≠ .undecided ∨ ∃ i ∈ c.instruments, (ticks i.key)[count]? = none) ∨
          errors = [⟨p.id, .feed (.mismatchedTimestamps c.name)⟩] ∧
            (stage count).value = .undecided ∧
            (∀ i ∈ c.instruments, count < (ticks i.key).length) ∧
            ¬ AreSynchronous (c.instruments.map Instrument.key) ticks count) := by
  have hc : c ∈ p.given := by
    rw [hgiven]
    exact List.mem_singleton_self c
  have hinitial := hp.fresh.1 c hc
  have hopen : c.value = .undecided := by
    rw [Condition.value, hinitial]
    rfl
  have hquoted := hp.quoted c hc
  have hkeys : c.instruments.map Instrument.key ≠ [] := mt List.map_eq_nil_iff.1 hquoted
  have hlast : c.state.lastTs ≤ c.fromTs := by
    rw [hinitial]
    exact hfrom
  have hsorted : ∀ i ∈ c.instruments,
      ((ticks i.key).Pairwise fun t u => t.timestamp < u.timestamp) ∧
        ∀ t ∈ ticks i.key, c.fromTs ≤ t.timestamp := by
    intro i hi
    obtain ⟨stream, hstream, hdelivers⟩ := hticks i hi
    exact Market.sorted_of_ticks hstream hdelivers
  obtain ⟨s, hstart, rfl, halone⟩ := exists_isAlone hp hgiven hfrom hticks
  obtain ⟨count, d, hstops⟩ := halone.exists_stops hopen
  have hsynchronous := hstops.areSynchronous (hp.isKept.1 c hc)
  have hcount : count ≤ shortest (c.instruments.map Instrument.key) ticks :=
    length_sets ▸ hstops.le
  -- the stages are chosen for every number, also beyond the last set, where they do not matter
  have : Nonempty (Condition Price) := ⟨c⟩
  choose! stage hfed hpasses hbefore using hstops.passes
  have hdone : stage count = d := by
    have hlast := hfed count (Nat.le_refl count)
    rw [hstops.fed] at hlast
    exact (Except.ok.inj hlast).symm
  refine ⟨s, hstart, stage, count, fun n hn => ⟨?_, hpasses n hn⟩, fun n hn => ?_,
    fun limit hlimit => ?_⟩
  · rw [← take_sets (Nat.le_trans hn hcount)]
    exact hfed n hn
  · exact ⟨hbefore n (Nat.le_of_lt hn) hn, hsynchronous n hn⟩
  -- what a session stops at, said of the ticks of its streams
  obtain ⟨hended, hleft, hreason⟩ := hstops.drained limit hlimit
  rw [hdone]
  refine ⟨_, _, rfl, hended, hleft, ?_⟩
  rcases hreason with ⟨hnone, hsettled | hdry⟩ | ⟨hopen, z, e, hz, he, herrors⟩
  · exact Or.inl ⟨hnone, Or.inl hsettled⟩
  · refine Or.inl ⟨hnone, Or.inr ?_⟩
    obtain ⟨key, hkey, hle⟩ := exists_length_le_shortest hkeys ticks
    obtain ⟨i, hi, rfl⟩ := List.mem_map.1 hkey
    rw [hdry, length_sets]
    exact ⟨i, hi, List.getElem?_eq_none hle⟩
  · obtain ⟨rfl, hmixed⟩ := mismatched_of_sets hquoted hlast hsorted hsynchronous hstops.fed hz he
    refine Or.inr ⟨herrors, hopen, fun i hi => ?_, hmixed⟩
    obtain ⟨t, ht, -⟩ := exists_of_getElem?_sets hz (List.mem_map_of_mem hi)
    exact (List.getElem?_eq_some_iff.1 ht).1

/-- A prediction that one coin will be worth more than another, as an author writes it. -/
def lagDraft : Draft where
  id := some "lag"
  postedAt := "1970-01-01T00:00:00Z"
  reporter := ""
  postAuthor := ""
  postUrl := ""
  postText := ""
  given := .ofList
    [("flip", ⟨"COIN:BINANCE:ETH-USDT > COIN:BINANCE:BTC-USDT", none, none, some "1d", none⟩)]
  pre := none
  main := ⟨none, none, "flip", false, false⟩

/-- The condition of the compiled prediction. -/
def flip : Condition Price :=
  .fresh "flip" .above [.market ether, .market bitcoin] 0 86400 0

/-- The compiled prediction. -/
def lag : Prediction where
  id := "lag"
  createdAt := ⟨0, 0⟩
  postedAt := ⟨0, 0⟩
  reporter := ""
  postAuthor := ""
  postUrl := ""
  postText := ""
  given := [flip]
  pre := .none
  main := .ofClause (.literal 0)
  state := .initial
  shape := .unsupported

/-- The draft compiles to the prediction. -/
theorem compile_lagDraft : Compile.prediction lagDraft ⟨0, 0⟩ = .ok lag := by
  have htime : Calendar.readTime lagDraft.postedAt = .ok ⟨0, 0⟩ := by rfl
  have hconditions : Compile.conditions ⟨0, 0⟩ [] (lagDraft.given.entries.map Compile.toEntry) =
      .ok lag.given := by with_unfolding_all rfl
  have hentries : Compile.entries lagDraft.given = lagDraft.given.entries.map Compile.toEntry :=
    Compile.entries_of_sorted (by decide +kernel)
  simp only [Compile.prediction, hentries, htime, Except.mapError, bind, Except.bind, hconditions]
  with_unfolding_all rfl

/-- Candles of one price, of which the second comes a minute later for one coin than for all others.
-/
def laggingCandles (key : String) : List Candle :=
  [⟨0, 1, 1, 1, 1, 0⟩, ⟨if key = ether.key then 120 else 60, 1, 1, 1, 1, 0⟩]

/-- A market with these candles. -/
def laggingMarket : Market where
  providers := ["BINANCE"]
  interval := 60
  source key _ := .ok ((laggingCandles key).map .ok)

/-- The ticks that its streams deliver. -/
def laggingTicks (key : String) : List (Tick Price) :=
  TickStream.passing 0 240 none ((laggingCandles key).flatMap (Candle.ticks 60))

/-- The streams deliver them. -/
theorem delivers_laggingTicks : ∀ i ∈ flip.instruments, ∃ stream,
    laggingMarket.ticks (.market i) flip.fromTs 240 = .ok stream ∧
      stream.Delivers (laggingTicks i.key) := by
  have hinstruments : flip.instruments = [ether, bitcoin] := by decide +kernel
  have hleft {i : Instrument} (hfinite : ∀ c ∈ laggingCandles i.key, c.hasFinitePrices = true) :
      (TickStream.ofFeed i.key ((laggingCandles i.key).map .ok) 60 0 240).HasLeft
        (laggingCandles i.key) := ⟨rfl, rfl, hfinite⟩
  rw [hinstruments]
  refine List.forall_mem_cons.2 ⟨⟨_, Market.ticks_eq_ok_iff.2 ⟨rfl, rfl⟩, ?_⟩,
    List.forall_mem_singleton.2 ⟨_, Market.ticks_eq_ok_iff.2 ⟨rfl, rfl⟩, ?_⟩⟩
  · exact TickStream.delivers_passing (hleft (by decide +kernel))
  · exact TickStream.delivers_passing (hleft (by decide +kernel))

/-- The four ticks of the first candles are fed, and then the session ends with the mismatch. -/
theorem feeds_synchronized_sets_lagging :
    lag.IsCompiled ∧ lag.given = [flip] ∧ 0 ≤ flip.fromTs ∧
      ∃ s, Session.start laggingMarket lag 240 = .ok s ∧
        ∃ (stage : Nat → Condition Price) (count : Nat),
        (∀ limit, count < limit → ∃ done errors, s.drain laggingMarket limit = (done, errors) ∧
          done.inactive = true ∧ done.prediction.given = [stage count]) ∧
        (s.drain laggingMarket 9).2.map RunError.message =
          ["prediction lag: condition 'flip': ticks carry mismatched timestamps"] ∧
        (s.drain laggingMarket 9).1.prediction.given.map (fun c => (c.state.lastTs, c.value)) =
          [(45, .undecided)] := by
  have hcompiled : lag.IsCompiled := ⟨lagDraft, ⟨0, 0⟩, lag, compile_lagDraft, Or.inl rfl⟩
  obtain ⟨s, hs, stage, count, -, -, hdrain⟩ :=
    feeds_synchronized_sets hcompiled rfl (Int.le_refl 0) delivers_laggingTicks
  refine ⟨hcompiled, rfl, Int.le_refl 0, s, hs, stage, count, fun limit hlimit => ?_, ?_⟩
  · obtain ⟨done, errors, hdone, hinactive, hgiven, -⟩ := hdrain limit hlimit
    exact ⟨done, errors, hdone, hinactive, hgiven⟩
  · cases hs
    decide +kernel

end Session

end Forecast
