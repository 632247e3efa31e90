import Forecast.Proofs.Market.Chart
import Forecast.Proofs.Session.TickSets

/-!
# Where a Session Resumes

In a market that serves charts, what lies before a condition depends on the second from which its
streams would be opened, and on nothing else (`supplyOf`). A condition that has been fed a first
part of its supply and is still open has the last set that it was fed, and all later ones, before it
in the next session (`resumes`); and that set, fed once more, changes nothing. So nothing is lost
and nothing counts twice.

For this a condition has to be servable (`Condition.IsServable`): it quotes something, and its window
begins where there is room for an interval.

## Main results

* `isSupplied_of_start`: every session of a servable prediction in a market with charts is supplied.
* `resumes`: what lies before a condition that resumes.
-/

namespace Forecast

/-! ### Conditions that can be served -/

/-- Whether a condition quotes something, and there is room for an interval where its window begins.
-/
structure Condition.IsServable (c : Condition Price) : Prop where
  quoted : c.instruments ≠ []
  begins : firstWithRoom ≤ c.fromTs

/-- A condition stays servable, whatever its progress. -/
theorem Condition.IsServable.of_frame {c d : Condition Price} (h : c.IsServable)
    (hframe : d = { c with state := d.state }) : d.IsServable := by
  constructor
  · rw [hframe]
    exact h.quoted
  · rw [hframe]
    exact h.begins

/-- Whether all conditions of a prediction are servable. -/
def Prediction.IsServable (p : Prediction) : Prop :=
  ∀ c ∈ p.given, c.IsServable

/-! ### What lies before a condition -/

namespace Session

variable {m : Market} {chart : String → List Candle}

/-- What lies before a condition in a session that begins: the sets of ticks of its instruments from
where it stands up to a second. -/
def supplyOf (m : Market) (chart : String → List Candle) (now : Int) (c : Condition Price) :
    List (TickSet Price) :=
  sets (c.instruments.map Instrument.key) fun key =>
    span (max c.fromTs c.state.lastTs) now (m.chartTicks chart key)

/-- What lies before a prediction, by the positions of its conditions. -/
def suppliesOf (m : Market) (chart : String → List Candle) (now : Int) (p : Prediction) (i : Nat) :
    List (TickSet Price) :=
  (p.given[i]?.map (supplyOf m chart now)).getD []

/-- What lies before the condition at a position. -/
theorem suppliesOf_eq {now : Int} {p : Prediction} {i : Nat} {c : Condition Price}
    (hc : p.given[i]? = some c) : suppliesOf m chart now p i = supplyOf m chart now c := by
  rw [suppliesOf, hc]
  rfl

/-- Streams of instruments that are served deliver spans of the ticks of their charts. -/
theorem exists_openStreams (hm : m.Serves chart) {is : List Instrument}
    (hserved : ∀ i ∈ is, m.check (.market i) = .ok i) {start : Int}
    (hroom : HasRoom m.interval start) (now : Int) :
    ∃ openings ss, openStreams m start now is = (openings, .ok ss) ∧
      Deliver (is.map Instrument.key) (fun key => span start now (m.chartTicks chart key)) ss :=
  exists_openStreams_of_deliver fun i hi => ⟨hserved i hi, hm.openStream i hroom now⟩

/-- **Every session of a servable prediction in a market with charts is supplied.** -/
theorem isSupplied_of_start (hm : m.Serves chart) {p : Prediction} {now : Int} {s : Session}
    (h : Session.start m p now = .ok s) (hservable : p.IsServable) :
    s.IsSupplied m (suppliesOf m chart now p) := by
  obtain ⟨hserved, rfl⟩ := start_eq_ok_iff.1 h
  refine ⟨List.length_map _, fun i c hc => ?_⟩
  have hmem := List.mem_of_getElem? hc
  have hroom : HasRoom m.interval (max c.fromTs c.state.lastTs) :=
    hm.hasRoom (Int.le_trans (hservable c hmem).begins (Int.le_max_left _ _))
  obtain ⟨openings, ss, hopen, hdeliver⟩ := exists_openStreams hm (hserved c hmem) hroom now
  rw [suppliesOf_eq hc]
  refine .closed openings ss ?_ hopen (supplies_sets ?_ hdeliver)
  · simp only [List.getElem?_map]
    cases p.given[i]? <;> rfl
  · simpa using (hservable c hmem).quoted

/-- What lies before a condition up to a later second begins with what lies before it up to an
earlier one. -/
theorem supplyOf_isPrefix (hm : m.Serves chart) {now now' : Int} (hnow : now ≤ now')
    (c : Condition Price) : supplyOf m chart now c <+: supplyOf m chart now' c :=
  sets_isPrefix fun key _ => span_isPrefix hnow (hm.chartTicks_sorted key)

/-- The ticks before a condition are in its window or past it. -/
theorem le_of_mem_supplyOf {now : Int} {c : Condition Price} {z : TickSet Price}
    (hz : z ∈ supplyOf m chart now c) {t : Tick Price} (ht : t ∈ z.values) :
    c.fromTs ≤ t.timestamp := by
  obtain ⟨n, -, rfl⟩ := List.mem_map.1 hz
  obtain ⟨key, -, htick⟩ := exists_of_mem_setAt ht
  have := (mem_span (List.mem_of_getElem? htick)).1
  omega

/-- **Where a condition resumes.** Take a condition that has been fed a first part of what lies
before it, and is not finished. If it was fed nothing it is as before. Else it accepts the last set
that it was fed once more without a change, and this set and all later ones lie before it then. -/
theorem resumes (hm : m.Serves chart) {now now' : Int} (hnow : now ≤ now') {c d : Condition Price}
    {n : Nat} (hn : n ≤ (supplyOf m chart now c).length)
    (hfed : c.feedEach ((supplyOf m chart now c).take n) = .ok d) (hopen : d.isFinished = false) :
    (n = 0 ∧ d = c) ∨ ∃ k z, n = k + 1 ∧ (supplyOf m chart now' c)[k]? = some z ∧
      supplyOf m chart now' d = (supplyOf m chart now' c).drop k ∧ d.feed z = .ok d := by
  cases n with
  | zero =>
      cases hfed
      exact Or.inl ⟨rfl, rfl⟩
  | succ k =>
      obtain ⟨z, hz⟩ : ∃ z, (supplyOf m chart now c)[k]? = some z :=
        ⟨_, List.getElem?_eq_getElem hn⟩
      have hfrom := fun t ht => le_of_mem_supplyOf (List.mem_of_getElem? hz) (t := t) ht
      rw [List.take_add_one, hz, Option.toList_some,
        Condition.feedEach_append_eq_ok_iff] at hfed
      obtain ⟨c', hc', hd⟩ := hfed
      rw [Condition.feedEach_singleton] at hd
      have hframe := (Condition.continues_of_feedEach hc').frame
      have hfrom' : ∀ t ∈ z.values, c'.fromTs ≤ t.timestamp := by
        rw [hframe]
        exact hfrom
      refine Or.inr ⟨k, z, rfl, ?_, ?_, Condition.feed_again hd hfrom' hopen⟩
      · exact getElem?_of_isPrefix (supplyOf_isPrefix hm hnow c) hz
      · -- all ticks of the last set are of the one time at which the condition stands
        obtain ⟨ts, hacc, hle, -, -, rfl⟩ := Condition.remembers_of_feed hd hfrom' hopen
        obtain ⟨-, hts, -, -⟩ := Condition.accepts_eq_ok_iff.1 hacc
        have hinstruments : c'.instruments = c.instruments := by
          rw [hframe]
          rfl
        have hkeys : supplyOf m chart now' { c' with state := ⟨.started, ts, z, c'.value⟩ } =
            sets (c.instruments.map Instrument.key) fun key =>
              span ts now' (m.chartTicks chart key) := by
          simp only [supplyOf, ← hinstruments, Int.max_eq_right hle]
          rfl
        rw [hkeys, supplyOf, ← sets_drop]
        refine sets_congr fun key hkey => ?_
        obtain ⟨t, ht, hmem⟩ := exists_of_getElem?_sets hz hkey
        have ht' :
            (span (max c.fromTs c.state.lastTs) now' (m.chartTicks chart key))[k]? = some t :=
          getElem?_of_isPrefix (span_isPrefix hnow (hm.chartTicks_sorted key)) ht
        rw [← hts t hmem, span_from (hm.chartTicks_sorted key) ht']

end Session

end Forecast
