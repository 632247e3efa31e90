import Forecast.Proofs.Session.Numbers
import Forecast.Proofs.Session.Operations
import Forecast.Proofs.Stored.RoundTrip

/-!
# What Operations Leave Fit to Be Stored

Whatever is done with a prediction, two things are kept that it takes to be stored. All its times fit a
word, because a condition remembers the time of ticks that it has accepted, and these are no earlier
than what it had seen and no later than the second up to which it is fed (`Condition.FitsWords.feed`).
And error margins and ticks are finite: margins never change, and a stream shows no price that is not
finite, whatever a market delivers (`Session.keeper_isFinitelyFed`).

The numbers among the operands never change either, so they are finite afterwards exactly if they were
before. All three together are an invariant of every operation (`Stage.IsWritable`).

## Main results

* `Stage.IsWritable.perform`, `Stage.IsWritable.performAll`: what an operation keeps, and what operations
  keep.
-/

namespace Forecast

/-! ### Times that fit a word -/

/-- Ticks up to a second that fits a word keep the times of a condition so. -/
theorem Condition.FitsWords.feed {c d : Condition Price} {z : TickSet Price} {now : Int}
    (h : c.FitsWords) (hnow : Decimal.fitsWord now = true)
    (hz : ∀ t ∈ z.values, t.timestamp ≤ now) (hfeed : c.feed z = .ok d) : d.FitsWords := by
  have hcontinues := continues_of_feed hfeed
  have hbound := lastTs_le_of_feed hz hfeed
  have hlast : Decimal.fitsWord d.state.lastTs = true := by
    have hbefore := h.state.lastTs
    have hlater := hcontinues.lastTs
    rw [Decimal.fitsWord_iff] at *
    omega
  refine ⟨?_, ?_, hlast, fun t ht => ?_⟩
  · rw [hcontinues.frame]
    exact h.fromTs
  · rw [hcontinues.frame]
    exact h.toTs
  · rcases state_of_feed hfeed with hstate | ⟨hticks, -, htimes⟩
    · rw [hstate] at ht
      exact h.state.ticks t ht
    · rw [hticks] at ht
      rw [htimes t ht]
      exact hlast

namespace Prediction

variable {p q : Prediction}

/-- A feeding puts conditions in their places that have what feeding keeps. -/
theorem forall_given_feed {C : Condition Price → Prop} {f : Feeding}
    (hC : ∀ {c d : Condition Price}, C c → c.feed f.ticks = .ok d → C d) (h : ∀ c ∈ p.given, C c) :
    ∀ c ∈ (p.feed f).given, C c := by
  rcases p.feed_cases f with hsame | ⟨c, d, hc, hd, hset⟩
  · rwa [hsame]
  · rw [hset]
    intro e he
    rcases List.mem_or_eq_of_mem_set he with hold | rfl
    · exact h e hold
    · exact hC (h c (List.mem_of_getElem? hc)) hd

/-- A prediction can be stored after it has been fed. -/
theorem IsStorable.feed (h : p.IsStorable) {now : Int} (hnow : Decimal.fitsWord now = true)
    {f : Feeding} (hf : f.IsUpTo now) : (p.feed f).IsStorable := by
  have hgiven := forall_given_feed (fun hc hd => Condition.FitsWords.feed hc hnow hf hd) h.given
  rw [p.feed_frame f]
  exact ⟨h.createdAt, h.postedAt, hgiven, h.clauses, h.state⟩

/-- A prediction can be stored after it has been evaluated. -/
theorem IsStorable.evaluated (h : p.IsStorable) : p.evaluated.IsStorable := by
  refine ⟨h.createdAt, h.postedAt, h.given, h.clauses, ?_⟩
  have hlatest : Decimal.fitsWord p.latest = true := by
    rcases p.exists_latest with ⟨-, hzero⟩ | ⟨c, hc, hlatest⟩
    · rw [hzero]
      rfl
    · rw [hlatest]
      exact (h.given c hc).state.lastTs
  rcases Int.le_total p.state.lastTs p.latest with hle | hle
  · rwa [Prediction.evaluated, Int.max_eq_right hle]
  · rw [Prediction.evaluated, Int.max_eq_left hle]
    exact h.state

/-- A prediction can be stored after it has been cleared. -/
theorem IsStorable.cleared (h : p.IsStorable) : p.cleared.IsStorable where
  createdAt := h.createdAt
  postedAt := h.postedAt
  given c hc := by
    obtain ⟨d, hd, rfl⟩ := List.mem_map.1 hc
    exact ⟨(h.given d hd).fromTs, (h.given d hd).toTs, (by rfl : Decimal.fitsWord 0 = true), nofun⟩
  clauses := h.clauses
  state := by rfl

/-- **A run up to a second that fits a word keeps a prediction fit to be stored.** -/
theorem Runs.isStorable {now : Int} (h : Runs now p q) (hnow : Decimal.fitsWord now = true)
    (hp : p.IsStorable) : q.IsStorable := by
  induction h with
  | refl => exact hp
  | feed _ hf ih => exact ih.feed hnow hf
  | evaluate _ ih => exact ih.evaluated

/-! ### Numbers among operands -/

/-- The numbers among the operands of a prediction. -/
def numbers (p : Prediction) : List Price :=
  (p.given.map Condition.operands).flatten.flatMap Operand.prices

/-- A feeding leaves the numbers as they are. -/
theorem numbers_feed (p : Prediction) (f : Feeding) : (p.feed f).numbers = p.numbers := by
  rcases p.feed_cases f with hsame | ⟨c, d, hc, hd, hset⟩
  · rw [hsame]
  · obtain ⟨hlt, rfl⟩ := List.getElem?_eq_some_iff.1 hc
    have hoperands : d.operands = p.given[f.index].operands := by
      rw [(Condition.continues_of_feed hd).frame]
    have hplace : f.index < (p.given.map Condition.operands).length := by rwa [List.length_map]
    have hself := List.set_getElem_self hplace
    rw [List.getElem_map, ← hoperands, ← List.map_set] at hself
    rw [hset, numbers, setCondition, hself, numbers]

/-- Clearing leaves the numbers as they are. -/
theorem numbers_cleared (p : Prediction) : p.cleared.numbers = p.numbers := by
  rw [numbers, cleared, List.map_map]
  rfl

/-- A run leaves the numbers as they are. -/
theorem Runs.numbers_eq {now : Int} (h : Runs now p q) : q.numbers = p.numbers := by
  induction h with
  | refl => rfl
  | feed _ _ ih => rw [numbers_feed, ih]
  | evaluate _ ih => exact ih

end Prediction

/-! ### Prices that are fed -/

/-- Whether the prices of a condition that are no operands are finite: its error margin and those of
its ticks. -/
structure Condition.IsFinitelyFed (c : Condition Price) : Prop where
  margin : c.margin.isFinite = true
  ticks : ∀ t ∈ c.state.lastTicks.values, t.value.isFinite = true

/-- Ticks with finite prices keep a condition finitely fed. -/
theorem Condition.IsFinitelyFed.feed {c d : Condition Price} {z : TickSet Price}
    (h : c.IsFinitelyFed) (hz : ∀ t ∈ z.values, t.value.isFinite = true) (hfeed : c.feed z = .ok d) :
    d.IsFinitelyFed := by
  refine ⟨?_, ?_⟩
  · rw [(continues_of_feed hfeed).frame]
    exact h.margin
  · rcases state_of_feed hfeed with hstate | ⟨hticks, -⟩
    · rw [hstate]
      exact h.ticks
    · rw [hticks]
      exact hz

namespace Prediction

variable {p q : Prediction}

/-- The prices of a prediction are finite if its conditions are finitely fed and its numbers are
finite. -/
theorem isFinite_iff : (∀ x ∈ p.prices, x.isFinite = true) ↔
    (∀ c ∈ p.given, c.IsFinitelyFed) ∧ ∀ x ∈ p.numbers, x.isFinite = true := by
  have hcondition (c : Condition Price) : (∀ x ∈ c.prices, x.isFinite = true) ↔
      c.IsFinitelyFed ∧ ∀ o ∈ c.operands, ∀ x ∈ o.prices, x.isFinite = true := by
    rw [Condition.prices, List.forall_mem_append, List.forall_mem_cons, List.forall_mem_map,
      List.forall_mem_flatMap, and_comm]
    exact and_congr_left' ⟨fun h => ⟨h.1, h.2⟩, fun h => ⟨h.margin, h.ticks⟩⟩
  rw [prices, numbers, List.forall_mem_flatMap, List.forall_mem_flatMap, List.forall_mem_flatten,
    List.forall_mem_map]
  simp only [hcondition]
  exact ⟨fun h => ⟨fun c hc => (h c hc).1, fun c hc => (h c hc).2⟩,
    fun h c hc => ⟨h.1 c hc, h.2 c hc⟩⟩

/-- Feeding finite prices keeps a prediction finitely fed. -/
theorem isFinitelyFed_feed {f : Feeding} (hf : ∀ t ∈ f.ticks.values, t.value.isFinite = true)
    (h : ∀ c ∈ p.given, c.IsFinitelyFed) : ∀ c ∈ (p.feed f).given, c.IsFinitelyFed :=
  forall_given_feed (fun hc hd => Condition.IsFinitelyFed.feed hc hf hd) h

/-- Nothing has been fed to what is cleared. -/
theorem isFinitelyFed_cleared (h : ∀ c ∈ p.given, c.IsFinitelyFed) :
    ∀ c ∈ p.cleared.given, c.IsFinitelyFed :=
  List.forall_mem_map.2 fun c hc => ⟨(h c hc).margin, nofun⟩

end Prediction

namespace Session

/-- Whether all ticks that a stream holds ready have finite prices. -/
def HoldsFinite (stream : TickStream) : Prop :=
  ∀ t ∈ stream.buffer, t.value.isFinite = true

/-- **Conditions stay finitely fed in every session,** whatever its market delivers. -/
theorem keeper_isFinitelyFed (now : Int) :
    Keeper Condition.IsFinitelyFed HoldsFinite (·.value.isFinite = true) now where
  toKeeps := TickStream.keeps_prices fun _ h => h
  feed hc hz hfeed := hc.feed hz hfeed
  opened _ _ _ _ _ ht := absurd ht List.not_mem_nil

end Session

/-! ### Operations -/

/-- Whether what is given to an operation has a written form: seconds that fit a word, and ticks with
finite prices where they are fed by hand. Nothing is asked of a market. -/
def Operation.IsWritable : Operation → Prop
  | .feed f => ∀ t ∈ f.ticks.values, Decimal.fitsWord t.timestamp = true ∧ t.value.isFinite = true
  | .start _ now => Decimal.fitsWord now = true
  | _ => True

namespace Stage

/-- Whether a prediction is fit to be stored, but for its numbers, which are known, and its session
keeps it so. -/
structure IsWritable (numbers : List Price) (g : Stage) : Prop where
  storable : g.prediction.IsStorable
  fed : ∀ c ∈ g.prediction.given, c.IsFinitelyFed
  numbers : g.prediction.numbers = numbers
  session : ∀ s, g = .running s → Decimal.fitsWord s.now = true ∧ s.IsBounded ∧
    s.Upholds Condition.IsFinitelyFed Session.HoldsFinite

variable {numbers : List Price} {g : Stage} {p : Prediction}

/-- A prediction by itself is in no session. -/
theorem isWritable_idle (hstorable : p.IsStorable) (hfed : ∀ c ∈ p.given, c.IsFinitelyFed)
    (hnumbers : p.numbers = numbers) : (idle p).IsWritable numbers := by
  refine ⟨hstorable, hfed, hnumbers, ?_⟩
  rintro s ⟨⟩

/-- **Every operation keeps a stage writable.** -/
theorem IsWritable.perform (hg : g.IsWritable numbers) {op : Operation} (hop : op.IsWritable) :
    (g.perform op).IsWritable numbers := by
  cases op with
  | feed f =>
      have hword : Decimal.fitsWord 9223372036854775807 = true := by rfl
      have hupTo : f.IsUpTo 9223372036854775807 := fun t ht =>
        (Decimal.fitsWord_iff.1 (hop t ht).1).2
      exact isWritable_idle (hg.storable.feed hword hupTo)
        (Prediction.isFinitelyFed_feed (fun t ht => (hop t ht).2) hg.fed)
        ((g.prediction.numbers_feed f).trans hg.numbers)
  | evaluate => exact isWritable_idle hg.storable.evaluated hg.fed hg.numbers
  | findActionable => exact isWritable_idle hg.storable.evaluated hg.fed hg.numbers
  | clear =>
      exact isWritable_idle hg.storable.cleared (Prediction.isFinitelyFed_cleared hg.fed)
        (g.prediction.numbers_cleared.trans hg.numbers)
  | start m now =>
      rw [Stage.perform]
      cases hstart : Session.start m g.prediction now with
      | error e => exact isWritable_idle hg.storable hg.fed hg.numbers
      | ok s =>
          have hs := Session.start_eq_ok hstart
          have hprediction : s.prediction = g.prediction := by rw [hs]
          refine ⟨?_, ?_, ?_, ?_⟩
          · exact hprediction ▸ hg.storable
          · exact hprediction ▸ hg.fed
          · exact hprediction ▸ hg.numbers
          · rintro _ ⟨⟩
            refine ⟨?_, Session.isBounded_start hstart, Session.upholds_of_start hg.fed hstart⟩
            rw [hs]
            exact hop
  | pass m =>
      cases g with
      | idle p => exact hg
      | running s =>
          obtain ⟨hnow, hbounded, hupholds⟩ := hg.session s rfl
          have hadvances := Session.pass_advances m hbounded
          have hpass := hupholds.pass (m := m) (Session.keeper_isFinitelyFed s.now)
          refine ⟨hadvances.runs.isStorable hnow hg.storable, hpass.given,
            hadvances.runs.numbers_eq.trans hg.numbers, ?_⟩
          rintro _ ⟨⟩
          refine ⟨?_, hadvances.bounded, hpass⟩
          rw [hadvances.now]
          exact hnow

/-- **Operations keep a stage writable.** -/
theorem IsWritable.performAll (hg : g.IsWritable numbers) {ops : List Operation}
    (hops : ∀ op ∈ ops, op.IsWritable) : (g.performAll ops).IsWritable numbers := by
  induction ops generalizing g with
  | nil => exact hg
  | cons op ops ih =>
      obtain ⟨hop, hops⟩ := List.forall_mem_cons.1 hops
      exact ih (hg.perform hop) hops

end Stage

end Forecast
