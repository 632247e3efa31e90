import Mathlib.Algebra.Order.Ring.Rat
import Forecast.Proofs.Condition.Verdict

/-!
# A Wider Margin Only Helps

An error margin lowers the thresholds that are to be reached and raises those that are not to be
passed. So over exact fractions, whatever a comparison holds of it holds of with a wider margin too
(`holds_mono`), for thresholds of either sign and however the ends of a range are written.

This is about one set of ticks. Two conditions that differ in their margins only may well come
apart when they are fed: the one with the wider margin may be settled first, and it is deaf from
then on, while the other goes on, and the two then refuse different sets. What relates them all
along is `IsAheadOf`: either both have seen the same, or the one with the wider margin holds since a
time that is no later than the last that the other has seen. Every set keeps this
(`IsAheadOf.offer`), and it says all that there is to say of their ends.

Over the numbers of candles products and sums are rounded, and the law is not claimed there.

## Main results

* `wider_margin`: with a wider margin a condition holds no later, and fails only if it does anyway.
-/

namespace Forecast

namespace Comparison

/-! ### Thresholds -/

/-- A wider margin lowers a threshold further. -/
theorem lowered_anti (t : Rat) {r r' : Rat} (h : r ≤ r') : lowered t r' ≤ lowered t r := by
  have hshift : t.abs * r ≤ t.abs * r' := mul_le_mul_of_nonneg_left h Rat.abs_nonneg
  exact sub_le_sub_left hshift t

/-- A wider margin raises a threshold further. -/
theorem raised_mono (t : Rat) {r r' : Rat} (h : r ≤ r') : raised t r ≤ raised t r' := by
  have hshift : t.abs * r ≤ t.abs * r' := mul_le_mul_of_nonneg_left h Rat.abs_nonneg
  exact add_le_add_right hshift t

/-- What reaches a threshold reaches it with a wider margin. -/
theorem reaches_mono {v t r r' : Rat} (h : r ≤ r') (hv : reaches v t r = true) :
    reaches v t r' = true := by
  have hle : lowered t r - Quantity.tolerance ≤ v := of_decide_eq_true hv
  have hlower := sub_le_sub_right (lowered_anti t h) Quantity.tolerance
  exact decide_eq_true (hlower.trans hle)

/-- What stays within a threshold stays within it with a wider margin. -/
theorem staysWithin_mono {v t r r' : Rat} (h : r ≤ r') (hv : staysWithin v t r = true) :
    staysWithin v t r' = true := by
  have hle : v ≤ raised t r + Quantity.tolerance := of_decide_eq_true hv
  have hraise := add_le_add_left (raised_mono t h) Quantity.tolerance
  exact decide_eq_true (hle.trans hraise)

/-- **A comparison that holds, holds with a wider margin.** -/
theorem holds_mono {r r' : Rat} (h : r ≤ r') (comparison : Comparison) {vs : List Rat}
    (hvs : comparison.holds r vs = true) : comparison.holds r' vs = true := by
  rcases vs with _ | ⟨v, _ | ⟨t, ws⟩⟩
  · cases comparison <;> cases hvs
  · cases comparison <;> cases hvs
  · cases comparison with
    | above =>
        have hlt : lowered t r < v := of_decide_eq_true hvs
        exact decide_eq_true ((lowered_anti t h).trans_lt hlt)
    | below =>
        have hlt : v < raised t r := of_decide_eq_true hvs
        exact decide_eq_true (hlt.trans_le (raised_mono t h))
    | atLeast => exact reaches_mono h hvs
    | atMost => exact staysWithin_mono h hvs
    | equal =>
        rw [holds, Bool.and_eq_true] at hvs ⊢
        exact ⟨reaches_mono h hvs.1, staysWithin_mono h hvs.2⟩
    | between =>
        -- which end of the range is the lower one does not depend on the margin
        cases ws with
        | nil => cases hvs
        | cons u ws =>
            simp only [holds, Bool.and_eq_true] at hvs ⊢
            exact ⟨reaches_mono h hvs.1, staysWithin_mono h hvs.2⟩

end Comparison

namespace Condition

/-- What an offer makes of a condition is a later stage of it. -/
theorem continues_offer {α : Type} [Quantity α] (c : Condition α) (z : TickSet α) :
    c.Continues (c.offer z) := by
  rw [offer]
  cases hfeed : c.feed z with
  | error e => exact .refl c
  | ok d => exact continues_of_feed hfeed

/-! ### One set of ticks -/

/-- A condition that holds at a set of ticks holds there with a wider margin. -/
theorem holdsAt_withMargin {c : Condition Rat} {r : Rat} (h : c.margin ≤ r) {z : TickSet Rat}
    (hz : c.holdsAt z = true) : holdsAt { c with margin := r } z = true := by
  rw [holdsAt] at hz ⊢
  dsimp only
  cases hvalues : c.operands.mapM (resolve z) with
  | none =>
      rw [hvalues] at hz
      cases hz
  | some vs =>
      rw [hvalues] at hz
      exact Comparison.holds_mono h c.comparison hz

/-- Whether a condition holds since a time that is no later than the last that another has seen. -/
def HoldsSince (d c : Condition Rat) : Prop :=
  d.isFinished = true ∧ d.value = .yes ∧ d.state.lastTs ≤ c.state.lastTs

/-- An open condition advances at a set of ticks as one with another margin does, or the one with the
wider margin holds from then on. -/
theorem advance_withMargin {c : Condition Rat} {r : Rat} (h : c.margin ≤ r) {ts : Int}
    (hfrom : c.fromTs ≤ ts) (z : TickSet Rat) :
    advance { c with margin := r } ts z = c.advance ts z ∨
      advance { c with margin := r } ts z = ⟨.finished, ts, z, .yes⟩ ∧
        (c.advance ts z).lastTs = ts := by
  have hafter : ¬ ts < c.fromTs := Int.not_lt.2 hfrom
  simp only [advance, if_neg hafter]
  by_cases hbehind : c.toTs < ts
  · simp only [if_pos hbehind, true_or]
  · simp only [if_neg hbehind]
    by_cases hwide : holdsAt { c with margin := r } z = true
    · right
      rw [if_pos hwide]
      exact ⟨rfl, by split <;> rfl⟩
    · have hnarrow : ¬ c.holdsAt z = true := fun hz => hwide (holdsAt_withMargin h hz)
      left
      rw [if_neg hwide, if_neg hnarrow]

/-- A set of ticks makes the same of two conditions that differ in their margins only, or the one with
the wider margin holds from then on. -/
theorem offer_withMargin {c : Condition Rat} {r : Rat} (h : c.margin ≤ r) (z : TickSet Rat) :
    (offer { c with margin := r } z).state = (c.offer z).state ∨
      (offer { c with margin := r } z).HoldsSince (c.offer z) := by
  cases hfin : c.isFinished with
  | true =>
      left
      rw [(continues_offer c z).finished hfin,
        (continues_offer { c with margin := r } z).finished hfin]
  | false =>
      by_cases hcounts : ∃ ts, c.wholeAt? z = some ts ∧ max c.fromTs c.state.lastTs ≤ ts
      · obtain ⟨ts, hts, hle⟩ := hcounts
        rw [offer_of_counts hfin hts hle, offer_of_counts (c := { c with margin := r }) hfin hts hle]
        rcases advance_withMargin h (by omega : c.fromTs ≤ ts) z with hsame | ⟨hyes, hlast⟩
        · exact Or.inl hsame
        · right
          rw [hyes]
          exact ⟨rfl, rfl, Int.le_of_eq hlast.symm⟩
      · have hnot : ∀ ts, c.wholeAt? z = some ts → ts < max c.fromTs c.state.lastTs :=
          fun ts hts => Int.not_le.1 fun hle => hcounts ⟨ts, hts, hle⟩
        left
        rw [offer_of_not_counts hnot, offer_of_not_counts (c := { c with margin := r }) hnot]

/-! ### A list of sets -/

/-- Whether a condition differs from another by a wider margin, and has seen the same or holds since a
time that is no later than the last that the other has seen. -/
structure IsAheadOf (d c : Condition Rat) : Prop where
  frame : d = { c with margin := d.margin, state := d.state }
  margin : c.margin ≤ d.margin
  state : d.state = c.state ∨ d.HoldsSince c

/-- **A set of ticks keeps the condition with the wider margin ahead.** -/
theorem IsAheadOf.offer {d c : Condition Rat} (h : d.IsAheadOf c) (z : TickSet Rat) :
    (d.offer z).IsAheadOf (c.offer z) := by
  have hd := continues_offer d z
  have hc := continues_offer c z
  have hframe : d.offer z =
      { c.offer z with margin := (d.offer z).margin, state := (d.offer z).state } := by
    calc d.offer z = { d with state := (d.offer z).state } := hd.frame
      _ = { c with margin := d.margin, state := (d.offer z).state } := by rw [h.frame]
      _ = { c.offer z with margin := (d.offer z).margin, state := (d.offer z).state } := by
          rw [hd.frame, hc.frame]
  refine ⟨hframe, ?_, ?_⟩
  · rw [hd.frame, hc.frame]
    exact h.margin
  · rcases h.state with hsame | ⟨hfin, hyes, hle⟩
    · have hwide : d = { c with margin := d.margin } := by
        rw [← hsame]
        exact h.frame
      rw [hwide]
      exact offer_withMargin h.margin z
    · right
      rw [hd.finished hfin]
      exact ⟨hfin, hyes, Int.le_trans hle hc.lastTs⟩

/-- A list of sets keeps the condition with the wider margin ahead. -/
theorem IsAheadOf.offerAll {d c : Condition Rat} (h : d.IsAheadOf c) (zs : List (TickSet Rat)) :
    (d.offerAll zs).IsAheadOf (c.offerAll zs) := by
  induction zs generalizing d c with
  | nil => exact h
  | cons z zs ih => exact ih (h.offer z)

/-- **A wider margin only helps.** Let two fresh conditions differ in their margins only, and let them be
offered the same sets of ticks, over exact fractions. If the one with the narrower margin holds in the
end, so does the other, and it has seen nothing later. The one with the wider margin fails only if the
other does. -/
theorem wider_margin {r r' : Rat} (h : r ≤ r') (name : String) (comparison : Comparison)
    (operands : List (Operand Rat)) (fromTs toTs : Int) (zs : List (TickSet Rat)) :
    (((fresh name comparison operands fromTs toTs r).offerAll zs).value = .yes →
        ((fresh name comparison operands fromTs toTs r').offerAll zs).value = .yes ∧
          ((fresh name comparison operands fromTs toTs r').offerAll zs).state.lastTs ≤
            ((fresh name comparison operands fromTs toTs r).offerAll zs).state.lastTs) ∧
      (((fresh name comparison operands fromTs toTs r').offerAll zs).value = .no →
        ((fresh name comparison operands fromTs toTs r).offerAll zs).value = .no) := by
  have hstart : (fresh name comparison operands fromTs toTs r').IsAheadOf
      (fresh name comparison operands fromTs toTs r) := ⟨rfl, h, Or.inl rfl⟩
  rcases (hstart.offerAll zs).state with hsame | ⟨-, hyes, hle⟩
  · simp only [value, hsame]
    exact ⟨fun hvalue => ⟨hvalue, Int.le_refl _⟩, id⟩
  · refine ⟨fun _ => ⟨hyes, hle⟩, fun hno => ?_⟩
    rw [hyes] at hno
    cases hno

/-- A condition that a coin stays between a level below zero and the price of another coin. -/
def corridor (margin : Rat) : Condition Rat :=
  .fresh "corridor" .between
    [.market (.coin "BINANCE" "BTC" "USDT"), .number (-5), .market (.coin "BINANCE" "ETH" "USDT")]
    0 100 margin

/-- A tick of both coins, of which the second is at -10. -/
def pairAt (timestamp : Int) (value : Rat) : TickSet Rat :=
  .ofList [("COIN:BINANCE:BTC-USDT", ⟨timestamp, value⟩),
    ("COIN:BINANCE:ETH-USDT", ⟨timestamp, -10⟩)]

/-- At first the coin is below the corridor, by less than a tenth of its lower end. -/
def entering : List (TickSet Rat) :=
  [pairAt 10 (-21 / 2), pairAt 5 (-7), pairAt 20 (-7)]

/-- With a margin of a tenth the corridor is entered ten seconds earlier, and it fails where it does
without one. -/
theorem wider_margin_corridor :
    (0 : Rat) ≤ 1 / 10 ∧
      ((corridor 0).offerAll entering).value = .yes ∧
      ((corridor 0).offerAll entering).state.lastTs = 20 ∧
      ((corridor (1 / 10)).offerAll entering).value = .yes ∧
      ((corridor (1 / 10)).offerAll entering).state.lastTs = 10 ∧
      ((corridor (1 / 10)).offerAll [pairAt 10 (-12), pairAt 101 (-7)]).value = .no ∧
      ((corridor 0).offerAll [pairAt 10 (-12), pairAt 101 (-7)]).value = .no := by
  have hmargin : (0 : Rat) ≤ 1 / 10 := by decide +kernel
  have hwider := wider_margin hmargin "corridor" .between (corridor 0).operands 0 100
  have hyes : ((corridor 0).offerAll entering).value = .yes := by decide +kernel
  have hno : ((corridor (1 / 10)).offerAll [pairAt 10 (-12), pairAt 101 (-7)]).value = .no := by
    decide +kernel
  exact ⟨hmargin, hyes, by decide +kernel, ((hwider entering).1 hyes).1, by decide +kernel, hno,
    (hwider _).2 hno⟩

end Condition

end Forecast
