import Forecast.Proofs.Condition.Series
import Forecast.Proofs.Prediction.Actionable

/-!
# Conditions That Are Fed in Order

If some conditions are fed one series, all of them the same sets in turn, then what they come to
depends on the series only. A test that reads no other conditions, such as whether a phase is
settled, passes after some first part of the series or not at all (`EndsAlong`). If the two phases
of a prediction mention different conditions, this makes an order of the whole: one series until
the first phase is settled, and then another until the second is (`EndsInOrder`). There is but one
outcome to which this can lead.

## Main results

* `EndsAlong.given_eq`: there is one end along a series.
* `EndsAlong.append`: a series may be fed in parts.
* `EndsInOrder.outcome_eq`: there is one outcome in order.
-/

namespace Forecast

namespace Prediction

variable {p q q' r : Prediction} {is : List Nat} {zs ws : List (TickSet Price)}

/-! ### Feeding a series to some conditions -/

/-- Whether the conditions at some positions have been fed a series, in between two stages of a
prediction. -/
def Fed (is : List Nat) (zs : List (TickSet Price)) (p q : Prediction) : Prop :=
  ∀ i ∈ is, Option.Rel (fun c d => c.feedEach zs = .ok d) p.given[i]? q.given[i]?

/-- To be fed nothing is to stay the same. -/
theorem fed_nil_iff : Fed is [] p q ↔ ∀ i ∈ is, q.given[i]? = p.given[i]? := by
  refine forall₂_congr fun i _ => ?_
  generalize p.given[i]? = x
  generalize q.given[i]? = y
  constructor
  · intro h
    cases h with
    | none => rfl
    | some hcd =>
        cases hcd
        rfl
  · rintro rfl
    cases y with
    | none => exact .none
    | some c => exact .some rfl

/-- A prediction can be fed nothing. -/
theorem Fed.refl (is : List Nat) (p : Prediction) : Fed is [] p p :=
  fed_nil_iff.2 fun _ _ => rfl

/-- One series after the other is a longer series. -/
theorem Fed.trans (hpq : Fed is zs p q) (hqr : Fed is ws q r) : Fed is (zs ++ ws) p r := by
  intro i hi
  have hfirst := hpq i hi
  have hrest := hqr i hi
  generalize p.given[i]? = x at hfirst ⊢
  generalize q.given[i]? = y at hfirst hrest
  generalize r.given[i]? = z at hrest ⊢
  cases hfirst with
  | none =>
      cases hrest
      exact .none
  | some hcd =>
      cases hrest with
      | some hde => exact .some (Condition.feedEach_append_eq_ok_iff.2 ⟨_, hcd, hde⟩)

/-- What a longer series leads to is led to by its second part from where its first part leads. -/
theorem Fed.of_append (hpq : Fed is zs p q) (hpr : Fed is (zs ++ ws) p r) : Fed is ws q r := by
  intro i hi
  have hfirst := hpq i hi
  have hall := hpr i hi
  generalize p.given[i]? = x at hfirst hall
  generalize q.given[i]? = y at hfirst ⊢
  generalize r.given[i]? = z at hall ⊢
  cases hfirst with
  | none =>
      cases hall
      exact .none
  | some hcd =>
      cases hall with
      | some hce =>
          obtain ⟨d, hd, hde⟩ := Condition.feedEach_append_eq_ok_iff.1 hce
          rw [hcd] at hd
          cases hd
          exact .some hde

/-- A series leads to one stage only of the conditions that are fed. -/
theorem Fed.given_eq (hq : Fed is zs p q) (hq' : Fed is zs p q') :
    ∀ i ∈ is, q'.given[i]? = q.given[i]? :=
  fed_nil_iff.1 (hq.of_append ((List.append_nil zs).symm ▸ hq'))

/-- Conditions that are the same have the same values. -/
theorem valueAt_congr (h : ∀ i ∈ is, q.given[i]? = p.given[i]?) :
    ∀ i ∈ is, q.valueAt i = p.valueAt i := fun i hi => by
  rw [valueAt, valueAt, h i hi]

/-! ### Up to a test -/

/-- Whether a test of values reads them at some positions only. -/
def Reads (is : List Nat) (stop : (Nat → Option Trilean) → Bool) : Prop :=
  ∀ v w : Nat → Option Trilean, (∀ i ∈ is, v i = w i) → stop v = stop w

/-- Whether the conditions at some positions have been fed a series up to where a test passes first,
or else all of it. -/
def EndsAlong (is : List Nat) (stop : (Nat → Option Trilean) → Bool) (zs : List (TickSet Price))
    (p q : Prediction) : Prop :=
  ∃ count ≤ zs.length, Fed is (zs.take count) p q ∧
    (stop q.valueAt = true ∨ count = zs.length) ∧
    ∀ n < count, ∀ q', Fed is (zs.take n) p q' → stop q'.valueAt = false

variable {stop : (Nat → Option Trilean) → Bool}

/-- What has been fed nothing is tested as before. -/
theorem Fed.stop_eq (hreads : Reads is stop) (h : Fed is [] p q) :
    stop q.valueAt = stop p.valueAt :=
  hreads _ _ (valueAt_congr (fed_nil_iff.1 h))

/-- Where the test passes, or nothing is left of the series, nothing is fed. -/
theorem EndsAlong.refl (p : Prediction) (h : stop p.valueAt = true ∨ zs = []) :
    EndsAlong is stop zs p p :=
  ⟨0, Nat.zero_le _, .refl is p, h.imp_right fun hnil => by rw [hnil]; rfl,
    fun n hn => absurd hn (Nat.not_lt_zero n)⟩

/-- **There is one end along a series,** as far as the conditions go that are fed. -/
theorem EndsAlong.given_eq (hq : EndsAlong is stop zs p q) (hr : EndsAlong is stop zs p r) :
    ∀ i ∈ is, r.given[i]? = q.given[i]? := by
  obtain ⟨n, hn, hfed, hstop, hbefore⟩ := hq
  obtain ⟨k, hk, hfed', hstop', hbefore'⟩ := hr
  obtain hlt | rfl | hlt := Nat.lt_trichotomy n k
  · have := hbefore' n hlt q hfed
    rcases hstop with hstop | rfl
    · rw [hstop] at this
      cases this
    · omega
  · exact hfed.given_eq hfed'
  · have := hbefore k hlt r hfed'
    rcases hstop' with hstop' | rfl
    · rw [hstop'] at this
      cases this
    · omega

/-- **A series may be fed in parts:** a first one without the test passing before its end, and then
the rest up to where it passes. -/
theorem EndsAlong.append (hfed : Fed is zs p q)
    (hbefore : ∀ n < zs.length, ∀ q', Fed is (zs.take n) p q' → stop q'.valueAt = false)
    (h : EndsAlong is stop ws q r) : EndsAlong is stop (zs ++ ws) p r := by
  obtain ⟨count, hcount, hrest, hstop, hbefore'⟩ := h
  refine ⟨zs.length + count, ?_, ?_, hstop.imp_right fun hall => ?_, fun n hn q' hq' => ?_⟩
  · rw [List.length_append]
    omega
  · rw [List.take_length_add_append]
    exact hfed.trans hrest
  · rw [hall, List.length_append]
  · by_cases hlt : n < zs.length
    · rw [List.take_append_of_le_length (Nat.le_of_lt hlt)] at hq'
      exact hbefore n hlt q' hq'
    · obtain ⟨k, rfl⟩ := Nat.exists_eq_add_of_le (Nat.le_of_not_lt hlt)
      rw [List.take_length_add_append] at hq'
      exact hbefore' k (by omega) q' (hfed.of_append hq')

/-- What has been fed nothing has the same ends. -/
theorem EndsAlong.of_fed_nil (hfed : Fed is [] p q) (h : EndsAlong is stop zs q r) :
    EndsAlong is stop zs p r :=
  .append hfed (fun n hn => absurd hn (Nat.not_lt_zero n)) h

/-- Where the test does not pass, the first set is fed. -/
theorem EndsAlong.of_fed_one (hreads : Reads is stop) (hopen : stop p.valueAt = false)
    (hfed : Fed is (zs.take 1) p q) (h : EndsAlong is stop zs.tail q r) :
    EndsAlong is stop zs p r := by
  cases zs with
  | nil => exact h.of_fed_nil hfed
  | cons z zs =>
      have hbefore : ∀ n < [z].length, ∀ q', Fed is ([z].take n) p q' →
          stop q'.valueAt = false := by
        intro n hn q' hq'
        obtain rfl : n = 0 := by simpa using hn
        rw [Fed.stop_eq hreads hq', hopen]
      exact .append hfed hbefore h

/-- Where the test passes, nothing more is fed. -/
theorem EndsAlong.fed_nil (h : EndsAlong is stop zs q r) (hstop : stop q.valueAt = true) :
    Fed is [] q r := by
  obtain ⟨count, -, hfed, -, hbefore⟩ := h
  obtain rfl : count = 0 := by
    by_contra hne
    have := hbefore 0 (Nat.pos_of_ne_zero hne) q (.refl is q)
    rw [hstop] at this
    cases this
  exact hfed

/-- A set that changes nothing may be left out at the beginning, if the test does not pass. -/
theorem EndsAlong.tail {z : TickSet Price} (hreads : Reads is stop) (hidle : Fed is [z] q q)
    (hopen : stop q.valueAt = false) (h : EndsAlong is stop (z :: zs) q r) :
    EndsAlong is stop zs q r := by
  obtain ⟨count, hcount, hfed, hstop, hbefore⟩ := h
  cases count with
  | zero =>
      rw [Fed.stop_eq hreads hfed, hopen] at hstop
      rcases hstop with hstop | hstop <;> cases hstop
  | succ count =>
      refine ⟨count, Nat.le_of_succ_le_succ hcount, hidle.of_append hfed,
        hstop.imp_right Nat.succ.inj, fun n hn q' hq' => ?_⟩
      exact hbefore (n + 1) (Nat.succ_lt_succ hn) q' (hidle.trans hq')

/-- Where the test has passed, a longer series makes no difference. -/
theorem EndsAlong.later (h : EndsAlong is stop zs p q) (hstop : stop q.valueAt = true)
    (hzs : zs <+: ws) : EndsAlong is stop ws p q := by
  obtain ⟨rest, rfl⟩ := hzs
  obtain ⟨count, hcount, hfed, -, hbefore⟩ := h
  have htake {n : Nat} (hn : n ≤ zs.length) : (zs ++ rest).take n = zs.take n :=
    List.take_append_of_le_length hn
  refine ⟨count, ?_, (htake hcount).symm ▸ hfed, Or.inl hstop, fun n hn q' hq' => ?_⟩
  · rw [List.length_append]
    omega
  · rw [htake (by omega)] at hq'
    exact hbefore n hn q' hq'

/-- Only the conditions that are fed count at an end. -/
theorem EndsAlong.fed_nil_right (hreads : Reads is stop) (h : EndsAlong is stop zs p q)
    (hfed : Fed is [] q r) : EndsAlong is stop zs p r := by
  obtain ⟨count, hcount, hseries, hstop, hbefore⟩ := h
  refine ⟨count, hcount, ?_, ?_, hbefore⟩
  · have hall := hseries.trans hfed
    rwa [List.append_nil] at hall
  · rwa [Fed.stop_eq hreads hfed]

/-! ### One phase after the other -/

variable {pre : PrePhase} {main : MainPhase}

/-- Whether values settle a first phase. -/
def preSettles (pre : PrePhase) (v : Nat → Option Trilean) : Bool :=
  pre.evaluate v != .waiting

/-- Whether values settle a second phase. -/
def mainSettles (main : MainPhase) (v : Nat → Option Trilean) : Bool :=
  (main.evaluate v).isFinal

/-- A first phase is settled by the conditions that it mentions. -/
theorem reads_preSettles (pre : PrePhase) : Reads (mentioned pre.clauses) (preSettles pre) :=
  fun v w h => by rw [preSettles, preSettles, PrePhase.evaluate_congr h]

/-- A second phase is settled by the conditions that it mentions. -/
theorem reads_mainSettles (main : MainPhase) : Reads (mentioned main.clauses) (mainSettles main) :=
  fun v w h => by rw [mainSettles, mainSettles, MainPhase.evaluate_congr h]

/-- A first phase without clauses mentions nothing. -/
theorem mentioned_of_isEmpty {pre : PrePhase} (h : pre.isEmpty = true) :
    mentioned pre.clauses = [] := by
  simp only [PrePhase.isEmpty, Bool.and_eq_true, Option.isNone_iff_eq_none] at h
  obtain ⟨⟨hwrong, hannulled⟩, hpredict⟩ := h
  rw [PrePhase.clauses, hwrong, hannulled, hpredict]
  rfl

/-- Conditions of the first phase that have been fed nothing give it the same outcome. -/
theorem Fed.pre_eq (h : Fed (mentioned pre.clauses) [] p q) :
    pre.evaluate q.valueAt = pre.evaluate p.valueAt :=
  PrePhase.evaluate_congr (valueAt_congr (fed_nil_iff.1 h))

/-- Conditions of the second phase that have been fed nothing give it the same outcome. -/
theorem Fed.main_eq (h : Fed (mentioned main.clauses) [] p q) :
    main.evaluate q.valueAt = main.evaluate p.valueAt :=
  MainPhase.evaluate_congr (valueAt_congr (fed_nil_iff.1 h))

/-- Whether the conditions of a first phase have been fed one series until it was settled, and then,
if it was passed, those of a second phase another, and no others anything. -/
structure EndsInOrder (pre : PrePhase) (main : MainPhase) (zs ws : List (TickSet Price))
    (p q : Prediction) : Prop where
  first : EndsAlong (mentioned pre.clauses) (preSettles pre) zs p q
  second : pre.evaluate q.valueAt = .running →
    EndsAlong (mentioned main.clauses) (mainSettles main) ws p q
  unbegun : pre.evaluate q.valueAt ≠ .running → Fed (mentioned main.clauses) [] p q
  others : ∀ i ∉ mentioned pre.clauses, i ∉ mentioned main.clauses → q.given[i]? = p.given[i]?

/-- **There is one outcome in order.** -/
theorem EndsInOrder.outcome_eq (hq : EndsInOrder pre main zs ws p q)
    (hr : EndsInOrder pre main zs ws p r) (hqpre : q.pre = pre) (hqmain : q.main = main)
    (hrpre : r.pre = pre) (hrmain : r.main = main) : q.outcome = r.outcome := by
  have hsame : pre.evaluate r.valueAt = pre.evaluate q.valueAt :=
    Fed.pre_eq (fed_nil_iff.2 (hq.first.given_eq hr.first))
  by_cases hrun : pre.evaluate q.valueAt = .running
  · have hrun' := hsame.trans hrun
    rw [outcome_of_running (hqpre.symm ▸ hrun), outcome_of_running (hrpre.symm ▸ hrun'), hqmain,
      hrmain]
    exact (Fed.main_eq (fed_nil_iff.2 ((hq.second hrun).given_eq (hr.second hrun')))).symm
  · rw [outcome_of_ne_running (hqpre.symm ▸ hrun),
      outcome_of_ne_running (hrpre.symm ▸ hsame ▸ hrun), hqpre, hrpre, hsame]

/-- Where nothing is left to feed, or needed, a prediction is at its end. -/
theorem EndsInOrder.refl (p : Prediction) (hzs : pre.evaluate p.valueAt = .waiting → zs = [])
    (hws : pre.evaluate p.valueAt = .running →
      (main.evaluate p.valueAt).isFinal = true ∨ ws = []) :
    EndsInOrder pre main zs ws p p where
  first := by
    refine .refl p ?_
    by_cases hwait : pre.evaluate p.valueAt = .waiting
    · exact Or.inr (hzs hwait)
    · exact Or.inl (bne_iff_ne.2 hwait)
  second hrun := .refl p (hws hrun)
  unbegun _ := .refl _ p
  others _ _ _ := rfl

/-- While the first phase waits, its conditions are fed. -/
theorem EndsInOrder.of_waiting (hwait : pre.evaluate p.valueAt = .waiting)
    (hpre : Fed (mentioned pre.clauses) (zs.take 1) p q)
    (hmain : Fed (mentioned main.clauses) [] p q)
    (hothers : ∀ i ∉ mentioned pre.clauses, i ∉ mentioned main.clauses →
      q.given[i]? = p.given[i]?)
    (h : EndsInOrder pre main zs.tail ws q r) : EndsInOrder pre main zs ws p r where
  first := h.first.of_fed_one (reads_preSettles pre) (by rw [preSettles, hwait]; rfl) hpre
  second hrun := (h.second hrun).of_fed_nil hmain
  unbegun hne := hmain.trans (h.unbegun hne)
  others i hi hi' := (h.others i hi hi').trans (hothers i hi hi')

/-- When the first phase is passed and the second is not settled, its conditions are fed. -/
theorem EndsInOrder.of_running (hrun : pre.evaluate p.valueAt = .running)
    (hopen : (main.evaluate p.valueAt).isFinal = false)
    (hpre : Fed (mentioned pre.clauses) [] p q)
    (hmain : Fed (mentioned main.clauses) (ws.take 1) p q)
    (hothers : ∀ i ∉ mentioned pre.clauses, i ∉ mentioned main.clauses →
      q.given[i]? = p.given[i]?)
    (h : EndsInOrder pre main zs ws.tail q r) : EndsInOrder pre main zs ws p r where
  first := h.first.of_fed_nil hpre
  second hrun' := (h.second hrun').of_fed_one (reads_mainSettles main) hopen hmain
  unbegun hne := by
    have hstop : preSettles pre q.valueAt = true := by
      rw [preSettles, hpre.pre_eq, hrun]
      rfl
    rw [Fed.pre_eq (h.first.fed_nil hstop), hpre.pre_eq, hrun] at hne
    exact absurd rfl hne
  others i hi hi' := (h.others i hi hi').trans (hothers i hi hi')

/-- When a prediction is final, nothing is fed. -/
theorem EndsInOrder.of_isFinal (hfinal : p.outcome.isFinal = true) :
    EndsInOrder p.pre p.main zs ws p p := by
  refine .refl p (fun hwait => ?_) fun hrun => Or.inl ?_
  · rw [outcome_eq_waiting_iff.2 hwait] at hfinal
    cases hfinal
  · rwa [← outcome_of_running hrun]

end Prediction

end Forecast
