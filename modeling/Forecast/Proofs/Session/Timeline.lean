import Forecast.Proofs.Session.Lockstep
import Forecast.Proofs.Session.Resumption

/-!
# Predictions That Follow One Timeline

In general a session feeds the conditions of a prediction in an order that depends on their windows,
and a later session that resumes does so in another. This makes no difference if the two phases
mention different conditions and all conditions of a phase quote the same instruments from the same
second on (`Prediction.IsAligned`). Then each phase follows one series of ticks. A session ends in
order along the two series up to its second (`Session.EndsOnTime`), and if another one resumes
there, the two together have ended in order along the two series up to the later second.

## Main results

* `endsOnTime_of_drain`: what a first session comes to.
* `EndsOnTime.resume`: what a session comes to that resumes.
-/

namespace Forecast

namespace Prediction

/-- Whether the conditions at some positions quote the same instruments from the same second on. -/
def QuotesAlike (is : List Nat) (p : Prediction) : Prop :=
  ∀ i ∈ is, ∀ j ∈ is, ∀ c d, p.given[i]? = some c → p.given[j]? = some d →
    c.instruments = d.instruments ∧ c.fromTs = d.fromTs

/-- Whether the phases of a prediction mention different conditions, and those of each phase quote
the same instruments from the same second on. -/
structure IsAligned (p : Prediction) : Prop where
  apart : ∀ i ∈ mentioned p.pre.clauses, i ∉ mentioned p.main.clauses
  pre : QuotesAlike (mentioned p.pre.clauses) p
  main : QuotesAlike (mentioned p.main.clauses) p

/-- Without preconditions it is enough that all conditions quote the same. -/
theorem isAligned_of_forall {p : Prediction} {quoted : List Instrument} {start : Int}
    (hpre : p.pre.isEmpty = true) (h : ∀ c ∈ p.given, c.instruments = quoted ∧ c.fromTs = start) :
    p.IsAligned := by
  have halike (is : List Nat) : QuotesAlike is p := by
    intro i _ j _ c d hc hd
    obtain ⟨hinstruments, hfrom⟩ := h c (List.mem_of_getElem? hc)
    obtain ⟨hinstruments', hfrom'⟩ := h d (List.mem_of_getElem? hd)
    exact ⟨hinstruments.trans hinstruments'.symm, hfrom.trans hfrom'.symm⟩
  refine ⟨?_, halike _, halike _⟩
  rw [mentioned_of_isEmpty hpre]
  exact fun i hi => absurd hi List.not_mem_nil

end Prediction

namespace Session

open Prediction (Fed EndsAlong EndsInOrder Reads fed_nil_iff)

variable {m : Market} {chart : String → List Candle} {now now' : Int} {p q r : Prediction}
  {is : List Nat} {zs zs' : List (TickSet Price)}

/-! ### One series -/

/-- Whether a series lies before each condition at some positions, in a session up to a second. -/
def LiesBefore (m : Market) (chart : String → List Candle) (now : Int) (is : List Nat)
    (zs : List (TickSet Price)) (p : Prediction) : Prop :=
  ∀ i ∈ is, ∀ c, p.given[i]? = some c → supplyOf m chart now c = zs

/-- A series that lies before some conditions is one that the open ones share. -/
theorem LiesBefore.shares (h : LiesBefore m chart now is zs p) :
    Shares (suppliesOf m chart now p) is zs p :=
  fun i hi c hc _ => (suppliesOf_eq hc).trans (h i hi c hc)

/-- What lies before conditions lies before them when they have been fed nothing. -/
theorem LiesBefore.of_fed_nil (h : LiesBefore m chart now is zs p) (hfed : Fed is [] p q) :
    LiesBefore m chart now is zs q :=
  fun i hi c hc => h i hi c ((fed_nil_iff.1 hfed i hi).symm.trans hc)

/-- The first condition at some positions. -/
def firstOf (is : List Nat) (p : Prediction) : Option (Condition Price) :=
  is.findSome? (p.given[·]?)

/-- What lies before the first condition at some positions, if there is one. -/
def seriesOf (m : Market) (chart : String → List Candle) (now : Int) (is : List Nat)
    (p : Prediction) : List (TickSet Price) :=
  ((firstOf is p).map (supplyOf m chart now)).getD []

/-- What lies before conditions up to a later second begins with what lies before them up to an
earlier one. -/
theorem seriesOf_isPrefix (hm : m.Serves chart) (hnow : now ≤ now') (is : List Nat)
    (p : Prediction) : seriesOf m chart now is p <+: seriesOf m chart now' is p := by
  rw [seriesOf, seriesOf]
  cases firstOf is p with
  | none => exact List.prefix_rfl
  | some c => exact supplyOf_isPrefix hm hnow c

/-- Conditions that have seen nothing and quote alike have one series before them. -/
theorem liesBefore_of_quotesAlike (halike : p.QuotesAlike is)
    (hfresh : ∀ c ∈ p.given, c.state = .initial) :
    LiesBefore m chart now is (seriesOf m chart now is p) p := by
  intro i hi c hc
  cases hfirst : firstOf is p with
  | none =>
      rw [firstOf, List.findSome?_eq_none_iff] at hfirst
      rw [hfirst i hi] at hc
      cases hc
  | some d =>
      obtain ⟨j, hj, hd⟩ := List.exists_of_findSome?_eq_some hfirst
      obtain ⟨hinstruments, hfrom⟩ := halike i hi j hj c d hc hd
      rw [seriesOf, hfirst, supplyOf, hinstruments, hfrom, hfresh c (List.mem_of_getElem? hc),
        ← hfresh d (List.mem_of_getElem? hd)]
      rfl

/-- **Where conditions resume that follow one series:** with the set that they have been fed last,
which does nothing now, or at the beginning if there was none. -/
theorem resumes_together (hm : m.Serves chart) (hnow : now ≤ now')
    (hbefore : LiesBefore m chart now is zs p) (hbefore' : LiesBefore m chart now' is zs' p)
    {count : Nat} (hcount : count ≤ zs.length) (hfed : Fed is (zs.take count) p q) :
    count = 0 ∧ Shares (suppliesOf m chart now' q) is zs' q ∨
      ∃ k z, count = k + 1 ∧ zs[k]? = some z ∧
        Shares (suppliesOf m chart now' q) is (zs'.drop k) q ∧ Fed is [z] q q := by
  cases count with
  | zero => exact Or.inl ⟨rfl, (hbefore'.of_fed_nil hfed).shares⟩
  | succ k =>
      obtain ⟨z, hz⟩ : ∃ z, zs[k]? = some z := ⟨_, List.getElem?_eq_getElem hcount⟩
      have hopen {i : Nat} (hi : i ∈ is) {d : Condition Price} (hd : q.given[i]? = some d)
          (hfin : d.isFinished = false) :
          supplyOf m chart now' d = zs'.drop k ∧ d.feed z = .ok d := by
        have hrel := hfed i hi
        rw [hd] at hrel
        generalize hc : p.given[i]? = x at hrel
        cases hrel with
        | @some c _ hcd =>
            have hsupply := hbefore i hi c hc
            rw [← hsupply] at hcount hcd hz
            rcases resumes hm hnow hcount hcd hfin with ⟨hzero, -⟩ | ⟨j, z', hj, hz', hrest, hidle⟩
            · cases hzero
            · obtain rfl : k = j := Nat.succ.inj hj
              rw [getElem?_of_isPrefix (supplyOf_isPrefix hm hnow c) hz] at hz'
              obtain rfl : z = z' := Option.some.inj hz'
              exact ⟨(hbefore' i hi c hc) ▸ hrest, hidle⟩
      refine Or.inr ⟨k, z, rfl, hz, fun i hi d hd hfin => ?_, fun i hi => ?_⟩
      · rw [suppliesOf_eq hd]
        exact (hopen hi hd hfin).1
      · cases hd : q.given[i]? with
        | none => exact .none
        | some d =>
            refine .some ?_
            cases hfin : d.isFinished with
            | true => exact Condition.feedEach_of_finished hfin _
            | false => exact (Condition.feedEach_singleton d z).trans (hopen hi hd hfin).2

/-- **To resume along a series is to go on along it.** -/
theorem endsAlong_of_resumed {stop : (Nat → Option Trilean) → Bool} (hm : m.Serves chart)
    (hnow : now ≤ now') (hreads : Reads is stop) (hbefore : LiesBefore m chart now is zs p)
    (hbefore' : LiesBefore m chart now' is zs' p) (hbegins : zs <+: zs')
    (h : EndsAlong is stop zs p q) :
    ∃ xs, Shares (suppliesOf m chart now' q) is xs q ∧
      ∀ r, EndsAlong is stop xs q r → EndsAlong is stop zs' p r := by
  obtain ⟨count, hcount, hfed, hstop, hearlier⟩ := h
  cases hpassed : stop q.valueAt with
  | true =>
      have hlater := EndsAlong.later ⟨count, hcount, hfed, hstop, hearlier⟩ hpassed hbegins
      have hstays (xs : List (TickSet Price)) (r : Prediction) (hr : EndsAlong is stop xs q r) :
          EndsAlong is stop zs' p r := hlater.fed_nil_right hreads (hr.fed_nil hpassed)
      rcases resumes_together hm hnow hbefore hbefore' hcount hfed with
        ⟨-, hshares⟩ | ⟨k, z, -, -, hshares, -⟩
      · exact ⟨_, hshares, hstays _⟩
      · exact ⟨_, hshares, hstays _⟩
  | false =>
      obtain rfl : count = zs.length := hstop.resolve_left (by rw [hpassed]; nofun)
      obtain ⟨rest, rfl⟩ := hbegins
      rcases resumes_together hm hnow hbefore hbefore' hcount hfed with
        ⟨hnone, hshares⟩ | ⟨k, z, hk, hz, hshares, hidle⟩
      · obtain rfl := List.length_eq_zero_iff.1 hnone
        exact ⟨_, hshares, fun r hr => hr.of_fed_nil hfed⟩
      · rw [List.take_length] at hfed
        have hxs : (zs ++ rest).drop k = z :: rest := by
          rw [List.drop_eq_getElem?_toList_append,
            getElem?_of_isPrefix (List.prefix_append _ _) hz, ← hk, List.drop_left]
          rfl
        exact ⟨_, hshares, fun r hr => .append hfed hearlier ((hxs ▸ hr).tail hreads hidle hpassed)⟩

/-! ### Two series -/

/-- Whether a prediction has ended in order along the two series that lie before its phases up to a
second. -/
def EndsOnTime (m : Market) (chart : String → List Candle) (now : Int) (p q : Prediction) : Prop :=
  EndsInOrder p.pre p.main (seriesOf m chart now (mentioned p.pre.clauses) p)
    (seriesOf m chart now (mentioned p.main.clauses) p) p q

/-- A session whose phases share supplies ends in order along them. -/
theorem endsInOrder_of_drain (hm : m.Serves chart) {s : Session}
    (hstart : Session.start m p now = .ok s) (hservable : p.IsServable)
    (hp : p.IsConsistent) (hongoing : p.isFinal = false) {limit : Nat}
    (herrors : (s.drain m limit).2 = []) (hended : (s.drain m limit).1.inactive = true)
    {pre : PrePhase} {main : MainPhase} (hpre : p.pre = pre) (hmain : p.main = main)
    (hapart : ∀ i ∈ mentioned pre.clauses, i ∉ mentioned main.clauses)
    {zs ws : List (TickSet Price)}
    (hzs : Shares (suppliesOf m chart now p) (mentioned pre.clauses) zs p)
    (hws : Shares (suppliesOf m chart now p) (mentioned main.clauses) ws p) :
    EndsInOrder pre main zs ws p (s.drain m limit).1.prediction := by
  have hsupplied := isSupplied_of_start hm hstart hservable
  obtain ⟨-, rfl⟩ := start_eq_ok_iff.1 hstart
  subst hpre hmain
  exact InStep.endsInOrder ⟨hsupplied, hp, hapart, hzs, hws⟩ rfl hongoing limit herrors hended

/-- **A first session ends on time.** -/
theorem endsOnTime_of_drain (hm : m.Serves chart) {s : Session}
    (hstart : Session.start m p now = .ok s) (hservable : p.IsServable)
    (hp : p.IsConsistent) (hfresh : ∀ c ∈ p.given, c.state = .initial) (haligned : p.IsAligned)
    (hongoing : p.isFinal = false) {limit : Nat} (herrors : (s.drain m limit).2 = [])
    (hended : (s.drain m limit).1.inactive = true) :
    EndsOnTime m chart now p (s.drain m limit).1.prediction :=
  endsInOrder_of_drain hm hstart hservable hp hongoing herrors hended rfl rfl haligned.apart
    (liesBefore_of_quotesAlike haligned.pre hfresh).shares
    (liesBefore_of_quotesAlike haligned.main hfresh).shares

/-- A final end is on time at any later second. -/
theorem EndsOnTime.later (hm : m.Serves chart) (hnow : now ≤ now') (h : EndsOnTime m chart now p q)
    (hpre : q.pre = p.pre) (hmain : q.main = p.main) (hfinal : q.outcome.isFinal = true) :
    EndsOnTime m chart now' p q where
  first := by
    refine h.first.later ?_ (seriesOf_isPrefix hm hnow _ p)
    rw [Prediction.preSettles, bne_iff_ne, ← hpre]
    intro hwait
    rw [Prediction.outcome_eq_waiting_iff.2 hwait] at hfinal
    cases hfinal
  second hrun := by
    refine (h.second hrun).later ?_ (seriesOf_isPrefix hm hnow _ p)
    rw [Prediction.mainSettles, ← hmain, ← Prediction.outcome_of_running (hpre ▸ hrun), hfinal]
  unbegun := h.unbegun
  others := h.others

/-- **A session that resumes goes on on time,** up to its own second. -/
theorem EndsOnTime.resume (hm : m.Serves chart) (hnow : now ≤ now')
    (hfresh : ∀ c ∈ p.given, c.state = .initial) (haligned : p.IsAligned)
    (h : EndsOnTime m chart now p q) (hpre : q.pre = p.pre) (hmain : q.main = p.main)
    (hq : q.IsConsistent) (hservable : q.IsServable) {s : Session}
    (hstart : Session.start m q now' = .ok s) (hongoing : q.isFinal = false) {limit : Nat}
    (herrors : (s.drain m limit).2 = []) (hended : (s.drain m limit).1.inactive = true) :
    EndsOnTime m chart now' p (s.drain m limit).1.prediction := by
  have hdrain {xs ys : List (TickSet Price)}
      (hxs : Shares (suppliesOf m chart now' q) (mentioned p.pre.clauses) xs q)
      (hys : Shares (suppliesOf m chart now' q) (mentioned p.main.clauses) ys q) :=
    endsInOrder_of_drain hm hstart hservable hq hongoing herrors hended hpre hmain haligned.apart hxs
      hys
  generalize (s.drain m limit).1.prediction = r at hdrain ⊢
  obtain ⟨xs, hxs, hfirst⟩ := endsAlong_of_resumed hm hnow (Prediction.reads_preSettles p.pre)
    (liesBefore_of_quotesAlike haligned.pre hfresh) (liesBefore_of_quotesAlike haligned.pre hfresh)
    (seriesOf_isPrefix hm hnow _ p) h.first
  by_cases hrun : p.pre.evaluate q.valueAt = .running
  · obtain ⟨ys, hys, hsecond⟩ := endsAlong_of_resumed hm hnow (Prediction.reads_mainSettles p.main)
      (liesBefore_of_quotesAlike haligned.main hfresh)
      (liesBefore_of_quotesAlike haligned.main hfresh) (seriesOf_isPrefix hm hnow _ p)
      (h.second hrun)
    have hr := hdrain hxs hys
    have hstop : Prediction.preSettles p.pre q.valueAt = true := by
      rw [Prediction.preSettles, hrun]
      rfl
    refine ⟨hfirst r hr.first, fun hrun' => hsecond r (hr.second hrun'), fun hne => ?_,
      fun i hi hi' => (hr.others i hi hi').trans (h.others i hi hi')⟩
    rw [(hr.first.fed_nil hstop).pre_eq, hrun] at hne
    exact absurd rfl hne
  · have hnone := h.unbegun hrun
    have hr := hdrain hxs
      ((liesBefore_of_quotesAlike haligned.main hfresh).of_fed_nil hnone).shares
    exact ⟨hfirst r hr.first, fun hrun' => (hr.second hrun').of_fed_nil hnone,
      fun hne => hnone.trans (hr.unbegun hne),
      fun i hi hi' => (hr.others i hi hi').trans (h.others i hi hi')⟩

end Session

end Forecast
