import Forecast.Proofs.Compile.WellFormed
import Forecast.Proofs.Condition.Verdict
import Forecast.Proofs.Session.Chronology
import Forecast.Proofs.Session.Unseen

/-!
# Races Between Two Levels

The shape of a prediction calls it a race if its main clause is a level of a coin and the one side
clause it has is another level of this coin. The sentence that is written for it says that the one
level is reached before the other. But the shape is read off the clauses only, while the outcome
depends on the policy, too: unless open side clauses are ignored, a race whose main level has been
reached waits for its rival, and is lost if the rival's level is reached later on.

A session over a race feeds two conditions, the ticks of one stream to both in turn. So it ends in
order, and its outcome can be told from which ticks met which level (`Condition.IsMetBy`). Conditions
that the race does not mention are never looked at, and nothing is asked of them.

## Main results

* `Condition.value_of_feedEach`: which ticks settle a condition.
* `Prediction.exists_races`: what the shape of a race says of its clauses.
* `Session.drain_endsInOrder`: conditions that are not mentioned do not count.
* `Session.race_ahead`: how a race ends whose main level is met first.
-/

namespace Forecast

/-! ### Levels of one coin -/

namespace Condition

variable {c d : Condition Price} {i : Instrument} {t : Tick Price} {ts : List (Tick Price)}

/-- Whether a tick of an instrument is in the window of a condition and meets its comparison. -/
def IsMetBy (c : Condition Price) (i : Instrument) (t : Tick Price) : Prop :=
  c.fromTs ≤ t.timestamp ∧ t.timestamp ≤ c.toTs ∧ c.holdsAt (.ofList [(i.key, t)]) = true

instance : Decidable (c.IsMetBy i t) :=
  inferInstanceAs (Decidable (_ ∧ _ ∧ _))

/-- What a tick makes of an open condition: it fails behind the window, holds if it is met, and is
open else. -/
theorem feed_tick_cases (hopen : c.isFinished = false) (hfrom : c.fromTs ≤ t.timestamp)
    (h : c.feed (.ofList [(i.key, t)]) = .ok d) :
    (c.toTs < t.timestamp ∧ d.isFinished = true ∧ d.value = .no) ∨
      (c.IsMetBy i t ∧ d.isFinished = true ∧ d.value = .yes) ∨
      (¬ c.IsMetBy i t ∧ ∃ state, d = { c with state } ∧ d.isFinished = false ∧
        d.value = c.value) := by
  rcases feed_eq_ok_iff.1 h with ⟨hfinished, -⟩ | ⟨-, ts, hacc, rfl⟩
  · rw [hopen] at hfinished
    cases hfinished
  · obtain ⟨-, hall, -⟩ := accepts_eq_ok_iff.1 hacc
    obtain rfl : t.timestamp = ts := hall t List.mem_cons_self
    cases hhit : c.isHit (t.timestamp, .ofList [(i.key, t)]) with
    | true =>
        rw [advance_of_isHit hfrom hhit]
        by_cases hbehind : c.toTs < t.timestamp
        · exact .inl ⟨hbehind, rfl, by simp only [value, if_pos hbehind]⟩
        · have hholds : c.holdsAt (.ofList [(i.key, t)]) = true := by
            simpa [isHit, hbehind] using hhit
          refine .inr (.inl ⟨⟨hfrom, Int.not_lt.1 hbehind, hholds⟩, rfl, ?_⟩)
          simp only [value, if_neg hbehind]
    | false =>
        have hnot : ¬ c.IsMetBy i t := by
          rintro ⟨-, -, hholds⟩
          simp [isHit, hholds] at hhit
        rw [advance_of_not_isHit hfrom hhit]
        exact .inr (.inr ⟨hnot, _, rfl, rfl, rfl⟩)

/-- **Which ticks settle a condition.** An open condition that is fed ticks in order, none of them
before its window, holds in the end exactly if one of them met it, and fails only if one of them was
behind its window. -/
theorem value_of_feedEach (hopen : c.isFinished = false) (hvalue : c.value = .undecided)
    (hsorted : ts.Pairwise fun t u => t.timestamp < u.timestamp)
    (hfrom : ∀ t ∈ ts, c.fromTs ≤ t.timestamp)
    (h : c.feedEach (Session.oneByOne i.key ts) = .ok d) :
    (d.value = .yes ↔ ∃ t ∈ ts, c.IsMetBy i t) ∧
      (d.value = .no → ∃ t ∈ ts, c.toTs < t.timestamp) := by
  induction ts generalizing c with
  | nil =>
      cases h
      simp [hvalue]
  | cons t ts ih =>
      obtain ⟨hafter, hsorted⟩ := List.pairwise_cons.1 hsorted
      obtain ⟨ht, hfrom⟩ := List.forall_mem_cons.1 hfrom
      obtain ⟨e, he, hd⟩ := feedEach_cons_eq_ok_iff.1 h
      rcases feed_tick_cases hopen ht he with
        ⟨hbehind, hfinished, hno⟩ | ⟨hmet, hfinished, hyes⟩ | ⟨hnot, state, rfl, hopen', hvalue'⟩
      · rw [feedEach_of_finished hfinished] at hd
        cases hd
        refine ⟨⟨fun hyes => ?_, ?_⟩, fun _ => ⟨t, List.mem_cons_self, hbehind⟩⟩
        · rw [hno] at hyes
          cases hyes
        · -- ticks behind the window meet nothing, and those after them are later still
          rintro ⟨u, hu, -, hle, -⟩
          rcases List.mem_cons.1 hu with rfl | hu
          · omega
          · have := hafter u hu
            omega
      · rw [feedEach_of_finished hfinished] at hd
        cases hd
        refine ⟨⟨fun _ => ⟨t, List.mem_cons_self, hmet⟩, fun _ => hyes⟩, fun hno => ?_⟩
        rw [hyes] at hno
        cases hno
      · obtain ⟨hyes, hno⟩ := ih hopen' (hvalue'.trans hvalue) hsorted hfrom hd
        refine ⟨hyes.trans ?_, fun h => ?_⟩
        · rw [List.exists_mem_cons_iff]
          exact ⟨.inr, fun h => h.resolve_left hnot⟩
        · obtain ⟨u, hu, hbehind⟩ := hno h
          exact ⟨u, List.mem_cons_of_mem _ hu, hbehind⟩

/-- A comparison of a coin with numbers quotes the coin and nothing else. -/
theorem exists_of_isCoinAgainstNumbers (h : c.isCoinAgainstNumbers = true) :
    ∃ j, c.operands.head? = some (.market j) ∧ c.instruments = [j] := by
  rw [isCoinAgainstNumbers] at h
  rw [instruments]
  cases hoperands : c.operands with
  | nil =>
      rw [hoperands] at h
      cases h
  | cons o os =>
      rw [hoperands] at h
      obtain ⟨hcoin, hnumbers⟩ := Bool.and_eq_true_iff.1 h
      have hnone : os.filterMap Operand.instrument? = [] := by
        refine List.filterMap_eq_nil_iff.2 fun o ho => ?_
        have hnumber := List.all_eq_true.1 hnumbers o ho
        cases o with
        | number v => rfl
        | market j => cases hnumber
      cases o with
      | number v => cases hcoin
      | market j =>
          refine ⟨j, rfl, ?_⟩
          rw [List.filterMap_cons, hnone]
          rfl

/-- Rivals are levels of one coin. -/
theorem instruments_of_areRivals (hc : c.isCoinAgainstNumbers = true)
    (hd : d.isCoinAgainstNumbers = true) (h : Prediction.areRivals c d = true) :
    d.instruments = c.instruments := by
  obtain ⟨j, hj, hinstruments⟩ := exists_of_isCoinAgainstNumbers hc
  obtain ⟨k, hk, hinstruments'⟩ := exists_of_isCoinAgainstNumbers hd
  simp only [Prediction.areRivals, Bool.and_eq_true, hj, hk] at h
  have hjk : (j == k) = true := h.2
  rw [hinstruments, hinstruments', eq_of_beq hjk]

end Condition

/-! ### What a race comes to -/

/-- What a race is lost as. -/
def Shape.loss : Shape → Outcome
  | .raceOrAnnulled => .annulled
  | _ => .incorrect

namespace Policy

/-- The outcome of the second phase of a race: one of the side clauses is missing. -/
def resolveRace (policy : Policy) (shape : Shape) (main side : Trilean) : Outcome :=
  match shape with
  | .raceOrAnnulled => policy.resolveMain main .no side
  | _ => policy.resolveMain main side .no

/-- **A race in which the main clause does not fail** is lost as soon as the side clause holds. It is
won when the main clause holds and the side clause does not count any more. -/
theorem resolveRace_of_ne_no (policy : Policy) (shape : Shape) {main : Trilean} (side : Trilean)
    (hmain : main ≠ .no) :
    policy.resolveRace shape main side =
      if side = .yes then shape.loss
      else if main = .yes ∧ (side = .no ∨ policy.ignoreUndecided = true) then .correct
      else .running := by
  obtain ⟨ignores, annuls⟩ := policy
  cases shape <;> cases main <;> cases side <;> cases ignores <;>
    first
      | rfl
      | exact absurd rfl hmain

end Policy

namespace Prediction

variable {p q : Prediction} {a b : Nat} {c d : Condition Price} {i : Instrument}

/-- The condition that a race is won by. -/
def racer? (p : Prediction) : Option (Condition Price) :=
  p.coinCondition? (some p.main.predict)

/-- The condition that a race is lost by. -/
def rival? (p : Prediction) : Option (Condition Price) :=
  p.coinCondition? (p.main.wrongIf <|> p.main.annulledIf)

/-- Whether the shape of a prediction is a race. -/
def IsRace (p : Prediction) : Prop :=
  p.shape = .raceOrWrong ∨ p.shape = .raceOrAnnulled

/-- Whether a prediction is a race between two of its conditions. -/
structure Races (p : Prediction) (a b : Nat) (c d : Condition Price) : Prop where
  pre : p.pre.isEmpty = true
  predict : p.main.predict = .literal a
  sides : (p.shape = .raceOrWrong ∧ p.main.wrongIf = some (.literal b) ∧
      p.main.annulledIf = none) ∨
    (p.shape = .raceOrAnnulled ∧ p.main.wrongIf = none ∧ p.main.annulledIf = some (.literal b))
  racer : p.given[a]? = some c
  rival : p.given[b]? = some d
  instruments : d.instruments = c.instruments

/-- A clause of one condition that compares a coin with numbers. -/
theorem exists_of_coinCondition? {side : Option Clause} (h : p.coinCondition? side = some c) :
    ∃ a, side = some (.literal a) ∧ p.given[a]? = some c ∧ c.isCoinAgainstNumbers = true := by
  unfold coinCondition? at h
  split at h
  · next a =>
      obtain ⟨hc, hcoin⟩ := Option.filter_eq_some_iff.1 h
      exact ⟨a, rfl, hc, hcoin⟩
  · cases h

/-- **What the shape of a race says of its clauses.** There are no preconditions. The main clause is
a condition, and one of the side clauses is its rival; the other side clause is missing. -/
theorem exists_races (hinferred : p.shape = p.inferShape) (hrace : p.IsRace)
    (hc : p.racer? = some c) (hd : p.rival? = some d) : ∃ a b, p.Races a b c d := by
  rw [racer?] at hc
  rw [rival?] at hd
  have hshape := hinferred
  have hpre : p.pre.isEmpty = true := by
    by_contra hne
    rw [inferShape, if_pos (by simpa using hne)] at hshape
    rcases hrace with h | h <;> cases hshape.symm.trans h
  obtain ⟨a, ha, hracer, hcoin⟩ := exists_of_coinCondition? hc
  obtain ⟨b, hb, hrival, hcoin'⟩ := exists_of_coinCondition? hd
  have hpredict := Option.some.inj ha
  -- the shape is that of a race only if the two conditions are rivals
  have races {shape : Shape} (h : p.shape = if areRivals c d then shape else .unsupported) :
      p.shape = shape ∧ areRivals c d = true := by
    by_cases hrivals : areRivals c d = true
    · exact ⟨by rw [h, if_pos hrivals], hrivals⟩
    · rw [if_neg hrivals] at h
      rcases hrace with h' | h' <;> cases h.symm.trans h'
  rw [inferShape, if_neg (by simp [hpre]), hc] at hshape
  dsimp only at hshape
  cases hwrong : p.main.wrongIf with
  | none =>
      cases hannulled : p.main.annulledIf with
      | none =>
          rw [hwrong, hannulled] at hb
          cases hb
      | some side =>
          rw [hwrong, hannulled] at hb hd hshape
          obtain rfl : side = .literal b := Option.some.inj hb
          have hd : p.coinCondition? (some (.literal b)) = some d := hd
          dsimp only at hshape
          rw [hd, Option.any_some] at hshape
          obtain ⟨hshape, hrivals⟩ := races hshape
          exact ⟨a, b, hpre, hpredict, .inr ⟨hshape, hwrong, hannulled⟩, hracer, hrival,
            Condition.instruments_of_areRivals hcoin hcoin' hrivals⟩
  | some side =>
      cases hannulled : p.main.annulledIf with
      | none =>
          rw [hwrong, hannulled] at hb hd hshape
          obtain rfl : side = .literal b := Option.some.inj hb
          have hd : p.coinCondition? (some (.literal b)) = some d := hd
          dsimp only at hshape
          rw [hd, Option.any_some] at hshape
          obtain ⟨hshape, hrivals⟩ := races hshape
          exact ⟨a, b, hpre, hpredict, .inl ⟨hshape, hwrong, hannulled⟩, hracer, hrival,
            Condition.instruments_of_areRivals hcoin hcoin' hrivals⟩
      | some other =>
          rw [hwrong, hannulled] at hshape
          rcases hrace with h | h <;> cases hshape.symm.trans h

/-- The shape of a compiled prediction has been inferred. -/
theorem IsCompiled.shape_eq (h : p.IsCompiled) : p.shape = p.inferShape := by
  obtain ⟨draft, createdAt, q, hq, hp⟩ := h
  obtain ⟨-, -, -, -, -, -, hshape⟩ := Compile.exists_of_prediction hq
  rcases hp with rfl | rfl
  · exact hshape
  · exact hshape

/-- A race mentions its two conditions. -/
theorem Races.mem_mentioned_iff (h : p.Races a b c d) {j : Nat} :
    j ∈ mentioned p.main.clauses ↔ j = a ∨ j = b := by
  rcases h.sides with ⟨-, hwrong, hannulled⟩ | ⟨-, hwrong, hannulled⟩ <;>
    simp [mentioned, MainPhase.clauses, hwrong, hannulled, h.predict, Clause.references, or_comm]

/-- The outcome of a race, from the values of its two conditions. -/
theorem Races.evaluate_eq (h : p.Races a b c d) {v : Nat → Option Trilean} {main side : Trilean}
    (hmain : v a = some main) (hside : v b = some side) :
    p.main.evaluate v = p.main.policy.resolveRace p.shape main side := by
  rcases h.sides with ⟨hshape, hwrong, hannulled⟩ | ⟨hshape, hwrong, hannulled⟩ <;>
    simp [MainPhase.evaluate, Policy.resolveRace, hshape, hwrong, hannulled, h.predict, sideValue,
      Clause.evaluate, hmain, hside]

/-- What leads to a stage leads to all stages before it. -/
theorem Fed.exists_take {is : List Nat} {zs : List (TickSet Price)} {n k : Nat}
    (h : Fed is (zs.take k) p q) (hn : n ≤ k) : ∃ r, Fed is (zs.take n) p r := by
  refine ⟨{ p with given := p.given.map fun c => (c.feedEach (zs.take n)).toOption.getD c },
    fun j hj => ?_⟩
  have hrel := h j hj
  rw [List.getElem?_map]
  generalize p.given[j]? = x at hrel ⊢
  generalize q.given[j]? = y at hrel
  cases hrel with
  | none => exact .none
  | some hce =>
      rw [← List.take_append_drop n (zs.take k), List.take_take, Nat.min_eq_left hn,
        Condition.feedEach_append_eq_ok_iff] at hce
      obtain ⟨d, hd, -⟩ := hce
      refine .some ?_
      simp only [hd, Except.toOption, Option.getD_some]

end Prediction

/-! ### Sessions over the conditions that count -/

namespace Session

open Prediction (Fed EndsAlong EndsInOrder mainSettles)

variable {m : Market} {p : Prediction} {i : Instrument} {start now : Int} {stream : TickStream}
  {s : Session} {ts : List (Tick Price)}

/-- Conditions that are mentioned quote one instrument from one second on; the streams of the others
are closed. -/
theorem inStep_closedBut (hpre : p.pre.isEmpty = true) (hp : p.IsConsistent) (hstart : 0 ≤ start)
    (hmentioned : ∀ j ∈ mentioned p.main.clauses, ∀ c, p.given[j]? = some c →
      c.instruments = [i] ∧ c.fromTs = start)
    (hfresh : ∀ c ∈ p.given, c.state = .initial)
    (hstream : m.ticks (.market i) start now = .ok stream) (hts : stream.Delivers ts) :
    InStep m (fun j => if j ∈ mentioned p.main.clauses then oneByOne i.key ts else [])
      [] (oneByOne i.key ts)
      (closedBut (mentioned p.main.clauses) ⟨p, p, now, p.given.map fun _ => none, false⟩) := by
  obtain ⟨hcheck, hopen⟩ := Market.ticks_eq_ok_iff.1 hstream
  obtain ⟨hkey, hactive, -⟩ := Market.of_openStream hopen
  have hunmentioned : ∀ j, j ∉ mentioned p.pre.clauses := by
    rw [Prediction.mentioned_of_isEmpty hpre]
    exact fun _ => List.not_mem_nil
  have hsupplies : Supplies [stream] (sets [i.key] fun _ => ts) :=
    supplies_sets (List.cons_ne_nil _ _) (.cons ⟨hkey, hactive, hts⟩ .nil)
  rw [sets_singleton] at hsupplies
  refine ⟨⟨?_, fun j c hc => ?_⟩, hp, fun j hj => absurd hj (hunmentioned j),
    fun j hj => absurd hj (hunmentioned j), fun _ hj _ _ _ => if_pos hj⟩
  · simp only [closedBut, List.length_mapIdx, List.length_map]
  · have hc : p.given[j]? = some c := hc
    by_cases hj : j ∈ mentioned p.main.clauses
    · obtain ⟨hinstruments, hfrom⟩ := hmentioned j hj c hc
      have hmax : max c.fromTs c.state.lastTs = start := by
        rw [hfrom, hfresh c (List.mem_of_getElem? hc)]
        exact Int.max_eq_left hstart
      rw [if_pos hj]
      refine .closed [⟨i.key, intervalStart m.interval start⟩] [stream] ?_ ?_ hsupplies
      · rw [getElem?_streams_closedBut hj, List.getElem?_map, hc]
        rfl
      · rw [hinstruments, hmax]
        exact openStreams_of_opened hcheck hopen []
    · rw [if_neg hj]
      refine .opened [spent] ?_ (.dry (drawAll_of_exhausted rfl))
      simp only [closedBut, List.getElem?_mapIdx, List.getElem?_map, hc, Option.map_some, if_neg hj,
        Option.join_some]

/-- **Conditions that are not mentioned do not count.** A session over a freshly compiled prediction
without preconditions ends in order if the conditions that its second phase mentions quote one
instrument from one second on. -/
theorem drain_endsInOrder (hp : p.IsCompiled) (hpre : p.pre.isEmpty = true) (hstart : 0 ≤ start)
    (hmentioned : ∀ j ∈ mentioned p.main.clauses, ∀ c, p.given[j]? = some c →
      c.instruments = [i] ∧ c.fromTs = start)
    (hstream : m.ticks (.market i) start now = .ok stream) (hts : stream.Delivers ts)
    (hs : Session.start m p now = .ok s) {limit : Nat} (hlimit : ts.length < limit) :
    ∃ done, s.drain m limit = (done, []) ∧ done.inactive = true ∧
      done.prediction.evaluated = done.prediction ∧
      EndsInOrder p.pre p.main [] (oneByOne i.key ts) p done.prediction := by
  obtain ⟨hfresh, hfinal⟩ := hp.fresh
  obtain ⟨-, rfl⟩ := start_eq_ok_iff.1 hs
  have hin := inStep_closedBut hpre hp.isKept.1 hstart hmentioned hfresh hstream hts
  have hlength : (oneByOne i.key ts).length = ts.length := List.length_map _
  obtain ⟨hsorted, hafter⟩ := Market.sorted_of_ticks hstream hts
  -- what is mentioned accepts the ticks, and the rest has nothing to refuse
  have haccepts : ∀ j ∈ List.range p.given.length, ∀ c, p.given[j]? = some c →
      ∃ d, c.feedEach (if j ∈ mentioned p.main.clauses then oneByOne i.key ts else []) = .ok d := by
    intro j _ c hc
    by_cases hj : j ∈ mentioned p.main.clauses
    · rw [if_pos hj]
      refine Condition.exists_feedEach_of_sorted (hmentioned j hj c hc).1 hsorted fun t ht => ?_
      rw [hfresh c (List.mem_of_getElem? hc)]
      exact Int.le_trans hstart (hafter t ht)
    · rw [if_neg hj]
      exact ⟨c, rfl⟩
  have herrors := hin.supplied.drain_errors_eq_nil limit (fun j hj => List.mem_range.2 hj) haccepts
  obtain ⟨hended, hevaluated, hends⟩ :=
    hin.drain_of_limit rfl hfinal herrors (by rw [hlength, List.length_nil]; omega)
  have hunmentioned : ∀ j ∈ mentioned p.pre.clauses, j ∈ mentioned p.main.clauses := by
    rw [Prediction.mentioned_of_isEmpty hpre]
    exact fun _ h => absurd h List.not_mem_nil
  have hdrain := drain_closedBut (m := m)
    (s := ⟨p, p, now, p.given.map fun _ => none, false⟩) hunmentioned (fun _ h => h) limit
  rw [hdrain] at herrors hended hevaluated hends
  exact ⟨_, Prod.ext rfl herrors, hended, hevaluated, hends⟩

/-! ### Who is first -/

variable {q : Prediction} {a b n : Nat} {c d : Condition Price}

/-- What comes no later than a tick that has been taken has been taken. -/
theorem mem_take_of_le (hsorted : ts.Pairwise fun t u => t.timestamp < u.timestamp)
    {t u : Tick Price} (hu : u ∈ ts.take n) (ht : t ∈ ts) (hle : t.timestamp ≤ u.timestamp) :
    t ∈ ts.take n := by
  rw [← List.take_append_drop n ts] at ht hsorted
  rcases List.mem_append.1 ht with htaken | hleft
  · exact htaken
  · have := (List.pairwise_append.1 hsorted).2.2 u hu t hleft
    omega

/-- The value of a condition that had seen nothing when some ticks have been taken. -/
theorem exists_value_of_fed {is : List Nat} {j : Nat} (hj : j ∈ is) (hc : p.given[j]? = some c)
    (hfresh : c.state = .initial) (hsorted : ts.Pairwise fun t u => t.timestamp < u.timestamp)
    (hfrom : ∀ t ∈ ts, c.fromTs ≤ t.timestamp)
    (hfed : Fed is ((oneByOne i.key ts).take n) p q) :
    ∃ value, q.valueAt j = some value ∧
      (value = .yes ↔ ∃ t ∈ ts.take n, c.IsMetBy i t) ∧
      (value = .no → ∃ t ∈ ts.take n, c.toTs < t.timestamp) := by
  have hrel := hfed j hj
  rw [hc] at hrel
  cases hd : q.given[j]? with
  | none =>
      rw [hd] at hrel
      cases hrel
  | some d =>
      rw [hd] at hrel
      cases hrel with
      | some hcd =>
          rw [oneByOne, ← List.map_take] at hcd
          have hopen : c.isFinished = false := by rw [Condition.isFinished, hfresh]; rfl
          have hvalue : c.value = .undecided := by rw [Condition.value, hfresh]; rfl
          refine ⟨d.value, by rw [Prediction.valueAt, hd, Option.map_some], ?_⟩
          exact Condition.value_of_feedEach hopen hvalue (hsorted.sublist (List.take_sublist n ts))
            (fun t ht => hfrom t (List.mem_of_mem_take ht)) hcd

/-- The outcome of a race when some ticks have been taken, if its main level is met first: the main
clause has not failed. -/
theorem exists_evaluate_of_ahead (hraces : p.Races a b c d)
    (hfresh : ∀ e ∈ p.given, e.state = .initial)
    (hsorted : ts.Pairwise fun t u => t.timestamp < u.timestamp)
    (hfrom : ∀ t ∈ ts, c.fromTs ≤ t.timestamp ∧ d.fromTs ≤ t.timestamp)
    (hmet : ∃ t ∈ ts, c.IsMetBy i t)
    (hfed : Fed (mentioned p.main.clauses) ((oneByOne i.key ts).take n) p q) :
    ∃ main side, p.main.evaluate q.valueAt = p.main.policy.resolveRace p.shape main side ∧
      main ≠ .no ∧ (main = .yes ↔ ∃ t ∈ ts.take n, c.IsMetBy i t) ∧
      (side = .yes ↔ ∃ t ∈ ts.take n, d.IsMetBy i t) ∧
      (side = .no → ∃ t ∈ ts.take n, d.toTs < t.timestamp) := by
  obtain ⟨main, hmain, hyes, hno⟩ :=
    exists_value_of_fed (hraces.mem_mentioned_iff.2 (.inl rfl)) hraces.racer
      (hfresh c (List.mem_of_getElem? hraces.racer)) hsorted (fun t ht => (hfrom t ht).1) hfed
  obtain ⟨side, hside, hyes', hno'⟩ :=
    exists_value_of_fed (hraces.mem_mentioned_iff.2 (.inr rfl)) hraces.rival
      (hfresh d (List.mem_of_getElem? hraces.rival)) hsorted (fun t ht => (hfrom t ht).2) hfed
  refine ⟨main, side, hraces.evaluate_eq hmain hside, ?_, hyes, hyes', hno'⟩
  rintro rfl
  -- a tick behind the window comes after the one that met the level
  obtain ⟨u, hu, hbehind⟩ := hno rfl
  obtain ⟨t, ht, hmeets⟩ := hmet
  have hbefore := hmeets.2.1
  have htaken := mem_take_of_le hsorted hu ht (by omega)
  cases hyes.2 ⟨t, htaken, hmeets⟩

/-- If open side clauses are ignored, a race is won when its level is met first. -/
theorem correct_of_ahead (hraces : p.Races a b c d) (hfresh : ∀ e ∈ p.given, e.state = .initial)
    (hsorted : ts.Pairwise fun t u => t.timestamp < u.timestamp)
    (hfrom : ∀ t ∈ ts, c.fromTs ≤ t.timestamp ∧ d.fromTs ≤ t.timestamp)
    (hahead : ∃ t ∈ ts, c.IsMetBy i t ∧ ∀ u ∈ ts, d.IsMetBy i u → t.timestamp < u.timestamp)
    (hignores : p.main.policy.ignoreUndecided = true)
    (hends : EndsAlong (mentioned p.main.clauses) (mainSettles p.main) (oneByOne i.key ts) p q) :
    p.main.evaluate q.valueAt = .correct := by
  obtain ⟨t, ht, hmeets, hfirst⟩ := hahead
  obtain ⟨k, hk, rfl⟩ := List.getElem_of_mem ht
  obtain ⟨count, hcount, hfed, hlast, hbefore⟩ := hends
  -- up to the tick that meets the level, the race is won or open
  have hstage {n : Nat} {r : Prediction} (hn : n ≤ k + 1)
      (hstage : Fed (mentioned p.main.clauses) ((oneByOne i.key ts).take n) p r) :
      p.main.evaluate r.valueAt = .correct ∨
        p.main.evaluate r.valueAt = .running ∧ ¬ ∃ u ∈ ts.take n, c.IsMetBy i u := by
    obtain ⟨main, side, heval, hmain, hyes, hyes', -⟩ :=
      exists_evaluate_of_ahead hraces hfresh hsorted hfrom ⟨_, ht, hmeets⟩ hstage
    have hside : side ≠ .yes := by
      rw [Ne, hyes']
      rintro ⟨u, hu, hrival⟩
      obtain ⟨j, hj, rfl⟩ := List.mem_take_iff_getElem.1 hu
      have hlater := hfirst _ (List.mem_of_mem_take hu) hrival
      rcases Nat.lt_or_ge j k with hjk | hjk
      · have := List.pairwise_iff_getElem.1 hsorted j k (by omega) hk hjk
        omega
      · obtain rfl : j = k := by omega
        exact Int.lt_irrefl _ hlater
    rw [heval, Policy.resolveRace_of_ne_no _ _ _ hmain, if_neg hside]
    by_cases hwon : main = .yes
    · exact .inl (if_pos ⟨hwon, .inr hignores⟩)
    · exact .inr ⟨if_neg fun h => hwon h.1, hyes.not.1 hwon⟩
  have hlength : (oneByOne i.key ts).length = ts.length := List.length_map _
  have hwon {n : Nat} (hkn : k < n) : ∃ u ∈ ts.take n, c.IsMetBy i u :=
    ⟨_, List.mem_take_iff_getElem.2 ⟨k, by omega, rfl⟩, hmeets⟩
  have hle : count ≤ k + 1 := by
    by_contra hlt
    obtain ⟨r, hr⟩ := hfed.exists_take (show k + 1 ≤ count by omega)
    have hopen := hbefore (k + 1) (by omega) r hr
    rcases hstage (Nat.le_refl _) hr with hcorrect | ⟨-, hnone⟩
    · rw [mainSettles, hcorrect] at hopen
      cases hopen
    · exact hnone (hwon (Nat.lt_succ_self k))
  rcases hstage hle hfed with hcorrect | ⟨hrunning, hnone⟩
  · exact hcorrect
  · rcases hlast with hsettled | rfl
    · rw [mainSettles, hrunning] at hsettled
      cases hsettled
    · exact absurd (hwon (by omega)) hnone

/-- If open side clauses are not ignored, a race whose level is met first is lost exactly if its
rival is met at all. -/
theorem loss_iff_of_ahead (hraces : p.Races a b c d) (hfresh : ∀ e ∈ p.given, e.state = .initial)
    (hsorted : ts.Pairwise fun t u => t.timestamp < u.timestamp)
    (hfrom : ∀ t ∈ ts, c.fromTs ≤ t.timestamp ∧ d.fromTs ≤ t.timestamp)
    (hmet : ∃ t ∈ ts, c.IsMetBy i t) (hwaits : p.main.policy.ignoreUndecided = false)
    (hends : EndsAlong (mentioned p.main.clauses) (mainSettles p.main) (oneByOne i.key ts) p q) :
    p.main.evaluate q.valueAt = p.shape.loss ↔ ∃ u ∈ ts, d.IsMetBy i u := by
  obtain ⟨count, hcount, hfed, hlast, -⟩ := hends
  obtain ⟨main, side, heval, hmain, -, hyes, hno⟩ :=
    exists_evaluate_of_ahead hraces hfresh hsorted hfrom hmet hfed
  rw [mainSettles, heval, Policy.resolveRace_of_ne_no _ _ _ hmain, hwaits] at hlast
  rw [heval, Policy.resolveRace_of_ne_no _ _ _ hmain, hwaits]
  have hside : side = .yes ↔ ∃ u ∈ ts, d.IsMetBy i u := by
    rw [hyes]
    constructor
    · rintro ⟨u, hu, hrival⟩
      exact ⟨u, List.mem_of_mem_take hu, hrival⟩
    rintro ⟨u, hu, hrival⟩
    cases hvalue : side with
    | yes => exact hyes.1 hvalue
    | no =>
        -- a tick behind the window of the rival comes after the one that met it
        obtain ⟨w, hw, hbehind⟩ := hno hvalue
        have := hrival.2.1
        exact ⟨u, mem_take_of_le hsorted hw hu (by omega), hrival⟩
    | undecided =>
        -- the race is open then, so all ticks have been taken
        have hopen : count = (oneByOne i.key ts).length := by
          simpa [hvalue, Outcome.isFinal, Outcome.ongoing] using hlast
        have hlength : (oneByOne i.key ts).length = ts.length := List.length_map _
        rw [hopen, hlength, List.take_length]
        exact ⟨u, hu, hrival⟩
  rw [← hside]
  by_cases hlost : side = .yes
  · simp [hlost]
  · rw [if_neg hlost]
    refine ⟨fun h => ?_, fun h => absurd h hlost⟩
    split at h <;> cases hshape : p.shape <;> rw [hshape] at h <;> cases h

/-- **How a race ends in which the main level is met first.** Take a freshly compiled prediction
whose shape is a race, and whose two conditions begin at one second. Let ticks of their coin be
delivered from this second on, of which one meets the main level, in its window, before any meets
the rival's in the rival's window. Then draining ends without errors. The race is lost exactly if
open side clauses are not ignored and the rival's level is met later on, in the rival's window; it
is won if they are ignored, whatever the ticks do then. -/
theorem race_ahead (hp : p.IsCompiled) (hrace : p.IsRace) (hc : p.racer? = some c)
    (hd : p.rival? = some d) (hcoin : c.instruments = [i]) (hstart : 0 ≤ c.fromTs)
    (htogether : d.fromTs = c.fromTs) (hstream : m.ticks (.market i) c.fromTs now = .ok stream)
    (hts : stream.Delivers ts) (hs : Session.start m p now = .ok s)
    (hahead : ∃ t ∈ ts, c.IsMetBy i t ∧ ∀ u ∈ ts, d.IsMetBy i u → t.timestamp < u.timestamp)
    {limit : Nat} (hlimit : ts.length < limit) :
    ∃ done, s.drain m limit = (done, []) ∧ done.inactive = true ∧
      (done.prediction.state.outcome = p.shape.loss ↔
        p.main.policy.ignoreUndecided = false ∧ ∃ u ∈ ts, d.IsMetBy i u) ∧
      (p.main.policy.ignoreUndecided = true → done.prediction.state.outcome = .correct) := by
  obtain ⟨a, b, hraces⟩ := Prediction.exists_races hp.shape_eq hrace hc hd
  obtain ⟨hfresh, -⟩ := hp.fresh
  obtain ⟨hsorted, hafter⟩ := Market.sorted_of_ticks hstream hts
  have hmentioned : ∀ j ∈ mentioned p.main.clauses, ∀ e, p.given[j]? = some e →
      e.instruments = [i] ∧ e.fromTs = c.fromTs := by
    intro j hj e he
    rcases hraces.mem_mentioned_iff.1 hj with rfl | rfl
    · obtain rfl := Option.some.inj (hraces.racer.symm.trans he)
      exact ⟨hcoin, rfl⟩
    · obtain rfl := Option.some.inj (hraces.rival.symm.trans he)
      exact ⟨hraces.instruments.trans hcoin, htogether⟩
  obtain ⟨done, hdrain, hended, hevaluated, hends⟩ :=
    drain_endsInOrder hp hraces.pre hstart hmentioned hstream hts hs hlimit
  have hframe := (drain_advances m limit (isBounded_start hs)).runs.frame
  obtain ⟨-, rfl⟩ := start_eq_ok_iff.1 hs
  rw [hdrain] at hframe
  have hpre : done.prediction.pre = p.pre := by rw [hframe]
  have hmain : done.prediction.main = p.main := by rw [hframe]
  have hrunning : p.pre.evaluate done.prediction.valueAt = .running :=
    Prediction.evaluate_of_isEmpty hraces.pre _
  have houtcome : done.prediction.state.outcome = p.main.evaluate done.prediction.valueAt := by
    rw [← hevaluated, ← hmain]
    exact Prediction.outcome_of_running (hpre.symm ▸ hrunning)
  have hsecond := hends.second hrunning
  have hfrom : ∀ t ∈ ts, c.fromTs ≤ t.timestamp ∧ d.fromTs ≤ t.timestamp := fun t ht =>
    ⟨hafter t ht, htogether ▸ hafter t ht⟩
  refine ⟨done, hdrain, hended, ?_, fun hignores => ?_⟩
  · rw [houtcome]
    cases hpolicy : p.main.policy.ignoreUndecided with
    | true =>
        rw [correct_of_ahead hraces hfresh hsorted hfrom hahead hpolicy hsecond]
        constructor
        · intro h
          cases hshape : p.shape <;> rw [hshape] at h <;> cases h
        · rintro ⟨⟨⟩, -⟩
    | false =>
        obtain ⟨t, ht, hmeets, -⟩ := hahead
        rw [loss_iff_of_ahead hraces hfresh hsorted hfrom ⟨t, ht, hmeets⟩ hpolicy hsecond]
        exact ⟨fun h => ⟨rfl, h⟩, fun h => h.2⟩
  · rw [houtcome]
    exact correct_of_ahead hraces hfresh hsorted hfrom hahead hignores hsecond

/-- The ticks of the market in which the upper level is reached first. -/
def riseAndFallTicks : List (Tick Price) :=
  TickStream.passing 0 120 none
    (riseAndFallStream.ahead [⟨0, 2, 5, 2, 5, 1⟩, ⟨60, 5, 5, 0, 0, 1⟩])

/-- The stream delivers them. -/
theorem delivers_riseAndFallTicks : riseAndFallStream.Delivers riseAndFallTicks := by
  have hleft : riseAndFallStream.HasLeft [⟨0, 2, 5, 2, 5, 1⟩, ⟨60, 5, 5, 0, 0, 1⟩] :=
    ⟨rfl, rfl, by decide +kernel⟩
  exact TickStream.delivers_passing hleft

/-- A session can be begun over conditions on the coin. -/
theorem start_riseAndFall (hgiven : ∀ c ∈ p.given, c.instruments = [bitcoin]) :
    Session.start riseAndFall p 120 = .ok ⟨p, p, 120, p.given.map fun _ => none, false⟩ := by
  refine start_eq_ok_iff.2 ⟨fun c hc j hj => ?_, rfl⟩
  rw [hgiven c hc, List.mem_singleton] at hj
  rw [hj]
  rfl

/-- In the race, the upper level is met first, and yet the race is lost: the lower level is met later
on, while the race still waits for it. -/
theorem race_lost_from_ahead :
    race.IsCompiled ∧ race.shape = .raceOrWrong ∧ ∃ c d, race.racer? = some c ∧
      race.rival? = some d ∧ c.instruments = [bitcoin] ∧ c.fromTs = 0 ∧ d.fromTs = 0 ∧
      riseAndFall.ticks (.market bitcoin) 0 120 = .ok riseAndFallStream ∧
      riseAndFallStream.Delivers riseAndFallTicks ∧
      (∃ t ∈ riseAndFallTicks, c.IsMetBy bitcoin t ∧
        ∀ u ∈ riseAndFallTicks, d.IsMetBy bitcoin u → t.timestamp < u.timestamp) ∧
      ∃ s, Session.start riseAndFall race 120 = .ok s ∧ ∃ done,
        s.drain riseAndFall 9 = (done, []) ∧ done.inactive = true ∧
        done.prediction.state.outcome = .incorrect := by
  have hbegun := start_riseAndFall (p := race) (by decide +kernel)
  generalize hs : (⟨race, race, 120, race.given.map fun _ => none, false⟩ : Session) = s at hbegun
  have hdrain : ∃ done, s.drain riseAndFall 9 = (done, []) ∧ done.inactive = true ∧
      done.prediction.state.outcome = .incorrect := by
    have herrors : (s.drain riseAndFall 9).2 = [] := by
      rw [← hs]
      decide +kernel
    have hended : (s.drain riseAndFall 9).1.inactive = true ∧
        (s.drain riseAndFall 9).1.prediction.state.outcome = .incorrect := by
      rw [← hs]
      decide +kernel
    exact ⟨_, Prod.ext rfl herrors, hended⟩
  exact ⟨⟨raceDraft, ⟨0, 0⟩, race, compile_raceDraft, .inl rfl⟩, rfl, race.given[0], race.given[1],
    rfl, rfl, rfl, rfl, rfl, Market.ticks_eq_ok_iff.2 ⟨rfl, rfl⟩, delivers_riseAndFallTicks,
    by decide +kernel, s, hbegun, hdrain⟩

/-- The same prediction, of an author who does not wait for the lower level once the upper one is
reached. -/
def sprintDraft : Draft :=
  { raceDraft with main := ⟨some "low", none, "high", true, false⟩ }

/-- The compiled prediction. -/
def sprint : Prediction :=
  { race with main := ⟨some (.literal 1), none, .literal 0, ⟨true, false⟩⟩ }

/-- The draft compiles to the prediction. -/
theorem compile_sprintDraft : Compile.prediction sprintDraft ⟨0, 0⟩ = .ok sprint := by
  have htime : Calendar.readTime sprintDraft.postedAt = .ok ⟨0, 0⟩ := by rfl
  have hconditions :
      Compile.conditions ⟨0, 0⟩ [] (sprintDraft.given.entries.map Compile.toEntry) =
        .ok sprint.given := by with_unfolding_all rfl
  have hentries :
      Compile.entries sprintDraft.given = sprintDraft.given.entries.map Compile.toEntry :=
    Compile.entries_of_sorted (by decide +kernel)
  simp only [Compile.prediction, hentries, htime, Except.mapError, bind, Except.bind, hconditions]
  with_unfolding_all rfl

/-- It is won in the same market. -/
theorem sprint_ahead :
    sprint.IsCompiled ∧ sprint.IsRace ∧ (∃ c, sprint.racer? = some c ∧
      ∃ t ∈ riseAndFallTicks, c.IsMetBy bitcoin t) ∧
      ∃ s, Session.start riseAndFall sprint 120 = .ok s ∧ ∃ done,
        s.drain riseAndFall 9 = (done, []) ∧ done.inactive = true ∧
        done.prediction.state.outcome = .correct := by
  have hcompiled : sprint.IsCompiled := ⟨sprintDraft, ⟨0, 0⟩, sprint, compile_sprintDraft, .inl rfl⟩
  have hbegun := start_riseAndFall (p := sprint) (by decide +kernel)
  have hrace : sprint.IsRace := .inl rfl
  obtain ⟨done, hdrain, hended, -, hwon⟩ :=
    race_ahead (i := bitcoin) hcompiled hrace rfl rfl rfl (Int.le_refl 0) rfl
      (Market.ticks_eq_ok_iff.2 ⟨rfl, rfl⟩) delivers_riseAndFallTicks hbegun (by decide +kernel)
      (show riseAndFallTicks.length < 9 by decide +kernel)
  exact ⟨hcompiled, hrace, ⟨_, rfl, by decide +kernel⟩, _, hbegun, done, hdrain, hended, hwon rfl⟩

end Session

end Forecast
