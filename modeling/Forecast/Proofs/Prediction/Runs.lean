import Forecast.Compile
import Forecast.Proofs.Prediction.Lifecycle

/-!
# Runs of a Prediction up to a Second

Between two moments a prediction is fed ticks and evaluated, in any order. `Prediction.Runs` is that
relation, with a bound on the times of the ticks. Along a run everything moves forward
(`Prediction.MovesForward`): settled conditions are not touched, times do not go back and do not
pass the bound, and the rank of the stored outcome does not fall.

The last point needs an invariant, since evaluation stores the outcome that follows from the
conditions whatever was stored before: the stored outcome has never a higher rank than that one
(`Prediction.IsKept`). A compiled prediction is kept, evaluated or not.
-/

namespace Forecast

/-- Whether all ticks of a feeding are of a second or earlier. -/
def Feeding.IsUpTo (now : Int) (f : Feeding) : Prop :=
  ∀ t ∈ f.ticks.values, t.timestamp ≤ now

/-- What a condition keeps while it is fed ticks up to a second. -/
structure Condition.MovesForward (now : Int) (c d : Condition Price) : Prop where
  /-- Nothing but the progress changes. -/
  frame : d = { c with state := d.state }
  /-- A settled condition has exactly the progress that it had. -/
  settled : c.value.isDecided = true → d.state = c.state
  lastTs : c.state.lastTs ≤ d.state.lastTs
  bound : d.state.lastTs ≤ max c.state.lastTs now

/-- What a prediction keeps while it is fed ticks up to a second and evaluated. -/
structure Prediction.MovesForward (now : Int) (p q : Prediction) : Prop where
  /-- Nothing changes but conditions and state: the id, the times, the clauses, the policies and
  the shape stay. -/
  frame : q = { p with given := q.given, state := q.state }
  given : ∀ i : Nat, Option.Rel (Condition.MovesForward now) p.given[i]? q.given[i]?
  rank : p.state.outcome.rank ≤ q.state.outcome.rank
  lastTs : p.state.lastTs ≤ q.state.lastTs

namespace Condition

/-- Staying as it is is moving forward. -/
theorem MovesForward.refl (now : Int) (c : Condition Price) : c.MovesForward now c :=
  ⟨rfl, fun _ => rfl, Int.le_refl _, Int.le_max_left _ _⟩

/-- Moving forward twice is moving forward. -/
theorem MovesForward.trans {now : Int} {b c d : Condition Price} (hbc : b.MovesForward now c)
    (hcd : c.MovesForward now d) : b.MovesForward now d where
  frame := by
    calc d = { c with state := d.state } := hcd.frame
      _ = { b with state := d.state } := by rw [hbc.frame]
  settled hb := by
    have hc : c.state = b.state := hbc.settled hb
    have hvalue : c.value = b.value := congrArg Progress.value hc
    exact (hcd.settled (hvalue ▸ hb)).trans hc
  lastTs := Int.le_trans hbc.lastTs hcd.lastTs
  bound := by
    have := hbc.bound
    have := hcd.bound
    omega

/-- A consistent condition moves forward when it is fed. -/
theorem movesForward_of_feed {c d : Condition Price} {ticks : TickSet Price} {now : Int}
    (hc : c.IsConsistent) (hnow : ∀ t ∈ ticks.values, t.timestamp ≤ now)
    (h : c.feed ticks = .ok d) : c.MovesForward now d where
  frame := (continues_of_feed h).frame
  settled hdecided := by rw [(continues_of_feed h).finished (hc ▸ hdecided)]
  lastTs := (continues_of_feed h).lastTs
  bound := lastTs_le_of_feed hnow h

end Condition

namespace Prediction

/-- Staying as it is is moving forward. -/
theorem MovesForward.refl (now : Int) (p : Prediction) : p.MovesForward now p where
  frame := rfl
  given i := by
    cases p.given[i]? with
    | none => exact .none
    | some c => exact .some (.refl now c)
  rank := Nat.le_refl _
  lastTs := Int.le_refl _

/-- Moving forward twice is moving forward. -/
theorem MovesForward.trans {now : Int} {p q r : Prediction} (hpq : p.MovesForward now q)
    (hqr : q.MovesForward now r) : p.MovesForward now r where
  frame := by
    calc r = { q with given := r.given, state := r.state } := hqr.frame
      _ = { p with given := r.given, state := r.state } := by rw [hpq.frame]
  given i := rel_trans (R := Condition.MovesForward now) (fun _ _ _ => .trans) (hpq.given i)
    (hqr.given i)
  rank := Nat.le_trans hpq.rank hqr.rank
  lastTs := Int.le_trans hpq.lastTs hqr.lastTs

/-! ### Kept predictions -/

/-- Whether a prediction may have been kept: its conditions are consistent, and what is stored of
its outcome is no further than what follows from them. -/
def IsKept (p : Prediction) : Prop :=
  p.IsConsistent ∧ p.state.outcome.rank ≤ p.outcome.rank

instance (p : Prediction) : Decidable p.IsKept :=
  inferInstanceAs (Decidable (_ ∧ _))

/-- Feeding keeps a prediction as it should be. -/
theorem isKept_feed {p : Prediction} (hp : p.IsKept) (f : Feeding) : (p.feed f).IsKept := by
  have hframe : (p.feed f).state = p.state := by rw [p.feed_frame f]
  obtain ⟨hrank, -⟩ := outcome_leadsTo (pre_feedAll p [f]) (main_feedAll p [f])
    (settling_feedAll hp.1 [f])
  refine ⟨isConsistent_feedAll hp.1 [f], ?_⟩
  rw [hframe]
  exact Nat.le_trans hp.2 hrank

/-- Evaluation keeps a prediction as it should be. -/
theorem isKept_evaluated {p : Prediction} (hp : p.IsConsistent) : p.evaluated.IsKept :=
  ⟨hp, Nat.le_refl _⟩

/-- To evaluate once more changes nothing. -/
@[simp] theorem evaluated_evaluated (p : Prediction) : p.evaluated.evaluated = p.evaluated := by
  have hlatest : p.evaluated.latest = p.latest := rfl
  have houtcome : p.evaluated.outcome = p.outcome := rfl
  rw [evaluated, hlatest, houtcome]
  simp only [evaluated, Int.max_assoc, Int.max_self]

/-! ### Runs -/

/-- What comes of a prediction by feeding it ticks up to a second and evaluating it. -/
inductive Runs (now : Int) : Prediction → Prediction → Prop
  | refl (p : Prediction) : Runs now p p
  | feed {p q : Prediction} {f : Feeding} :
      Runs now p q → f.IsUpTo now → Runs now p (q.feed f)
  | evaluate {p q : Prediction} : Runs now p q → Runs now p q.evaluated

/-- A run after a run is a run. -/
theorem Runs.trans {now : Int} {p q r : Prediction} (hpq : Runs now p q) (hqr : Runs now q r) :
    Runs now p r := by
  induction hqr with
  | refl => exact hpq
  | feed _ hf ih => exact ih.feed hf
  | evaluate _ ih => exact ih.evaluate

/-- A run leaves everything alone but conditions and state. -/
theorem Runs.frame {now : Int} {p q : Prediction} (h : Runs now p q) :
    q = { p with given := q.given, state := q.state } := by
  induction h with
  | refl => rfl
  | @feed q f _ _ ih =>
      calc q.feed f = { q with given := (q.feed f).given } := q.feed_frame f
        _ = { p with given := (q.feed f).given, state := q.state } := by rw [ih]
        _ = { p with given := (q.feed f).given, state := (q.feed f).state } := by
            rw [q.feed_frame f]
  | @evaluate q _ ih =>
      calc q.evaluated = { q with state := q.evaluated.state } := rfl
        _ = { p with given := q.evaluated.given, state := q.evaluated.state } := by
            rw [ih]
            rfl

/-- A feeding moves a kept prediction forward. -/
theorem movesForward_feed {now : Int} {p : Prediction} (hp : p.IsKept) {f : Feeding}
    (hf : f.IsUpTo now) : p.MovesForward now (p.feed f) where
  frame := (Runs.feed (.refl p) hf).frame
  given := rel_given_feed (.refl now) p fun c hc _ hd =>
    Condition.movesForward_of_feed (hp.1 c hc) hf hd
  rank := Nat.le_of_eq (by rw [p.feed_frame f])
  lastTs := Int.le_of_eq (by rw [p.feed_frame f])

/-- Evaluation moves a kept prediction forward. -/
theorem movesForward_evaluated (now : Int) {p : Prediction} (hp : p.IsKept) :
    p.MovesForward now p.evaluated where
  frame := rfl
  given := (MovesForward.refl now p).given
  rank := hp.2
  lastTs := Int.le_max_left _ _

/-- **A run moves a kept prediction forward,** and what comes of it is kept again. -/
theorem Runs.movesForward {now : Int} {p q : Prediction} (h : Runs now p q) (hp : p.IsKept) :
    q.IsKept ∧ p.MovesForward now q := by
  induction h with
  | refl => exact ⟨hp, .refl now p⟩
  | feed _ hf ih =>
      obtain ⟨hq, hpq⟩ := ih
      exact ⟨isKept_feed hq _, hpq.trans (movesForward_feed hq hf)⟩
  | evaluate _ ih =>
      obtain ⟨hq, hpq⟩ := ih
      exact ⟨isKept_evaluated hq.1, hpq.trans (movesForward_evaluated now hq)⟩

/-! ### Compiled predictions -/

/-- A prediction as it comes from a draft, evaluated or not. -/
def IsCompiled (p : Prediction) : Prop :=
  ∃ draft createdAt q, Compile.prediction draft createdAt = .ok q ∧ (p = q ∨ p = q.evaluated)

end Prediction

namespace Compile

/-- A condition is compiled exactly if every step of it is. -/
theorem condition_eq_ok_iff_steps {name : String} {draft : ConditionDraft}
    {postedAt : Calendar.Instant} {c : Condition Price} :
    condition name draft postedAt = .ok c ↔
      ∃ comparison texts operands start stop,
        splitComparison name draft.condition = .ok (comparison, texts) ∧
        readOperands name texts = .ok operands ∧
        operands.all Operand.isNumber = false ∧
        windowStart name draft postedAt = .ok start ∧
        windowEnd name draft start = .ok stop ∧
        start.before stop = true ∧
        isMargin (draft.margin.getD 0) = true ∧
        c = .fresh name comparison operands start.seconds stop.seconds (draft.margin.getD 0) := by
  constructor
  · intro h
    simp only [condition, bind, Except.bind] at h
    split at h
    · cases h
    next hsplit =>
      split at h
      · cases h
      next hread =>
        split at h
        · cases h
        next hquoted =>
          split at h
          · cases h
          next hstart =>
            split at h
            · cases h
            next hstop =>
              split at h
              · cases h
              next hbefore =>
                split at h
                · cases h
                next hmargin =>
                  cases h
                  exact ⟨_, _, _, _, _, hsplit, hread, Bool.eq_false_iff.2 hquoted, hstart, hstop,
                    by simpa using hbefore, by simpa using hmargin, rfl⟩
  · rintro ⟨comparison, texts, operands, start, stop, hsplit, hread, hquoted, hstart, hstop,
      hbefore, hmargin, rfl⟩
    simp [condition, bind, Except.bind, hsplit, hread, hquoted, hstart, hstop, hbefore, hmargin]

/-- A compiled condition has read the operands of its comparison, not all numbers, and has an
allowed margin. -/
theorem exists_of_condition {name : String} {draft : ConditionDraft} {postedAt : Calendar.Instant}
    {c : Condition Price} (h : condition name draft postedAt = .ok c) :
    ∃ comparison texts operands start stop ratio,
      splitComparison name draft.condition = .ok (comparison, texts) ∧
      readOperands name texts = .ok operands ∧ operands.all Operand.isNumber = false ∧
      isMargin ratio = true ∧ c = .fresh name comparison operands start stop ratio := by
  obtain ⟨comparison, texts, operands, _, _, hsplit, hread, hquoted, -, -, -, hmargin, rfl⟩ :=
    condition_eq_ok_iff_steps.1 h
  exact ⟨comparison, texts, operands, _, _, _, hsplit, hread, hquoted, hmargin, rfl⟩

/-- A compiled condition has seen nothing. -/
theorem state_of_condition {name : String} {draft : ConditionDraft} {postedAt : Calendar.Instant}
    {c : Condition Price} (h : condition name draft postedAt = .ok c) : c.state = .initial := by
  obtain ⟨_, _, _, _, _, _, -, -, -, -, rfl⟩ := exists_of_condition h
  rfl

/-- A compiled condition quotes an instrument. -/
theorem instruments_of_condition {name : String} {draft : ConditionDraft}
    {postedAt : Calendar.Instant} {c : Condition Price}
    (h : condition name draft postedAt = .ok c) : c.instruments ≠ [] := by
  obtain ⟨_, _, operands, _, _, _, -, -, hquoted, -, rfl⟩ := exists_of_condition h
  intro hnone
  obtain ⟨o, ho, hmarket⟩ := List.all_eq_false.1 hquoted
  cases o with
  | number v => exact hmarket rfl
  | market i =>
      have hi : i ∈ operands.filterMap Operand.instrument? := List.mem_filterMap.2 ⟨_, ho, rfl⟩
      rw [show operands.filterMap Operand.instrument? = [] from hnone] at hi
      exact absurd hi List.not_mem_nil

/-- The entry of a condition draft. -/
def toEntry (e : String × ConditionDraft) : Entry :=
  ⟨Text.lower (Text.trim e.1), e.1, e.2⟩

/-- Entries whose names in lower case are in order stay where they are. -/
theorem entries_of_sorted {given : Keyed ConditionDraft}
    (h : (given.entries.map toEntry).Pairwise fun a b => decide (a.name ≤ b.name) = true) :
    entries given = given.entries.map toEntry :=
  List.mergeSort_of_pairwise h

/-- Conditions are compiled one by one, each under a name that can be used and is not taken. -/
theorem exists_of_conditions_cons {postedAt : Calendar.Instant} {taken : List String} {e : Entry}
    {es : List Entry} {cs : List (Condition Price)}
    (h : conditions postedAt taken (e :: es) = .ok cs) :
    Clause.isName e.name = true ∧ e.name ∉ taken ∧ ∃ c ds,
      condition e.name e.draft postedAt = .ok c ∧
      conditions postedAt (e.name :: taken) es = .ok ds ∧ cs = c :: ds := by
  rw [conditions] at h
  split at h
  · cases h
  next hname =>
    split at h
    · cases h
    next htaken =>
      split at h
      · cases h
      next c hc =>
        cases hrest : conditions postedAt (e.name :: taken) es with
        | error err =>
            rw [hrest] at h
            cases h
        | ok ds =>
            rw [hrest] at h
            cases h
            exact ⟨by simpa using hname, by simpa using htaken, c, ds, hc, rfl, rfl⟩

/-- What holds of every condition that is compiled holds of compiled conditions. -/
theorem forall_of_conditions {P : Condition Price → Prop} {postedAt : Calendar.Instant}
    (hP : ∀ name draft c, condition name draft postedAt = .ok c → P c) {taken : List String}
    {es : List Entry} {cs : List (Condition Price)} (h : conditions postedAt taken es = .ok cs) :
    ∀ c ∈ cs, P c := by
  induction es generalizing taken cs with
  | nil =>
      cases h
      exact fun c hc => absurd hc List.not_mem_nil
  | cons e es ih =>
      obtain ⟨-, -, c, ds, hc, hds, rfl⟩ := exists_of_conditions_cons h
      exact List.forall_mem_cons.2 ⟨hP _ _ c hc, ih hds⟩

/-- A prediction is compiled from the conditions of its draft in the order of their names, and then
from its clauses, which refer to conditions by their names. -/
theorem exists_of_prediction {draft : Draft} {createdAt : Calendar.Instant} {p : Prediction}
    (h : prediction draft createdAt = .ok p) :
    ∃ postedAt, conditions postedAt [] (entries draft.given) = .ok p.given ∧
      prePhase (fun name => p.given.findIdx? (·.name == name)) draft.pre = .ok p.pre ∧
      mainPhase (fun name => p.given.findIdx? (·.name == name)) draft.main = .ok p.main ∧
      p.id = (given? draft.id).getD (derivedId draft postedAt) ∧
      p.state = .initial ∧ p.shape = p.inferShape := by
  simp only [prediction, bind, Except.bind] at h
  split at h
  · cases h
  split at h
  · cases h
  next hgiven =>
    split at h
    · cases h
    next hpre =>
      split at h
      · cases h
      next hmain =>
        cases h
        exact ⟨_, hgiven, hpre, hmain, rfl, rfl, rfl⟩

/-- A compiled prediction has not been evaluated, and its conditions are compiled. -/
theorem forall_of_prediction {P : Condition Price → Prop}
    (hP : ∀ name draft postedAt c, condition name draft postedAt = .ok c → P c) {draft : Draft}
    {createdAt : Calendar.Instant} {p : Prediction} (h : prediction draft createdAt = .ok p) :
    p.state = .initial ∧ ∀ c ∈ p.given, P c := by
  obtain ⟨postedAt, hgiven, -, -, -, hstate, -⟩ := exists_of_prediction h
  exact ⟨hstate, forall_of_conditions (fun name draft => hP name draft postedAt) hgiven⟩

/-- A compiled prediction has not been evaluated, and its conditions have seen nothing. -/
theorem state_of_prediction {draft : Draft} {createdAt : Calendar.Instant} {p : Prediction}
    (h : prediction draft createdAt = .ok p) :
    p.state = .initial ∧ ∀ c ∈ p.given, c.state = .initial :=
  forall_of_prediction (fun _ _ _ _ => state_of_condition) h

end Compile

namespace Prediction

/-- What a draft that can be compiled is compiled to is compiled. -/
theorem isCompiled_of_isOk {draft : Draft} {createdAt : Calendar.Instant}
    (h : (Compile.prediction draft createdAt).isOk = true) (other : Prediction) :
    ((Compile.prediction draft createdAt).toOption.getD other).IsCompiled := by
  cases hp : Compile.prediction draft createdAt with
  | error e =>
      rw [hp] at h
      cases h
  | ok p => exact ⟨draft, createdAt, p, hp, Or.inl rfl⟩

/-- The conditions of a compiled prediction have seen nothing, and it has not been evaluated or it
stands as evaluated. -/
theorem IsCompiled.fresh {p : Prediction} (h : p.IsCompiled) :
    (∀ c ∈ p.given, c.state = .initial) ∧ (p.isFinal = true → p.evaluated = p) := by
  obtain ⟨draft, createdAt, q, hq, rfl | rfl⟩ := h
  · obtain ⟨hstate, hgiven⟩ := Compile.state_of_prediction hq
    refine ⟨hgiven, fun hfinal => ?_⟩
    rw [isFinal, hstate] at hfinal
    cases hfinal
  · obtain ⟨-, hgiven⟩ := Compile.state_of_prediction hq
    exact ⟨hgiven, fun _ => q.evaluated_evaluated⟩

/-- Every condition of a compiled prediction quotes an instrument. -/
theorem IsCompiled.quoted {p : Prediction} (h : p.IsCompiled) :
    ∀ c ∈ p.given, c.instruments ≠ [] := by
  obtain ⟨draft, createdAt, q, hq, hp⟩ := h
  have hquoted : ∀ c ∈ q.given, c.instruments ≠ [] :=
    (Compile.forall_of_prediction (fun _ _ _ _ => Compile.instruments_of_condition) hq).2
  rcases hp with rfl | rfl
  · exact hquoted
  · exact hquoted

/-- A compiled prediction may be kept, evaluated or not. -/
theorem IsCompiled.isKept {p : Prediction} (h : p.IsCompiled) : p.IsKept := by
  obtain ⟨draft, createdAt, q, hq, hp⟩ := h
  obtain ⟨hstate, hgiven⟩ := Compile.state_of_prediction hq
  have hcons : q.IsConsistent := by
    intro c hc
    rw [Condition.IsConsistent, Condition.value, Condition.isFinished, hgiven c hc]
    rfl
  rcases hp with rfl | rfl
  · refine ⟨hcons, ?_⟩
    rw [hstate]
    exact Nat.zero_le _
  · exact isKept_evaluated hcons

end Prediction

end Forecast
