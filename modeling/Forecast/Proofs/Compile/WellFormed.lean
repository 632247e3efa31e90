import Forecast.Proofs.Clause.Spelling
import Forecast.Proofs.Prediction.Runs

/-!
# Compiled Predictions are Well-Formed

What reads a prediction takes it as it is: a position of no condition counts as true, and a
comparison of too few values never holds. So nothing later on would notice a prediction that was put
together wrongly, and compiling has to see to it that none is. This module says what a prediction
made from a draft is like (`Prediction.IsMadeFrom`):

* the conditions stand in the order of their names, no two of which are the same, and each can be
  evaluated (`Condition.IsWellFormed`);
* each clause is about conditions that are there, namely those whose names are written at its place
  in the draft (`Prediction.Wrote`), and a clause that is not written is not there;
* nothing has been seen or evaluated yet.

The names carry the argument. Entries are sorted by name, and compiling them refuses a name that is
taken, so names increase; and since a clause is read with the positions of the names in the same
list, its leaves are those positions.

## Main results

* `isMadeFrom_of_prediction`: what a draft is compiled to is made from it.
-/

namespace Forecast

/-- What a condition is like that can be evaluated and has seen nothing. -/
structure Condition.IsWellFormed (c : Condition Price) : Prop where
  name : Clause.isName c.name = true
  operands : c.operands.length = c.comparison.arity
  quoted : c.instruments ≠ []
  margin : 0 ≤ c.margin ∧ c.margin ≤ maxMargin
  state : c.state = .initial

/-- Whether a clause of a prediction is what an author wrote: at its leaves are the conditions
whose names are written, and every chain joins two clauses or more. -/
structure Prediction.Wrote (p : Prediction) (text : String) (c : Clause) : Prop where
  spells : Clause.Spells p.nameAt text c
  positions : ∀ i ∈ c.references, i < p.given.length
  chains : c.HasFullChains

/-- Whether a prediction is what a draft asks for. -/
structure Prediction.IsMadeFrom (p : Prediction) (draft : Draft) : Prop where
  id : p.id ≠ ""
  names : (p.given.map (·.name)).Pairwise (· < ·)
  given : ∀ c ∈ p.given, c.IsWellFormed
  preWrongIf : Option.Rel p.Wrote (Compile.given? (draft.pre.bind (·.wrongIf))) p.pre.wrongIf
  preAnnulledIf :
    Option.Rel p.Wrote (Compile.given? (draft.pre.bind (·.annulledIf))) p.pre.annulledIf
  prePredictIf :
    Option.Rel p.Wrote (Compile.given? (draft.pre.bind (·.predictIf))) p.pre.predictIf
  wrongIf : Option.Rel p.Wrote (Compile.given? draft.main.wrongIf) p.main.wrongIf
  annulledIf : Option.Rel p.Wrote (Compile.given? draft.main.annulledIf) p.main.annulledIf
  predict : Option.Rel p.Wrote (Compile.given? (some draft.main.predict)) (some p.main.predict)
  state : p.state = .initial
  shape : p.shape = p.inferShape

namespace Compile

/-! ### Conditions -/

/-- A comparison is split into as many operands as it takes. -/
theorem length_of_splitComparison {name text : String} {comparison : Comparison}
    {texts : List String} (h : splitComparison name text = .ok (comparison, texts)) :
    texts.length = comparison.arity := by
  simp only [splitComparison] at h
  split at h
  · split at h
    · cases h
      rfl
    · cases h
  · split at h
    · cases h
    next hother _ =>
      cases h
      cases comparison with
      | between => exact absurd rfl hother
      | equal | above | below | atLeast | atMost => rfl
    · cases h
  · cases h

/-- As many operands are read as are written. -/
theorem length_of_readOperands {name : String} {texts : List String}
    {operands : List (Operand Price)} (h : readOperands name texts = .ok operands) :
    operands.length = texts.length := by
  induction texts generalizing operands with
  | nil =>
      cases h
      rfl
  | cons text texts ih =>
      rw [readOperands] at h
      split at h
      · cases h
      next o ho =>
        cases hrest : readOperands name texts with
        | error e =>
            rw [hrest] at h
            cases h
        | ok os =>
            rw [hrest] at h
            cases h
            rw [List.length_cons, List.length_cons, ih hrest]

/-- A compiled condition has as many operands as its comparison takes. -/
theorem length_operands_of_condition {name : String} {draft : ConditionDraft}
    {postedAt : Calendar.Instant} {c : Condition Price}
    (h : condition name draft postedAt = .ok c) : c.operands.length = c.comparison.arity := by
  obtain ⟨comparison, texts, operands, _, _, _, hsplit, hread, -, -, rfl⟩ := exists_of_condition h
  exact (length_of_readOperands hread).trans (length_of_splitComparison hsplit)

/-- A compiled condition has its name, and is well-formed if the name can be used. -/
theorem isWellFormed_of_condition {name : String} {draft : ConditionDraft}
    {postedAt : Calendar.Instant} {c : Condition Price} (hname : Clause.isName name = true)
    (h : condition name draft postedAt = .ok c) : c.name = name ∧ c.IsWellFormed := by
  have hlength := length_operands_of_condition h
  have hquoted := instruments_of_condition h
  obtain ⟨comparison, texts, operands, start, stop, ratio, -, -, -, hmargin, rfl⟩ :=
    exists_of_condition h
  rw [isMargin, Bool.and_eq_true, decide_eq_true_eq, decide_eq_true_eq] at hmargin
  exact ⟨rfl, hname, hlength, hquoted, hmargin, rfl⟩

/-- Compiled conditions have the names of their entries, none of them twice or taken before. -/
theorem names_of_conditions {postedAt : Calendar.Instant} {taken : List String}
    {es : List Entry} {cs : List (Condition Price)} (h : conditions postedAt taken es = .ok cs) :
    cs.map (·.name) = es.map (·.name) ∧ (es.map (·.name)).Nodup ∧
      (∀ name ∈ taken, name ∉ es.map (·.name)) ∧ ∀ c ∈ cs, c.IsWellFormed := by
  induction es generalizing taken cs with
  | nil =>
      cases h
      exact ⟨rfl, .nil, fun _ _ => List.not_mem_nil, fun c hc => absurd hc List.not_mem_nil⟩
  | cons e es ih =>
      obtain ⟨hname, hfree, c, ds, hc, hds, rfl⟩ := exists_of_conditions_cons h
      obtain ⟨hcname, hwell⟩ := isWellFormed_of_condition hname hc
      obtain ⟨hnames, hnodup, htaken, hall⟩ := ih hds
      obtain ⟨hnot, htaken⟩ := List.forall_mem_cons.1 htaken
      refine ⟨?_, List.nodup_cons.2 ⟨hnot, hnodup⟩, fun name hmem => ?_,
        List.forall_mem_cons.2 ⟨hwell, hall⟩⟩
      · rw [List.map_cons, List.map_cons, hcname, hnames]
      · rw [List.map_cons, List.mem_cons, not_or]
        exact ⟨fun heq => hfree (heq ▸ hmem), htaken name hmem⟩

/-- Entries are in the order of their names. -/
theorem pairwise_entries (given : Keyed ConditionDraft) :
    ((entries given).map (·.name)).Pairwise (· ≤ ·) := by
  rw [List.pairwise_map, entries]
  refine (List.pairwise_mergeSort ?_ ?_ _).imp of_decide_eq_true
  · intro a b c hab hbc
    exact decide_eq_true (String.le_trans (of_decide_eq_true hab) (of_decide_eq_true hbc))
  · intro a b
    rw [Bool.or_eq_true, decide_eq_true_eq, decide_eq_true_eq]
    exact String.le_total a.name b.name

/-- The names of compiled conditions increase. -/
theorem pairwise_names {postedAt : Calendar.Instant} {given : Keyed ConditionDraft}
    {cs : List (Condition Price)} (h : conditions postedAt [] (entries given) = .ok cs) :
    (cs.map (·.name)).Pairwise (· < ·) := by
  obtain ⟨hnames, hnodup, -, -⟩ := names_of_conditions h
  rw [hnames]
  refine ((pairwise_entries given).and hnodup).imp fun hab => ?_
  obtain ⟨hle, hne⟩ := hab
  exact Std.lt_of_le_of_ne hle hne

/-! ### Clauses -/

section Clauses

variable {declared : String → Option Nat} {P : String → Clause → Prop}

/-- A clause is compiled exactly if it is written, to one that is read from its text. -/
theorem rel_of_clause? (hP : ∀ text c, Clause.parse declared text = .ok c → P text c)
    {name : String} {text : Option String} {c : Option Clause}
    (h : clause? declared name text = .ok c) : Option.Rel P (given? text) c := by
  rw [clause?] at h
  split at h
  next hnone =>
    cases h
    rw [hnone]
    exact .none
  next t hsome =>
    split at h
    next c hc =>
      cases h
      rw [hsome]
      exact .some (hP t c hc)
    · cases h

/-- The clauses of the first phase are read from their texts. -/
theorem rel_of_prePhase (hP : ∀ text c, Clause.parse declared text = .ok c → P text c)
    {d : Option PreDraft} {phase : PrePhase} (h : prePhase declared d = .ok phase) :
    Option.Rel P (given? (d.bind (·.wrongIf))) phase.wrongIf ∧
      Option.Rel P (given? (d.bind (·.annulledIf))) phase.annulledIf ∧
      Option.Rel P (given? (d.bind (·.predictIf))) phase.predictIf := by
  cases d with
  | none =>
      cases h
      exact ⟨.none, .none, .none⟩
  | some d =>
      simp only [prePhase, bind, Except.bind] at h
      split at h
      · cases h
      next hwrong =>
        split at h
        · cases h
        next hannulled =>
          split at h
          · cases h
          next hpredict =>
            cases h
            exact ⟨rel_of_clause? hP hwrong, rel_of_clause? hP hannulled,
              rel_of_clause? hP hpredict⟩

/-- The clauses of the second phase are read from their texts, and the main one is written. -/
theorem rel_of_mainPhase (hP : ∀ text c, Clause.parse declared text = .ok c → P text c)
    {d : MainDraft} {phase : MainPhase} (h : mainPhase declared d = .ok phase) :
    Option.Rel P (given? d.wrongIf) phase.wrongIf ∧
      Option.Rel P (given? d.annulledIf) phase.annulledIf ∧
      Option.Rel P (given? (some d.predict)) (some phase.predict) := by
  simp only [mainPhase, bind, Except.bind] at h
  split at h
  · cases h
  next hpredict =>
    split at h
    · cases h
    next predict =>
      split at h
      · cases h
      next hwrong =>
        split at h
        · cases h
        next hannulled =>
          cases h
          exact ⟨rel_of_clause? hP hwrong, rel_of_clause? hP hannulled,
            rel_of_clause? hP hpredict⟩

end Clauses

/-- A clause that is read with the positions of the names of conditions is what is written. -/
theorem wrote_of_parse {p : Prediction} {text : String} {c : Clause}
    (h : Clause.parse (fun name => p.given.findIdx? (·.name == name)) text = .ok c) :
    p.Wrote text c := by
  have hdeclared (word : String) (i : Nat)
      (hi : p.given.findIdx? (·.name == word) = some i) : p.nameAt i = some word := by
    obtain ⟨hlt, hname, -⟩ := List.findIdx?_eq_some_iff_getElem.1 hi
    rw [Prediction.nameAt, List.getElem?_eq_getElem hlt, Option.map_some, beq_iff_eq.1 hname]
  obtain ⟨hspells, hchains⟩ := Clause.spells_of_parse hdeclared h
  refine ⟨hspells, fun i hi => ?_, hchains⟩
  obtain ⟨name, hname⟩ := hspells.exists_nameAt i hi
  rw [Prediction.nameAt, Option.map_eq_some_iff] at hname
  obtain ⟨d, hd, -⟩ := hname
  exact (List.getElem?_eq_some_iff.1 hd).1

/-! ### Ids -/

/-- A derived id has a dash. -/
theorem derivedId_ne_empty (draft : Draft) (postedAt : Calendar.Instant) :
    derivedId draft postedAt ≠ "" := by
  intro h
  have hdash : '-' ∈ (derivedId draft postedAt).toList := by
    simp [derivedId]
  rw [h] at hdash
  exact List.not_mem_nil hdash

/-- A text that is given is not empty. -/
theorem given?_ne_empty {text : Option String} {t : String} (h : given? text = some t) :
    t ≠ "" := by
  rw [given?, Option.filter_eq_some_iff] at h
  exact of_decide_eq_true h.2

/-- The id of a compiled prediction is not empty. -/
theorem id_ne_empty (draft : Draft) (postedAt : Calendar.Instant) :
    (given? draft.id).getD (derivedId draft postedAt) ≠ "" := by
  cases hid : given? draft.id with
  | none => exact derivedId_ne_empty draft postedAt
  | some t => exact given?_ne_empty hid

/-! ### Predictions -/

/-- **What a draft is compiled to is made from it.** The names of its conditions increase, every
condition can be evaluated, every clause is there exactly if it is written, with the conditions at
its leaves whose names are written, and nothing has been seen or evaluated. -/
theorem isMadeFrom_of_prediction {draft : Draft} {createdAt : Calendar.Instant} {p : Prediction}
    (h : prediction draft createdAt = .ok p) : p.IsMadeFrom draft := by
  obtain ⟨postedAt, hgiven, hpre, hmain, hid, hstate, hshape⟩ := exists_of_prediction h
  have hwrote : ∀ text c,
      Clause.parse (fun name => p.given.findIdx? (·.name == name)) text = .ok c →
        p.Wrote text c := fun _ _ => wrote_of_parse
  obtain ⟨-, -, -, hwell⟩ := names_of_conditions hgiven
  obtain ⟨hpreWrong, hpreAnnulled, hprePredict⟩ := rel_of_prePhase hwrote hpre
  obtain ⟨hwrong, hannulled, hpredict⟩ := rel_of_mainPhase hwrote hmain
  exact
    { id := hid ▸ id_ne_empty draft postedAt
      names := pairwise_names hgiven
      given := hwell
      preWrongIf := hpreWrong
      preAnnulledIf := hpreAnnulled
      prePredictIf := hprePredict
      wrongIf := hwrong
      annulledIf := hannulled
      predict := hpredict
      state := hstate
      shape := hshape }

/-- A prediction in two phases, with names in several cases, as an author writes it. -/
def guardedDraft : Draft where
  id := none
  postedAt := "1970-01-01T00:00:00Z"
  reporter := "The Desk"
  postAuthor := ""
  postUrl := ""
  postText := ""
  given := .ofList
    [("Calm ", ⟨"2k >= MARKETCAP:BINANCE:BTC", none, none, some "1w", none⟩),
      ("HIGH", ⟨"COIN:BINANCE:BTC-USDT > 3", none, none, some "1d", some 0.1⟩),
      ("Range", ⟨"COIN:BINANCE:BTC-USDT BETWEEN 1 AND 5", none, none, some "1d", none⟩)]
  pre := some ⟨none, some "RANGE and (not high or Calm)", some " ", true, false⟩
  main := ⟨some "not Range", none, "high or calm or HIGH", false, true⟩

/-- The compiled prediction. -/
def guarded : Prediction where
  id := "the-desk-0"
  createdAt := ⟨0, 0⟩
  postedAt := ⟨0, 0⟩
  reporter := "The Desk"
  postAuthor := ""
  postUrl := ""
  postText := ""
  given :=
    [.fresh "calm" .atLeast [.number (2 * 1e3), .market (.marketcap "BINANCE" "BTC")] 0 604800 0,
      .fresh "high" .above [.market (.coin "BINANCE" "BTC" "USDT"), .number 3] 0 86400 0.1,
      .fresh "range" .between
        [.market (.coin "BINANCE" "BTC" "USDT"), .number 1, .number 5] 0 86400 0]
  pre :=
    ⟨none, some (.conj [.literal 2, .disj [.neg (.literal 1), .literal 0]]), none, ⟨true, false⟩⟩
  main :=
    ⟨some (.neg (.literal 2)), none, .disj [.literal 1, .literal 0, .literal 1], ⟨false, true⟩⟩
  state := .initial
  shape := .unsupported

/-- The draft compiles to the prediction, which is made from it. -/
theorem isMadeFrom_guarded :
    prediction guardedDraft ⟨0, 0⟩ = .ok guarded ∧ guarded.IsMadeFrom guardedDraft := by
  have htime : Calendar.readTime guardedDraft.postedAt = .ok ⟨0, 0⟩ := by rfl
  have hconditions : conditions ⟨0, 0⟩ [] (guardedDraft.given.entries.map toEntry) =
      .ok guarded.given := by with_unfolding_all rfl
  have hentries : entries guardedDraft.given = guardedDraft.given.entries.map toEntry :=
    entries_of_sorted (by decide +kernel)
  have hcompiled : prediction guardedDraft ⟨0, 0⟩ = .ok guarded := by
    simp only [prediction, hentries, htime, Except.mapError, bind, Except.bind, hconditions]
    with_unfolding_all rfl
  exact ⟨hcompiled, isMadeFrom_of_prediction hcompiled⟩

end Compile

end Forecast
