import Forecast.Proofs.Compile.WellFormed
import Forecast.Proofs.Prediction.Actionable

/-!
# Predictions That Nothing Is Known Of

A prediction is final only on account of a condition that is settled. For a clause over conditions
that are all open is open itself, as long as its chains have members and its leaves are conditions
that are there; a side clause that is open neither annuls the prediction nor makes it wrong,
whatever the policies say of open side clauses; and without an open or settled main clause nothing
comes true.

Compiling sees to both provisos (`Prediction.IsCompiled.hasSoundClauses`). Without them it would be
otherwise: a chain without members holds, and so does a position of no condition.

## Main results

* `Clause.evaluate_of_undecided`: a clause over open conditions is open.
* `Prediction.HasSoundClauses.open_of_undecided`: a prediction over open conditions is open.
-/

namespace Forecast

namespace Trilean

/-- Values of a list that are all open. -/
theorem eq_replicate_of_map {α : Type} {f : α → Trilean} {xs : List α}
    (h : ∀ x ∈ xs, f x = .undecided) : xs.map f = List.replicate xs.length .undecided :=
  List.eq_replicate_iff.2 ⟨List.length_map _, List.forall_mem_map.2 h⟩

/-- A fold that an open value leaves open is open. -/
theorem foldl_replicate {op : Trilean → Trilean → Trilean}
    (hop : op .undecided .undecided = .undecided) (n : Nat) :
    (List.replicate n .undecided).foldl op .undecided = .undecided := by
  induction n with
  | zero => rfl
  | succ n ih => rw [List.replicate_succ, List.foldl_cons, hop, ih]

end Trilean

namespace Clause

/-- In a list of clauses with full chains each has full chains. -/
theorem hasFullChains_of_mem {cs : List Clause} (h : AllHaveFullChains cs) :
    ∀ c ∈ cs, c.HasFullChains := by
  induction cs with
  | nil => exact fun c hc => absurd hc List.not_mem_nil
  | cons c cs ih => exact List.forall_mem_cons.2 ⟨h.1, ih h.2⟩

/-- **A clause over open conditions is open,** if its chains have members. -/
theorem evaluate_of_undecided {v : Nat → Option Trilean} {c : Clause} (hchains : c.HasFullChains)
    (h : ∀ i ∈ c.references, v i = some .undecided) : c.evaluate v = .undecided := by
  have members {cs : List Clause} (hfull : AllHaveFullChains cs)
      (hrefs : ∀ i ∈ referencesOf cs, v i = some .undecided)
      (ih : ∀ c ∈ cs, c.HasFullChains → (∀ i ∈ c.references, v i = some .undecided) →
        c.evaluate v = .undecided) :
      cs.map (evaluate v) = List.replicate cs.length .undecided :=
    Trilean.eq_replicate_of_map fun c hc => ih c hc (hasFullChains_of_mem hfull c hc)
      fun i hi => hrefs i (mem_referencesOf hc hi)
  induction c using Clause.induction with
  | literal i =>
      rw [evaluate, h i List.mem_cons_self]
      rfl
  | conj cs ih =>
      obtain ⟨hlength, hfull⟩ := hchains
      rw [evaluate, evaluateEach_eq_map, members hfull h ih]
      obtain ⟨n, hn⟩ : ∃ n, cs.length = n + 1 := ⟨cs.length - 1, by omega⟩
      rw [hn, List.replicate_succ, Trilean.all, List.foldl_cons]
      exact Trilean.foldl_replicate rfl n
  | disj cs ih =>
      obtain ⟨hlength, hfull⟩ := hchains
      rw [evaluate, evaluateEach_eq_map, members hfull h ih]
      obtain ⟨n, hn⟩ : ∃ n, cs.length = n + 1 := ⟨cs.length - 1, by omega⟩
      rw [hn, List.replicate_succ, Trilean.any]
      exact Trilean.foldl_replicate rfl n
  | neg c ih =>
      rw [evaluate, ih hchains h]
      rfl

end Clause

section Phases

variable {v : Nat → Option Trilean}

/-- A side clause that is open if it is there does not hold. -/
theorem sideValue_ne_yes {side : Option Clause}
    (h : ∀ c, side = some c → c.evaluate v = .undecided) : sideValue v side ≠ .yes := by
  cases side with
  | none => nofun
  | some c =>
      rw [sideValue, h c rfl]
      nofun

/-- A first phase whose clauses are open waits or is passed. -/
theorem PrePhase.isFinal_eq_false {p : PrePhase}
    (h : ∀ c, some c ∈ p.clauses → c.evaluate v = .undecided) : (p.evaluate v).isFinal = false := by
  have hwrong := sideValue_ne_yes fun c (hc : p.wrongIf = some c) => h c (by simp [clauses, hc])
  have hannulled := sideValue_ne_yes fun c (hc : p.annulledIf = some c) =>
    h c (by simp [clauses, hc])
  have hmain : Clause.evaluateOptional v p.predictIf ≠ .no := by
    cases hpredict : p.predictIf with
    | none =>
        intro heq
        cases heq
    | some c =>
        rw [Clause.evaluateOptional, h c (by simp [clauses, hpredict])]
        intro heq
        cases heq
  by_contra hfinal
  have hclosed {o : Outcome} (ho : o.isFinal = false) : p.evaluate v ≠ o := by
    rintro rfl
    exact hfinal ho
  have hneither : p.evaluate v ≠ .waiting ∧ p.evaluate v ≠ .running := ⟨hclosed rfl, hclosed rfl⟩
  rcases Policy.fails_of_resolvePre hneither with ha | hw | hm
  · exact hannulled (Policy.settle_eq_yes_iff.1 ha)
  · exact hwrong (Policy.settle_eq_yes_iff.1 hw)
  · exact hmain hm

/-- A second phase whose clauses are open runs. -/
theorem MainPhase.isFinal_eq_false {p : MainPhase}
    (h : ∀ c, some c ∈ p.clauses → c.evaluate v = .undecided) : (p.evaluate v).isFinal = false := by
  have hwrong := sideValue_ne_yes fun c (hc : p.wrongIf = some c) => h c (by simp [clauses, hc])
  have hannulled := sideValue_ne_yes fun c (hc : p.annulledIf = some c) =>
    h c (by simp [clauses, hc])
  have hmain : p.predict.evaluate v = .undecided := h p.predict (by simp [clauses])
  rw [evaluate, Policy.resolveMain_eq_running_iff.2
    ⟨mt Policy.settle_eq_yes_iff.1 hannulled, mt Policy.settle_eq_yes_iff.1 hwrong, Or.inl hmain⟩]
  rfl

end Phases

namespace Prediction

/-- Whether all clauses of a prediction have full chains, and leaves that are conditions of it. -/
def HasSoundClauses (p : Prediction) : Prop :=
  ∀ c, some c ∈ p.pre.clauses ++ p.main.clauses →
    (∀ i ∈ c.references, i < p.given.length) ∧ c.HasFullChains

/-- **A prediction over open conditions is open.** -/
theorem HasSoundClauses.open_of_undecided {p : Prediction} (h : p.HasSoundClauses)
    (hopen : ∀ c ∈ p.given, c.value = .undecided) : p.outcome.isFinal = false := by
  have hclauses : ∀ c, some c ∈ p.pre.clauses ++ p.main.clauses →
      c.evaluate p.valueAt = .undecided := by
    intro c hc
    obtain ⟨hpositions, hchains⟩ := h c hc
    refine Clause.evaluate_of_undecided hchains fun i hi => ?_
    have hlt := hpositions i hi
    rw [valueAt, List.getElem?_eq_getElem hlt, Option.map_some,
      hopen _ (List.getElem_mem hlt)]
  by_cases hrun : p.pre.evaluate p.valueAt = .running
  · rw [outcome_of_running hrun]
    exact MainPhase.isFinal_eq_false fun c hc => hclauses c (List.mem_append_right _ hc)
  · rw [outcome_of_ne_running hrun]
    exact PrePhase.isFinal_eq_false fun c hc => hclauses c (List.mem_append_left _ hc)

/-- The clauses of a prediction stay sound if as many conditions are there. -/
theorem HasSoundClauses.congr {p q : Prediction} (h : p.HasSoundClauses) (hpre : q.pre = p.pre)
    (hmain : q.main = p.main) (hlength : q.given.length = p.given.length) : q.HasSoundClauses := by
  rw [HasSoundClauses, hpre, hmain, hlength]
  exact h

/-- What is written of a clause says that it is sound. -/
theorem forall_of_wrote {p : Prediction} {text : Option String} {c : Option Clause}
    (h : Option.Rel p.Wrote text c) :
    ∀ d, some d = c → (∀ i ∈ d.references, i < p.given.length) ∧ d.HasFullChains := by
  rintro d rfl
  cases h with
  | some hwrote => exact ⟨hwrote.positions, hwrote.chains⟩

/-- **The clauses of a compiled prediction are sound.** -/
theorem IsCompiled.hasSoundClauses {p : Prediction} (h : p.IsCompiled) : p.HasSoundClauses := by
  obtain ⟨draft, createdAt, q, hq, hp⟩ := h
  have hsound : q.HasSoundClauses := by
    obtain ⟨postedAt, -, hpre, hmain, -⟩ := Compile.exists_of_prediction hq
    obtain ⟨hpreWrong, hpreAnnulled, hprePredict⟩ :=
      Compile.rel_of_prePhase (fun _ _ => Compile.wrote_of_parse (p := q)) hpre
    obtain ⟨hwrong, hannulled, hpredict⟩ :=
      Compile.rel_of_mainPhase (fun _ _ => Compile.wrote_of_parse (p := q)) hmain
    intro c hc
    simp only [PrePhase.clauses, MainPhase.clauses, List.cons_append, List.nil_append, List.mem_cons,
      List.not_mem_nil, or_false] at hc
    rcases hc with hc | hc | hc | hc | hc | hc
    · exact forall_of_wrote hpreWrong c hc
    · exact forall_of_wrote hpreAnnulled c hc
    · exact forall_of_wrote hprePredict c hc
    · exact forall_of_wrote hwrong c hc
    · exact forall_of_wrote hannulled c hc
    · exact forall_of_wrote hpredict c hc
  rcases hp with rfl | rfl
  · exact hsound
  · exact hsound.congr rfl rfl rfl

end Prediction

end Forecast
