import Forecast.Report
import Forecast.Proofs.Compile.WellFormed
import Forecast.Proofs.Session.Reset

/-!
# What Is Told of a Prediction

A prediction with a shape is told in one sentence. The shape is inferred from the clauses when the
prediction is compiled. The sentence is written whenever it is asked for; it looks the conditions up
again, and takes their operands from fixed places: the coin from the first, levels from those behind it.
Nothing is checked then, so that what was inferred once must be enough.

It is enough because a shape tells which conditions are there and whether they compare with a range
(`Prediction.HasShape`), and a compiled condition has as many operands as its comparison takes. Neither
depends on what has been seen: the shape and the sentence are those of the cleared prediction
(`inferShape_cleared`, `sentence_cleared`), and clearing undoes whatever has been done.

The full description contains the summary. It takes no other operands from fixed places; the line of a
condition shows as many as there are.

## Main results

* `Prediction.hasShape_inferShape`: what an inferred shape says of the clauses.
* `Prediction.HasShape.exists_sentence`: a shape is enough for its sentence.
* `Stage.told_for_good`: a compiled prediction keeps its shape and its sentence, which has all the
  operands that it needs.
-/

namespace Forecast

/-- Every comparison takes a value and something to compare it with. -/
theorem Comparison.two_le_arity (c : Comparison) : 2 ≤ c.arity := by
  cases c <;> decide

namespace Prediction

variable {p : Prediction} {c : Condition Price}

/-! ### What has been seen does not count -/

theorem pre_cleared (p : Prediction) : p.cleared.pre = p.pre := rfl

theorem main_cleared (p : Prediction) : p.cleared.main = p.main := rfl

theorem shape_cleared (p : Prediction) : p.cleared.shape = p.shape := rfl

theorem coinCondition?_cleared (p : Prediction) (side : Option Clause) :
    p.cleared.coinCondition? side = (p.coinCondition? side).map Condition.cleared := by
  rw [coinCondition?.eq_def, coinCondition?.eq_def]
  split
  · rw [cleared, List.getElem?_map, Option.filter_map]
    rfl
  · rfl

/-- What has been seen does not count for the shape. -/
theorem inferShape_cleared (p : Prediction) : p.cleared.inferShape = p.inferShape := by
  simp only [inferShape, pre_cleared, main_cleared, coinCondition?_cleared, Option.any_map]
  cases p.coinCondition? (some p.main.predict) with
  | none => rfl
  | some c => rfl

/-- What has been seen does not count for the sentence. -/
theorem sentence_cleared (p : Prediction) : p.cleared.sentence = p.sentence := by
  simp only [sentence, shape_cleared, main_cleared, coinCondition?_cleared]
  cases p.coinCondition? (some p.main.predict) with
  | none => cases p.shape <;> rfl
  | some c =>
      cases p.coinCondition? (p.main.wrongIf <|> p.main.annulledIf) with
      | none => cases p.shape <;> rfl
      | some d => cases p.shape <;> rfl

/-- What has been seen does not count for the summary. -/
theorem summary_cleared (p : Prediction) : p.cleared.summary = p.summary := by
  have hname : p.cleared.nameAt = p.nameAt := by
    funext i
    rw [nameAt, nameAt, cleared, List.getElem?_map, Option.map_map]
    rfl
  rw [summary, summary, sentence_cleared, render, render, hname, main_cleared]

/-! ### What a shape says of the clauses -/

/-- Whether the clauses of a prediction have a shape, as far as its sentence goes: the conditions that
the sentence is about are there, and compare with a range or with a level. -/
inductive HasShape (p : Prediction) : Shape → Prop
  | unsupported : HasShape p .unsupported
  | deadline {main : Condition Price} (hmain : p.coinCondition? (some p.main.predict) = some main)
      (hlevel : main.comparison ≠ .between) : HasShape p .deadline
  | range {main : Condition Price} (hmain : p.coinCondition? (some p.main.predict) = some main)
      (hrange : main.comparison = .between) : HasShape p .range
  | raceOrWrong {main rival : Condition Price}
      (hmain : p.coinCondition? (some p.main.predict) = some main)
      (hrival : p.coinCondition? (p.main.wrongIf <|> p.main.annulledIf) = some rival)
      (hrivals : areRivals main rival = true) : HasShape p .raceOrWrong
  | raceOrAnnulled {main rival : Condition Price}
      (hmain : p.coinCondition? (some p.main.predict) = some main)
      (hrival : p.coinCondition? (p.main.wrongIf <|> p.main.annulledIf) = some rival)
      (hrivals : areRivals main rival = true) : HasShape p .raceOrAnnulled

/-- **A prediction has the shape that is inferred.** -/
theorem hasShape_inferShape (p : Prediction) : p.HasShape p.inferShape := by
  rw [inferShape]
  split
  · exact .unsupported
  · split
    · exact .unsupported
    · next c hmain =>
        split
        · next hwrong hannulled =>
            split
            · next hrange => exact .range hmain hrange
            · next hlevel => exact .deadline hmain hlevel
        · next wrong hwrong hannulled =>
            split
            · next hany =>
                obtain ⟨d, hd, hrivals⟩ := (Option.any_eq_true _ _).1 hany
                refine .raceOrWrong hmain ?_ hrivals
                rw [hwrong]
                exact hd
            · exact .unsupported
        · next annulled hwrong hannulled =>
            split
            · next hany =>
                obtain ⟨d, hd, hrivals⟩ := (Option.any_eq_true _ _).1 hany
                refine .raceOrAnnulled hmain ?_ hrivals
                rw [hwrong, hannulled]
                exact hd
            · exact .unsupported
        · exact .unsupported

/-! ### What a sentence needs -/

/-- Whether the conditions of a prediction have as many operands as their comparisons take. -/
def IsComplete (p : Prediction) : Prop :=
  ∀ c ∈ p.given, c.operands.length = c.comparison.arity

/-- An operand that is there can be told. -/
theorem exists_operandText {i : Nat} (hi : i < c.operands.length) :
    ∃ s, operandText c i = .ok s := by
  rw [operandText, List.getElem?_eq_getElem hi]
  exact ⟨_, rfl⟩

/-- A condition of a complete prediction has its operands. -/
theorem IsComplete.exists_operandText (hp : p.IsComplete) {side : Option Clause}
    (hc : p.coinCondition? side = some c) {i : Nat} (hi : i < c.comparison.arity) :
    ∃ s, operandText c i = .ok s := by
  have hmem : c ∈ p.given := by
    unfold coinCondition? at hc
    split at hc
    · exact List.mem_of_getElem? (Option.filter_eq_some_iff.1 hc).1
    · cases hc
  exact Prediction.exists_operandText (hp c hmem ▸ hi)

/-- A condition of a complete prediction has a value and something to compare it with. -/
theorem IsComplete.exists_coin_and_level (hp : p.IsComplete) {side : Option Clause}
    (hc : p.coinCondition? side = some c) :
    ∃ coin level, operandText c 0 = .ok coin ∧ operandText c 1 = .ok level := by
  have htwo := c.comparison.two_le_arity
  obtain ⟨coin, hcoin⟩ := hp.exists_operandText hc (Nat.lt_of_lt_of_le Nat.zero_lt_two htwo)
  obtain ⟨level, hlevel⟩ := hp.exists_operandText hc htwo
  exact ⟨coin, level, hcoin, hlevel⟩

/-- **A shape is enough for its sentence:** all operands that are asked for are there, and there is a
sentence unless the shape has none. -/
theorem HasShape.exists_sentence {shape : Shape} (h : p.HasShape shape) (hshape : p.shape = shape)
    (hp : p.IsComplete) :
    ∃ told, p.sentence = .ok told ∧ (told = none ↔ shape = .unsupported) := by
  cases h with
  | unsupported =>
      rw [sentence, hshape]
      exact ⟨none, rfl, iff_of_true rfl rfl⟩
  | deadline hmain =>
      obtain ⟨coin, level, hcoin, hlevel⟩ := hp.exists_coin_and_level hmain
      rw [sentence, hshape, hmain]
      dsimp only
      rw [hcoin, hlevel]
      exact ⟨_, rfl, iff_of_false (Option.some_ne_none _) (by decide)⟩
  | range hmain hrange =>
      obtain ⟨coin, low, hcoin, hlow⟩ := hp.exists_coin_and_level hmain
      obtain ⟨high, hhigh⟩ := hp.exists_operandText hmain (i := 2) (by rw [hrange]; decide)
      rw [sentence, hshape, hmain]
      dsimp only
      rw [hcoin, hlow, hhigh]
      exact ⟨_, rfl, iff_of_false (Option.some_ne_none _) (by decide)⟩
  | raceOrWrong hmain hside =>
      obtain ⟨coin, level, hcoin, hlevel⟩ := hp.exists_coin_and_level hmain
      obtain ⟨-, other, -, hother⟩ := hp.exists_coin_and_level hside
      rw [sentence, hshape, hmain, hside]
      dsimp only
      rw [hcoin, hlevel, hother]
      exact ⟨_, rfl, iff_of_false (Option.some_ne_none _) (by decide)⟩
  | raceOrAnnulled hmain hside =>
      obtain ⟨coin, level, hcoin, hlevel⟩ := hp.exists_coin_and_level hmain
      obtain ⟨-, other, -, hother⟩ := hp.exists_coin_and_level hside
      rw [sentence, hshape, hmain, hside]
      dsimp only
      rw [hcoin, hlevel, hother]
      exact ⟨_, rfl, iff_of_false (Option.some_ne_none _) (by decide)⟩

end Prediction

/-! ### Whatever is done -/

namespace Stage

variable {draft : Draft} {createdAt : Calendar.Instant} {p : Prediction} {g : Stage}

/-- **What is told of a compiled prediction stays as it is.** Whatever has been done with it, its shape
is the one that is inferred, and its conditions have as many operands as their comparisons take. Its
sentence is written without a fault; it has one unless it is of no shape, and then its main clause is
told instead. Shape and summary are those that it had when it was compiled. -/
theorem told_for_good (hp : Compile.prediction draft createdAt = .ok p)
    (hg : Relation.ReflTransGen Leads (.idle p) g) :
    g.prediction.inferShape = g.prediction.shape ∧ g.prediction.IsComplete ∧
      (∃ told, g.prediction.sentence = .ok told ∧
        (told = none ↔ g.prediction.shape = .unsupported) ∧
        g.prediction.summary =
          told.getD ("predict: " ++ g.prediction.render g.prediction.main.predict)) ∧
      g.prediction.shape = p.shape ∧ g.prediction.summary = p.summary := by
  obtain ⟨_, -, -, -, -, -, hinferred⟩ := Compile.exists_of_prediction hp
  obtain ⟨-, hcomplete⟩ :=
    Compile.forall_of_prediction (fun _ _ _ _ => Compile.length_operands_of_condition) hp
  -- what has been done is forgotten when the prediction is cleared
  have hcleared := cleared_of_leads hp hg
  have hshape : g.prediction.shape = p.shape := by rw [← hcleared, Prediction.shape_cleared]
  have hinfer : g.prediction.inferShape = p.inferShape := by
    rw [← hcleared, Prediction.inferShape_cleared]
  have hsentence : g.prediction.sentence = p.sentence := by
    rw [← hcleared, Prediction.sentence_cleared]
  have hsummary : g.prediction.summary = p.summary := by
    rw [← hcleared, Prediction.summary_cleared]
  have hgiven : g.prediction.IsComplete := by
    intro c hc
    have hc' : c.cleared ∈ g.prediction.cleared.given := List.mem_map_of_mem hc
    rw [hcleared] at hc'
    exact hcomplete c.cleared hc'
  obtain ⟨told, htold, hnone⟩ :=
    p.hasShape_inferShape.exists_sentence hinferred hcomplete
  refine ⟨by rw [hinfer, hshape, hinferred], hgiven, ⟨told, hsentence.trans htold, ?_, ?_⟩, hshape,
    hsummary⟩
  · rw [hnone, hshape, hinferred]
  · rw [Prediction.summary, hsentence, htold]
    cases told with
    | none => rfl
    | some s => rfl

open Session (raceDraft race compile_raceDraft)

/-- The race under way is still told as a race. -/
theorem told_for_good_race :
    Compile.prediction raceDraft ⟨0, 0⟩ = .ok race ∧
      Relation.ReflTransGen Leads (.idle race) ((idle race).performAll begun) ∧
      ((idle race).performAll begun).prediction.inferShape = .raceOrWrong ∧
      ∃ s, ((idle race).performAll begun).prediction.sentence = .ok (some s) ∧ race.summary = s := by
  have hleads := (idle race).leads_performAll begun
  obtain ⟨hinferred, -, ⟨told, hsentence, hnone, htold⟩, hshape, hsummary⟩ :=
    told_for_good compile_raceDraft hleads
  refine ⟨compile_raceDraft, hleads, hinferred.trans hshape, ?_⟩
  cases told with
  | none => cases hshape.symm.trans (hnone.1 rfl)
  | some s => exact ⟨s, hsentence, hsummary.symm.trans htold⟩

end Stage

end Forecast
