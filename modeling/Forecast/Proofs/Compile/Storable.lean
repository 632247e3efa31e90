import Forecast.Proofs.Calendar.ReadTimes
import Forecast.Proofs.Compile.Conditions
import Forecast.Proofs.Compile.Names
import Forecast.Proofs.Operand.Numbers
import Forecast.Proofs.Stored.Finite
import Forecast.Proofs.Stored.Nesting

/-!
# Compiled Predictions Can Nearly Always Be Stored

Everything in a compiled prediction is of a size that stored documents have room for
(`isStorable_of_prediction`): its times are of the calendar, since they have been read or are a
deadline from such a time, its clauses do not nest deeply, and they mention the positions of conditions
that are there.

What may keep it from being read again is a price that is not finite. Error margins are bounded and
nothing has been fed, so that only the numbers among the operands are left, and these are finite unless
they overflow. So all prices are finite exactly if the draft writes no number that overflows
(`isFinite_iff_of_prediction`).

## Main results

* `isStorable_of_prediction`: compiled predictions can be stored.
* `isFinite_iff_of_prediction`: when all their prices are finite.
-/

namespace Forecast

open Compile (IsComparison)

/-- If the members of two lists correspond, then what is true of all members of one list is true of all
members of the other. -/
theorem forall_mem_iff_of_forall₂ {α β : Type} {R : α → β → Prop} {P : β → Prop} {Q : α → Prop}
    {as : List α} {bs : List β} (h : List.Forall₂ R as bs) (hR : ∀ a b, R a b → (P b ↔ Q a)) :
    (∀ b ∈ bs, P b) ↔ ∀ a ∈ as, Q a := by
  induction h with
  | nil => exact ⟨fun _ a ha => absurd ha List.not_mem_nil, fun _ b hb => absurd hb List.not_mem_nil⟩
  | cons hab _ ih => rw [List.forall_mem_cons, List.forall_mem_cons, hR _ _ hab, ih]

/-- Whether a text is an operand of a draft of a condition, as it is written. -/
def ConditionDraft.Writes (draft : ConditionDraft) (text : String) : Prop :=
  ∃ comparison texts, IsComparison ((Text.words draft.condition.toList).map String.ofList)
    comparison texts ∧ text ∈ texts

/-- Whether a draft of a condition writes a number that overflows. -/
def ConditionDraft.Overflows (draft : ConditionDraft) : Prop :=
  ∃ text, draft.Writes text ∧ Operand.Overflows text

/-- Whether a draft of a prediction writes a number that overflows, in one of its conditions. -/
def Draft.Overflows (draft : Draft) : Prop :=
  ∃ d ∈ draft.given.values, d.Overflows

/-- **When an operand that is read is finite.** -/
theorem Operand.isFinite_iff_of_parse {text : String} {o : Operand Price} (h : parse text = .ok o) :
    (∀ x ∈ o.prices, x.isFinite = true) ↔ ¬Overflows text := by
  rw [overflows_iff, h]
  cases o with
  | market i =>
      refine ⟨?_, fun _ x hx => absurd hx List.not_mem_nil⟩
      rintro - ⟨x, hx, -⟩
      cases hx
  | number v =>
      constructor
      · rintro hfinite ⟨x, hx, hinfinite⟩
        cases hx
        rw [hfinite v List.mem_cons_self] at hinfinite
        cases hinfinite
      · intro hnone x hx
        obtain rfl := List.mem_singleton.1 hx
        by_contra hinfinite
        exact hnone ⟨x, rfl, Bool.eq_false_iff.2 hinfinite⟩

namespace Compile

/-! ### Conditions -/

section Conditions

variable {name : String} {draft : ConditionDraft} {postedAt : Calendar.Instant}
  {c : Condition Price}

/-- The window of a compiled condition is of the calendar. -/
theorem exists_window_of_condition (hposted : postedAt.exists = true)
    (h : condition name draft postedAt = .ok c) :
    ∃ start stop : Calendar.Instant, start.exists = true ∧ stop.exists = true ∧
      c.fromTs = start.seconds ∧ c.toTs = stop.seconds := by
  obtain ⟨_, _, _, start, stop, -, -, -, hstart, hstop, -, -, rfl⟩ := condition_eq_ok_iff_steps.1 h
  have hbegins : start.exists = true := by
    cases windowStart_eq_ok_iff.1 hstart with
    | posted hleft => exact hposted
    | written hwritten htime => exact (Calendar.isProper_of_readTime htime).inCalendar
  have hends : stop.exists = true := by
    cases windowEnd_eq_ok_iff.1 hstop with
    | written hwritten hother htime => exact (Calendar.isProper_of_readTime htime).inCalendar
    | after hwritten hother hdeadline =>
        exact (Calendar.Instant.deadline_eq_ok_iff.1 hdeadline).1
  exact ⟨start, stop, hbegins, hends, rfl, rfl⟩

/-- The times of a compiled condition fit words, for nothing has been fed to it. -/
theorem fitsWords_of_condition (hposted : postedAt.exists = true)
    (h : condition name draft postedAt = .ok c) : c.FitsWords := by
  obtain ⟨start, stop, hstart, hstop, hfrom, hto⟩ := exists_window_of_condition hposted h
  refine ⟨hfrom ▸ start.fitsWord_seconds hstart, hto ▸ stop.fitsWord_seconds hstop, ?_⟩
  rw [state_of_condition h]
  exact ⟨by rfl, nofun⟩

/-- An error margin that is allowed is finite. -/
theorem isFinite_of_isMargin {ratio : Price} (h : isMargin ratio = true) :
    ratio.isFinite = true := by
  rw [isMargin, Bool.and_eq_true, decide_eq_true_eq, decide_eq_true_eq] at h
  exact Decimal.isFinite_of_between h.1 h.2 (by decide +kernel)

/-- The operands of a draft are those that its comparison is split into. -/
theorem writes_iff_of_splitComparison {comparison : Comparison} {texts : List String} {text : String}
    (h : splitComparison name draft.condition = .ok (comparison, texts)) :
    draft.Writes text ↔ text ∈ texts := by
  constructor
  · rintro ⟨_, _, hcomparison, hmem⟩
    have hsplit := h.symm.trans (splitComparison_eq_ok_iff.2 hcomparison)
    cases hsplit
    exact hmem
  · intro hmem
    exact ⟨comparison, texts, splitComparison_eq_ok_iff.1 h, hmem⟩

/-- **When all prices of a compiled condition are finite.** -/
theorem isFinite_iff_of_condition (h : condition name draft postedAt = .ok c) :
    (∀ x ∈ c.prices, x.isFinite = true) ↔ ¬draft.Overflows := by
  obtain ⟨comparison, texts, operands, _, _, hsplit, hread, -, -, -, -, hmargin, rfl⟩ :=
    condition_eq_ok_iff_steps.1 h
  have hparse := readOperands_eq_ok_iff.1 hread
  have hoperands : (∀ o ∈ operands, ∀ x ∈ o.prices, x.isFinite = true) ↔
      ∀ text ∈ texts, ¬Operand.Overflows text :=
    forall_mem_iff_of_forall₂ hparse fun _ _ => Operand.isFinite_iff_of_parse
  have hrest : ∀ x ∈ [draft.margin.getD 0], x.isFinite = true :=
    List.forall_mem_singleton.2 (isFinite_of_isMargin hmargin)
  change (∀ x ∈ operands.flatMap Operand.prices ++ [draft.margin.getD 0], x.isFinite = true) ↔ _
  rw [List.forall_mem_append, and_iff_left hrest, List.forall_mem_flatMap, hoperands]
  constructor
  · rintro hnone ⟨text, hwrites, hoverflows⟩
    exact hnone text ((writes_iff_of_splitComparison hsplit).1 hwrites) hoverflows
  · intro hnone text htext hoverflows
    exact hnone ⟨text, (writes_iff_of_splitComparison hsplit).2 htext, hoverflows⟩

end Conditions

/-! ### Predictions -/

section Predictions

variable {draft : Draft} {createdAt : Calendar.Instant} {p : Prediction}

/-- A prediction is compiled at its times. -/
theorem times_of_prediction (h : prediction draft createdAt = .ok p) :
    p.createdAt = createdAt ∧ Calendar.readTime draft.postedAt = .ok p.postedAt ∧
      conditions p.postedAt [] (entries draft.given) = .ok p.given := by
  obtain ⟨postedAt, hposted, h⟩ := bind_eq_ok_iff.1 h
  obtain ⟨given, hgiven, h⟩ := bind_eq_ok_iff.1 h
  obtain ⟨pre, -, h⟩ := bind_eq_ok_iff.1 h
  obtain ⟨main, -, h⟩ := bind_eq_ok_iff.1 h
  cases h
  exact ⟨rfl, mapError_eq_ok_iff.1 hposted, hgiven⟩

/-- **A compiled prediction can be stored,** as far as the sizes of what is in it go. -/
theorem isStorable_of_prediction (h : prediction draft createdAt = .ok p)
    (hcreated : createdAt.IsProper) (hroom : (p.given.length : Int) ≤ Json.maxIndex) :
    p.IsStorable := by
  obtain ⟨hcreatedAt, hposted, hgiven⟩ := times_of_prediction h
  obtain ⟨hstate, -⟩ := state_of_prediction h
  have hproper := Calendar.isProper_of_readTime hposted
  refine ⟨hcreatedAt ▸ hcreated, hproper, ?_, ?_, ?_⟩
  · exact forall_of_conditions
      (fun _ _ _ hc => fitsWords_of_condition hproper.inCalendar hc) hgiven
  · refine forall_clauses_of_prediction (fun text c hread => ?_) h
    have hdepth := Clause.depth_of_parse hread
    refine ⟨fun i hi => ?_, c.isSound_of_depth_le _ (hdepth.trans (by decide))⟩
    have hposition := (wrote_of_parse hread).positions i hi
    omega
  · rw [hstate]
    rfl

/-- **When all prices of a compiled prediction are finite.** -/
theorem isFinite_iff_of_prediction (h : prediction draft createdAt = .ok p) :
    (∀ x ∈ p.prices, x.isFinite = true) ↔ ¬draft.Overflows := by
  obtain ⟨-, -, hgiven⟩ := times_of_prediction h
  obtain ⟨-, -, hcompiled⟩ := conditions_eq_ok_iff.1 hgiven
  have hdrafts := (perm_entries draft.given).map Prod.snd
  rw [named, List.map_map, List.map_map] at hdrafts
  change ((entries draft.given).map Entry.draft).Perm draft.given.values at hdrafts
  have hgiven : (∀ c ∈ p.given, ∀ x ∈ c.prices, x.isFinite = true) ↔
      ∀ e ∈ entries draft.given, ¬e.draft.Overflows :=
    forall_mem_iff_of_forall₂ hcompiled fun _ _ => isFinite_iff_of_condition
  rw [Prediction.prices, List.forall_mem_flatMap, hgiven]
  constructor
  · rintro hnone ⟨d, hd, hoverflows⟩
    obtain ⟨e, he, rfl⟩ := List.mem_map.1 (hdrafts.mem_iff.2 hd)
    exact hnone e he hoverflows
  · intro hnone e he hoverflows
    exact hnone ⟨e.draft, hdrafts.mem_iff.1 (List.mem_map_of_mem he), hoverflows⟩

end Predictions

end Compile

end Forecast
