import Forecast.Compile
import Forecast.Proofs.Calendar.Deadlines
import Forecast.Proofs.Prediction.Runs
import Forecast.Proofs.Text.Variants

/-!
# Which Conditions are Compiled

A draft of a condition is compiled exactly if it says what a condition is, and the condition is what
it says. What a draft says is defined here without the order in which the compiler looks at it:

* its words are a sign between two operands, or `BETWEEN` and `AND` between three (`IsComparison`);
  no other words are, however a keyword or a sign turns up among them;
* the window begins at a time that is written, or with the post (`Begins`), and it ends at a time or
  after a duration, of which one is written and the other is not (`Ends`); a field that is blank
  throughout is not written.

Signs are looked up in upper case and fields without the blanks around them, and neither makes a
difference: no other character is a sign in upper case, and a time or a duration reads the same with
blanks around it.

A window ends after it begins, but a condition keeps only the seconds of both times. So it may end
in the second in which it begins, if the end is a time that is written; after a duration it does
not.

## Main results

* `condition_eq_ok_iff`: which conditions are compiled, and to what.
* `window_of_condition`: how the window of a condition ends in seconds.
-/

namespace Forecast

namespace Comparison

/-- A symbol is that of one comparison. -/
theorem ofSymbol?_eq_some_iff {s : String} {comparison : Comparison} :
    ofSymbol? s = some comparison ↔ s = comparison.symbol := by
  constructor
  · intro h
    have hsymbol := List.find?_some h
    exact (eq_of_beq hsymbol).symm
  · rintro rfl
    exact ofSymbol?_symbol comparison

/-- The signs are made of characters below the letters. -/
theorem lt_of_mem_symbol {comparison : Comparison} (h : comparison ≠ .between) :
    ∀ c ∈ comparison.symbol.toList, c.toNat < 65 := by
  cases comparison with
  | between => exact absurd rfl h
  | equal | above | below | atLeast | atMost => simp [symbol]

/-- **A sign is read only from itself.** -/
theorem parse?_eq_some_iff {s : String} {comparison : Comparison} (h : comparison ≠ .between) :
    parse? s = some comparison ↔ s = comparison.symbol := by
  rw [parse?, ofSymbol?_eq_some_iff]
  constructor
  · intro hupper
    have hchars := congrArg String.toList hupper
    rw [Text.toList_upper] at hchars
    exact String.toList_inj.1 (Text.eq_of_upperChars_eq (lt_of_mem_symbol h) hchars)
  · rintro rfl
    cases comparison with
    | between => exact absurd rfl h
    | equal | above | below | atLeast | atMost => rfl

end Comparison

namespace Compile

/-! ### What a draft says -/

/-- Whether words are a comparison of some operands. -/
inductive IsComparison : List String → Comparison → List String → Prop where
  | sign {comparison : Comparison} (h : comparison ≠ .between) (a b : String) :
      IsComparison [a, comparison.symbol, b] comparison [a, b]
  | range {between and : String} (hbetween : Text.sameLetters between "between" = true)
      (hand : Text.sameLetters and "and" = true) (a b c : String) :
      IsComparison [a, between, b, and, c] .between [a, b, c]

/-- Whether a text is written in a field. -/
def IsWritten (field : Option String) (text : String) : Prop :=
  field = some text ∧ Text.isBlankText text = false

/-- Whether nothing is written in a field but blanks. -/
def IsLeftOut (field : Option String) : Prop :=
  ∀ text ∈ field, Text.isBlankText text = true

/-- When the window of a draft begins. -/
inductive Begins (draft : ConditionDraft) (postedAt : Calendar.Instant) :
    Calendar.Instant → Prop where
  | posted (h : IsLeftOut draft.fromTime) : Begins draft postedAt postedAt
  | written {text : String} {start : Calendar.Instant} (h : IsWritten draft.fromTime text)
      (hstart : Calendar.readTime text = .ok start) : Begins draft postedAt start

/-- When the window of a draft ends. -/
inductive Ends (draft : ConditionDraft) (start : Calendar.Instant) : Calendar.Instant → Prop where
  | written {text : String} {stop : Calendar.Instant} (h : IsWritten draft.toTime text)
      (hother : IsLeftOut draft.toDuration) (hstop : Calendar.readTime text = .ok stop) :
      Ends draft start stop
  | after {text : String} {stop : Calendar.Instant} (h : IsWritten draft.toDuration text)
      (hother : IsLeftOut draft.toTime) (hstop : start.deadline text = .ok stop) :
      Ends draft start stop

/-! ### Comparisons -/

/-- A text is split exactly if its words are a comparison. -/
theorem splitComparison_eq_ok_iff {name text : String} {comparison : Comparison}
    {texts : List String} :
    splitComparison name text = .ok (comparison, texts) ↔
      IsComparison ((Text.words text.toList).map String.ofList) comparison texts := by
  simp only [splitComparison]
  generalize (Text.words text.toList).map String.ofList = words
  constructor
  · intro h
    split at h
    · split at h
      · next hkeywords =>
          cases h
          rw [Bool.and_eq_true] at hkeywords
          exact .range hkeywords.1 hkeywords.2 _ _ _
      · cases h
    · split at h
      · cases h
      · next hother hparse =>
          cases h
          have hsign : comparison ≠ .between := fun heq => hother heq
          rw [(Comparison.parse?_eq_some_iff hsign).1 hparse]
          exact .sign hsign _ _
      · cases h
    · cases h
  · rintro (⟨hsign, a, b⟩ | ⟨hbetween, hand, a, b, c⟩)
    · have hparse := (Comparison.parse?_eq_some_iff hsign).2 rfl
      dsimp only
      split
      · next heq =>
          rw [hparse] at heq
          exact absurd (Option.some.inj heq) hsign
      · next heq =>
          rw [hparse] at heq
          rw [Option.some.inj heq]
      · next heq =>
          rw [hparse] at heq
          cases heq
    · dsimp only
      rw [if_pos (by rw [hbetween, hand]; rfl)]

/-- Operands are read one by one. -/
theorem readOperands_eq_ok_iff {name : String} {texts : List String}
    {operands : List (Operand Price)} :
    readOperands name texts = .ok operands ↔
      List.Forall₂ (fun text o => Operand.parse text = .ok o) texts operands := by
  induction texts generalizing operands with
  | nil =>
      constructor
      · rintro ⟨⟩
        exact .nil
      · rintro ⟨⟩
        rfl
  | cons text texts ih =>
      rw [readOperands]
      constructor
      · intro h
        split at h
        · cases h
        next o ho =>
          cases hrest : readOperands name texts with
          | error e =>
              rw [hrest] at h
              cases h
          | ok os =>
              rw [hrest] at h
              cases h
              exact .cons ho (ih.1 hrest)
      · rintro (_ | ⟨ho, hrest⟩)
        rw [ho, ih.2 hrest]
        rfl

/-! ### Windows -/

/-- Nothing is given if nothing is written. -/
theorem given?_eq_none_iff {field : Option String} : given? field = none ↔ IsLeftOut field := by
  cases field with
  | none => simp [given?, IsLeftOut]
  | some text => simp [given?, IsLeftOut, Text.trim_eq_empty_iff]

/-- What is given is what is written, without the blanks around it. -/
theorem given?_eq_some_iff {field : Option String} {given : String} :
    given? field = some given ↔ ∃ text, IsWritten field text ∧ Text.trim text = given := by
  rw [given?, Option.filter_eq_some_iff, Option.map_eq_some_iff]
  constructor
  · rintro ⟨⟨text, hfield, rfl⟩, hne⟩
    refine ⟨text, ⟨hfield, Bool.eq_false_iff.2 fun hblank => ?_⟩, rfl⟩
    rw [Text.trim_eq_empty_iff.2 hblank] at hne
    cases hne
  · rintro ⟨text, ⟨hfield, hblank⟩, rfl⟩
    refine ⟨⟨text, hfield, rfl⟩, decide_eq_true fun hempty => ?_⟩
    rw [Text.trim_eq_empty_iff.1 hempty] at hblank
    cases hblank

/-- A time reads the same without the blanks around it. -/
theorem readTime_trim {text : String} {t : Calendar.Instant} :
    Calendar.readTime (Text.trim text) = .ok t ↔ Calendar.readTime text = .ok t := by
  simp only [Calendar.readTime, Text.toList_trim, Text.trimChars_trimChars]
  cases Calendar.readTimestamp (Text.trimChars text.toList) with
  | some s => rfl
  | none =>
      cases Calendar.readDate (Text.trimChars text.toList) with
      | some s => rfl
      | none => simp

/-- A duration is the same without the blanks around it. -/
theorem deadline_trim {start stop : Calendar.Instant} {text : String} :
    start.deadline (Text.trim text) = .ok stop ↔ start.deadline text = .ok stop := by
  simp only [Calendar.Instant.deadline_eq_ok_iff, Calendar.Counts, Calendar.Names,
    Text.trim_trim]

/-- An error that is worded differently is an error. -/
theorem mapError_eq_ok_iff {ε ε' α : Type} {f : ε → ε'} {x : Except ε α} {a : α} :
    x.mapError f = .ok a ↔ x = .ok a := by
  cases x with
  | error e => simp [Except.mapError]
  | ok b => simp [Except.mapError]

theorem windowStart_eq_ok_iff {name : String} {draft : ConditionDraft}
    {postedAt start : Calendar.Instant} :
    windowStart name draft postedAt = .ok start ↔ Begins draft postedAt start := by
  rw [windowStart]
  constructor
  · intro h
    split at h
    · next hnone =>
        cases h
        exact .posted (given?_eq_none_iff.1 hnone)
    · next hsome =>
        obtain ⟨text, hwritten, rfl⟩ := given?_eq_some_iff.1 hsome
        exact .written hwritten (readTime_trim.1 (mapError_eq_ok_iff.1 h))
  · rintro (hleft | ⟨hwritten, hstart⟩)
    · rw [given?_eq_none_iff.2 hleft]
    · rw [given?_eq_some_iff.2 ⟨_, hwritten, rfl⟩]
      exact mapError_eq_ok_iff.2 (readTime_trim.2 hstart)

theorem windowEnd_eq_ok_iff {name : String} {draft : ConditionDraft}
    {start stop : Calendar.Instant} :
    windowEnd name draft start = .ok stop ↔ Ends draft start stop := by
  rw [windowEnd]
  constructor
  · intro h
    split at h
    · cases h
    · next hsome hnone =>
        obtain ⟨text, hwritten, rfl⟩ := given?_eq_some_iff.1 hsome
        exact .written hwritten (given?_eq_none_iff.1 hnone)
          (readTime_trim.1 (mapError_eq_ok_iff.1 h))
    · next hnone hsome =>
        obtain ⟨text, hwritten, rfl⟩ := given?_eq_some_iff.1 hsome
        exact .after hwritten (given?_eq_none_iff.1 hnone)
          (deadline_trim.1 (mapError_eq_ok_iff.1 h))
    · cases h
  · rintro (⟨hwritten, hother, hstop⟩ | ⟨hwritten, hother, hstop⟩)
    · rw [given?_eq_some_iff.2 ⟨_, hwritten, rfl⟩, given?_eq_none_iff.2 hother]
      exact mapError_eq_ok_iff.2 (readTime_trim.2 hstop)
    · rw [given?_eq_some_iff.2 ⟨_, hwritten, rfl⟩, given?_eq_none_iff.2 hother]
      exact mapError_eq_ok_iff.2 (deadline_trim.2 hstop)

/-! ### Conditions -/

/-- **Which conditions are compiled.** A draft is compiled to a condition exactly if its words are a
comparison of operands that can be read, not all of them numbers, its window begins and ends at
times that follow each other, and its error margin is allowed; the condition has the comparison, the
operands in the order in which they are written, the seconds of both times and the margin, which is
zero if it is not given. -/
theorem condition_eq_ok_iff (name : String) (draft : ConditionDraft) (postedAt : Calendar.Instant)
    (c : Condition Price) :
    condition name draft postedAt = .ok c ↔
      ∃ comparison texts operands start stop,
        IsComparison ((Text.words draft.condition.toList).map String.ofList) comparison texts ∧
        List.Forall₂ (fun text o => Operand.parse text = .ok o) texts operands ∧
        (∃ o ∈ operands, o.isNumber = false) ∧
        Begins draft postedAt start ∧
        Ends draft start stop ∧
        start.before stop = true ∧
        (0 ≤ draft.margin.getD 0 ∧ draft.margin.getD 0 ≤ maxMargin) ∧
        c = .fresh name comparison operands start.seconds stop.seconds (draft.margin.getD 0) := by
  simp only [condition_eq_ok_iff_steps, splitComparison_eq_ok_iff, readOperands_eq_ok_iff,
    windowStart_eq_ok_iff, windowEnd_eq_ok_iff, isMargin, Bool.and_eq_true, decide_eq_true_eq,
    List.all_eq_false, Bool.not_eq_true]

/-- Words between blanks, keywords in any case, and a number with its factor. -/
example : condition "main"
    ⟨" COIN:BINANCE:BTC-USDT\tbetween 5k And 6 ", some " ", none, some "EOD", none⟩ ⟨0, 5⟩ =
      .ok (.fresh "main" .between [.market (.coin "BINANCE" "BTC" "USDT"), .number (5 * 1e3),
        .number 6] 0 86399 0) := by
  with_unfolding_all rfl

/-! ### Windows in seconds -/

/-- **The window of a compiled condition in seconds.** It ends in a later second than it begins, as
it always does after a duration, or else its end is a written time that is later within the second
in which it begins. -/
theorem window_of_condition {name : String} {draft : ConditionDraft}
    {postedAt : Calendar.Instant} {c : Condition Price}
    (h : condition name draft postedAt = .ok c) :
    c.fromTs < c.toTs ∨
      c.fromTs = c.toTs ∧ ∃ text start stop, IsWritten draft.toTime text ∧
        Calendar.readTime text = .ok stop ∧ Begins draft postedAt start ∧
        start.seconds = stop.seconds ∧ start.nanos < stop.nanos := by
  obtain ⟨_, _, _, start, stop, -, -, -, hstart, hstop, hbefore, -, rfl⟩ :=
    condition_eq_ok_iff_steps.1 h
  have hbegins := windowStart_eq_ok_iff.1 hstart
  cases windowEnd_eq_ok_iff.1 hstop with
  | after hwritten hother hdeadline =>
      exact Or.inl (Calendar.Instant.seconds_lt_of_deadline hdeadline hbefore)
  | written hwritten hother htime =>
      rcases Calendar.Instant.before_iff.1 hbefore with hlt | ⟨heq, hnanos⟩
      · exact Or.inl hlt
      · exact Or.inr ⟨heq, _, start, stop, hwritten, htime, hbegins, heq, hnanos⟩

/-- A draft whose window is half a second. -/
def halfSecond : ConditionDraft where
  condition := "COIN:BINANCE:BTC-USDT > 5"
  fromTime := some "2024-01-01T00:00:00Z"
  toTime := some "2024-01-01T00:00:00.5Z"
  toDuration := none
  margin := none

/-- The condition that the draft is compiled to: its window begins and ends with the same second. -/
def halfSecondCondition : Condition Price :=
  .fresh "main" .above [.market (.coin "BINANCE" "BTC" "USDT"), .number 5] 1704067200 1704067200 0

theorem condition_halfSecond :
    condition "main" halfSecond ⟨1704067200, 0⟩ = .ok halfSecondCondition := by
  with_unfolding_all rfl

/-- Such a window is one of the others. -/
theorem window_of_condition_halfSecond :
    condition "main" halfSecond ⟨1704067200, 0⟩ = .ok halfSecondCondition ∧
      ∃ text start stop, IsWritten halfSecond.toTime text ∧
        Calendar.readTime text = .ok stop ∧ Begins halfSecond ⟨1704067200, 0⟩ start ∧
        start.seconds = stop.seconds ∧ start.nanos < stop.nanos := by
  refine ⟨condition_halfSecond, ?_⟩
  obtain hlater | ⟨-, hwithin⟩ := window_of_condition condition_halfSecond
  · exact absurd hlater (by decide)
  · exact hwithin

/-- So not every window ends in a later second than it begins. -/
theorem window_within_second :
    ∃ c, condition "main" halfSecond ⟨1704067200, 0⟩ = .ok c ∧ ¬ c.fromTs < c.toTs :=
  ⟨halfSecondCondition, condition_halfSecond, by decide⟩

end Compile

end Forecast
