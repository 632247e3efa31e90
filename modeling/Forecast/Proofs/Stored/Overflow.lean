import Forecast.Proofs.Compile.Storable
import Forecast.Proofs.Database.Rows
import Forecast.Proofs.Session.Keeping

/-!
# Predictions That Cannot be Read Again

A prediction that cannot be read spoils the database that it is in, because nothing is loaded together
with it (`Database.exists_save_insert`). What makes it so is a price that is not finite, and here it is
said where such prices come from.

A prediction is compiled, and then operated on, stored and read, in any order and any number of times
(`Prediction.ComesTo`). None of this makes a price that is not finite: streams leave such prices out,
whatever their market delivers, ticks that are fed by hand are finite by assumption, and what is read is
finite. So they come from the text only, by a number that overflows. It is compiled as it is and never
goes away; and a text without one makes a prediction that can be read whatever becomes of it.

## Main results

* `Json.compress_eq_null_iff`: when a number is written as null.
* `Prediction.ComesTo.isFitButNumbers`: what becomes of the prices of a prediction.
* `Prediction.readable_iff_not_overflows`: which texts lead to predictions that can always be read, and
  do no harm to a database.
-/

namespace Forecast

namespace Json

/-- **A number is written as null** exactly if it is not finite. -/
theorem compress_eq_null_iff {x : Price} : compress (.float x) = "null" ↔ x.isFinite = false := by
  constructor
  · intro hnull
    by_contra hfinite
    obtain ⟨y, hy⟩ := isReadable_iff_isFinite.2 (Bool.of_not_eq_false hfinite)
    have hread := read_compress (.float x)
    rw [hnull, hy] at hread
    have hword : read "null" = some .null := by rfl
    rw [hword] at hread
    cases hread
  · intro hinfinite
    rw [compress, print, printLeaf, printFloat, hinfinite]
    · rfl
    · exact fun _ h => Json.noConfusion h
    · exact fun _ h => Json.noConfusion h

end Json

namespace Prediction

variable {p q : Prediction}

/-- A prediction that can be stored nests no more deeply than any reader follows. -/
theorem IsStorable.isSound (h : p.IsStorable) : p.toJson.isSound Json.maxNesting = true :=
  isSound_of_clauses (by decide) fun c hc => (h.clauses c hc).nesting

/-! ### What becomes of a prediction -/

/-- What a prediction may come to: it is operated on, and it is stored and read. -/
inductive ComesTo (p : Prediction) : Prediction → Prop
  | refl : ComesTo p p
  | perform {q : Prediction} {ops : List Operation} (h : ComesTo p q)
      (hops : ∀ op ∈ ops, op.IsWritable) : ComesTo p ((Stage.idle q).performAll ops).prediction
  | reread {q r : Prediction} (h : ComesTo p q) (hread : ofStored? q.stored = some r) : ComesTo p r

/-- Whether a prediction is fit to be stored but for the numbers among its operands. -/
structure IsFitButNumbers (p : Prediction) : Prop where
  storable : p.IsStorable
  fed : ∀ c ∈ p.given, c.IsFinitelyFed

/-- All prices of such a prediction are finite if its numbers are. -/
theorem IsFitButNumbers.isFinite_iff (h : p.IsFitButNumbers) :
    (∀ x ∈ p.prices, x.isFinite = true) ↔ ∀ x ∈ p.numbers, x.isFinite = true := by
  rw [Prediction.isFinite_iff, and_iff_right h.fed]

/-- Operations keep a prediction fit, and its numbers as they are. -/
theorem IsFitButNumbers.perform (h : p.IsFitButNumbers) {ops : List Operation}
    (hops : ∀ op ∈ ops, op.IsWritable) :
    ((Stage.idle p).performAll ops).prediction.IsFitButNumbers ∧
      ((Stage.idle p).performAll ops).prediction.numbers = p.numbers := by
  have hafter := (Stage.isWritable_idle h.storable h.fed rfl).performAll hops
  exact ⟨⟨hafter.storable, hafter.fed⟩, hafter.numbers⟩

/-- What is read of a prediction is fit, and its prices are finite as were those of the prediction. -/
theorem IsFitButNumbers.reread (h : p.IsFitButNumbers) (hread : ofStored? p.stored = some q) :
    q.IsFitButNumbers ∧ (∀ x ∈ p.prices, x.isFinite = true) ∧ ∀ x ∈ q.prices, x.isFinite = true := by
  obtain ⟨hstorable, hagain⟩ := read_again h.storable hread
  have hfinite := isFinite_of_ofStored? hagain
  exact ⟨⟨hstorable, (Prediction.isFinite_iff.1 hfinite).1⟩, isFinite_of_ofStored? hread, hfinite⟩

/-- **Whatever becomes of a prediction, it stays fit, and its prices are finite if they have been so from
the first.** -/
theorem ComesTo.isFitButNumbers (h : p.ComesTo q) (hp : p.IsFitButNumbers) :
    q.IsFitButNumbers ∧
      ((∀ x ∈ q.prices, x.isFinite = true) ↔ ∀ x ∈ p.prices, x.isFinite = true) := by
  induction h with
  | refl => exact ⟨hp, Iff.rfl⟩
  | perform _ hops ih =>
      obtain ⟨hfit, hsame⟩ := ih
      obtain ⟨hafter, hnumbers⟩ := hfit.perform hops
      refine ⟨hafter, ?_⟩
      rw [hafter.isFinite_iff, hnumbers, ← hfit.isFinite_iff, hsame]
  | reread _ hread ih =>
      obtain ⟨hfit, hsame⟩ := ih
      obtain ⟨hafter, hbefore, hfinite⟩ := hfit.reread hread
      exact ⟨hafter, iff_of_true hfinite (hsame.1 hbefore)⟩

end Prediction

namespace Compile

/-- Nothing has been fed to a compiled condition, and its error margin is finite. -/
theorem isFinitelyFed_of_condition {name : String} {draft : ConditionDraft}
    {postedAt : Calendar.Instant} {c : Condition Price} (h : condition name draft postedAt = .ok c) :
    c.IsFinitelyFed := by
  obtain ⟨_, _, _, _, _, -, -, -, -, -, -, hmargin, rfl⟩ := condition_eq_ok_iff_steps.1 h
  exact ⟨isFinite_of_isMargin hmargin, nofun⟩

/-- Compiled predictions are fit. -/
theorem isFitButNumbers_of_prediction {draft : Draft} {createdAt : Calendar.Instant} {p : Prediction}
    (h : prediction draft createdAt = .ok p) (hcreated : createdAt.IsProper)
    (hroom : (p.given.length : Int) ≤ Json.maxIndex) : p.IsFitButNumbers where
  storable := isStorable_of_prediction h hcreated hroom
  fed := by
    obtain ⟨-, -, hgiven⟩ := times_of_prediction h
    exact forall_of_conditions (fun _ _ _ hc => isFinitelyFed_of_condition hc) hgiven

end Compile

namespace Prediction

/-! ### Compiled predictions -/

/-- **Which texts lead to predictions that can always be read.** Whatever becomes of a prediction that
has been compiled from a text, its error margins and its ticks are finite. So all its prices are
finite, none is written as null, it can be read, and it can be saved where all else can be loaded
without anything being lost, unless a condition of the text writes a number that overflows. If one
does, none of this is ever so. -/
theorem readable_iff_not_overflows {text : String} {createdAt : Calendar.Instant} {p : Prediction}
    (h : Compile.text text createdAt = .ok p) (hcreated : createdAt.IsProper)
    (hroom : (p.given.length : Int) ≤ Json.maxIndex) :
    ∃ draft, Draft.read? text = some draft ∧ ∀ q, p.ComesTo q →
      (∀ c ∈ q.given, c.IsFinitelyFed) ∧
      ((∀ x ∈ q.prices, x.isFinite = true) ↔ ¬draft.Overflows) ∧
      ((∀ x ∈ q.prices, Json.compress (.float x) ≠ "null") ↔ ¬draft.Overflows) ∧
      ((ofStored? q.stored).isSome ↔ ¬draft.Overflows) ∧
      ∀ (d : Database) (outcomes : List Outcome) (ps : Keyed Prediction), d.load outcomes = .ok ps →
        ∃ d', d.save (Keyed.empty.insert q.id q) = .ok d' ∧
          ((∃ qs, d'.load outcomes = .ok qs) ↔
            (q.state.outcome.isAmong outcomes = true → ¬draft.Overflows)) := by
  rw [Compile.text] at h
  split at h
  · cases h
  next draft hdraft =>
    refine ⟨draft, hdraft, fun q hq => ?_⟩
    obtain ⟨hfit, hsame⟩ := hq.isFitButNumbers (Compile.isFitButNumbers_of_prediction h hcreated hroom)
    have hfinite : (∀ x ∈ q.prices, x.isFinite = true) ↔ ¬draft.Overflows :=
      hsame.trans (Compile.isFinite_iff_of_prediction h)
    have hread : (ofStored? q.stored).isSome ↔ ¬draft.Overflows :=
      (isSome_ofStored?_iff hfit.storable).trans hfinite
    refine ⟨hfit.fed, hfinite, ?_, hread, fun d outcomes ps hload => ?_⟩
    · simp only [ne_eq, Json.compress_eq_null_iff, Bool.not_eq_false, hfinite]
    · rw [← hread]
      exact Database.exists_save_insert hload (Json.isSound_mono _ (by decide) hfit.storable.isSound)

/-! ### A level that is written with a letter -/

section Levels

/-- The time at which the level is predicted. -/
def newYear : Calendar.Instant :=
  ⟨1704067200, 0⟩

/-- A condition that a coin rises above a level, as it is written. -/
def levelCondition (level : String) : ConditionDraft :=
  ⟨"COIN:BINANCE:BTC-USDT > " ++ level, none, none, some "2w", none⟩

/-- The draft of a prediction that it does. -/
def levelDraft (level : String) : Draft where
  id := some "p"
  postedAt := "2024-01-01T00:00:00Z"
  reporter := ""
  postAuthor := ""
  postUrl := ""
  postText := ""
  given := .ofList [("main", levelCondition level)]
  pre := none
  main := ⟨none, none, "main", false, false⟩

/-- The document of the draft. -/
def levelDocument (level : String) : Json :=
  .object
    [("id", .string "p"), ("postedAt", .string "2024-01-01T00:00:00Z"),
      ("given", .object [("main", .object
        [("condition", .string ("COIN:BINANCE:BTC-USDT > " ++ level)), ("toDuration", .string "2w")])]),
      ("predict", .object [("predict", .string "main")])]

/-- The prediction that the draft is compiled to, if the level is read as a number. -/
def aboveLevel (level : Price) : Prediction where
  id := "p"
  createdAt := newYear
  postedAt := newYear
  reporter := ""
  postAuthor := ""
  postUrl := ""
  postText := ""
  given := [.fresh "main" .above [.market (.coin "BINANCE" "BTC" "USDT"), .number level] 1704067200
    1705276800 0]
  pre := .none
  main := ⟨none, none, .literal 0, .default⟩
  state := .initial
  shape := .deadline

theorem isProper_newYear : newYear.IsProper :=
  ⟨by decide, Or.inl (by decide)⟩

theorem mainPhase_levelDraft (level : String) :
    Compile.mainPhase (fun name => if "main" == name then some 0 else none) (levelDraft level).main =
      .ok ⟨none, none, .literal 0, .default⟩ := by
  have hwritten : Compile.given? (some "main") = some "main" := by with_unfolding_all rfl
  have hparse : Clause.parse (fun name => if "main" == name then some 0 else none) "main" =
      .ok (.literal 0) := by with_unfolding_all rfl
  have hclause : Compile.clause? (fun name => if "main" == name then some 0 else none)
      "predict.predict" (some "main") = .ok (some (.literal 0)) := by
    rw [Compile.clause?, hwritten]
    dsimp only
    rw [hparse]
  change Compile.mainPhase _ ⟨_, _, "main", _, _⟩ = _
  rw [Compile.mainPhase, hclause]
  rfl

variable {level : String} {x : Price}

theorem conditions_levelDraft
    (hsplit : Compile.splitComparison "main" ("COIN:BINANCE:BTC-USDT > " ++ level) =
      .ok (.above, ["COIN:BINANCE:BTC-USDT", level]))
    (hlevel : Operand.parse level = .ok (.number x)) :
    Compile.conditions newYear [] (Compile.entries (levelDraft level).given) =
      .ok (aboveLevel x).given := by
  have hcoin : Operand.parse "COIN:BINANCE:BTC-USDT" =
      .ok (.market (.coin "BINANCE" "BTC" "USDT")) := by with_unfolding_all rfl
  have hstop : newYear.deadline "2w" = .ok ⟨1705276800, 0⟩ := by with_unfolding_all rfl
  have hmargin : Compile.isMargin 0 = true := by decide +kernel
  have hcondition : Compile.condition "main" (levelCondition level) newYear =
      .ok (.fresh "main" .above [.market (.coin "BINANCE" "BTC" "USDT"), .number x] 1704067200
        1705276800 0) :=
    Compile.condition_eq_ok_iff_steps.2 ⟨_, _, _, _, _, hsplit,
      Compile.readOperands_eq_ok_iff.2 (.cons hcoin (.cons hlevel .nil)), rfl,
      Compile.windowStart_eq_ok_iff.2 (.posted nofun),
      Compile.windowEnd_eq_ok_iff.2 (.after ⟨rfl, by decide⟩ nofun hstop), by decide, hmargin, rfl⟩
  have hname : Text.lower (Text.trim "main") = "main" ∧ Clause.isName "main" = true := by
    decide +kernel
  have hentries : Compile.entries (levelDraft level).given =
      [⟨"main", "main", levelCondition level⟩] :=
    calc Compile.entries (levelDraft level).given
      _ = [⟨Text.lower (Text.trim "main"), "main", levelCondition level⟩] :=
          Compile.entries_of_sorted (List.pairwise_singleton _ _)
      _ = [⟨"main", "main", levelCondition level⟩] := by rw [hname.1]
  rw [hentries]
  exact Compile.conditions_eq_ok_iff.2
    ⟨List.forall_mem_singleton.2 ⟨hname.2, List.not_mem_nil⟩, List.nodup_singleton _,
      .cons hcondition .nil⟩

/-- The document is compiled to the prediction, if its level is a word that is read as a number. -/
theorem text_levelDocument
    (hsplit : Compile.splitComparison "main" ("COIN:BINANCE:BTC-USDT > " ++ level) =
      .ok (.above, ["COIN:BINANCE:BTC-USDT", level]))
    (hlevel : Operand.parse level = .ok (.number x)) :
    Compile.text (Json.compress (levelDocument level)) newYear = .ok (aboveLevel x) := by
  have hread : Draft.read? (Json.compress (levelDocument level)) = some (levelDraft level) := by
    rw [Draft.read?, Json.read_compress]
    rfl
  have hposted : Calendar.readTime "2024-01-01T00:00:00Z" = .ok newYear := by with_unfolding_all rfl
  have htime : Calendar.readTime (levelDraft level).postedAt = .ok newYear := hposted
  have hdeclared : (fun name => (aboveLevel x).given.findIdx? (·.name == name)) =
      fun name => if "main" == name then some 0 else none := by
    funext name
    rfl
  rw [Compile.text, hread]
  dsimp only
  rw [Compile.prediction, htime]
  simp only [Except.mapError, bind, Except.bind, conditions_levelDraft hsplit hlevel, hdeclared,
    mainPhase_levelDraft]
  rfl

/-- A level of a hundred thousand can be read again, whatever becomes of the prediction. -/
theorem readable_aboveLevel :
    Compile.text (Json.compress (levelDocument "100k")) newYear = .ok (aboveLevel (100 * 1e3)) ∧
      ∀ q, (aboveLevel (100 * 1e3)).ComesTo q → (ofStored? q.stored).isSome := by
  have hcompiled : Compile.text (Json.compress (levelDocument "100k")) newYear =
      .ok (aboveLevel (100 * 1e3)) :=
    text_levelDocument (by with_unfolding_all rfl) (by with_unfolding_all rfl)
  have hfinite : ∀ x ∈ (aboveLevel (100 * 1e3)).prices, x.isFinite = true := by decide +kernel
  obtain ⟨draft, -, hall⟩ := readable_iff_not_overflows hcompiled isProper_newYear (by decide)
  obtain ⟨-, hnever, -⟩ := hall _ .refl
  refine ⟨hcompiled, fun q hq => ?_⟩
  obtain ⟨-, -, -, hread, -⟩ := hall q hq
  exact hread.2 (hnever.1 hfinite)

/-- A level that overflows is not finite. It is written as null, the prediction cannot be read, and
nothing is loaded from a database in which it has been saved. -/
theorem unreadable_aboveLevel :
    ∃ x, Compile.text (Json.compress (levelDocument "1e308k")) newYear = .ok (aboveLevel x) ∧
      x ∈ (aboveLevel x).prices ∧ x.isFinite = false ∧ Json.compress (.float x) = "null" ∧
      ofStored? (aboveLevel x).stored = none ∧
      ∃ d, Database.blank.withTables.save (Keyed.empty.insert "p" (aboveLevel x)) = .ok d ∧
        ∀ ps, d.load [] ≠ .ok ps := by
  obtain ⟨x, hlevel, hinfinite⟩ := Operand.overflows_iff.1 Operand.overflows_1e308k
  have hmem : x ∈ (aboveLevel x).prices := List.mem_cons_self
  have hunread : ofStored? (aboveLevel x).stored = none := by
    by_contra hread
    obtain ⟨q, hq⟩ := Option.ne_none_iff_exists'.1 hread
    rw [isFinite_of_ofStored? hq x hmem] at hinfinite
    cases hinfinite
  have hsound : (aboveLevel x).toJson.isSound Loose.maxNesting = true :=
    Json.isSound_mono _ (by decide)
      (isSound_of_clauses (Nat.le_refl 4) (List.forall_mem_singleton.2 (by rfl)))
  have hload : Database.blank.withTables.load [] = .ok .empty := by rfl
  obtain ⟨d, hsave, hloads⟩ := Database.exists_save_insert hload hsound
  refine ⟨x, text_levelDocument (by with_unfolding_all rfl) hlevel, hmem, hinfinite,
    Json.compress_eq_null_iff.2 hinfinite, hunread, d, hsave, fun ps hps => ?_⟩
  have hsome := hloads.1 ⟨ps, hps⟩ rfl
  rw [hunread] at hsome
  cases hsome

end Levels

end Prediction

end Forecast
