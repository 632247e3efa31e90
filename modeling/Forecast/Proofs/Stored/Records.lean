import Forecast.Proofs.Calendar.StoredTimes
import Forecast.Proofs.Keyed.Merging
import Forecast.Proofs.Prediction.Numbers
import Forecast.Stored.Reading

/-!
# Reading Stored Documents Back

The document of a prediction is read as the prediction. What it takes is that everything in it is of a
size that documents have room for (`Prediction.IsStorable`): times of the calendar, seconds and
positions that fit a word, and clauses that do not nest too deeply.

Nothing is said here of the text of a document. A number in a document is the number that was put
there, so that prices need not be finite.

## Main results

* `Clause.ofJson?_toJson`, `Condition.ofJson?_toJson`: reading clauses and conditions.
* `Prediction.ofJson?_toJson`: reading a prediction.
-/

namespace Forecast

open Json (Fields asRecord)

/-! ### Lists, maps and records -/

/-- Reading the members of a list one by one yields the list, if each is read as itself. -/
theorem mapM_map_eq_some {α β : Type} {read : β → Option α} {write : α → β} {xs : List α}
    (h : ∀ x ∈ xs, read (write x) = some x) : (xs.map write).mapM read = some xs := by
  induction xs with
  | nil => rfl
  | cons x xs ih =>
      obtain ⟨hx, hxs⟩ := List.forall_mem_cons.1 h
      rw [List.map_cons, List.mapM_cons, hx, ih hxs]
      rfl

namespace Json

/-- All fields of a record are found under their names. -/
theorem asRecord_of_names {names : List String} {es : List (String × Json)}
    (h : es.map Prod.fst = names) (hnames : names.Nodup) :
    asRecord names (.object es) = some ⟨true, es⟩ := by
  have hknown : es.filter (fun e => names.contains e.1) = es := by
    refine List.filter_eq_self.2 fun e he => ?_
    rw [List.contains_iff_mem, ← h]
    exact List.mem_map_of_mem he
  rw [asRecord]
  simp only [hknown, h, hnames, if_true]

theorem asText_string (s : String) : asText (.string s) = some s := rfl

theorem asBool_bool (b : Bool) : asBool (.bool b) = some b := rfl

theorem asFloat_float (x : Float) : asFloat (.float x) = some x := rfl

/-- A word is read as what it stands for. -/
theorem asWordOf_word {α : Type} {ofWord? : String → Option α} {word : α → String}
    (h : ∀ v, ofWord? (word v) = some v) (v : α) : asWordOf ofWord? (.string (word v)) = some v :=
  h v

theorem asWord_int {i : Int} (h : Decimal.fitsWord i = true) : asWord (.int i) = some i :=
  if_pos h

theorem asIndex_int {i : Nat} (h : (i : Int) ≤ maxIndex) : asIndex (.int i) = some i :=
  if_pos ⟨Int.natCast_nonneg i, h⟩

/-- A list of documents is read member by member. -/
theorem asList_map {α : Type} {item : Json → Option α} {write : α → Json} {xs : List α}
    (h : ∀ x ∈ xs, item (write x) = some x) : asList item (.array (xs.map write)) = some xs :=
  mapM_map_eq_some h

/-- A map of documents is read value by value. -/
theorem asKeyed_map {α : Type} {item : Json → Option α} {write : α → Json} {m : Keyed α}
    (h : ∀ x ∈ m.values, item (write x) = some x) :
    asKeyed item (.object (m.map write).entries) = some m := by
  have hentries : (m.map write).entries.mapM (fun e => (item e.2).map fun v => (e.1, v)) =
      some m.entries := by
    have hread : ∀ e ∈ m.entries, (item (write e.2)).map (fun v => (e.1, v)) = some e := by
      intro e he
      rw [h e.2 (List.mem_map_of_mem he)]
      rfl
    exact mapM_map_eq_some hread
  rw [asKeyed, hentries, Option.map_some, Keyed.ofList_entries]

/-- A record whose fields are all there is read from its fields. -/
theorem bind_asRecord {β : Type} {names : List String} {es : List (String × Json)}
    (h : es.map Prod.fst = names) (hnames : names.Nodup) {rest : Fields → Option β} {r : β}
    (hrest : rest ⟨true, es⟩ = some r) : (asRecord names (.object es) >>= rest) = some r := by
  rw [asRecord_of_names h hnames]
  exact hrest

namespace Fields

variable {α β : Type} {f : Fields} {name : String} {read : Json → Option α} {rest : α → Option β}
  {j : Json} {v : α} {r : β}

/-- A field that is there is read before the rest of a record. -/
theorem bind_required (hfield : f.found.lookup name = some j) (hread : read j = some v)
    (hrest : rest v = some r) : (f.required name read >>= rest) = some r := by
  rw [required, hfield, Option.bind_some, hread]
  exact hrest

/-- A field with a default that is there is read before the rest of a record. -/
theorem bind_withDefault {default : α} (hfield : f.found.lookup name = some j)
    (hread : read j = some v) (hrest : rest v = some r) :
    (f.withDefault name default read >>= rest) = some r := by
  rw [withDefault, hfield]
  dsimp only
  rw [hread]
  exact hrest

/-- A field that may be null, and is there, is read before the rest of a record. -/
theorem bind_nullableField {rest : Option α → Option β} {v : Option α}
    (hfield : f.found.lookup name = some j) (hread : nullable read j = some v)
    (hrest : rest v = some r) : (f.nullableField name read >>= rest) = some r := by
  rw [nullableField, hfield]
  dsimp only
  rw [hread]
  exact hrest

end Fields

end Json

/-! ### Conditions -/

/-- An operand is read from its document. -/
theorem Operand.ofJson?_toJson (o : Operand Price) : Operand.ofJson? o.toJson = some o := by
  rcases o with v | ⟨p, b, q⟩ | ⟨p, b⟩ <;> rfl

/-- A tick is read from its document. -/
theorem Tick.ofJson?_toJson {t : Tick Price} (h : Decimal.fitsWord t.timestamp = true) :
    Tick.ofJson? t.toJson = some t := by
  rw [ofJson?, toJson]
  refine Json.bind_asRecord (by rfl) (by decide) ?_
  refine Fields.bind_required (by rfl) (Json.asWord_int h) ?_
  exact Fields.bind_required (by rfl) (Json.asFloat_float _) rfl

/-- Whether all times in what a condition has seen fit a word. -/
structure Progress.FitsWords (p : Progress Price) : Prop where
  lastTs : Decimal.fitsWord p.lastTs = true
  ticks : ∀ t ∈ p.lastTicks.values, Decimal.fitsWord t.timestamp = true

/-- What a condition has seen is read from its document. -/
theorem Progress.ofJson?_toJson {p : Progress Price} (h : p.FitsWords) :
    Progress.ofJson? p.toJson = some p := by
  have hticks : Json.asKeyed Tick.ofJson? (TickSet.toJson p.lastTicks) = some p.lastTicks :=
    Json.asKeyed_map fun t ht => Tick.ofJson?_toJson (h.ticks t ht)
  rw [ofJson?, toJson]
  refine Json.bind_asRecord (by rfl) (by decide) ?_
  refine Fields.bind_required (by rfl) (Json.asWordOf_word Status.ofWord?_word _) ?_
  refine Fields.bind_required (by rfl) (Json.asWord_int h.lastTs) ?_
  refine Fields.bind_required (by rfl) hticks ?_
  exact Fields.bind_required (by rfl) (Json.asWordOf_word Trilean.ofWord?_word _) rfl

/-- Whether all times in a condition fit a word. -/
structure Condition.FitsWords (c : Condition Price) : Prop where
  fromTs : Decimal.fitsWord c.fromTs = true
  toTs : Decimal.fitsWord c.toTs = true
  state : c.state.FitsWords

/-- **A condition is read from its document.** -/
theorem Condition.ofJson?_toJson {c : Condition Price} (h : c.FitsWords) :
    Condition.ofJson? c.toJson = some c := by
  have hoperands : Json.asList Operand.ofJson? (.array (c.operands.map Operand.toJson)) =
      some c.operands :=
    Json.asList_map fun o _ => o.ofJson?_toJson
  rw [ofJson?, toJson]
  refine Json.bind_asRecord (by rfl) (by decide) ?_
  refine Fields.bind_required (by rfl) (Json.asText_string _) ?_
  refine Fields.bind_required (by rfl) (Json.asWordOf_word Comparison.ofSymbol?_symbol _) ?_
  refine Fields.bind_required (by rfl) hoperands ?_
  refine Fields.bind_required (by rfl) (Json.asWord_int h.fromTs) ?_
  refine Fields.bind_required (by rfl) (Json.asWord_int h.toTs) ?_
  refine Fields.bind_required (by rfl) (Json.asFloat_float _) ?_
  exact Fields.bind_withDefault (by rfl) (Progress.ofJson?_toJson h.state) rfl

/-! ### Clauses -/

namespace Clause

/-- Whether all positions that a clause mentions fit a word, and a stored prediction has room for its
nesting. -/
structure IsStorable (c : Clause) : Prop where
  references : ∀ i ∈ c.references, (i : Int) ≤ Json.maxIndex
  nesting : c.toJson.isSound room = true

theorem untag?_tagged (room : Nat) (op : String) (args : Json) :
    untag? room (tagged op args) = (Tag.ofWord? op).map (·, args) := by
  rfl

/-- A tag makes a document one level deeper. -/
theorem isSound_tagged (room : Nat) (op : String) (args : Json) :
    (tagged op args).isSound (room + 1) = args.isSound room := by
  have hop : (Json.string op).isSound room = true := by cases room <;> rfl
  rw [tagged, Json.isSound, Json.entriesSound, Json.entriesSound, Json.entriesSound, hop,
    Bool.true_and, Bool.and_true]

mutual

/-- **A clause is read from its document,** wherever there is room for its nesting. -/
theorem ofJson?_toJson : ∀ (c : Clause) (room : Nat), c.toJson.isSound room = true →
    (∀ i ∈ c.references, (i : Int) ≤ Json.maxIndex) → ofJson? room c.toJson = some c
  | c, 0, h, _ => by
      cases c <;> cases h
  | .literal i, room + 1, _, hi => by
      rw [ofJson?, toJson, untag?_tagged]
      simp only [Tag.ofWord?, Option.map_some, Json.asIndex_int (hi i (by simp [references]))]
  | .neg c, room + 1, h, hi => by
      rw [toJson, isSound_tagged] at h
      rw [ofJson?, toJson, untag?_tagged]
      simp only [Tag.ofWord?, Option.map_some, ofJson?_toJson c room h hi]
  | .conj cs, room + 1, h, hi => by
      rw [toJson, isSound_tagged] at h
      rw [ofJson?, toJson, untag?_tagged]
      simp only [Tag.ofWord?, Option.map_some, members?_toJsons cs room h hi]
  | .disj cs, room + 1, h, hi => by
      rw [toJson, isSound_tagged] at h
      rw [ofJson?, toJson, untag?_tagged]
      simp only [Tag.ofWord?, Option.map_some, members?_toJsons cs room h hi]

/-- The members of a chain are read from their documents. -/
theorem members?_toJsons : ∀ (cs : List Clause) (room : Nat),
    (Json.array (toJsons cs)).isSound room = true →
    (∀ i ∈ referencesOf cs, (i : Int) ≤ Json.maxIndex) →
    ofJson?.members? room (.array (toJsons cs)) = some cs
  | _, 0, h, _ => by cases h
  | [], room + 1, _, _ => rfl
  | c :: cs, room + 1, h, hi => by
      obtain ⟨hc, hcs⟩ : c.toJson.isSound room = true ∧
          (Json.array (toJsons cs)).isSound (room + 1) = true := by
        rw [toJsons, Json.isSound, Json.areSound, Bool.and_eq_true] at h
        exact h
      have hrest := members?_toJsons cs (room + 1) hcs fun i h => hi i (by simp [referencesOf, h])
      rw [ofJson?.members?, Json.asList] at hrest ⊢
      rw [toJsons, List.mapM_cons, hrest,
        ofJson?_toJson c room hc fun i h => hi i (by simp [referencesOf, h])]
      rfl

end

/-- A clause that may be missing is read from its document. -/
theorem nullable_optionalToJson {o : Option Clause} (h : ∀ c ∈ o, c.IsStorable) :
    Fields.nullable (ofJson? room) (optionalToJson o) = some o := by
  cases o with
  | none => rfl
  | some c =>
      have hc := h c rfl
      have hread := ofJson?_toJson c room hc.nesting hc.references
      have hobject : ∃ es, c.toJson = .object es := by cases c <;> exact ⟨_, rfl⟩
      obtain ⟨es, hes⟩ := hobject
      rw [optionalToJson, hes, Fields.nullable, ← hes, hread]
      · rfl
      · nofun

end Clause

/-! ### Phases -/

/-- The choices of a phase are read from its fields. -/
theorem Policy.ofFields?_toEntries {f : Fields} (policy : Policy)
    (hundecided : f.found.lookup "ignore_undecided_if_predict_is_defined" =
      some (.bool policy.ignoreUndecided))
    (hannul : f.found.lookup "annulled_if_predict_is_false" = some (.bool policy.annulIfNo)) :
    Policy.ofFields? f = some policy := by
  refine Fields.bind_withDefault hundecided (Json.asBool_bool _) ?_
  exact Fields.bind_withDefault hannul (Json.asBool_bool _) rfl

/-- A first phase is read from its document. -/
theorem PrePhase.ofJson?_toJson {p : PrePhase} (h : ∀ o ∈ p.clauses, ∀ c ∈ o, c.IsStorable) :
    PrePhase.ofJson? p.toJson = some p := by
  have hwrong := Clause.nullable_optionalToJson (h p.wrongIf (by simp [clauses]))
  have hannulled := Clause.nullable_optionalToJson (h p.annulledIf (by simp [clauses]))
  have hpredict := Clause.nullable_optionalToJson (h p.predictIf (by simp [clauses]))
  rw [ofJson?, toJson]
  refine Json.bind_asRecord (by rfl) (by decide) ?_
  refine Fields.bind_nullableField (by rfl) hwrong ?_
  refine Fields.bind_nullableField (by rfl) hannulled ?_
  refine Fields.bind_nullableField (by rfl) hpredict ?_
  rw [Policy.ofFields?_toEntries p.policy rfl rfl]
  rfl

/-- A second phase is read from its document. -/
theorem MainPhase.ofJson?_toJson {p : MainPhase} (h : ∀ o ∈ p.clauses, ∀ c ∈ o, c.IsStorable) :
    MainPhase.ofJson? p.toJson = some p := by
  have hwrong := Clause.nullable_optionalToJson (h p.wrongIf (by simp [clauses]))
  have hannulled := Clause.nullable_optionalToJson (h p.annulledIf (by simp [clauses]))
  have hclause := h (some p.predict) (by simp [clauses]) p.predict rfl
  have hpredict := Clause.ofJson?_toJson p.predict Clause.room hclause.nesting hclause.references
  rw [ofJson?, toJson]
  refine Json.bind_asRecord (by rfl) (by decide) ?_
  refine Fields.bind_nullableField (by rfl) hwrong ?_
  refine Fields.bind_nullableField (by rfl) hannulled ?_
  refine Fields.bind_required (by rfl) hpredict ?_
  rw [Policy.ofFields?_toEntries p.policy rfl rfl]
  rfl

/-! ### Predictions -/

/-- The state of a prediction is read from its document. -/
theorem PredictionState.ofJson?_toJson {s : PredictionState}
    (h : Decimal.fitsWord s.lastTs = true) : PredictionState.ofJson? s.toJson = some s := by
  rw [ofJson?, toJson]
  refine Json.bind_asRecord (by rfl) (by decide) ?_
  refine Fields.bind_required (by rfl) (Json.asWordOf_word Status.ofWord?_word _) ?_
  refine Fields.bind_required (by rfl) (Json.asWord_int h) ?_
  exact Fields.bind_required (by rfl) (Json.asWordOf_word Outcome.ofWord?_word _) rfl

/-- A time is read from its stored form. -/
theorem Json.asInstant_storedText {t : Calendar.Instant} (h : t.IsProper) :
    Json.asInstant (.string t.storedText) = some t := by
  rw [asInstant, asText_string, Option.bind_some, Calendar.readStored_storedText h]

namespace Prediction

/-- The clauses of a prediction that are there. -/
def clauses (p : Prediction) : List Clause :=
  (p.pre.clauses ++ p.main.clauses).filterMap fun o => o

theorem mem_clauses {p : Prediction} {o : Option Clause}
    (ho : o ∈ p.pre.clauses ∨ o ∈ p.main.clauses) {c : Clause} (hc : c ∈ o) : c ∈ p.clauses :=
  List.mem_filterMap.2 ⟨o, List.mem_append.2 ho, hc⟩

/-- Whether everything in a prediction is of a size that stored documents have room for. -/
structure IsStorable (p : Prediction) : Prop where
  createdAt : p.createdAt.IsProper
  postedAt : p.postedAt.IsProper
  given : ∀ c ∈ p.given, c.FitsWords
  clauses : ∀ c ∈ p.clauses, c.IsStorable
  state : Decimal.fitsWord p.state.lastTs = true

/-- **A prediction is read from its document.** -/
theorem ofJson?_toJson {p : Prediction} (h : p.IsStorable) : ofJson? p.toJson = some p := by
  have hgiven : Json.asList Condition.ofJson? (.array (p.given.map Condition.toJson)) =
      some p.given :=
    Json.asList_map fun c hc => Condition.ofJson?_toJson (h.given c hc)
  have hpre := PrePhase.ofJson?_toJson fun o ho c hc => h.clauses c (mem_clauses (Or.inl ho) hc)
  have hmain := MainPhase.ofJson?_toJson fun o ho c hc => h.clauses c (mem_clauses (Or.inr ho) hc)
  have hstate := PredictionState.ofJson?_toJson h.state
  have hcreatedAt := Json.asInstant_storedText h.createdAt
  have hpostedAt := Json.asInstant_storedText h.postedAt
  have hshape := Json.asWordOf_word Shape.ofWord?_word p.shape
  rw [ofJson?, toJson]
  refine Json.bind_asRecord (by rfl) (by decide) ?_
  refine Fields.bind_required (by rfl) (Json.asText_string _) ?_
  refine Fields.bind_required (by rfl) hcreatedAt ?_
  refine Fields.bind_required (by rfl) hpostedAt ?_
  refine Fields.bind_withDefault (by rfl) (Json.asText_string _) ?_
  refine Fields.bind_withDefault (by rfl) (Json.asText_string _) ?_
  refine Fields.bind_withDefault (by rfl) (Json.asText_string _) ?_
  refine Fields.bind_withDefault (by rfl) (Json.asText_string _) ?_
  refine Fields.bind_required (by rfl) hgiven ?_
  refine Fields.bind_withDefault (by rfl) hpre ?_
  refine Fields.bind_required (by rfl) hmain ?_
  refine Fields.bind_withDefault (by rfl) hstate ?_
  exact Fields.bind_withDefault (by rfl) hshape rfl

end Prediction

end Forecast
