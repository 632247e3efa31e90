import Forecast.Proofs.Clause.Rendering
import Forecast.Proofs.Compile.WellFormed
import Forecast.Proofs.Stored.Readable

/-!
# How Deeply Stored Clauses Nest

A reader of documents follows no more than `Json.maxNesting` levels of arrays and objects, and in a
stored prediction only the clauses nest without a bound of their own. What is bounded is the text
that a clause is read from: no more than 31 openings stand around any of its primaries. A document
knows nothing of openings. Parentheses are gone from the clause, and each chain makes the document
two levels deeper, an object and the array of its members (`Clause.depth`).

The two are compared on the written clause, by induction on it. An opening is followed by at most
one chain that the clause keeps, so it is worth two levels at most, and one chain more may stand
around all openings.

## Main results

* `Clause.depth_of_clause?`: the depth of a clause by the openings of what is written.
* `Clause.readable_of_parse`: a clause that is read from a text can be read from a document, and so
  can the clauses of a compiled prediction.
-/

namespace Forecast

namespace Json

/-! ### Levels -/

mutual

/-- How many levels of arrays and objects a document nests. -/
def levels : Json → Nat
  | .array items => levelsOf items + 1
  | .object entries => entryLevels entries + 1
  | _ => 0

/-- How many levels the deepest of some documents nests. -/
def levelsOf : List Json → Nat
  | [] => 0
  | j :: js => max j.levels (levelsOf js)

/-- How many levels the deepest value of some entries nests. -/
def entryLevels : List (String × Json) → Nat
  | [] => 0
  | (_, j) :: es => max j.levels (entryLevels es)

end

mutual

/-- A document that is sound in a room nests no more levels. -/
theorem levels_le_of_isSound : ∀ (j : Json) (room : Nat), j.isSound room = true → j.levels ≤ room
  | .null, room, _ => Nat.zero_le room
  | .bool _, room, _ => Nat.zero_le room
  | .int _, room, _ => Nat.zero_le room
  | .float _, room, _ => Nat.zero_le room
  | .string _, room, _ => Nat.zero_le room
  | .unusable, room, _ => Nat.zero_le room
  | .array _, 0, h => by cases h
  | .object _, 0, h => by cases h
  | .array js, room + 1, h => Nat.succ_le_succ (levelsOf_le_of_areSound js room h)
  | .object es, room + 1, h => Nat.succ_le_succ (entryLevels_le_of_entriesSound es room h)

/-- So do several documents. -/
theorem levelsOf_le_of_areSound : ∀ (js : List Json) (room : Nat), areSound room js = true →
    levelsOf js ≤ room
  | [], room, _ => Nat.zero_le room
  | j :: js, room, h => by
      rw [areSound, Bool.and_eq_true] at h
      exact Nat.max_le.2 ⟨levels_le_of_isSound j room h.1, levelsOf_le_of_areSound js room h.2⟩

/-- So do the values of several entries. -/
theorem entryLevels_le_of_entriesSound : ∀ (es : List (String × Json)) (room : Nat),
    entriesSound room es = true → entryLevels es ≤ room
  | [], room, _ => Nat.zero_le room
  | (_, j) :: es, room, h => by
      rw [entriesSound, Bool.and_eq_true] at h
      exact Nat.max_le.2
        ⟨levels_le_of_isSound j room h.1, entryLevels_le_of_entriesSound es room h.2⟩

end

end Json

namespace Clause

/-! ### The depth of a clause -/

mutual

/-- How deeply the document of a clause nests: a leaf is one level, a negation is one more than what
it negates, and a chain is two more than the deepest of its members. -/
def depth : Clause → Nat
  | .literal _ => 1
  | .conj cs => depthOf cs + 2
  | .disj cs => depthOf cs + 2
  | .neg c => c.depth + 1

/-- The depth of the deepest of some clauses. -/
def depthOf : List Clause → Nat
  | [] => 0
  | c :: cs => max c.depth (depthOf cs)

end

/-- A chain is two levels deeper than its members, whatever joins them. -/
theorem depth_chain (j : Joiner) (cs : List Clause) : (j.chain cs).depth = depthOf cs + 2 := by
  cases j <;> simp only [Joiner.chain, depth]

/-- A tag makes a document one level deeper. -/
theorem levels_tagged (op : String) (args : Json) : (tagged op args).levels = args.levels + 1 := by
  simp [tagged, Json.levels, Json.entryLevels]

mutual

/-- The document of a clause nests as many levels as the clause is deep. -/
theorem levels_toJson : ∀ c : Clause, c.toJson.levels = c.depth
  | .literal i => by simp [toJson, levels_tagged, Json.levels, depth]
  | .neg c => by rw [toJson, levels_tagged, levels_toJson c, depth]
  | .conj cs => by rw [toJson, levels_tagged, Json.levels, levelsOf_toJsons cs, depth]
  | .disj cs => by rw [toJson, levels_tagged, Json.levels, levelsOf_toJsons cs, depth]

/-- So do the documents of several clauses. -/
theorem levelsOf_toJsons : ∀ cs : List Clause, Json.levelsOf (toJsons cs) = depthOf cs
  | [] => by rw [toJsons, Json.levelsOf, depthOf]
  | c :: cs => by rw [toJsons, Json.levelsOf, depthOf, levels_toJson c, levelsOf_toJsons cs]

end

mutual

/-- Where there is room for the depth of a clause, its document is sound. -/
theorem isSound_of_depth_le : ∀ (c : Clause) (room : Nat), c.depth ≤ room →
    c.toJson.isSound room = true
  | .literal i, 0, h => by simp [depth] at h
  | .neg c, 0, h => by simp [depth] at h
  | .conj cs, 0, h => by simp [depth] at h
  | .disj cs, 0, h => by simp [depth] at h
  | .literal i, room + 1, _ => by rw [toJson, isSound_tagged, Json.isSound_int]
  | .neg c, room + 1, h => by
      rw [depth] at h
      rw [toJson, isSound_tagged, isSound_of_depth_le c room (Nat.le_of_succ_le_succ h)]
  | .conj cs, room + 1, h => by
      rw [depth] at h
      rw [toJson, isSound_tagged, isSound_of_depthOf_lt cs room (Nat.le_of_succ_le_succ h)]
  | .disj cs, room + 1, h => by
      rw [depth] at h
      rw [toJson, isSound_tagged, isSound_of_depthOf_lt cs room (Nat.le_of_succ_le_succ h)]

/-- Where there is room for the members of a chain and one level more, so is the array of their
documents. -/
theorem isSound_of_depthOf_lt : ∀ (cs : List Clause) (room : Nat), depthOf cs < room →
    (Json.array (toJsons cs)).isSound room = true
  | _, 0, h => absurd h (Nat.not_lt_zero _)
  | [], room + 1, _ => by rw [toJsons, Json.isSound, Json.areSound]
  | c :: cs, room + 1, h => by
      rw [depthOf] at h
      have hc := isSound_of_depth_le c room (by omega)
      have hcs := isSound_of_depthOf_lt cs (room + 1) (by omega)
      rw [Json.isSound] at hcs
      rw [toJsons, Json.isSound, Json.areSound, hc, hcs]
      rfl

end

/-! ### Openings -/

section Openings

variable {declared : String → Option Nat}

mutual

/-- Every opening of a primary is worth at most two levels. -/
theorem Primary.depth_of_clause? : ∀ (p : Primary) {c : Clause}, p.clause? declared = some c →
    c.depth ≤ 2 * p.nesting + 1
  | .name word, c, h => by
      obtain ⟨i, -, rfl⟩ := Option.map_eq_some_iff.1 h
      simp [depth]
  | .not p, c, h => by
      obtain ⟨d, hd, rfl⟩ := Option.map_eq_some_iff.1 h
      have hp := p.depth_of_clause? hd
      rw [depth, Primary.nesting]
      omega
  | .parens w, c, h => by
      have hw := w.depth_of_clause? h
      rw [Primary.nesting]
      omega

/-- One chain more may stand around all openings. -/
theorem Written.depth_of_clause? : ∀ (w : Written) {c : Clause}, w.clause? declared = some c →
    c.depth ≤ 2 * w.nesting + 3
  | .single p, c, h => (p.depth_of_clause? h).trans (Nat.add_le_add_left (by decide) _)
  | .chain j p q ps, c, h => by
      obtain ⟨a, b, cs, ha, hb, hcs, rfl⟩ := Written.clause?_chain_eq_some_iff.1 h
      have hp := p.depth_of_clause? ha
      have hq := q.depth_of_clause? hb
      have hps := depthOf_of_memberClauses? ps hcs
      rw [depth_chain, depthOf, depthOf, Written.nesting]
      omega

/-- Every opening of the further members of a chain is worth at most two levels. -/
theorem depthOf_of_memberClauses? : ∀ (ps : List Primary) {cs : List Clause},
    memberClauses? declared ps = some cs → depthOf cs ≤ 2 * memberNesting ps + 1
  | [], cs, h => by
      cases h
      exact Nat.zero_le _
  | p :: ps, cs, h => by
      obtain ⟨a, bs, ha, hbs, rfl⟩ := memberClauses?_cons_eq_some_iff.1 h
      have hp := p.depth_of_clause? ha
      have hps := depthOf_of_memberClauses? ps hbs
      rw [depthOf, memberNesting]
      omega

end

/-- A clause that is read from a text is two levels deep for each opening that there may be, and one
for its leaves. -/
theorem depth_of_parse {text : String} {c : Clause} (h : parse declared text = .ok c) :
    c.depth ≤ 2 * maxNesting + 1 := by
  obtain ⟨w, -, hle, hc⟩ := exists_written_of_parse h
  have hdepth := w.depth_of_clause? hc
  change c.depth ≤ 65
  omega

end Openings

end Clause

/-! ### Compiled predictions -/

/-- A prediction nests two levels more than its clauses, if these nest deeply enough to outweigh its
conditions. -/
theorem Prediction.isSound_of_clauses {p : Prediction} {room : Nat} (hroom : 4 ≤ room)
    (h : ∀ c ∈ p.clauses, c.toJson.isSound room = true) : p.toJson.isSound (room + 2) = true := by
  have hoptional {o : Option Clause} (ho : o ∈ p.pre.clauses ∨ o ∈ p.main.clauses) :
      (Clause.optionalToJson o).isSound room = true := by
    cases o with
    | none => exact Json.isSound_null room
    | some c => exact h c (mem_clauses ho rfl)
  have hpreWrong := hoptional (o := p.pre.wrongIf) (Or.inl (by simp [PrePhase.clauses]))
  have hpreAnnulled := hoptional (o := p.pre.annulledIf) (Or.inl (by simp [PrePhase.clauses]))
  have hprePredict := hoptional (o := p.pre.predictIf) (Or.inl (by simp [PrePhase.clauses]))
  have hwrong := hoptional (o := p.main.wrongIf) (Or.inr (by simp [MainPhase.clauses]))
  have hannulled := hoptional (o := p.main.annulledIf) (Or.inr (by simp [MainPhase.clauses]))
  have hpredict := hoptional (o := some p.main.predict) (Or.inr (by simp [MainPhase.clauses]))
  rw [Clause.optionalToJson] at hpredict
  have hpre : p.pre.toJson.isSound (room + 1) = true := by
    rw [PrePhase.toJson, Json.isSound_object]
    simp [Policy.toEntries, hpreWrong, hpreAnnulled, hprePredict]
  have hmain : p.main.toJson.isSound (room + 1) = true := by
    rw [MainPhase.toJson, Json.isSound_object]
    simp [Policy.toEntries, hwrong, hannulled, hpredict]
  have hgiven : (Json.array (p.given.map Condition.toJson)).isSound (room + 1) = true := by
    refine Json.isSound_array fun j hj => ?_
    obtain ⟨c, -, rfl⟩ := List.mem_map.1 hj
    exact Json.isSound_mono _ hroom (c.isSound_toJson 0)
  have hstate : p.state.toJson.isSound (room + 1) = true := by
    simp [PredictionState.toJson, Json.isSound_object]
  rw [toJson, Json.isSound_object]
  simp [hpre, hmain, hgiven, hstate]

/-- So it nests two levels more than its clauses are deep. -/
theorem Prediction.isSound_toJson {p : Prediction} {room : Nat} (hroom : 4 ≤ room)
    (h : ∀ c ∈ p.clauses, c.depth ≤ room) : p.toJson.isSound (room + 2) = true :=
  isSound_of_clauses hroom fun c hc => c.isSound_of_depth_le room (h c hc)

namespace Compile

/-- What holds of every clause that is read with the positions of the conditions of a compiled
prediction holds of its clauses. -/
theorem forall_clauses_of_prediction {draft : Draft} {createdAt : Calendar.Instant} {p : Prediction}
    {P : Clause → Prop} (hP : ∀ text c,
      Clause.parse (fun name => p.given.findIdx? (·.name == name)) text = .ok c → P c)
    (h : prediction draft createdAt = .ok p) : ∀ c ∈ p.clauses, P c := by
  obtain ⟨postedAt, -, hpre, hmain, -⟩ := exists_of_prediction h
  have hmem {written : Option String} {o : Option Clause}
      (hrel : Option.Rel (fun _ c => P c) written o) : ∀ c ∈ o, P c := by
    rintro c rfl
    cases hrel with
    | some hread => exact hread
  obtain ⟨hpreWrong, hpreAnnulled, hprePredict⟩ := rel_of_prePhase hP hpre
  obtain ⟨hwrong, hannulled, hpredict⟩ := rel_of_mainPhase hP hmain
  intro c hc
  obtain ⟨o, ho, hco⟩ := List.mem_filterMap.1 hc
  simp only [PrePhase.clauses, MainPhase.clauses, List.mem_append, List.mem_cons,
    List.not_mem_nil, or_false] at ho
  rcases ho with (rfl | rfl | rfl) | (rfl | rfl | rfl)
  · exact hmem hpreWrong c hco
  · exact hmem hpreAnnulled c hco
  · exact hmem hprePredict c hco
  · exact hmem hwrong c hco
  · exact hmem hannulled c hco
  · exact hmem hpredict c hco

/-- The clauses of a compiled prediction are read from texts. -/
theorem exists_parse_of_mem_clauses {draft : Draft} {createdAt : Calendar.Instant} {p : Prediction}
    (h : prediction draft createdAt = .ok p) {c : Clause} (hc : c ∈ p.clauses) :
    ∃ declared text, Clause.parse declared text = .ok c :=
  forall_clauses_of_prediction (P := fun c => ∃ declared text, Clause.parse declared text = .ok c)
    (fun text _ hread => ⟨_, text, hread⟩) h c hc

end Compile

/-- **A clause that is read stays readable where it is stored.** Its document nests as many levels as
the clause is deep, which is at most 65, and the clause is read from it again, if its positions fit a
word. The document of a compiled prediction nests at most 67 levels, so that every reader of
documents follows it. -/
theorem Clause.readable_of_parse :
    (∀ (declared : String → Option Nat) (text : String) (c : Clause), parse declared text = .ok c →
      c.toJson.levels = c.depth ∧ c.depth ≤ 2 * maxNesting + 1 ∧ 2 * maxNesting + 1 = 65 ∧
        ((∀ i ∈ c.references, (i : Int) ≤ Json.maxIndex) →
          ofJson? room c.toJson.asRead = some c)) ∧
    ∀ (draft : Draft) (createdAt : Calendar.Instant) (p : Prediction),
      Compile.prediction draft createdAt = .ok p →
        p.toJson.levels ≤ 67 ∧ p.toJson.isSound Json.maxNesting = true := by
  constructor
  · intro declared text c h
    have hdepth := depth_of_parse h
    refine ⟨levels_toJson c, hdepth, rfl, fun hindex => ?_⟩
    have hroom : c.toJson.isSound room = true :=
      c.isSound_of_depth_le room (hdepth.trans (by decide))
    rw [asRead_toJson c hindex]
    exact c.ofJson?_toJson room hroom hindex
  · intro draft createdAt p h
    have hsound : p.toJson.isSound 67 = true := Prediction.isSound_toJson (by decide) fun c hc => by
      obtain ⟨declared, text, hread⟩ := Compile.exists_parse_of_mem_clauses h hc
      exact depth_of_parse hread
    exact ⟨p.toJson.levels_le_of_isSound 67 hsound, p.toJson.isSound_mono (by decide) hsound⟩

/-! ### The deepest clauses -/

namespace Clause

/-- Conjunctions of one condition with a conjunction of it, some number of times. -/
def nested : Nat → Clause
  | 0 => .literal 0
  | n + 1 => .conj [.literal 0, nested n]

/-- The names of a single condition. -/
def oneName (i : Nat) : Option String :=
  ["main"][i]?

/-- The position of a single condition. -/
def onePosition (word : String) : Option Nat :=
  ["main"].findIdx? (· == word)

theorem depth_nested (n : Nat) : (nested n).depth = 2 * n + 1 := by
  induction n with
  | zero => rfl
  | succ n ih =>
      simp only [nested, depth, depthOf, ih]
      omega

theorem references_nested (n : Nat) : ∀ i ∈ (nested n).references, i = 0 := by
  induction n with
  | zero => exact fun i hi => List.mem_singleton.1 hi
  | succ n ih =>
      intro i hi
      simp only [nested, references, referencesOf, List.append_nil, List.mem_append,
        List.mem_singleton] at hi
      exact hi.elim id (ih i)

theorem hasFullChains_nested (n : Nat) : (nested n).HasFullChains := by
  induction n with
  | zero => trivial
  | succ n ih => exact ⟨Nat.le_refl 2, trivial, ih, trivial⟩

/-- The outermost conjunction needs no parentheses. -/
theorem nesting_nested (n : Nat) : (asWritten oneName (nested (n + 1))).nesting ≤ n := by
  induction n with
  | zero => exact Nat.le_refl 0
  | succ n ih =>
      have hinner : (asPrimary oneName (nested (n + 1))).nesting ≤
          (asWritten oneName (nested (n + 1))).nesting + 1 :=
        nesting_asPrimary_le (nested (n + 1))
      rw [nested, asWritten, asPrimaries, asPrimaries, asPrimaries, Joiner.written, Written.nesting,
        memberNesting, asPrimary, Primary.nesting]
      omega

/-- As many as 32 conjunctions within each other are read from their words. -/
theorem parse_nested {n : Nat} (h : n < 32) :
    parse onePosition ((nested (n + 1)).render oneName) = .ok (nested (n + 1)) := by
  have hnames : (nested (n + 1)).HasNames oneName := by
    intro i hi
    obtain rfl := references_nested (n + 1) i hi
    exact ⟨"main", rfl, by decide, by rfl⟩
  have hdeclares : (nested (n + 1)).Declares onePosition oneName := by
    intro i hi
    obtain rfl := references_nested (n + 1) i hi
    exact ⟨"main", rfl, by decide⟩
  have hfull := hasFullChains_nested (n + 1)
  have hnesting : (asWritten oneName (nested (n + 1))).nesting ≤ 31 :=
    (nesting_nested n).trans (Nat.le_of_lt_succ h)
  exact parse_of_written (lexes_render hfull hnames) hnesting (clause?_asWritten hfull hdeclares)

/-- A draft with a clause of three openings. -/
def nestedDraft : Draft where
  id := none
  postedAt := "1970-01-01"
  reporter := ""
  postAuthor := ""
  postUrl := ""
  postText := ""
  given := .ofList [("main", ⟨"COIN:BINANCE:BTC-USDT > 3", none, none, some "1d", none⟩)]
  pre := none
  main := ⟨none, some "main", "not (main and not main)", false, false⟩

/-- The compiled prediction. -/
def nestedPrediction : Prediction where
  id := "anon-0"
  createdAt := ⟨0, 0⟩
  postedAt := ⟨0, 0⟩
  reporter := ""
  postAuthor := ""
  postUrl := ""
  postText := ""
  given := [.fresh "main" .above [.market (.coin "BINANCE" "BTC" "USDT"), .number 3] 0 86400 0]
  pre := .none
  main :=
    ⟨none, some (.literal 0), .neg (.conj [.literal 0, .neg (.literal 0)]), ⟨false, false⟩⟩
  state := .initial
  shape := .unsupported

/-- The limit is reached: a clause of 65 levels is read, and is read again from its document. A
prediction whose clauses are less deep nests fewer levels. -/
theorem readable_of_parse_nested :
    ((nested 32).toJson.levels = 65 ∧
      ofJson? room (nested 32).toJson.asRead = some (nested 32)) ∧
    Compile.prediction nestedDraft ⟨0, 0⟩ = .ok nestedPrediction ∧
      nestedPrediction.toJson.levels ≤ 67 := by
  obtain ⟨hparse, hprediction⟩ := readable_of_parse
  obtain ⟨hlevels, -, -, hread⟩ := hparse _ _ _ (parse_nested (n := 31) (by decide))
  have hindex : ∀ i ∈ (nested 32).references, (i : Int) ≤ Json.maxIndex := by
    intro i hi
    rw [references_nested 32 i hi]
    decide
  have hcompiled : Compile.prediction nestedDraft ⟨0, 0⟩ = .ok nestedPrediction := by
    with_unfolding_all rfl
  exact ⟨⟨hlevels.trans (depth_nested 32), hread hindex⟩, hcompiled,
    (hprediction _ _ _ hcompiled).1⟩

end Clause

end Forecast
