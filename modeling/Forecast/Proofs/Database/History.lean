import Forecast.Proofs.Database.Rows

/-!
# Histories of a Database

A database answers requests one after the other: it is asked for the predictions with some outcomes, or
given predictions to keep. Whoever asks need not know of rows, columns and texts. To them the database
is a ledger (`Ledger`): a map from ids to the predictions that were last written under them. It hands
out what it holds of the outcomes asked for, and it takes in predictions that are all under their own
ids; others it refuses, all together.

The two agree because of what every table that can be reached has in common (`Database.Holds`): its rows
are the rows of what the ledger holds. So the column by which rows are selected agrees with the text
beside it, although no request ever compares the two.

## Main results

* `Database.Holds.answer`: one request is answered alike, and what is held stays alike.
* `Database.answers_eq_ledger`: so is every history of requests.
-/

namespace Forecast

/-- What can be asked of a place where predictions are kept. -/
inductive Request where
  /-- To hand out the predictions with one of some outcomes; all of them if none is named. -/
  | load (outcomes : List Outcome)
  /-- To keep predictions under some ids. -/
  | save (ps : Keyed Prediction)

/-- What is answered. -/
inductive Answer where
  | loaded (ps : Keyed Prediction)
  | saved
  | refused

/-- The answers to requests that are made one after the other. -/
def answers {σ : Type} (answer : σ → Request → Answer × σ) : σ → List Request → List Answer
  | _, [] => []
  | s, r :: rs => (answer s r).1 :: answers answer (answer s r).2 rs

/-- The predictions that were last written under their ids. -/
abbrev Ledger : Type := Keyed Prediction

/-- The ledger after predictions are written, over what was written before. -/
def Ledger.write (m : Ledger) (ps : Keyed Prediction) : Ledger :=
  ps.entries.foldl (fun m e => m.insert e.1 e.2) m

/-- What a ledger answers, and the ledger afterwards. It refuses predictions that are not all under
their own ids, and is then as before. -/
def Ledger.answer (m : Ledger) : Request → Answer × Ledger
  | .load outcomes => (.loaded (m.filter fun _ p => p.state.outcome.isAmong outcomes), m)
  | .save ps => if IsKeyedById ps then (.saved, Ledger.write m ps) else (.refused, m)

/-- What a database answers, and the database afterwards. A request that fails leaves it as it was. -/
def Database.answer (d : Database) : Request → Answer × Database
  | .load outcomes =>
    match d.load outcomes with
    | .ok ps => (.loaded ps, d)
    | .error _ => (.refused, d)
  | .save ps =>
    match d.save ps with
    | .ok d' => (.saved, d')
    | .error _ => (.refused, d)

/-- Whether a prediction is read back from the text in which it is stored. -/
def Prediction.IsReadBack (p : Prediction) : Prop :=
  ofStored? p.stored = some p

/-- Whether all predictions in a request are read back. -/
def Request.IsReadBack : Request → Prop
  | .load _ => True
  | .save ps => ∀ p ∈ ps.values, p.IsReadBack

/-- The last that was written counts. -/
theorem Ledger.get?_write (m : Ledger) (ps : Keyed Prediction) (id : String) :
    (Ledger.write m ps).get? id = (ps.get? id).or (m.get? id) :=
  Keyed.get?_foldl_insert ps.nodup_names m id

namespace Database

/-- Whether the rows of a database are those of what a ledger holds. -/
structure Holds (d : Database) (m : Ledger) : Prop where
  tables : d.tables.isSome = true
  rows : ∀ id, d.rows.get? id = (m.get? id).map Prediction.row
  read : ∀ id p, m.get? id = some p → p.IsReadBack

/-- New tables hold nothing. -/
theorem holds_blank : Holds blank.withTables .empty where
  tables := rfl
  rows _ := rfl
  read id p h := by cases h

namespace Holds

variable {d d' : Database} {m : Ledger} {ps : Keyed Prediction}

/-- What is held is handed out, whatever outcomes are asked for. -/
theorem load_eq (h : Holds d m) (outcomes : List Outcome) :
    d.load outcomes = .ok (m.filter fun _ p => p.state.outcome.isAmong outcomes) := by
  have hread : ∀ id r, d.rows.get? id = some r → Row.isAmong outcomes r = true →
      (Prediction.ofStored? r.body).isSome := fun id r hr _ => by
    rw [h.rows] at hr
    obtain ⟨p, hp, rfl⟩ := Option.map_eq_some_iff.1 hr
    exact Option.isSome_iff_exists.2 ⟨p, h.read id p hp⟩
  obtain ⟨ps, hps⟩ := exists_load h.tables hread
  rw [hps]
  congr 1
  refine Keyed.ext fun id => Option.ext fun p => ?_
  rw [get?_load hps, Keyed.get?_filter, Option.filter_eq_some_iff]
  constructor
  · rintro ⟨r, hr, hamong, hbody⟩
    rw [h.rows] at hr
    obtain ⟨q, hq, rfl⟩ := Option.map_eq_some_iff.1 hr
    obtain rfl : q = p := Option.some.inj ((h.read id q hq).symm.trans hbody)
    rw [isAmong_row] at hamong
    exact ⟨hq, hamong⟩
  · rintro ⟨hp, hamong⟩
    refine ⟨p.row, ?_, ?_, h.read id p hp⟩
    · rw [h.rows, hp, Option.map_some]
    · rwa [isAmong_row]

/-- What is saved is held. -/
theorem save (h : Holds d m) (hread : ∀ p ∈ ps.values, p.IsReadBack) (hsave : d.save ps = .ok d') :
    Holds d' (Ledger.write m ps) where
  tables := isSome_tables_save hsave h.tables
  rows id := by rw [get?_rows_save hsave, h.rows, Ledger.get?_write, Option.map_or]
  read id p hp := by
    rw [Ledger.get?_write, Option.or_eq_some_iff] at hp
    rcases hp with hp | ⟨-, hp⟩
    · exact hread p (List.mem_map_of_mem ((ps.mem_entries_iff id p).2 hp))
    · exact h.read id p hp

/-- **A request is answered as by the ledger,** and what is held afterwards is what the ledger holds. -/
theorem answer (h : Holds d m) {r : Request} (hread : r.IsReadBack) :
    (d.answer r).1 = (Ledger.answer m r).1 ∧ Holds (d.answer r).2 (Ledger.answer m r).2 := by
  cases r with
  | load outcomes =>
      rw [Database.answer, h.load_eq outcomes, Ledger.answer]
      exact ⟨rfl, h⟩
  | save ps =>
      rw [Database.answer, Ledger.answer]
      by_cases hkeyed : IsKeyedById ps
      · have hreadable : ∀ p ∈ ps.values, (Prediction.ofStored? p.stored).isSome :=
          fun p hp => Option.isSome_iff_exists.2 ⟨p, hread p hp⟩
        obtain ⟨d', hd'⟩ := exists_save h.tables hkeyed hreadable
        rw [hd', if_pos hkeyed]
        exact ⟨rfl, h.save hread hd'⟩
      · obtain ⟨e, he, hne⟩ : ∃ e ∈ ps.entries, e.1 ≠ e.2.id := by
          simpa [IsKeyedById] using hkeyed
        have hreadable : (Prediction.ofStored? e.2.stored).isSome :=
          Option.isSome_iff_exists.2 ⟨e.2, hread e.2 (List.mem_map_of_mem he)⟩
        obtain ⟨f, hf⟩ := exists_save_error (d := d) he hne hreadable
        rw [hf, if_neg hkeyed]
        exact ⟨rfl, h⟩

end Holds

/-- Requests are answered as by the ledger. -/
theorem answers_eq_of_holds {requests : List Request} (hread : ∀ r ∈ requests, r.IsReadBack)
    {d : Database} {m : Ledger} (h : Holds d m) :
    answers Database.answer d requests = answers Ledger.answer m requests := by
  induction requests generalizing d m with
  | nil => rfl
  | cons r rs ih =>
      obtain ⟨hr, hrs⟩ := List.forall_mem_cons.1 hread
      obtain ⟨hanswer, hafter⟩ := h.answer hr
      rw [answers, answers, hanswer, ih hrs hafter]

/-- **A database is a ledger:** from new tables on, whatever is asked of it, it answers what the
predictions last written under their ids would let it answer. In particular it always hands out what is
asked for, and it refuses predictions of which one is not under its own id, with all the others. -/
theorem answers_eq_ledger {requests : List Request} (hread : ∀ r ∈ requests, r.IsReadBack) :
    answers Database.answer blank.withTables requests = answers Ledger.answer .empty requests :=
  answers_eq_of_holds hread holds_blank

/-- A prediction without conditions. -/
def plain (id : String) (state : PredictionState) : Prediction where
  id
  createdAt := ⟨1704067200, 0⟩
  postedAt := ⟨1704067200, 0⟩
  reporter := "\"r\"\n"
  postAuthor := ""
  postUrl := ""
  postText := ""
  given := []
  pre := .none
  main := ⟨none, some (.disj []), .neg (.conj []), .default⟩
  state
  shape := .unsupported

theorem isReadBack_plain (id : String) (state : PredictionState)
    (h : Decimal.fitsWord state.lastTs = true) : (plain id state).IsReadBack := by
  have hproper : Calendar.Instant.IsProper ⟨1704067200, 0⟩ := ⟨by decide, Or.inl (by decide)⟩
  have hstorable : (plain id state).IsStorable :=
    { createdAt := hproper
      postedAt := hproper
      given := nofun
      clauses := fun c hc => by
        have hclauses : (plain id state).clauses = [.disj [], .neg (.conj [])] := rfl
        rw [hclauses] at hc
        rcases List.mem_cons.1 hc with rfl | hc
        · exact ⟨nofun, by decide⟩
        · obtain rfl := List.mem_singleton.1 hc
          exact ⟨nofun, by decide⟩
      state := h }
  rw [Prediction.IsReadBack, Prediction.ofStored?_stored hstorable nofun,
    Prediction.mapPrices_eq_self]
  nofun

/-- A state after a minute. -/
def afterMinute (outcome : Outcome) : PredictionState :=
  ⟨.started, 60, outcome⟩

/-- The same id is written twice, the second time beside a prediction under another id, and the third
time without it. -/
theorem answers_plain :
    answers Database.answer blank.withTables
      [.save (.ofList [("a", plain "a" (afterMinute .running)), ("b", plain "b" (afterMinute .correct))]),
        .save (.ofList [("a", plain "a" (afterMinute .correct)), ("c", plain "b" (afterMinute .running))]),
        .load [.running],
        .save (.ofList [("a", plain "a" (afterMinute .annulled))]),
        .load [.running],
        .load []] =
      [.saved, .refused, .loaded (.ofList [("a", plain "a" (afterMinute .running))]), .saved,
        .loaded .empty, .loaded (.ofList [("a", plain "a" (afterMinute .annulled)),
          ("b", plain "b" (afterMinute .correct))])] := by
  refine (answers_eq_ledger fun r hr => ?_).trans rfl
  have hsave {es : List (String × Prediction)}
      (hes : ∀ e ∈ es, ∃ id outcome, e.2 = plain id (afterMinute outcome)) :
      (Request.save (.ofList es)).IsReadBack := by
    intro p hp
    obtain ⟨e, he, rfl⟩ := List.mem_map.1 hp
    obtain ⟨id, outcome, heq⟩ := hes e (Keyed.mem_of_mem_ofList he)
    rw [heq]
    exact isReadBack_plain id (afterMinute outcome) (by rfl)
  simp only [List.mem_cons, List.not_mem_nil, or_false] at hr
  rcases hr with rfl | rfl | rfl | rfl | rfl | rfl
  · exact hsave (by simp [plain, afterMinute])
  · exact hsave (by simp [plain, afterMinute])
  · trivial
  · exact hsave (by simp [plain, afterMinute])
  · trivial
  · trivial

end Database

end Forecast
