import Forecast.Database
import Forecast.Proofs.Archive.Contract
import Forecast.Proofs.Loose.Documents
import Forecast.Proofs.Stored.Readable

/-!
# Rows of Predictions

A prediction is put into a database as its row (`Prediction.row`): the word for its outcome beside its
stored text. What a database does with rows is said here once, by what a look-up finds:

* predictions are saved all or none. If they are, then under their names there are their rows, and the
  other rows are as before (`get?_rows_save`);
* what is loaded is what the rows with the outcomes asked for are read as, and nothing is loaded if one
  of these rows cannot be read (`get?_load`).

A row is admitted under the id of its prediction and under no other (`admits_stored`).
-/

namespace Forecast

/-- The value under a name of a map with other values. -/
theorem Keyed.get?_map {α β : Type} (f : α → β) (m : Keyed α) (name : String) :
    (m.map f).get? name = (m.get? name).map f := by
  ext value
  rw [← mem_entries_iff, Option.map_eq_some_iff]
  constructor
  · intro h
    obtain ⟨e, he, heq⟩ := List.mem_map.1 h
    cases heq
    exact ⟨e.2, (m.mem_entries_iff e.1 e.2).1 he, rfl⟩
  · rintro ⟨v, hv, rfl⟩
    exact List.mem_map_of_mem ((m.mem_entries_iff name v).2 hv)

/-- The row in which a prediction is stored. -/
def Prediction.row (p : Prediction) : Row :=
  ⟨p.state.outcome.word, p.stored⟩

theorem Prediction.body_row (p : Prediction) : p.row.body = p.stored :=
  rfl

namespace Database

/-- A row is selected by its outcome. -/
theorem isAmong_row (outcomes : List Outcome) (p : Prediction) :
    Row.isAmong outcomes p.row = p.state.outcome.isAmong outcomes := by
  have hword (o : Outcome) : (o.word == p.state.outcome.word) = (o == p.state.outcome) := by
    rw [Bool.eq_iff_iff, beq_iff_eq, beq_iff_eq]
    refine ⟨fun h => ?_, fun h => congrArg _ h⟩
    have hread := congrArg Outcome.ofWord? h
    rw [Outcome.ofWord?_word, Outcome.ofWord?_word] at hread
    exact Option.some.inj hread
  rw [Row.isAmong, Outcome.isAmong, Prediction.row, List.contains_eq_any_beq]
  simp only [hword, Bool.beq_comm (a := p.state.outcome)]

/-- **A stored text stands under the id of its prediction** and under no other, unless it nests more
deeply than a database follows. -/
theorem admits_of_isSound {p : Prediction} (hsound : p.toJson.isSound Loose.maxNesting = true)
    (id : String) : admits id p.stored = decide (p.id = id) := by
  have hnamed : (Loose.ofJson p.toJson).named? "id" = some (.text (Loose.textOf p.id)) := by
    have hname : Loose.isName "id" (Loose.textOf "id") = true := by decide
    rw [Prediction.toJson, Loose.ofJson, Loose.entriesOf, Loose.named?]
    simp only [List.find?_cons, hname]
    rfl
  rw [admits, Prediction.stored, Loose.read_compress hsound]
  dsimp only
  rw [hnamed, Option.all_some]
  exact Loose.isText_textOf id p.id

/-- So does every stored text that can be read. -/
theorem admits_stored {p q : Prediction} (h : Prediction.ofStored? p.stored = some q) (id : String) :
    admits id p.stored = decide (p.id = id) :=
  admits_of_isSound (Json.isSound_mono _ (by decide) (Prediction.isSound_of_ofStored? h)) id

/-! ### Tables -/

/-- The rows of a database. -/
def rows (d : Database) : Keyed Row :=
  match d.tables with
  | some t => t.rows
  | none => .empty

/-! ### Saving -/

section Saving

variable {d d' : Database} {ps : Keyed Prediction} {rows rows' : Keyed Row}
  {es : List (String × Prediction)}

theorem putEach_cons (rows : Keyed Row) (e : String × Prediction)
    (es : List (String × Prediction)) : putEach rows (e :: es) =
      if admits e.1 e.2.stored then putEach (rows.insert e.1 e.2.row) es
      else .error (.databaseQuery "the stored text names another id") := by
  rw [putEach, putRow]
  generalize admits e.1 e.2.stored = admitted
  cases admitted <;> rfl

/-- Rows are put if all of them are admitted. -/
theorem putEach_eq_ok_iff : putEach rows es = .ok rows' ↔
    (∀ e ∈ es, admits e.1 e.2.stored = true) ∧
      rows' = es.foldl (fun m e => m.insert e.1 e.2.row) rows := by
  induction es generalizing rows with
  | nil =>
      rw [putEach, Except.ok.injEq]
      exact ⟨fun h => ⟨fun e he => absurd he List.not_mem_nil, h.symm⟩, fun h => h.2.symm⟩
  | cons e es ih =>
      rw [putEach_cons, List.foldl_cons, List.forall_mem_cons]
      generalize admits e.1 e.2.stored = admitted
      cases admitted with
      | true => rw [if_pos rfl, ih, and_iff_right (rfl : true = true)]
      | false => exact ⟨nofun, fun h => nomatch h.1.1⟩

/-- What saving comes to: nothing to do, or rows that are all admitted. -/
theorem save_eq_ok_iff : d.save ps = .ok d' ↔
    ps.isEmpty = true ∧ d' = d ∨
      ps.isEmpty = false ∧ ∃ t, d.tables = some t ∧ (∀ e ∈ ps.entries, admits e.1 e.2.stored = true) ∧
        d' = ⟨some { t with rows := ps.entries.foldl (fun m e => m.insert e.1 e.2.row) t.rows }⟩ := by
  rw [save]
  cases hempty : ps.isEmpty with
  | true =>
      rw [if_pos rfl, Except.ok.injEq]
      exact ⟨fun h => Or.inl ⟨rfl, h.symm⟩, fun h => h.elim (fun h => h.2.symm) (nofun)⟩
  | false =>
      simp only [Bool.false_eq_true, if_false, false_and, true_and, false_or]
      cases htables : d.tables with
      | none => simp [required, htables, bind, Except.bind]
      | some t =>
          simp only [required, htables, bind, Except.bind, Option.some.injEq, exists_eq_left']
          cases hput : putEach t.rows ps.entries with
          | error f =>
              refine ⟨nofun, fun h => ?_⟩
              rw [putEach_eq_ok_iff.2 ⟨h.1, rfl⟩] at hput
              cases hput
          | ok rows' =>
              obtain ⟨hadmits, rfl⟩ := putEach_eq_ok_iff.1 hput
              exact ⟨fun h => ⟨hadmits, (Except.ok.inj h).symm⟩, fun h => congrArg _ h.2.symm⟩

/-- **After saving there are the rows of the predictions** under their names, and the other rows as
before. -/
theorem get?_rows_save (h : d.save ps = .ok d') (id : String) :
    d'.rows.get? id = ((ps.get? id).map Prediction.row).or (d.rows.get? id) := by
  rcases save_eq_ok_iff.1 h with ⟨hempty, rfl⟩ | ⟨-, t, ht, -, rfl⟩
  · rw [Keyed.get?_of_isEmpty hempty, Option.map_none, Option.none_or]
  · have hfold : ps.entries.foldl (fun m e => m.insert e.1 e.2.row) t.rows =
        (ps.map Prediction.row).entries.foldl (fun m e => m.insert e.1 e.2) t.rows := by
      rw [Keyed.map, List.foldl_map]
    have hrows : d.rows = t.rows := by rw [rows, ht]
    rw [hrows, ← Keyed.get?_map]
    change (ps.entries.foldl (fun m e => m.insert e.1 e.2.row) t.rows).get? id = _
    rw [hfold]
    exact Keyed.get?_foldl_insert (ps.map Prediction.row).nodup_names t.rows id

/-- A database with tables keeps its tables. -/
theorem isSome_tables_save (h : d.save ps = .ok d') (ht : d.tables.isSome = true) :
    d'.tables.isSome = true := by
  rcases save_eq_ok_iff.1 h with ⟨-, rfl⟩ | ⟨-, t, -, -, rfl⟩
  · exact ht
  · rfl

/-- Predictions that can be read and are under their own ids are saved. -/
theorem exists_save (ht : d.tables.isSome = true) (hkeyed : IsKeyedById ps)
    (hread : ∀ p ∈ ps.values, (Prediction.ofStored? p.stored).isSome) : ∃ d', d.save ps = .ok d' := by
  obtain ⟨t, ht⟩ := Option.isSome_iff_exists.1 ht
  cases hempty : ps.isEmpty with
  | true => exact ⟨d, save_eq_ok_iff.2 (Or.inl ⟨hempty, rfl⟩)⟩
  | false =>
      refine ⟨_, save_eq_ok_iff.2 (Or.inr ⟨hempty, t, ht, fun e he => ?_, rfl⟩)⟩
      obtain ⟨q, hq⟩ := Option.isSome_iff_exists.1 (hread e.2 (List.mem_map_of_mem he))
      rw [admits_stored hq, decide_eq_true_eq]
      exact (hkeyed e he).symm

/-- **A prediction under another id than its own is refused,** with all others beside it. -/
theorem exists_save_error {e : String × Prediction} (he : e ∈ ps.entries) (hne : e.1 ≠ e.2.id)
    (hread : (Prediction.ofStored? e.2.stored).isSome) : ∃ f, d.save ps = .error f := by
  cases hsave : d.save ps with
  | error f => exact ⟨f, rfl⟩
  | ok d' =>
      rcases save_eq_ok_iff.1 hsave with ⟨hempty, -⟩ | ⟨-, -, -, hadmits, -⟩
      · rw [Keyed.isEmpty, List.isEmpty_iff] at hempty
        rw [hempty] at he
        cases he
      · obtain ⟨q, hq⟩ := Option.isSome_iff_exists.1 hread
        have hid := hadmits e he
        rw [admits_stored hq, decide_eq_true_eq] at hid
        exact absurd hid.symm hne

end Saving

/-! ### Loading -/

section Loading

variable {d : Database} {outcomes : List Outcome} {ps : Keyed Prediction}

theorem decode_eq_ok_iff {id : String} {r : Row} {p : Prediction} :
    decode id r = .ok p ↔ Prediction.ofStored? r.body = some p := by
  rw [decode]
  cases Prediction.ofStored? r.body with
  | none => simp
  | some q => simp

/-- A row as an entry of what is loaded. -/
def entryOf? (e : String × Row) : Option (String × Prediction) :=
  (Prediction.ofStored? e.2.body).map fun p => (e.1, p)

/-- Rows are read one by one, if all of them can be read. -/
theorem mapM_decode_eq_ok_iff {es : List (String × Row)} {qs : List (String × Prediction)} :
    (es.mapM fun e => (decode e.1 e.2).map fun p => (e.1, p)) = .ok qs ↔
      (∀ e ∈ es, (Prediction.ofStored? e.2.body).isSome) ∧ qs = es.filterMap entryOf? := by
  induction es generalizing qs with
  | nil =>
      rw [List.mapM_nil]
      exact ⟨fun h => ⟨nofun, (Except.ok.inj h).symm⟩, fun h => congrArg _ h.2.symm⟩
  | cons e es ih =>
      rw [List.mapM_cons, List.forall_mem_cons]
      cases hbody : Prediction.ofStored? e.2.body with
      | none =>
          rw [decode, hbody]
          exact ⟨nofun, fun h => absurd h.1.1 (by decide)⟩
      | some p =>
          have hentry : entryOf? e = some (e.1, p) := by rw [entryOf?, hbody, Option.map_some]
          rw [decode_eq_ok_iff.2 hbody, List.filterMap_cons_some hentry]
          cases hrest : es.mapM fun e => (decode e.1 e.2).map fun p => (e.1, p) with
          | error f =>
              refine ⟨nofun, fun h => ?_⟩
              rw [ih.2 ⟨h.1.2, rfl⟩] at hrest
              cases hrest
          | ok qs' =>
              obtain ⟨hread, rfl⟩ := ih.1 hrest
              exact ⟨fun h => ⟨⟨rfl, hread⟩, (Except.ok.inj h).symm⟩, fun h => congrArg _ h.2.symm⟩

/-- What loading comes to: the rows asked for, if all of them can be read. -/
theorem load_eq_ok_iff : d.load outcomes = .ok ps ↔ ∃ t, d.tables = some t ∧
    (∀ e ∈ t.rows.entries.filter fun e => Row.isAmong outcomes e.2,
      (Prediction.ofStored? e.2.body).isSome) ∧
    ps = .ofList ((t.rows.entries.filter fun e => Row.isAmong outcomes e.2).filterMap entryOf?) := by
  rw [load]
  cases htables : d.tables with
  | none =>
      rw [required, htables]
      exact ⟨nofun, fun ⟨t, ht, _⟩ => nomatch ht⟩
  | some t =>
      rw [required, htables]
      simp only [bind, Except.bind, Option.some.injEq, exists_eq_left']
      cases hread : (t.rows.entries.filter fun e => Row.isAmong outcomes e.2).mapM
          fun e => (decode e.1 e.2).map fun p => (e.1, p) with
      | error f =>
          refine ⟨nofun, fun h => ?_⟩
          rw [mapM_decode_eq_ok_iff.2 ⟨h.1, rfl⟩] at hread
          cases hread
      | ok qs =>
          obtain ⟨hall, rfl⟩ := mapM_decode_eq_ok_iff.1 hread
          exact ⟨fun h => ⟨hall, (Except.ok.inj h).symm⟩, fun h => congrArg _ h.2.symm⟩

/-- **What is loaded is what the rows asked for are read as.** -/
theorem get?_load (h : d.load outcomes = .ok ps) (id : String) (p : Prediction) :
    ps.get? id = some p ↔ ∃ r, d.rows.get? id = some r ∧ Row.isAmong outcomes r = true ∧
      Prediction.ofStored? r.body = some p := by
  obtain ⟨t, ht, -, rfl⟩ := load_eq_ok_iff.1 h
  have hnodup : (((t.rows.entries.filter fun e => Row.isAmong outcomes e.2).filterMap entryOf?).map
      Prod.fst).Nodup := by
    rw [List.map_filterMap]
    have hnames : t.rows.entries.Pairwise fun a b => a.1 ≠ b.1 :=
      List.pairwise_map.1 t.rows.nodup_names
    refine (hnames.filter _).filterMap _ fun a b hne c hc d hd => ?_
    obtain ⟨q, hq, rfl⟩ := Option.map_eq_some_iff.1 hc
    obtain ⟨q', hq', rfl⟩ := Option.map_eq_some_iff.1 hd
    obtain ⟨_, -, rfl⟩ := Option.map_eq_some_iff.1 hq
    obtain ⟨_, -, rfl⟩ := Option.map_eq_some_iff.1 hq'
    exact hne
  have hrows : d.rows = t.rows := by rw [rows, ht]
  rw [Keyed.get?_ofList_eq_some_iff hnodup, hrows, List.mem_filterMap]
  constructor
  · rintro ⟨e, he, hentry⟩
    obtain ⟨hmem, hamong⟩ := List.mem_filter.1 he
    obtain ⟨q, hq, heq⟩ := Option.map_eq_some_iff.1 hentry
    cases heq
    exact ⟨e.2, (t.rows.mem_entries_iff e.1 e.2).1 hmem, hamong, hq⟩
  · rintro ⟨r, hr, hamong, hbody⟩
    refine ⟨(id, r), List.mem_filter.2 ⟨(t.rows.mem_entries_iff id r).2 hr, hamong⟩, ?_⟩
    rw [entryOf?, hbody, Option.map_some]

/-- Where something is loaded, all rows asked for can be read. -/
theorem isSome_of_load (h : d.load outcomes = .ok ps) {id : String} {r : Row}
    (hr : d.rows.get? id = some r) (hamong : Row.isAmong outcomes r = true) :
    (Prediction.ofStored? r.body).isSome := by
  obtain ⟨t, ht, hread, -⟩ := load_eq_ok_iff.1 h
  have hrows : d.rows = t.rows := by rw [rows, ht]
  rw [hrows] at hr
  exact hread (id, r) (List.mem_filter.2 ⟨(t.rows.mem_entries_iff id r).2 hr, hamong⟩)

/-- If all rows asked for can be read, something is loaded. -/
theorem exists_load (ht : d.tables.isSome = true) (h : ∀ id r, d.rows.get? id = some r →
    Row.isAmong outcomes r = true → (Prediction.ofStored? r.body).isSome) :
    ∃ ps, d.load outcomes = .ok ps := by
  obtain ⟨t, ht⟩ := Option.isSome_iff_exists.1 ht
  have hrows : d.rows = t.rows := by rw [rows, ht]
  rw [hrows] at h
  refine ⟨_, load_eq_ok_iff.2 ⟨t, ht, fun e he => ?_, rfl⟩⟩
  obtain ⟨hmem, hamong⟩ := List.mem_filter.1 he
  exact h e.1 e.2 ((t.rows.mem_entries_iff e.1 e.2).1 hmem) hamong

/-- **What one prediction does to a database of which all that is asked for can be loaded.** It is saved
under its id. All can be loaded afterwards too, unless the prediction is asked for and cannot be
read. -/
theorem exists_save_insert {p : Prediction} (hload : d.load outcomes = .ok ps)
    (hsound : p.toJson.isSound Loose.maxNesting = true) :
    ∃ d', d.save (Keyed.empty.insert p.id p) = .ok d' ∧
      ((∃ qs, d'.load outcomes = .ok qs) ↔
        (p.state.outcome.isAmong outcomes = true → (Prediction.ofStored? p.stored).isSome)) := by
  obtain ⟨t, ht, -, -⟩ := load_eq_ok_iff.1 hload
  have hentries : ∀ e ∈ (Keyed.empty.insert p.id p).entries, admits e.1 e.2.stored = true :=
    List.forall_mem_singleton.2 ((admits_of_isSound hsound p.id).trans (decide_eq_true rfl))
  obtain ⟨d', hsave⟩ : ∃ d', d.save (Keyed.empty.insert p.id p) = .ok d' :=
    ⟨_, save_eq_ok_iff.2 (Or.inr ⟨rfl, t, ht, hentries, rfl⟩)⟩
  have htables := isSome_tables_save hsave (Option.isSome_iff_exists.2 ⟨t, ht⟩)
  have hrows (id : String) :
      d'.rows.get? id = if id = p.id then some p.row else d.rows.get? id := by
    rw [get?_rows_save hsave, Keyed.get?_insert]
    split
    · rfl
    · rfl
  refine ⟨d', hsave, fun ⟨qs, hqs⟩ hamong => ?_, fun hread => exists_load htables fun id r hr => ?_⟩
  · rw [← isAmong_row] at hamong
    have hrow : d'.rows.get? p.id = some p.row := by rw [hrows, if_pos rfl]
    rw [← p.body_row]
    exact isSome_of_load hqs hrow hamong
  · rw [hrows] at hr
    split at hr
    · obtain rfl := Option.some.inj hr
      rw [isAmong_row, p.body_row]
      exact hread
    · exact isSome_of_load hload hr

end Loading

end Database

end Forecast
