import Forecast.Proofs.Stored.RoundTrip

/-!
# What a Readable Text Tells

A stored prediction need not be read back as it was: its numbers may become neighbours, and a number
that is not finite makes the whole text unreadable. But if the text can be read at all, then three
things are sure. It names the id of the prediction and its outcome, the two things that a database
keeps beside the text; and it nests no more deeply than any reader follows, because nothing but the
clauses nests without a bound of its own, and these have been read.

## Main results

* `Prediction.id_of_ofStored?`, `Prediction.outcome_of_ofStored?`: what is read of the id and the outcome.
* `Prediction.isSound_of_ofStored?`: how deeply the document nests.
-/

namespace Forecast

open Json (Fields asRecord)

namespace Json

@[simp] theorem isSound_null (room : Nat) : Json.null.isSound room = true := by cases room <;> rfl

@[simp] theorem isSound_bool (room : Nat) (b : Bool) : (Json.bool b).isSound room = true := by
  cases room <;> rfl

@[simp] theorem isSound_int (room : Nat) (i : Int) : (Json.int i).isSound room = true := by
  cases room <;> rfl

@[simp] theorem isSound_float (room : Nat) (x : Float) : (Json.float x).isSound room = true := by
  cases room <;> rfl

@[simp] theorem isSound_string (room : Nat) (s : String) : (Json.string s).isSound room = true := by
  cases room <;> rfl

@[simp] theorem entriesSound_nil (room : Nat) : entriesSound room [] = true := by
  rw [entriesSound]

@[simp] theorem entriesSound_cons (room : Nat) (name : String) (j : Json)
    (es : List (String × Json)) :
    entriesSound room ((name, j) :: es) = (j.isSound room && entriesSound room es) := by
  rw [entriesSound]

theorem isSound_object (room : Nat) (es : List (String × Json)) :
    (Json.object es).isSound (room + 1) = entriesSound room es := by
  rw [isSound]

/-- An array is sound if its items are, one level deeper. -/
theorem isSound_array {room : Nat} {js : List Json} (h : ∀ j ∈ js, j.isSound room = true) :
    (Json.array js).isSound (room + 1) = true := by
  rw [isSound]
  induction js with
  | nil => rw [areSound]
  | cons j js ih =>
      obtain ⟨hj, hjs⟩ := List.forall_mem_cons.1 h
      rw [areSound, hj, ih hjs]
      rfl

/-- The entries of an object are sound if their values are. -/
theorem entriesSound_of_forall {room : Nat} {es : List (String × Json)}
    (h : ∀ e ∈ es, e.2.isSound room = true) : entriesSound room es = true := by
  induction es with
  | nil => exact entriesSound_nil room
  | cons e es ih =>
      obtain ⟨he, hes⟩ := List.forall_mem_cons.1 h
      rw [entriesSound_cons, he, ih hes]
      rfl

end Json

/-! ### Conditions -/

theorem Operand.isSound_toJson (o : Operand Price) (room : Nat) :
    o.toJson.isSound (room + 1) = true := by
  rcases o with v | ⟨p, b, q⟩ | ⟨p, b⟩ <;> simp [toJson, Json.isSound_object]

theorem Progress.isSound_toJson (p : Progress Price) (room : Nat) :
    p.toJson.isSound (room + 3) = true := by
  have hticks : (TickSet.toJson p.lastTicks).isSound (room + 2) = true := by
    rw [TickSet.toJson, Json.isSound_object]
    refine Json.entriesSound_of_forall fun e he => ?_
    obtain ⟨d, -, rfl⟩ := List.mem_map.1 he
    simp [Tick.toJson, Json.isSound_object]
  simp [toJson, Json.isSound_object, hticks]

/-- A condition nests four levels. -/
theorem Condition.isSound_toJson (c : Condition Price) (room : Nat) :
    c.toJson.isSound (room + 4) = true := by
  have hoperands : (Json.array (c.operands.map Operand.toJson)).isSound (room + 3) = true := by
    refine Json.isSound_array fun j hj => ?_
    obtain ⟨o, -, rfl⟩ := List.mem_map.1 hj
    exact o.isSound_toJson (room + 1)
  have hstate := c.state.isSound_toJson room
  simp [toJson, Json.isSound_object, hoperands, hstate]

/-! ### Clauses -/

namespace Clause

mutual

/-- A clause that can be read back nests no more deeply than there was room for. -/
theorem isSound_of_isSome : ∀ (c : Clause) (room : Nat),
    (ofJson? room c.toJson.asRead).isSome → c.toJson.isSound room = true
  | _, 0, h => by cases h
  | .literal i, room + 1, _ => by rw [toJson, isSound_tagged, Json.isSound_int]
  | .neg c, room + 1, h => by
      rw [toJson, asRead_tagged, ofJson?, untag?_tagged] at h
      simp only [Tag.ofWord?, Option.map_some, Option.isSome_map] at h
      rw [toJson, isSound_tagged]
      exact isSound_of_isSome c room h
  | .conj cs, room + 1, h => by
      rw [toJson, asRead_tagged, ofJson?, untag?_tagged] at h
      simp only [Tag.ofWord?, Option.map_some, Option.isSome_map] at h
      rw [toJson, isSound_tagged]
      exact isSound_of_isSome_members cs room h
  | .disj cs, room + 1, h => by
      rw [toJson, asRead_tagged, ofJson?, untag?_tagged] at h
      simp only [Tag.ofWord?, Option.map_some, Option.isSome_map] at h
      rw [toJson, isSound_tagged]
      exact isSound_of_isSome_members cs room h

/-- So do the members of a chain. -/
theorem isSound_of_isSome_members : ∀ (cs : List Clause) (room : Nat),
    (ofJson?.members? room (Json.array (toJsons cs)).asRead).isSome →
    (Json.array (toJsons cs)).isSound room = true
  | _, 0, h => by cases h
  | [], room + 1, _ => by rw [toJsons, Json.isSound, Json.areSound]
  | c :: cs, room + 1, h => by
      rw [Json.asRead, toJsons, Json.itemsAsRead, ofJson?.members?, Json.asList, List.mapM_cons] at h
      obtain ⟨ds, hds⟩ := Option.isSome_iff_exists.1 h
      obtain ⟨d, hd, hrest⟩ := Option.bind_eq_some_iff.1 hds
      obtain ⟨ds', hds', -⟩ := Option.bind_eq_some_iff.1 hrest
      have hhead := isSound_of_isSome c room (Option.isSome_iff_exists.2 ⟨d, hd⟩)
      have htail := isSound_of_isSome_members cs (room + 1) (by
        rw [Json.asRead, ofJson?.members?, Json.asList, hds']
        rfl)
      rw [Json.isSound] at htail
      rw [toJsons, Json.isSound, Json.areSound, hhead, htail]
      rfl

end

/-- So does a clause that may be missing. -/
theorem isSound_optionalToJson {o : Option Clause}
    (h : (Fields.nullable (ofJson? room) (optionalToJson o).asRead).isSome) :
    (optionalToJson o).isSound room = true := by
  cases o with
  | none => exact Json.isSound_null _
  | some c =>
      have hobject : ∃ es, c.toJson.asRead = .object es := by cases c <;> exact ⟨_, rfl⟩
      obtain ⟨es, hes⟩ := hobject
      rw [optionalToJson, hes, Fields.nullable, ← hes, Option.isSome_map] at h
      · exact isSound_of_isSome c room h
      · exact fun h => Json.noConfusion h

end Clause

/-! ### Phases -/

/-- A first phase that can be read back nests one level more than its clauses. -/
theorem PrePhase.isSound_of_isSome {p : PrePhase} (h : (PrePhase.ofJson? p.toJson.asRead).isSome) :
    p.toJson.isSound (Clause.room + 1) = true := by
  obtain ⟨q, hq⟩ := Option.isSome_iff_exists.1 h
  rw [ofJson?] at hq
  obtain ⟨f, hf, hq⟩ := Option.bind_eq_some_iff.1 hq
  rw [toJson, Json.asRead_object, Json.asRecord_of_names (by rfl) (by decide)] at hf
  obtain rfl := Option.some.inj hf
  obtain ⟨wrongIf, hwrong, hq⟩ := Option.bind_eq_some_iff.1 hq
  obtain ⟨annulledIf, hannulled, hq⟩ := Option.bind_eq_some_iff.1 hq
  obtain ⟨predictIf, hpredict, -⟩ := Option.bind_eq_some_iff.1 hq
  have hwrong' := Clause.isSound_optionalToJson (Option.isSome_iff_exists.2 ⟨wrongIf, hwrong⟩)
  have hannulled' := Clause.isSound_optionalToJson (Option.isSome_iff_exists.2 ⟨annulledIf, hannulled⟩)
  have hpredict' := Clause.isSound_optionalToJson (Option.isSome_iff_exists.2 ⟨predictIf, hpredict⟩)
  rw [toJson, Json.isSound_object]
  simp [Policy.toEntries, hwrong', hannulled', hpredict']

/-- A second phase that can be read back nests one level more than its clauses. -/
theorem MainPhase.isSound_of_isSome {p : MainPhase}
    (h : (MainPhase.ofJson? p.toJson.asRead).isSome) :
    p.toJson.isSound (Clause.room + 1) = true := by
  obtain ⟨q, hq⟩ := Option.isSome_iff_exists.1 h
  rw [ofJson?] at hq
  obtain ⟨f, hf, hq⟩ := Option.bind_eq_some_iff.1 hq
  rw [toJson, Json.asRead_object, Json.asRecord_of_names (by rfl) (by decide)] at hf
  obtain rfl := Option.some.inj hf
  obtain ⟨wrongIf, hwrong, hq⟩ := Option.bind_eq_some_iff.1 hq
  obtain ⟨annulledIf, hannulled, hq⟩ := Option.bind_eq_some_iff.1 hq
  obtain ⟨predict, hpredict, -⟩ := Option.bind_eq_some_iff.1 hq
  have hwrong' := Clause.isSound_optionalToJson (Option.isSome_iff_exists.2 ⟨wrongIf, hwrong⟩)
  have hannulled' := Clause.isSound_optionalToJson (Option.isSome_iff_exists.2 ⟨annulledIf, hannulled⟩)
  have hpredict' := Clause.isSound_of_isSome p.predict _ (Option.isSome_iff_exists.2 ⟨predict, hpredict⟩)
  rw [toJson, Json.isSound_object]
  simp [Policy.toEntries, hwrong', hannulled', hpredict']

/-! ### Predictions -/

namespace Prediction

/-- What has been read of a stored prediction was read of its fields. -/
theorem fields_of_ofStored? {p q : Prediction} (h : ofStored? p.stored = some q) :
    q.id = p.id ∧
      (Json.asList Condition.ofJson? (Json.array (p.given.map Condition.toJson)).asRead).isSome ∧
      (PrePhase.ofJson? p.pre.toJson.asRead).isSome ∧
      (MainPhase.ofJson? p.main.toJson.asRead).isSome ∧
      PredictionState.ofJson? p.state.toJson.asRead = some q.state := by
  rw [ofStored?, stored, Json.read_compress, Option.bind_some, ofJson?] at h
  obtain ⟨f, hf, h⟩ := Option.bind_eq_some_iff.1 h
  rw [toJson, Json.asRead_object, Json.asRecord_of_names (by rfl) (by decide)] at hf
  obtain rfl := Option.some.inj hf
  obtain ⟨id, hid, h⟩ := Option.bind_eq_some_iff.1 h
  obtain ⟨createdAt, -, h⟩ := Option.bind_eq_some_iff.1 h
  obtain ⟨postedAt, -, h⟩ := Option.bind_eq_some_iff.1 h
  obtain ⟨reporter, -, h⟩ := Option.bind_eq_some_iff.1 h
  obtain ⟨postAuthor, -, h⟩ := Option.bind_eq_some_iff.1 h
  obtain ⟨postUrl, -, h⟩ := Option.bind_eq_some_iff.1 h
  obtain ⟨postText, -, h⟩ := Option.bind_eq_some_iff.1 h
  obtain ⟨given, hgiven, h⟩ := Option.bind_eq_some_iff.1 h
  obtain ⟨pre, hpre, h⟩ := Option.bind_eq_some_iff.1 h
  obtain ⟨main, hmain, h⟩ := Option.bind_eq_some_iff.1 h
  obtain ⟨state, hstate, h⟩ := Option.bind_eq_some_iff.1 h
  obtain ⟨shape, -, h⟩ := Option.bind_eq_some_iff.1 h
  obtain rfl := Option.some.inj h
  exact ⟨(Option.some.inj hid).symm, Option.isSome_iff_exists.2 ⟨given, hgiven⟩,
    Option.isSome_iff_exists.2 ⟨pre, hpre⟩, Option.isSome_iff_exists.2 ⟨main, hmain⟩, hstate⟩

/-- **A stored text that can be read names the id of its prediction.** -/
theorem id_of_ofStored? {p q : Prediction} (h : ofStored? p.stored = some q) : q.id = p.id :=
  (fields_of_ofStored? h).1

/-- **A stored text that can be read names the outcome of its prediction.** -/
theorem outcome_of_ofStored? {p q : Prediction} (h : ofStored? p.stored = some q) :
    q.state.outcome = p.state.outcome := by
  obtain ⟨-, -, -, -, hstate⟩ := fields_of_ofStored? h
  rw [PredictionState.ofJson?] at hstate
  obtain ⟨f, hf, hstate⟩ := Option.bind_eq_some_iff.1 hstate
  rw [PredictionState.toJson, Json.asRead_object, Json.asRecord_of_names (by rfl) (by decide)] at hf
  obtain rfl := Option.some.inj hf
  obtain ⟨status, -, hstate⟩ := Option.bind_eq_some_iff.1 hstate
  obtain ⟨lastTs, -, hstate⟩ := Option.bind_eq_some_iff.1 hstate
  obtain ⟨outcome, houtcome, hstate⟩ := Option.bind_eq_some_iff.1 hstate
  have hword : some p.state.outcome = some outcome := (Outcome.ofWord?_word _).symm.trans houtcome
  rw [← Option.some.inj hstate]
  exact (Option.some.inj hword).symm

/-- **A stored text that can be read nests no more deeply than any reader follows.** -/
theorem isSound_of_ofStored? {p q : Prediction} (h : ofStored? p.stored = some q) :
    p.toJson.isSound Json.maxNesting = true := by
  obtain ⟨-, -, hpre, hmain, -⟩ := fields_of_ofStored? h
  have hpre' := PrePhase.isSound_of_isSome hpre
  have hmain' := MainPhase.isSound_of_isSome hmain
  have hgiven : (Json.array (p.given.map Condition.toJson)).isSound (Clause.room + 1) = true := by
    refine Json.isSound_array fun j hj => ?_
    obtain ⟨c, -, rfl⟩ := List.mem_map.1 hj
    exact c.isSound_toJson 121
  have hstate : p.state.toJson.isSound (Clause.room + 1) = true := by
    simp [PredictionState.toJson, Json.isSound_object]
  change p.toJson.isSound (Clause.room + 1 + 1) = true
  rw [toJson, Json.isSound_object]
  simp [hpre', hmain', hgiven, hstate]

end Prediction

end Forecast
