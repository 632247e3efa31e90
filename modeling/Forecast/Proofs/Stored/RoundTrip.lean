import Forecast.Proofs.Json.Documents
import Forecast.Proofs.Stored.Records

/-!
# Stored Predictions Round-Trip

A prediction is read from the text in which it is stored as it was, up to its prices. The written form
of a price is read as a number, if the price is finite and its digits are not out of range
(`Json.IsReadable`); this number is the price itself wherever the reader is exact, and a neighbour of it
elsewhere (`Json.reread`). All that is not a price comes back unchanged.

## Main results

* `Prediction.ofStored?_stored`: what is read of a stored prediction.
* `Prediction.ofStored?_stored_eq_self`: a stored prediction is read back, if the reader is exact on its
  prices.
-/

namespace Forecast

/-! ### Prices of a prediction -/

/-- The prices in an operand. -/
def Operand.prices : Operand Price → List Price
  | .number v => [v]
  | .market _ => []

/-- The prices in a condition: its numbers, its error margin and those of its ticks. -/
def Condition.prices (c : Condition Price) : List Price :=
  c.operands.flatMap Operand.prices ++ c.margin :: c.state.lastTicks.values.map (·.value)

/-- The prices in a prediction. -/
def Prediction.prices (p : Prediction) : List Price :=
  p.given.flatMap Condition.prices

/-- An operand with other prices. -/
def Operand.mapPrices (f : Price → Price) : Operand Price → Operand Price
  | .number v => .number (f v)
  | .market i => .market i

/-- A tick with another price. -/
def Tick.mapPrice (f : Price → Price) (t : Tick Price) : Tick Price :=
  { t with value := f t.value }

/-- What a condition has seen with other prices. -/
def Progress.mapPrices (f : Price → Price) (p : Progress Price) : Progress Price :=
  { p with lastTicks := p.lastTicks.map (Tick.mapPrice f) }

/-- A condition with other prices. -/
def Condition.mapPrices (f : Price → Price) (c : Condition Price) : Condition Price :=
  { c with
    operands := c.operands.map (Operand.mapPrices f)
    margin := f c.margin
    state := c.state.mapPrices f }

/-- A prediction with other prices. -/
def Prediction.mapPrices (f : Price → Price) (p : Prediction) : Prediction :=
  { p with given := p.given.map (Condition.mapPrices f) }

@[simp] theorem Keyed.values_map {α β : Type} (g : α → β) (m : Keyed α) :
    (m.map g).values = m.values.map g := by
  simp [Keyed.values, Keyed.map]

/-- A map whose values stay is the same. -/
theorem Keyed.map_eq_self {α : Type} {g : α → α} {m : Keyed α} (h : ∀ v ∈ m.values, g v = v) :
    m.map g = m := by
  have hentries : (m.map g).entries = m.entries := by
    refine (List.map_congr_left fun e he => ?_).trans m.entries.map_id
    rw [h e.2 (List.mem_map_of_mem he)]
    rfl
  exact Keyed.ext fun name => by rw [Keyed.get?, hentries, Keyed.get?]

section MapPrices

variable {f : Price → Price}

/-- A condition whose prices stay is the same. -/
theorem Condition.mapPrices_eq_self {c : Condition Price} (h : ∀ x ∈ c.prices, f x = x) :
    c.mapPrices f = c := by
  have hoperands : c.operands.map (Operand.mapPrices f) = c.operands := by
    refine (List.map_congr_left fun o ho => ?_).trans c.operands.map_id
    cases o with
    | market i => rfl
    | number v =>
        have hv : v ∈ c.prices :=
          List.mem_append_left _ (List.mem_flatMap.2 ⟨_, ho, List.mem_singleton.2 rfl⟩)
        exact congrArg Operand.number (h v hv)
  have hmargin : f c.margin = c.margin := h _ (List.mem_append_right _ List.mem_cons_self)
  have hticks : c.state.lastTicks.map (Tick.mapPrice f) = c.state.lastTicks := by
    refine Keyed.map_eq_self fun t ht => ?_
    have hvalue : t.value ∈ c.prices :=
      List.mem_append_right _ (List.mem_cons_of_mem _ (List.mem_map_of_mem ht))
    rw [Tick.mapPrice, h _ hvalue]
  rw [mapPrices, Progress.mapPrices, hoperands, hmargin, hticks]

/-- A prediction whose prices stay is the same. -/
theorem Prediction.mapPrices_eq_self {p : Prediction} (h : ∀ x ∈ p.prices, f x = x) :
    p.mapPrices f = p := by
  have hgiven : p.given.map (Condition.mapPrices f) = p.given :=
    (List.map_congr_left fun c hc =>
      Condition.mapPrices_eq_self fun x hx => h x (List.mem_flatMap.2 ⟨c, hc, hx⟩)).trans
      p.given.map_id
  rw [mapPrices, hgiven]

/-- Other prices fit the same words. -/
theorem Condition.FitsWords.mapPrices {c : Condition Price} (h : c.FitsWords) :
    (c.mapPrices f).FitsWords where
  fromTs := h.fromTs
  toTs := h.toTs
  state :=
    { lastTs := h.state.lastTs
      ticks := fun t ht => by
        obtain ⟨u, hu, rfl⟩ := List.mem_map.1 (Keyed.values_map _ _ ▸ ht)
        exact h.state.ticks u hu }

/-- A prediction with other prices can be stored as well. -/
theorem Prediction.IsStorable.mapPrices {p : Prediction} (h : p.IsStorable) :
    (p.mapPrices f).IsStorable where
  createdAt := h.createdAt
  postedAt := h.postedAt
  given c hc := by
    obtain ⟨d, hd, rfl⟩ := List.mem_map.1 hc
    exact (h.given d hd).mapPrices
  clauses := h.clauses
  state := h.state

end MapPrices

/-! ### Numbers as they are read back -/

namespace Json

/-- A whole number that fits a word, with or without a sign, is read back. -/
theorem asRead_int {i : Int} (h : -9223372036854775808 ≤ i) (h' : i ≤ maxIndex) :
    (Json.int i).asRead = .int i := by
  have hvalue : Decimal.digitsValue (Decimal.natDigits i.natAbs) = i.natAbs := by simp
  have hwhole : (numeralOf (.ofInt i)).whole? = some i := by
    simp only [numeralOf, Decimal.Spelling.ofInt, Numeral.whole?, hvalue, Option.map_none,
      Option.isSome_none, Bool.false_eq_true, or_self, if_false, decide_eq_true_eq]
    simp only [maxIndex] at h'
    by_cases hneg : i < 0
    · rw [if_pos hneg, if_pos (by omega)]
      congr 1
      omega
    · rw [if_neg hneg, if_pos (by simp only [maxUnsigned]; omega)]
      congr 1
      omega
  rw [asRead, leafAsRead, Numeral.value, hwhole]
  · exact fun _ h => Json.noConfusion h
  · exact fun _ h => Json.noConfusion h

theorem asRead_word {i : Int} (h : Decimal.fitsWord i = true) : (Json.int i).asRead = .int i := by
  rw [Decimal.fitsWord_iff] at h
  exact asRead_int h.1 (by simp only [maxIndex]; omega)

mutual

/-- A document that nests few levels does so where there is more room. -/
theorem isSound_mono : ∀ (j : Json) {room room' : Nat}, room ≤ room' → j.isSound room = true →
    j.isSound room' = true
  | .null, _, room', _, _ => by cases room' <;> rfl
  | .bool _, _, room', _, _ => by cases room' <;> rfl
  | .int _, _, room', _, _ => by cases room' <;> rfl
  | .float _, _, room', _, _ => by cases room' <;> rfl
  | .string _, _, room', _, _ => by cases room' <;> rfl
  | .unusable, room, _, _, h => by cases room <;> cases h
  | .array _, 0, _, _, h => by cases h
  | .object _, 0, _, _, h => by cases h
  | .array _, _ + 1, 0, hle, _ => absurd hle (by omega)
  | .object _, _ + 1, 0, hle, _ => absurd hle (by omega)
  | .array items, _ + 1, _ + 1, hle, h => areSound_mono items (Nat.le_of_succ_le_succ hle) h
  | .object entries, _ + 1, _ + 1, hle, h => entriesSound_mono entries (Nat.le_of_succ_le_succ hle) h

theorem areSound_mono : ∀ (js : List Json) {room room' : Nat}, room ≤ room' →
    areSound room js = true → areSound room' js = true
  | [], _, _, _, _ => rfl
  | j :: js, _, _, hle, h => by
      rw [areSound, Bool.and_eq_true] at h ⊢
      exact ⟨isSound_mono j hle h.1, areSound_mono js hle h.2⟩

theorem entriesSound_mono : ∀ (es : List (String × Json)) {room room' : Nat}, room ≤ room' →
    entriesSound room es = true → entriesSound room' es = true
  | [], _, _, _, _ => rfl
  | (name, j) :: es, _, _, hle, h => by
      rw [entriesSound, Bool.and_eq_true] at h ⊢
      exact ⟨isSound_mono j hle h.1, entriesSound_mono es hle h.2⟩

end

/-- The written form of a number is never that of a whole one. -/
theorem whole?_ofFloat (x : Float) : (numeralOf (.ofFloat x)).whole? = none := by
  have hspelled : (Decimal.Spelling.ofFloat x).fraction.isSome ∨
      (Decimal.Spelling.ofFloat x).exponent.isSome := by
    rw [Decimal.Spelling.ofFloat]
    split
    · exact Or.inl rfl
    rw [Decimal.Spelling.ofScaled]
    split
    · split
      · exact Or.inl rfl
      split <;> exact Or.inl rfl
    · exact Or.inr rfl
  rw [Numeral.whole?, if_pos]
  simpa [numeralOf] using hspelled

/-- A finite number is read as what its digits and its exponent are worth. -/
theorem asRead_float {x y : Float} (h : x.isFinite = true)
    (hbinary : (numeralOf (.ofFloat x)).binary = some y) : (Json.float x).asRead = .float y := by
  rw [asRead, leafAsRead, if_pos h, Numeral.value, whole?_ofFloat, hbinary]
  · exact fun _ h => Json.noConfusion h
  · exact fun _ h => Json.noConfusion h

/-- Whether the written form of a price is read as a number. -/
def IsReadable (x : Price) : Prop :=
  ∃ y, (Json.float x).asRead = .float y

/-- The number that the written form of a price is read as. -/
def reread (x : Price) : Price :=
  match (Json.float x).asRead with
  | .float y => y
  | _ => x

theorem IsReadable.asRead_eq {x : Price} (h : IsReadable x) :
    (Json.float x).asRead = .float (reread x) := by
  obtain ⟨y, hy⟩ := h
  rw [reread, hy]

@[simp] theorem asRead_string (s : String) : (Json.string s).asRead = .string s := rfl

@[simp] theorem asRead_bool (b : Bool) : (Json.bool b).asRead = .bool b := rfl

@[simp] theorem asRead_null : Json.null.asRead = .null := rfl

theorem asRead_object (es : List (String × Json)) :
    (Json.object es).asRead = .object (entriesAsRead es) := rfl

/-- The documents of a list are read back one by one. -/
theorem asRead_array_map {α β : Type} {write : α → Json} {write' : β → Json} {g : α → β}
    {xs : List α} (h : ∀ x ∈ xs, (write x).asRead = write' (g x)) :
    (Json.array (xs.map write)).asRead = .array ((xs.map g).map write') := by
  rw [asRead, itemsAsRead_eq_map, List.map_map, List.map_map]
  exact congrArg Json.array (List.map_congr_left h)

end Json

open Json (IsReadable reread)

/-! ### Documents as they are read back -/

theorem Operand.asRead_toJson {o : Operand Price} (h : ∀ x ∈ o.prices, IsReadable x) :
    o.toJson.asRead = (o.mapPrices reread).toJson := by
  rcases o with v | ⟨p, b, q⟩ | ⟨p, b⟩
  · have hv := (h v List.mem_cons_self).asRead_eq
    simp [toJson, mapPrices, Json.asRead_object, Json.entriesAsRead, hv]
  · rfl
  · rfl

theorem Tick.asRead_toJson {t : Tick Price} (hword : Decimal.fitsWord t.timestamp = true)
    (hvalue : IsReadable t.value) : t.toJson.asRead = (t.mapPrice reread).toJson := by
  simp [toJson, mapPrice, Json.asRead_object, Json.entriesAsRead, Json.asRead_word hword,
    hvalue.asRead_eq]

theorem Progress.asRead_toJson {p : Progress Price} (h : p.FitsWords)
    (hprices : ∀ t ∈ p.lastTicks.values, IsReadable t.value) :
    p.toJson.asRead = (p.mapPrices reread).toJson := by
  have hticks : (TickSet.toJson p.lastTicks).asRead =
      TickSet.toJson (p.lastTicks.map (Tick.mapPrice reread)) := by
    simp only [TickSet.toJson, Keyed.map, Json.asRead_object, Json.entriesAsRead_eq_map, List.map_map]
    refine congrArg Json.object (List.map_congr_left fun e he => ?_)
    have hmem := List.mem_map_of_mem (f := (·.2)) he
    simp [Tick.asRead_toJson (h.ticks e.2 hmem) (hprices e.2 hmem)]
  simp [toJson, mapPrices, Json.asRead_object, Json.entriesAsRead, Json.asRead_word h.lastTs, hticks]

/-- A condition as it is read back. -/
theorem Condition.asRead_toJson {c : Condition Price} (h : c.FitsWords)
    (hprices : ∀ x ∈ c.prices, IsReadable x) : c.toJson.asRead = (c.mapPrices reread).toJson := by
  have hoperands : (Json.array (c.operands.map Operand.toJson)).asRead =
      .array ((c.operands.map (Operand.mapPrices reread)).map Operand.toJson) :=
    Json.asRead_array_map fun o ho => Operand.asRead_toJson fun x hx =>
      hprices x (List.mem_append_left _ (List.mem_flatMap.2 ⟨o, ho, hx⟩))
  have hmargin := (hprices _ (List.mem_append_right _ List.mem_cons_self)).asRead_eq
  have hstate : c.state.toJson.asRead = (c.state.mapPrices reread).toJson :=
    Progress.asRead_toJson h.state fun t ht =>
      hprices _ (List.mem_append_right _ (List.mem_cons_of_mem _ (List.mem_map_of_mem ht)))
  simp [toJson, mapPrices, Json.asRead_object, Json.entriesAsRead, hoperands, hmargin, hstate,
    Json.asRead_word h.fromTs, Json.asRead_word h.toTs]

namespace Clause

theorem asRead_tagged (op : String) (args : Json) :
    (tagged op args).asRead = tagged op args.asRead := rfl

mutual

/-- A clause is read back as it was. -/
theorem asRead_toJson : ∀ c : Clause, (∀ i ∈ c.references, (i : Int) ≤ Json.maxIndex) →
    c.toJson.asRead = c.toJson
  | .literal i, hi => by
      have hindex := Json.asRead_int (i := i) (by omega) (hi i (by simp [references]))
      rw [toJson, asRead_tagged, hindex]
  | .neg c, hi => by rw [toJson, asRead_tagged, asRead_toJson c hi]
  | .conj cs, hi => by rw [toJson, asRead_tagged, Json.asRead, itemsAsRead_toJsons cs hi]
  | .disj cs, hi => by rw [toJson, asRead_tagged, Json.asRead, itemsAsRead_toJsons cs hi]

/-- The members of a chain are read back as they were. -/
theorem itemsAsRead_toJsons : ∀ cs : List Clause,
    (∀ i ∈ referencesOf cs, (i : Int) ≤ Json.maxIndex) →
    Json.itemsAsRead (toJsons cs) = toJsons cs
  | [], _ => rfl
  | c :: cs, hi => by
      rw [toJsons, Json.itemsAsRead, asRead_toJson c fun i h => hi i (by simp [referencesOf, h]),
        itemsAsRead_toJsons cs fun i h => hi i (by simp [referencesOf, h])]

end

theorem asRead_optionalToJson {o : Option Clause} (h : ∀ c ∈ o, c.IsStorable) :
    (optionalToJson o).asRead = optionalToJson o := by
  cases o with
  | none => rfl
  | some c => exact asRead_toJson c (h c rfl).references

end Clause

theorem PrePhase.asRead_toJson {p : PrePhase} (h : ∀ o ∈ p.clauses, ∀ c ∈ o, c.IsStorable) :
    p.toJson.asRead = p.toJson := by
  have hwrong := Clause.asRead_optionalToJson (h p.wrongIf (by simp [clauses]))
  have hannulled := Clause.asRead_optionalToJson (h p.annulledIf (by simp [clauses]))
  have hpredict := Clause.asRead_optionalToJson (h p.predictIf (by simp [clauses]))
  simp [toJson, Policy.toEntries, Json.asRead_object, Json.entriesAsRead, hwrong, hannulled,
    hpredict]

theorem MainPhase.asRead_toJson {p : MainPhase} (h : ∀ o ∈ p.clauses, ∀ c ∈ o, c.IsStorable) :
    p.toJson.asRead = p.toJson := by
  have hwrong := Clause.asRead_optionalToJson (h p.wrongIf (by simp [clauses]))
  have hannulled := Clause.asRead_optionalToJson (h p.annulledIf (by simp [clauses]))
  have hpredict := Clause.asRead_optionalToJson (h (some p.predict) (by simp [clauses]))
  rw [Clause.optionalToJson] at hpredict
  simp [toJson, Policy.toEntries, Json.asRead_object, Json.entriesAsRead, hwrong, hannulled,
    hpredict]

theorem PredictionState.asRead_toJson {s : PredictionState} (h : Decimal.fitsWord s.lastTs = true) :
    s.toJson.asRead = s.toJson := by
  simp [toJson, Json.asRead_object, Json.entriesAsRead, Json.asRead_word h]

namespace Prediction

/-- A prediction as it is read back. -/
theorem asRead_toJson {p : Prediction} (h : p.IsStorable) (hprices : ∀ x ∈ p.prices, IsReadable x) :
    p.toJson.asRead = (p.mapPrices reread).toJson := by
  have hgiven : (Json.array (p.given.map Condition.toJson)).asRead =
      .array ((p.given.map (Condition.mapPrices reread)).map Condition.toJson) :=
    Json.asRead_array_map fun c hc => Condition.asRead_toJson (h.given c hc) fun x hx =>
      hprices x (List.mem_flatMap.2 ⟨c, hc, hx⟩)
  have hpre := PrePhase.asRead_toJson fun o ho c hc => h.clauses c (mem_clauses (Or.inl ho) hc)
  have hmain := MainPhase.asRead_toJson fun o ho c hc => h.clauses c (mem_clauses (Or.inr ho) hc)
  have hstate := PredictionState.asRead_toJson h.state
  simp [toJson, mapPrices, Json.asRead_object, Json.entriesAsRead, hgiven, hpre, hmain, hstate]

/-- **What is read of a stored prediction** is the prediction with its prices as they are read. -/
theorem ofStored?_stored {p : Prediction} (h : p.IsStorable)
    (hprices : ∀ x ∈ p.prices, IsReadable x) :
    ofStored? p.stored = some (p.mapPrices reread) := by
  rw [ofStored?, stored, Json.read_compress, Option.bind_some, asRead_toJson h hprices,
    ofJson?_toJson h.mapPrices]

/-! ### Exact readers -/

/-- Whether all seconds and positions in a prediction fit a word. -/
structure FitsWords (p : Prediction) : Prop where
  given : ∀ c ∈ p.given, c.FitsWords
  clauses : ∀ c ∈ p.clauses, ∀ i ∈ c.references, (i : Int) ≤ Json.maxIndex
  state : Decimal.fitsWord p.state.lastTs = true

/-- **A stored prediction is read back,** with whatever texts, clauses and ticks it has: if its prices
are finite, its times are in the years 0 to 9999 and in no leap second, and its clauses nest at most
100 levels. The reader of documents must be exact on the prices of the prediction. -/
theorem ofStored?_stored_eq_self {p : Prediction} (hwords : p.FitsWords)
    (hfinite : ∀ x ∈ p.prices, x.isFinite = true)
    (htimes : ∀ t ∈ [p.createdAt, p.postedAt],
      0 ≤ t.date.year ∧ t.date.year ≤ 9999 ∧ t.nanos < Calendar.nanosPerSecond)
    (hclauses : ∀ c ∈ p.clauses, c.toJson.isSound 100 = true)
    (hreader : ∀ x ∈ p.prices, x.isFinite = true →
      Json.read (Json.compress (.float x)) = some (.float x)) :
    ofStored? p.stored = some p := by
  have hproper : ∀ t ∈ [p.createdAt, p.postedAt], t.IsProper := fun t ht => by
    obtain ⟨hfirst, hlast, hnanos⟩ := htimes t ht
    refine ⟨Calendar.Date.inCalendar_of_year ?_ ?_, Or.inl hnanos⟩
    · change Calendar.firstYear ≤ t.date.year
      simp only [Calendar.firstYear]
      omega
    · change t.date.year ≤ Calendar.lastYear
      simp only [Calendar.lastYear]
      omega
  have hstorable : p.IsStorable :=
    { createdAt := hproper _ List.mem_cons_self
      postedAt := hproper _ (List.mem_cons_of_mem _ List.mem_cons_self)
      given := hwords.given
      clauses := fun c hc =>
        ⟨hwords.clauses c hc, Json.isSound_mono c.toJson (by decide) (hclauses c hc)⟩
      state := hwords.state }
  have hexact : ∀ x ∈ p.prices, (Json.float x).asRead = .float x := fun x hx => by
    have hread := hreader x hx (hfinite x hx)
    rw [Json.read_compress] at hread
    exact Option.some.inj hread
  rw [ofStored?_stored hstorable fun x hx => ⟨x, hexact x hx⟩, mapPrices_eq_self]
  exact fun x hx => by rw [reread, hexact x hx]

/-- A prediction with a quoted name, an empty chain and a tick. -/
def quoted : Prediction where
  id := "\"70k\"\n"
  createdAt := ⟨1704067200, 500000000⟩
  postedAt := ⟨-62167219200, 0⟩
  reporter := "a\\b"
  postAuthor := ""
  postUrl := ""
  postText := "ünïcode"
  given := [⟨"high", .above, [.market (.coin "BINANCE" "BTC" "USDT"), .number 70000], 0, 86400,
    0.05, ⟨.started, 60, .ofList [("COIN:BINANCE:BTC-USDT", ⟨60, 69000.5⟩)], .undecided⟩⟩]
  pre := ⟨some (.conj []), none, none, ⟨true, false⟩⟩
  main := ⟨some (.neg (.literal 0)), none, .disj [.literal 0, .conj []], .default⟩
  state := ⟨.started, 60, .running⟩
  shape := .unsupported

/-- It is read back. -/
theorem ofStored?_stored_quoted : ofStored? quoted.stored = some quoted := by
  refine ofStored?_stored_eq_self ⟨?_, ?_, ?_⟩ ?_ ?_ ?_ ?_
  · intro c hc
    obtain rfl := List.mem_singleton.1 hc
    exact ⟨by decide, by decide, ⟨by decide, by decide +kernel⟩⟩
  · decide +kernel
  · decide
  · decide +kernel
  · decide +kernel
  · decide +kernel
  · intro x hx hfinite
    rw [Json.read_compress]
    have hprices : quoted.prices = [70000, 0.05, 69000.5] := rfl
    rw [hprices] at hx
    rcases List.mem_cons.1 hx with rfl | hx
    · rw [Json.asRead_float hfinite (y := 70000) (by decide +kernel)]
    rcases List.mem_cons.1 hx with rfl | hx
    · rw [Json.asRead_float hfinite (y := 0.05) (by decide +kernel)]
    · obtain rfl := List.mem_singleton.1 hx
      rw [Json.asRead_float hfinite (y := 69000.5) (by decide +kernel)]

end Prediction

end Forecast
