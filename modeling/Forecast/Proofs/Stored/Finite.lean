import Forecast.Proofs.Json.Finite
import Forecast.Proofs.Stored.Readable

/-!
# Finite Prices are What It Takes

A stored prediction can be read exactly if all prices in it are finite (`isSome_ofStored?_iff`). One
that is not finite is written as null, wherever in the prediction it is, and no reader of a number takes
null for one. The written form of every finite price is read as a number again, which is finite too; so
what has been read can be stored and read once more, however often.

## Main results

* `Json.isReadable_iff_isFinite`: which prices can be read.
* `Prediction.isSome_ofStored?_iff`: which stored predictions can be read.
* `Prediction.read_again`: what is read of a prediction can be stored and read again.
-/

namespace Forecast

/-- All members of a list that is read one by one are read. -/
theorem isSome_of_mapM {α β : Type} {f : α → Option β} {xs : List α} {ys : List β}
    (h : xs.mapM f = some ys) : ∀ x ∈ xs, (f x).isSome := by
  induction xs generalizing ys with
  | nil => exact fun x hx => absurd hx List.not_mem_nil
  | cons x xs ih =>
      rw [List.mapM_cons] at h
      obtain ⟨y, hy, h⟩ := Option.bind_eq_some_iff.1 h
      obtain ⟨rest, hrest, -⟩ := Option.bind_eq_some_iff.1 h
      exact List.forall_mem_cons.2 ⟨Option.isSome_iff_exists.2 ⟨y, hy⟩, ih hrest⟩

namespace Json

/-- A number that is not finite is read as null. -/
theorem asRead_of_not_isFinite {x : Float} (h : x.isFinite = false) : (Json.float x).asRead = .null := by
  rw [asRead, leafAsRead, h]
  · rfl
  · exact fun _ h => Json.noConfusion h
  · exact fun _ h => Json.noConfusion h

/-- **Finite prices are those that can be read.** -/
theorem isReadable_iff_isFinite {x : Price} : IsReadable x ↔ x.isFinite = true := by
  constructor
  · rintro ⟨y, hy⟩
    by_contra hinfinite
    rw [asRead_of_not_isFinite (Bool.eq_false_iff.2 hinfinite)] at hy
    cases hy
  · intro h
    obtain ⟨y, hy⟩ := Option.isSome_iff_exists.1 (isSome_binary h)
    exact ⟨y, asRead_float h hy⟩

/-- What a finite price is read as is finite. -/
theorem isFinite_reread {x : Price} (h : x.isFinite = true) : (reread x).isFinite = true := by
  obtain ⟨y, hy⟩ := Option.isSome_iff_exists.1 (isSome_binary h)
  rw [reread, asRead_float h hy]
  exact isFinite_binary hy

/-- A field from which a number is read holds a finite one. -/
theorem isFinite_of_asFloat {x : Price} {y : Float} (h : asFloat (Json.float x).asRead = some y) :
    x.isFinite = true := by
  by_contra hinfinite
  rw [asRead_of_not_isFinite (Bool.eq_false_iff.2 hinfinite)] at h
  cases h

end Json

/-! ### Parts of a prediction -/

/-- An operand that can be read has a finite price, if any. -/
theorem Operand.isFinite_of_isSome {o : Operand Price} (h : (Operand.ofJson? o.toJson.asRead).isSome) :
    ∀ x ∈ o.prices, x.isFinite = true := by
  cases o with
  | market i => exact fun x hx => absurd hx List.not_mem_nil
  | number v =>
      intro x hx
      obtain rfl := List.mem_singleton.1 hx
      by_contra hinfinite
      have hnull := Json.asRead_of_not_isFinite (Bool.eq_false_iff.2 hinfinite)
      rw [toJson, Json.asRead_object, Json.entriesAsRead_eq_map, List.map_cons, List.map_cons,
        List.map_nil, hnull] at h
      cases h

/-- A tick that can be read has a finite price. -/
theorem Tick.isFinite_of_isSome {t : Tick Price} (h : (Tick.ofJson? t.toJson.asRead).isSome) :
    t.value.isFinite = true := by
  obtain ⟨u, hu⟩ := Option.isSome_iff_exists.1 h
  rw [ofJson?] at hu
  obtain ⟨f, hf, hu⟩ := Option.bind_eq_some_iff.1 hu
  rw [toJson, Json.asRead_object, Json.asRecord_of_names (by rfl) (by decide)] at hf
  obtain rfl := Option.some.inj hf
  obtain ⟨timestamp, -, hu⟩ := Option.bind_eq_some_iff.1 hu
  obtain ⟨value, hvalue, -⟩ := Option.bind_eq_some_iff.1 hu
  exact Json.isFinite_of_asFloat hvalue

/-- What a condition has seen has finite prices if it can be read. -/
theorem Progress.isFinite_of_isSome {p : Progress Price}
    (h : (Progress.ofJson? p.toJson.asRead).isSome) :
    ∀ t ∈ p.lastTicks.values, t.value.isFinite = true := by
  obtain ⟨q, hq⟩ := Option.isSome_iff_exists.1 h
  rw [ofJson?] at hq
  obtain ⟨f, hf, hq⟩ := Option.bind_eq_some_iff.1 hq
  rw [toJson, Json.asRead_object, Json.asRecord_of_names (by rfl) (by decide)] at hf
  obtain rfl := Option.some.inj hf
  obtain ⟨status, -, hq⟩ := Option.bind_eq_some_iff.1 hq
  obtain ⟨lastTs, -, hq⟩ := Option.bind_eq_some_iff.1 hq
  obtain ⟨lastTicks, hticks, -⟩ := Option.bind_eq_some_iff.1 hq
  change Json.asKeyed Tick.ofJson? (TickSet.toJson p.lastTicks).asRead = some lastTicks at hticks
  rw [TickSet.toJson, Json.asRead_object, Json.entriesAsRead_eq_map, Json.asKeyed,
    Option.map_eq_some_iff] at hticks
  obtain ⟨entries, hentries, -⟩ := hticks
  intro t ht
  obtain ⟨e, he, rfl⟩ := List.mem_map.1 ht
  have hmem : (e.1, e.2.toJson.asRead) ∈
      (p.lastTicks.map Tick.toJson).entries.map fun e => (e.1, e.2.asRead) :=
    List.mem_map.2 ⟨_, List.mem_map_of_mem he, rfl⟩
  have hsome := isSome_of_mapM hentries _ hmem
  rw [Option.isSome_map] at hsome
  exact Tick.isFinite_of_isSome hsome

/-- A condition that can be read has finite prices. -/
theorem Condition.isFinite_of_isSome {c : Condition Price}
    (h : (Condition.ofJson? c.toJson.asRead).isSome) : ∀ x ∈ c.prices, x.isFinite = true := by
  obtain ⟨d, hd⟩ := Option.isSome_iff_exists.1 h
  rw [ofJson?] at hd
  obtain ⟨f, hf, hd⟩ := Option.bind_eq_some_iff.1 hd
  rw [toJson, Json.asRead_object, Json.asRecord_of_names (by rfl) (by decide)] at hf
  obtain rfl := Option.some.inj hf
  obtain ⟨name, -, hd⟩ := Option.bind_eq_some_iff.1 hd
  obtain ⟨comparison, -, hd⟩ := Option.bind_eq_some_iff.1 hd
  obtain ⟨operands, hoperands, hd⟩ := Option.bind_eq_some_iff.1 hd
  obtain ⟨fromTs, -, hd⟩ := Option.bind_eq_some_iff.1 hd
  obtain ⟨toTs, -, hd⟩ := Option.bind_eq_some_iff.1 hd
  obtain ⟨margin, hmargin, hd⟩ := Option.bind_eq_some_iff.1 hd
  obtain ⟨state, hstate, -⟩ := Option.bind_eq_some_iff.1 hd
  change (c.operands.map Operand.toJson |> Json.itemsAsRead).mapM Operand.ofJson? =
    some operands at hoperands
  change Progress.ofJson? c.state.toJson.asRead = some state at hstate
  intro x hx
  rcases List.mem_append.1 hx with hx | hx
  · obtain ⟨o, ho, hx⟩ := List.mem_flatMap.1 hx
    rw [Json.itemsAsRead_eq_map, List.map_map] at hoperands
    exact Operand.isFinite_of_isSome (isSome_of_mapM hoperands _ (List.mem_map_of_mem ho)) x hx
  · rcases List.mem_cons.1 hx with rfl | hx
    · exact Json.isFinite_of_asFloat hmargin
    · obtain ⟨t, ht, rfl⟩ := List.mem_map.1 hx
      exact Progress.isFinite_of_isSome (Option.isSome_iff_exists.2 ⟨state, hstate⟩) t ht

/-! ### Changed prices -/

theorem Operand.prices_mapPrices (f : Price → Price) (o : Operand Price) :
    (o.mapPrices f).prices = o.prices.map f := by
  cases o with
  | number v => rfl
  | market i => rfl

theorem Condition.prices_mapPrices (f : Price → Price) (c : Condition Price) :
    (c.mapPrices f).prices = c.prices.map f := by
  simp [prices, mapPrices, Progress.mapPrices, List.flatMap_map, List.map_flatMap,
    Operand.prices_mapPrices, Tick.mapPrice]

/-- The prices of a prediction whose prices are changed are the changed prices. -/
theorem Prediction.prices_mapPrices (f : Price → Price) (p : Prediction) :
    (p.mapPrices f).prices = p.prices.map f := by
  simp [prices, mapPrices, List.flatMap_map, List.map_flatMap, Condition.prices_mapPrices]

namespace Prediction

variable {p q : Prediction}

/-- **A stored text that can be read is of a prediction with finite prices.** -/
theorem isFinite_of_ofStored? (h : ofStored? p.stored = some q) : ∀ x ∈ p.prices, x.isFinite = true := by
  obtain ⟨-, hgiven, -⟩ := fields_of_ofStored? h
  obtain ⟨given, hgiven⟩ := Option.isSome_iff_exists.1 hgiven
  rw [Json.asRead, Json.asList, Json.itemsAsRead_eq_map, List.map_map] at hgiven
  intro x hx
  obtain ⟨c, hc, hx⟩ := List.mem_flatMap.1 hx
  exact Condition.isFinite_of_isSome (isSome_of_mapM hgiven _ (List.mem_map_of_mem hc)) x hx

/-- What is read of a stored prediction with finite prices. -/
theorem ofStored?_stored_of_isFinite (h : p.IsStorable) (hprices : ∀ x ∈ p.prices, x.isFinite = true) :
    ofStored? p.stored = some (p.mapPrices Json.reread) :=
  ofStored?_stored h fun x hx => Json.isReadable_iff_isFinite.2 (hprices x hx)

/-- **A stored prediction can be read exactly if all its prices are finite.** -/
theorem isSome_ofStored?_iff (h : p.IsStorable) :
    (ofStored? p.stored).isSome ↔ ∀ x ∈ p.prices, x.isFinite = true := by
  constructor
  · intro hsome
    obtain ⟨q, hq⟩ := Option.isSome_iff_exists.1 hsome
    exact isFinite_of_ofStored? hq
  · intro hprices
    rw [ofStored?_stored_of_isFinite h hprices]
    rfl

/-- **What has been read can be stored and read again.** -/
theorem read_again (h : p.IsStorable) (hread : ofStored? p.stored = some q) :
    q.IsStorable ∧ ofStored? q.stored = some (q.mapPrices Json.reread) := by
  have hfinite := isFinite_of_ofStored? hread
  rw [ofStored?_stored_of_isFinite h hfinite] at hread
  obtain rfl := Option.some.inj hread
  refine ⟨h.mapPrices, ofStored?_stored_of_isFinite h.mapPrices ?_⟩
  rw [prices_mapPrices]
  exact List.forall_mem_map.2 fun x hx => Json.isFinite_reread (hfinite x hx)

end Prediction

end Forecast
