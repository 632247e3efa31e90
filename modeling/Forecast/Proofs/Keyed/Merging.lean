import Mathlib.Data.List.Basic
import Forecast.Keyed

/-!
# Merging Entries into a Map

Putting entries of different names into a map, one after the other, gives the entries where there
are some and the map elsewhere, whatever their order was.
-/

namespace Forecast

namespace Keyed

universe u

variable {α : Type u}

/-- A map has no name twice. -/
theorem nodup_names (m : Keyed α) : (m.entries.map Prod.fst).Nodup := by
  refine List.pairwise_map.2 (m.sorted.imp fun hlt heq => ?_)
  rw [heq] at hlt
  exact String.lt_irrefl _ hlt

/-- A map without entries finds nothing. -/
theorem get?_of_isEmpty {m : Keyed α} (h : m.isEmpty = true) (name : String) :
    m.get? name = none := by
  rw [get?, List.isEmpty_iff.1 h, List.lookup_nil]

/-- Among entries of different names, a look-up finds exactly what is there. -/
theorem lookup_eq_some_iff {es : List (String × α)} (h : (es.map Prod.fst).Nodup) {name : String}
    {value : α} : es.lookup name = some value ↔ (name, value) ∈ es := by
  refine ⟨mem_of_lookup, fun hmem => ?_⟩
  induction es with
  | nil => exact absurd hmem List.not_mem_nil
  | cons e es ih =>
      obtain ⟨hnot, hrest⟩ := List.nodup_cons.1 h
      rw [lookup_cons]
      rcases List.mem_cons.1 hmem with rfl | hmem
      · exact if_pos rfl
      · have hne : name ≠ e.1 := by
          rintro rfl
          exact hnot (List.mem_map.2 ⟨_, hmem, rfl⟩)
        rw [if_neg hne]
        exact ih hrest hmem

/-- Entries of different names, put into a map in turn, count before what was there. -/
theorem get?_foldl_insert {es : List (String × α)} (h : (es.map Prod.fst).Nodup) (m : Keyed α)
    (name : String) :
    (es.foldl (fun m e => m.insert e.1 e.2) m).get? name =
      (es.lookup name).or (m.get? name) := by
  induction es generalizing m with
  | nil => rfl
  | cons e es ih =>
      obtain ⟨hnot, hrest⟩ := List.nodup_cons.1 h
      rw [List.foldl_cons, ih hrest, get?_insert, lookup_cons]
      by_cases hname : name = e.1
      · have hnone : es.lookup name = none := by
          cases hl : es.lookup name with
          | none => rfl
          | some v =>
              have hmem : name ∈ es.map Prod.fst := List.mem_map.2 ⟨_, mem_of_lookup hl, rfl⟩
              exact absurd (hname ▸ hmem) hnot
        rw [hnone, if_pos hname, if_pos hname]
        rfl
      · rw [if_neg hname, if_neg hname]

/-- The map of entries of different names finds exactly these entries. -/
theorem get?_ofList_eq_some_iff {es : List (String × α)} (h : (es.map Prod.fst).Nodup)
    {name : String} {value : α} :
    (ofList es).get? name = some value ↔ (name, value) ∈ es := by
  rw [ofList, get?_foldl_insert h, get?_empty, Option.or_none, lookup_eq_some_iff h]

/-- The map of a list has only entries of the list. -/
theorem mem_of_mem_ofList {es : List (String × α)} {e : String × α} (h : e ∈ (ofList es).entries) :
    e ∈ es := by
  have hfold (m : Keyed α) (h : e ∈ (es.foldl (fun m e => m.insert e.1 e.2) m).entries) :
      e ∈ es ∨ e ∈ m.entries := by
    clear * - h
    induction es generalizing m with
    | nil => exact Or.inr h
    | cons d ds ih =>
        rcases ih (m.insert d.1 d.2) h with hmem | hmem
        · exact Or.inl (List.mem_cons_of_mem _ hmem)
        · rcases mem_insertEntry hmem with rfl | hmem
          · exact Or.inl List.mem_cons_self
          · exact Or.inr hmem
  exact (hfold empty h).resolve_right List.not_mem_nil

/-- A map is that of its entries. -/
@[simp] theorem ofList_entries (m : Keyed α) : ofList m.entries = m := by
  refine ext fun name => Option.ext fun value => ?_
  rw [get?_ofList_eq_some_iff m.nodup_names, mem_entries_iff]

/-- The map of the values that a function has under some names finds them under these names, however
often and in whatever order they are listed. -/
theorem get?_ofList_filterMap (f : String → Option α) (names : List String) (name : String) :
    (ofList (names.filterMap fun n => (f n).map fun value => (n, value))).get? name =
      if name ∈ names then f name else none := by
  have hfold (m : Keyed α) :
      ((names.filterMap fun n => (f n).map fun value => (n, value)).foldl
        (fun m e => m.insert e.1 e.2) m).get? name =
        if name ∈ names then (f name).or (m.get? name) else m.get? name := by
    induction names generalizing m with
    | nil => simp
    | cons n names ih =>
        cases hn : f n with
        | none =>
            rw [List.filterMap_cons_none (by rw [hn]; rfl), ih]
            by_cases hname : name = n
            · subst hname
              simp [hn]
            · simp [hname]
        | some value =>
            rw [List.filterMap_cons_some (by rw [hn]; rfl), List.foldl_cons, ih, get?_insert]
            by_cases hname : name = n
            · subst hname
              simp [hn]
            · simp [hname]
  rw [ofList, hfold]
  simp

/-- Looking up after filtering finds what passes the test. -/
theorem get?_filter (m : Keyed α) (test : String → α → Bool) (name : String) :
    (m.filter test).get? name = (m.get? name).filter (test name) := by
  ext value
  rw [← mem_entries_iff, Option.filter_eq_some_iff, ← mem_entries_iff]
  exact List.mem_filter

end Keyed

end Forecast
