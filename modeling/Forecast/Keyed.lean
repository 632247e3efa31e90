/-!
# Maps from names

A finite map from names to values, kept as a list of entries in strictly increasing order of their
names. The order is part of what the map shows: reports and stored documents list its entries in
it. Since each map has one list, maps with the same values are equal.

## Main results

* `get?_insert`: looking up after an insertion.
* `ext`: maps that answer every look-up alike are equal.
-/

namespace Forecast

universe u v

/-- Entries in strictly increasing order of their names. -/
structure Keyed (α : Type u) where
  entries : List (String × α)
  sorted : entries.Pairwise fun a b => a.1 < b.1

namespace Keyed

variable {α : Type u} {β : Type v}

instance [BEq α] : BEq (Keyed α) := ⟨fun m n => m.entries == n.entries⟩

instance [Repr α] : Repr (Keyed α) := ⟨fun m p => reprPrec m.entries p⟩

/-- The map without entries. -/
def empty : Keyed α := ⟨[], List.Pairwise.nil⟩

instance : Inhabited (Keyed α) := ⟨empty⟩

/-- Puts an entry at its place among sorted entries, over an entry of the same name. -/
def insertEntry (name : String) (value : α) : List (String × α) → List (String × α)
  | [] => [(name, value)]
  | e :: es =>
    if name < e.1 then (name, value) :: e :: es
    else if name = e.1 then (name, value) :: es
    else e :: insertEntry name value es

theorem mem_insertEntry {name : String} {value : α} {es : List (String × α)} {e : String × α}
    (h : e ∈ insertEntry name value es) : e = (name, value) ∨ e ∈ es := by
  induction es with
  | nil => exact Or.inl (by simpa [insertEntry] using h)
  | cons d ds ih =>
    simp only [insertEntry] at h
    split at h
    · rcases List.mem_cons.1 h with h | h
      · exact Or.inl h
      · exact Or.inr h
    · split at h
      · rcases List.mem_cons.1 h with h | h
        · exact Or.inl h
        · exact Or.inr (List.mem_cons_of_mem _ h)
      · rcases List.mem_cons.1 h with h | h
        · exact Or.inr (h ▸ List.mem_cons_self)
        · exact (ih h).imp id (List.mem_cons_of_mem _)

theorem sorted_insertEntry {name : String} {value : α} {es : List (String × α)}
    (h : es.Pairwise fun a b => a.1 < b.1) :
    (insertEntry name value es).Pairwise fun a b => a.1 < b.1 := by
  induction es with
  | nil => simp [insertEntry]
  | cons d ds ih =>
    obtain ⟨hd, hds⟩ := List.pairwise_cons.1 h
    simp only [insertEntry]
    split
    · rename_i hlt
      refine List.pairwise_cons.2 ⟨fun e he => ?_, h⟩
      rcases List.mem_cons.1 he with rfl | he
      · exact hlt
      · exact String.lt_trans hlt (hd e he)
    · split
      · rename_i heq
        exact List.pairwise_cons.2 ⟨fun e he => heq ▸ hd e he, hds⟩
      · rename_i hlt hne
        refine List.pairwise_cons.2 ⟨fun e he => ?_, ih hds⟩
        rcases mem_insertEntry he with rfl | he
        · have hle : d.1 ≤ name := String.not_lt.1 hlt
          exact String.not_le.1 fun hge => hne (String.le_antisymm hge hle)
        · exact hd e he

/-- Puts a value under a name, over the value that was there. -/
def insert (m : Keyed α) (name : String) (value : α) : Keyed α :=
  ⟨insertEntry name value m.entries, sorted_insertEntry m.sorted⟩

/-- The value under a name. -/
def get? (m : Keyed α) (name : String) : Option α :=
  m.entries.lookup name

/-- Whether there is a value under a name. -/
def contains (m : Keyed α) (name : String) : Bool :=
  (m.get? name).isSome

/-- The map of a list of entries; of two with one name the later counts. -/
def ofList (es : List (String × α)) : Keyed α :=
  es.foldl (fun m e => m.insert e.1 e.2) empty

/-- The values in the order of their names. -/
def values (m : Keyed α) : List α :=
  m.entries.map (·.2)

/-- The number of entries. -/
def size (m : Keyed α) : Nat :=
  m.entries.length

/-- Whether there are no entries. -/
def isEmpty (m : Keyed α) : Bool :=
  m.entries.isEmpty

/-- The entries that pass a test. -/
def filter (p : String → α → Bool) (m : Keyed α) : Keyed α :=
  ⟨m.entries.filter fun e => p e.1 e.2, m.sorted.filter _⟩

/-- The same names with other values. -/
def map (f : α → β) (m : Keyed α) : Keyed β :=
  ⟨m.entries.map fun e => (e.1, f e.2), by
    simpa [List.pairwise_map] using m.sorted⟩

/-! ### Look-ups -/

@[simp] theorem get?_empty (name : String) : (empty : Keyed α).get? name = none := rfl

theorem lookup_cons (name : String) (d : String × α) (es : List (String × α)) :
    (d :: es).lookup name = if name = d.1 then some d.2 else es.lookup name := by
  by_cases h : name = d.1
  · rw [if_pos h, List.lookup_cons, beq_iff_eq.2 h]
  · rw [if_neg h, List.lookup_cons, beq_false_of_ne h]

theorem lookup_insertEntry (name other : String) (value : α) (es : List (String × α)) :
    (insertEntry name value es).lookup other =
      if other = name then some value else es.lookup other := by
  induction es with
  | nil => simp [insertEntry, lookup_cons]
  | cons d ds ih =>
    simp only [insertEntry]
    split
    · simp only [lookup_cons]
    · split
      · rename_i heq
        simp only [lookup_cons, ← heq]
        split <;> rfl
      · rename_i _ hne
        simp only [lookup_cons, ih]
        by_cases ho : other = d.1
        · simp [ho, Ne.symm hne]
        · simp [ho]

/-- Looking up after an insertion finds the new value under its name and the old ones elsewhere. -/
theorem get?_insert (m : Keyed α) (name other : String) (value : α) :
    (m.insert name value).get? other = if other = name then some value else m.get? other :=
  lookup_insertEntry name other value m.entries

/-- An entry of sorted entries is the one that a look-up finds. -/
theorem lookup_of_mem {es : List (String × α)} (h : es.Pairwise fun a b => a.1 < b.1)
    {name : String} {value : α} (he : (name, value) ∈ es) : es.lookup name = some value := by
  induction es with
  | nil => simp at he
  | cons d ds ih =>
    obtain ⟨hd, hds⟩ := List.pairwise_cons.1 h
    rcases List.mem_cons.1 he with rfl | he
    · simp
    · have hne : name ≠ d.1 := fun heq => String.lt_irrefl _ (heq ▸ hd _ he)
      simp [lookup_cons, hne, ih hds he]

/-- What a look-up finds is an entry. -/
theorem mem_of_lookup {es : List (String × α)} {name : String} {value : α}
    (h : es.lookup name = some value) : (name, value) ∈ es := by
  induction es with
  | nil => simp at h
  | cons d ds ih =>
    rw [lookup_cons] at h
    split at h
    · rename_i hn
      obtain rfl : d.2 = value := by simpa using h
      exact hn ▸ List.mem_cons_self
    · exact List.mem_cons_of_mem _ (ih h)

theorem mem_entries_iff (m : Keyed α) (name : String) (value : α) :
    (name, value) ∈ m.entries ↔ m.get? name = some value :=
  ⟨lookup_of_mem m.sorted, mem_of_lookup⟩

/-- Sorted entries with the same look-ups are the same. -/
theorem entries_eq_of_lookup {es ds : List (String × α)}
    (hes : es.Pairwise fun a b => a.1 < b.1) (hds : ds.Pairwise fun a b => a.1 < b.1)
    (h : ∀ name, es.lookup name = ds.lookup name) : es = ds := by
  induction es generalizing ds with
  | nil =>
    cases ds with
    | nil => rfl
    | cons d ds => simpa [lookup_cons] using h d.1
  | cons e es ih =>
    cases ds with
    | nil => simpa [lookup_cons] using (h e.1).symm
    | cons d ds =>
      obtain ⟨he, hes⟩ := List.pairwise_cons.1 hes
      obtain ⟨hd, hds'⟩ := List.pairwise_cons.1 hds
      have hmem {a b : String × α} {as bs : List (String × α)}
          (hb : ∀ c ∈ bs, b.1 < c.1)
          (hab : (a :: as).lookup a.1 = (b :: bs).lookup a.1) : b.1 ≤ a.1 := by
        have ha : (b :: bs).lookup a.1 = some a.2 := by rw [← hab]; simp [lookup_cons]
        rcases List.mem_cons.1 (mem_of_lookup ha) with heq | hin
        · exact heq ▸ Std.le_refl _
        · exact String.not_lt.1 (String.lt_asymm (hb _ hin))
      have hkey : e.1 = d.1 :=
        String.le_antisymm (hmem he (h d.1).symm) (hmem hd (h e.1))
      have hval : e.2 = d.2 := by
        have := h e.1
        simpa [lookup_cons, hkey] using this
      have hrest : es = ds := by
        refine ih hes hds' fun name => ?_
        by_cases hn : name = e.1
        · have hnone {x : String × α} {xs : List (String × α)} (hx : ∀ c ∈ xs, x.1 < c.1) :
              xs.lookup x.1 = none := by
            cases hl : xs.lookup x.1 with
            | none => rfl
            | some v => exact absurd (hx _ (mem_of_lookup hl)) (String.lt_irrefl _)
          rw [hn, hnone he, hkey, hnone hd]
        · have := h name
          rw [lookup_cons, lookup_cons, if_neg hn, if_neg (hkey ▸ hn)] at this
          exact this
      rw [hrest, show e = d from Prod.ext hkey hval]

/-- Maps that answer every look-up alike are equal. -/
theorem ext {m n : Keyed α} (h : ∀ name, m.get? name = n.get? name) : m = n := by
  cases m
  cases n
  congr
  exact entries_eq_of_lookup ‹_› ‹_› h

end Keyed

end Forecast
