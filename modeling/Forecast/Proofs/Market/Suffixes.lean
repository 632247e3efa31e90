import Forecast.CandleFile
import Forecast.Database.Image
import Forecast.Proofs.Database.Rows

/-!
# Candles from a Later Second On

A source is asked for the candles under a key from some second on, and later again from a later second
on. What it serves then is a suffix of what it served before (`ServesSuffixes`): the candles that begin at
the later second or after it, in the same order. So a session that is resumed sees the candles that it
would have seen if it had gone on.

For a file this takes two things. Reading is local: whether a row is read, and as what, depends on the
second in one way only, that rows before it are passed over, so that a later second leads to fewer rows
and to no new fault. And sorting is stable: it commutes with every selection (`filter_mergeSort`), which
is why candles of one time keep their order. For a database it takes the order in which the candles of a
key are kept, which is that of their times and is kept by all that is done with a database
(`Database.IsOrdered`).

## Main results

* `filter_mergeSort`: sorting and selecting can be exchanged.
* `CandleFile.readRow_eq_ok_iff`: what is read of a row.
* `CandleFile.readRows_later`: what is read of rows from a later second on.
* `Database.IsOrdered.insertCandles`: a database keeps its candles in order.
* `sources_serve_suffixes`: files and databases serve suffixes.
-/

namespace Forecast

/-! ### Stable sorting -/

/-- A list is divided in one way only into elements without a property and elements with it. -/
theorem append_inj_of_forall {α : Type} {q : α → Bool} {l₁ l₂ m₁ m₂ : List α}
    (h : l₁ ++ l₂ = m₁ ++ m₂) (hl₁ : ∀ x ∈ l₁, ¬ q x) (hl₂ : ∀ x ∈ l₂, q x)
    (hm₁ : ∀ x ∈ m₁, ¬ q x) (hm₂ : ∀ x ∈ m₂, q x) : l₁ = m₁ ∧ l₂ = m₂ := by
  have hselected := congrArg (List.filter q) h
  rw [List.filter_append, List.filter_append, List.filter_eq_nil_iff.2 hl₁, List.filter_eq_self.2 hl₂,
    List.filter_eq_nil_iff.2 hm₁, List.filter_eq_self.2 hm₂, List.nil_append, List.nil_append]
    at hselected
  subst hselected
  exact ⟨List.append_cancel_right h, rfl⟩

/-- **Sorting and selecting can be exchanged:** those of a sorted list that have a property are sorted as
they are sorted alone. -/
theorem filter_mergeSort {α : Type} {le : α → α → Bool}
    (htrans : ∀ a b c, le a b = true → le b c = true → le a c = true)
    (htotal : ∀ a b, (le a b || le b a) = true) (p : α → Bool) (l : List α) :
    (l.mergeSort le).filter p = (l.filter p).mergeSort le := by
  -- the first element stands behind those that are less than it and before all others
  have hplace (x : α) (l : List α) : ∃ l₁ l₂, (x :: l).mergeSort le = l₁ ++ x :: l₂ ∧
      l.mergeSort le = l₁ ++ l₂ ∧ (∀ b ∈ l₁, ¬ le x b) ∧ ∀ b ∈ l₂, le x b := by
    obtain ⟨l₁, l₂, hsort, hrest, hbefore⟩ := List.mergeSort_cons htrans htotal x l
    have hsorted := List.pairwise_mergeSort htrans htotal (x :: l)
    rw [hsort] at hsorted
    exact ⟨l₁, l₂, hsort, hrest, fun b hb => by simpa using hbefore b hb,
      (List.pairwise_cons.1 (List.pairwise_append.1 hsorted).2.1).1⟩
  induction l with
  | nil => simp
  | cons x l ih =>
      obtain ⟨l₁, l₂, hsort, hrest, hbefore, hbehind⟩ := hplace x l
      rw [hrest, List.filter_append] at ih
      rw [hsort, List.filter_append, List.filter_cons, List.filter_cons]
      split
      · -- its place in the selection divides that in the same way
        obtain ⟨m₁, m₂, hsort', hrest', hbefore', hbehind'⟩ := hplace x (l.filter p)
        rw [hrest'] at ih
        obtain ⟨h₁, h₂⟩ := append_inj_of_forall ih
          (fun b hb => hbefore b (List.mem_filter.1 hb).1)
          (fun b hb => hbehind b (List.mem_filter.1 hb).1) hbefore' hbehind'
        rw [hsort', h₁, h₂]
      · exact ih

namespace Candle

/-- Sorting by time and selecting can be exchanged. -/
theorem filter_sortByTime (p : Candle → Bool) (cs : List Candle) :
    (sortByTime cs).filter p = sortByTime (cs.filter p) := by
  refine filter_mergeSort (fun a b c hab hbc => ?_) (fun a b => ?_) p cs
  · simp only [decide_eq_true_eq] at hab hbc ⊢
    exact Int.le_trans hab hbc
  · simpa using Int.le_total a.timestamp b.timestamp

/-- Candles sorted by time are in the order of their times. -/
theorem sortByTime_sorted (cs : List Candle) :
    (sortByTime cs).Pairwise fun c d => c.timestamp ≤ d.timestamp := by
  refine (List.pairwise_mergeSort (fun a b c hab hbc => ?_) (fun a b => ?_) cs).imp
    of_decide_eq_true
  · simp only [decide_eq_true_eq] at hab hbc ⊢
    exact Int.le_trans hab hbc
  · simpa using Int.le_total a.timestamp b.timestamp

/-- Candles in the order of their times are sorted. -/
theorem sortByTime_of_sorted {cs : List Candle}
    (h : cs.Pairwise fun c d => c.timestamp ≤ d.timestamp) : sortByTime cs = cs :=
  List.mergeSort_of_pairwise (h.imp decide_eq_true)

end Candle

/-! ### Suffixes -/

/-- Whether a source, that is read from a second on, serves suffixes of candles with a property. -/
structure ServesSuffixes {ε : Type} (Good : Candle → Prop) (read : Int → Except ε (List Candle))
    (source : Int → Except MarketError Feed) : Prop where
  ordered : ∀ {start cs}, read start = .ok cs → cs.Pairwise fun c d => c.timestamp ≤ d.timestamp
  start : ∀ {start cs}, read start = .ok cs → ∀ c ∈ cs, start ≤ c.timestamp
  good : ∀ {start cs}, read start = .ok cs → ∀ c ∈ cs, Good c
  /-- From a later second on there are those that begin then or after it. -/
  later : ∀ {start start' cs}, start ≤ start' → read start = .ok cs →
    read start' = .ok (cs.filter fun c => start' ≤ c.timestamp)
  /-- They are delivered one by one as they are read. -/
  delivered : ∀ {start cs}, read start = .ok cs → source start = .ok (cs.map .ok)

/-! ### Files -/

namespace CandleFile

/-- Whether all numbers of a candle are finite, the volume, too. -/
def IsFinite (c : Candle) : Prop :=
  c.hasFinitePrices = true ∧ c.volume.isFinite = true

/-- The time in a row. -/
def rowTime (fields : List String) : Except RowFault Int :=
  (column fields 0 "timestamp").bind readSeconds

/-- The candle of a time whose numbers are in a row. -/
def rowCandle (timestamp : Int) (fields : List String) : Except RowFault Candle := do
  let opened ← number fields 1 "open"
  let high ← number fields 2 "high"
  let low ← number fields 3 "low"
  let closed ← number fields 4 "close"
  return ⟨timestamp, opened, high, low, closed, orZero (number fields 5 "volume")⟩

/-- The time in a row is compared with the second from which candles are wanted before anything else of
the row is read. -/
theorem readRow_eq (start : Int) (fields : List String) :
    readRow start fields = (rowTime fields).bind fun timestamp =>
      if timestamp < start then .ok none else (rowCandle timestamp fields).map some := by
  rw [readRow, rowTime]
  cases column fields 0 "timestamp" with
  | error e => rfl
  | ok s =>
      simp only [bind, Except.bind]
      cases readSeconds s with
      | error e => rfl
      | ok timestamp =>
          dsimp only
          split
          · rfl
          · rw [rowCandle]
            simp only [bind, Except.bind]
            cases number fields 1 "open" with
            | error e => rfl
            | ok opened =>
            cases number fields 2 "high" with
            | error e => rfl
            | ok high =>
            cases number fields 3 "low" with
            | error e => rfl
            | ok low =>
            cases number fields 4 "close" with
            | error e => rfl
            | ok closed => rfl

/-- A number that is read is finite. -/
theorem isFinite_of_number {fields : List String} {i : Nat} {name : String} {x : Price}
    (h : number fields i name = .ok x) : x.isFinite = true := by
  rw [number] at h
  cases hcolumn : column fields i name with
  | error e =>
      rw [hcolumn] at h
      cases h
  | ok s =>
      rw [hcolumn] at h
      simp only [bind, Except.bind] at h
      split at h
      · cases h
      · split at h
        · next hfinite =>
            cases h
            exact hfinite
        · cases h

/-- A number is finite whether it is read or taken to be zero. -/
theorem isFinite_orZero (fields : List String) (i : Nat) (name : String) :
    (orZero (number fields i name)).isFinite = true := by
  cases h : number fields i name with
  | error e =>
      change (0 : Price).isFinite = true
      decide +kernel
  | ok x => exact isFinite_of_number h

/-- A candle in a row has the time of the row, and finite numbers only. -/
theorem rowCandle_ok {timestamp : Int} {fields : List String} {c : Candle}
    (h : rowCandle timestamp fields = .ok c) : c.timestamp = timestamp ∧ IsFinite c := by
  rw [rowCandle] at h
  simp only [bind, Except.bind] at h
  split at h
  · cases h
  next opened hopened =>
  split at h
  · cases h
  next high hhigh =>
  split at h
  · cases h
  next low hlow =>
  split at h
  · cases h
  next closed hclosed =>
  cases h
  refine ⟨rfl, ?_, isFinite_orZero fields 5 "volume"⟩
  simp only [Candle.hasFinitePrices, isFinite_of_number hopened, isFinite_of_number hhigh,
    isFinite_of_number hlow, isFinite_of_number hclosed, Bool.and_self]

/-- A row is passed over if its time is too early, and is a candle otherwise. -/
theorem readRow_eq_ok_iff {start : Int} {fields : List String} {c? : Option Candle} :
    readRow start fields = .ok c? ↔ ∃ timestamp, rowTime fields = .ok timestamp ∧
      (timestamp < start ∧ c? = none ∨
        start ≤ timestamp ∧ ∃ c, rowCandle timestamp fields = .ok c ∧ c? = some c) := by
  rw [readRow_eq]
  cases rowTime fields with
  | error e => exact ⟨nofun, fun ⟨_, h, _⟩ => nomatch h⟩
  | ok timestamp =>
      rw [Except.bind]
      simp only [Except.ok.injEq, exists_eq_left']
      split
      · next hlt =>
          rw [Except.ok.injEq]
          refine ⟨fun h => Or.inl ⟨hlt, h.symm⟩, ?_⟩
          rintro (⟨-, rfl⟩ | ⟨hle, -⟩)
          · rfl
          · omega
      · next hle =>
          cases rowCandle timestamp fields with
          | error e =>
              refine ⟨nofun, ?_⟩
              rintro (⟨hlt, -⟩ | ⟨-, _, ⟨⟩, -⟩)
              omega
          | ok c =>
              rw [Except.map, Except.ok.injEq]
              refine ⟨fun h => Or.inr ⟨Int.not_lt.1 hle, c, rfl, h.symm⟩, ?_⟩
              rintro (⟨hlt, -⟩ | ⟨-, _, ⟨⟩, rfl⟩)
              · omega
              · rfl

/-- What is read of a row begins at the second from which candles are wanted or later, and has finite
numbers only. -/
theorem readRow_some {start : Int} {fields : List String} {c : Candle}
    (h : readRow start fields = .ok (some c)) : start ≤ c.timestamp ∧ IsFinite c := by
  obtain ⟨timestamp, -, ⟨-, ⟨⟩⟩ | ⟨hle, _, hcandle, ⟨⟩⟩⟩ := readRow_eq_ok_iff.1 h
  obtain ⟨rfl, hfinite⟩ := rowCandle_ok hcandle
  exact ⟨hle, hfinite⟩

/-- **A row that is read from a second on is read from a later one, too.** What is read is the same,
unless it begins before the later second; then the row is passed over. -/
theorem readRow_later {start start' : Int} (hle : start ≤ start') {fields : List String}
    {c? : Option Candle} (h : readRow start fields = .ok c?) :
    readRow start' fields = .ok (c?.filter fun c => start' ≤ c.timestamp) := by
  obtain ⟨timestamp, htime, ⟨hlt, rfl⟩ | ⟨-, c, hcandle, rfl⟩⟩ := readRow_eq_ok_iff.1 h
  · exact readRow_eq_ok_iff.2 ⟨timestamp, htime, Or.inl ⟨Int.lt_of_lt_of_le hlt hle, rfl⟩⟩
  · obtain ⟨rfl, -⟩ := rowCandle_ok hcandle
    refine readRow_eq_ok_iff.2 ⟨c.timestamp, htime, ?_⟩
    rw [Option.filter_some]
    by_cases hlt : c.timestamp < start'
    · exact Or.inl ⟨hlt, if_neg (by simpa using hlt)⟩
    · exact Or.inr ⟨Int.not_lt.1 hlt, c, hcandle, if_pos (by simpa using hlt)⟩

/-- A row is read with the rows after it. -/
theorem readRows_ok_cons {start : Int} {n : Nat} {fields : List String}
    {rest : List (Except Csv.LengthError (List String))} {cs : List Candle} :
    readRows start n (.ok fields :: rest) = .ok cs ↔
      ∃ c? ds, readRow start fields = .ok c? ∧ readRows start (n + 1) rest = .ok ds ∧
        cs = c?.toList ++ ds := by
  rw [readRows]
  cases hrow : readRow start fields with
  | error e => exact ⟨nofun, fun ⟨_, _, h, _⟩ => nomatch h⟩
  | ok c? =>
      cases hrest : readRows start (n + 1) rest with
      | error e =>
          refine ⟨fun h => ?_, fun ⟨_, _, _, h, _⟩ => nomatch h⟩
          cases c? <;> cases h
      | ok ds =>
          cases c? with
          | none =>
              refine ⟨fun h => ⟨none, ds, rfl, rfl, (Except.ok.inj h).symm⟩, ?_⟩
              rintro ⟨_, _, ⟨⟩, ⟨⟩, rfl⟩
              rfl
          | some c =>
              refine ⟨fun h => ⟨some c, ds, rfl, rfl, (Except.ok.inj h).symm⟩, ?_⟩
              rintro ⟨_, _, ⟨⟩, ⟨⟩, rfl⟩
              rfl

/-- What is read of rows begins at the second from which candles are wanted or later, and has finite
numbers only. -/
theorem mem_of_readRows {start : Int} {n : Nat} {rows : List (Except Csv.LengthError (List String))}
    {cs : List Candle} (h : readRows start n rows = .ok cs) :
    ∀ c ∈ cs, start ≤ c.timestamp ∧ IsFinite c := by
  induction rows generalizing n cs with
  | nil =>
      cases h
      exact fun _ hc => absurd hc List.not_mem_nil
  | cons row rest ih =>
      cases row with
      | error e => cases h
      | ok fields =>
          obtain ⟨c?, ds, hrow, hrest, rfl⟩ := readRows_ok_cons.1 h
          refine List.forall_mem_append.2 ⟨fun c hc => ?_, ih hrest⟩
          obtain rfl := Option.mem_toList.1 hc
          exact readRow_some hrow

/-- **Rows that are read from a second on are read from a later one, too,** and what is read are those
candles that begin then or after it. -/
theorem readRows_later {start start' : Int} (hle : start ≤ start') {n : Nat}
    {rows : List (Except Csv.LengthError (List String))} {cs : List Candle}
    (h : readRows start n rows = .ok cs) :
    readRows start' n rows = .ok (cs.filter fun c => start' ≤ c.timestamp) := by
  induction rows generalizing n cs with
  | nil =>
      cases h
      rfl
  | cons row rest ih =>
      cases row with
      | error e => cases h
      | ok fields =>
          obtain ⟨c?, ds, hrow, hrest, rfl⟩ := readRows_ok_cons.1 h
          refine readRows_ok_cons.2 ⟨_, _, readRow_later hle hrow, ih hrest, ?_⟩
          rw [List.filter_append, Option.toList_filter]

/-- Candles are read of a file if it can be read and its rows can, and they are sorted then. -/
theorem read_eq_ok_iff {files : Files} {directory key : String} {start : Int} {cs : List Candle} :
    read files directory key start = .ok cs ↔
      ∃ text ds, files (path directory key) = .ok text ∧
        readRows start 1 (Csv.rows text) = .ok ds ∧ cs = Candle.sortByTime ds := by
  rw [read]
  cases hfile : files (path directory key) with
  | error e => exact ⟨nofun, fun ⟨_, _, h, _⟩ => nomatch h⟩
  | ok text =>
      simp only [candles]
      cases hrows : readRows start 1 (Csv.rows text) with
      | error e =>
          refine ⟨nofun, ?_⟩
          rintro ⟨_, _, ⟨⟩, h, _⟩
          rw [hrows] at h
          cases h
      | ok ds =>
          refine ⟨fun h => ⟨text, ds, rfl, hrows, (Except.ok.inj h).symm⟩, ?_⟩
          rintro ⟨_, _, ⟨⟩, h, rfl⟩
          rw [hrows] at h
          cases h
          rfl

/-- **Files serve suffixes** of candles with finite numbers. -/
theorem servesSuffixes_read (files : Files) (directory key : String) :
    ServesSuffixes IsFinite (read files directory key) (source files directory key) := by
  have hmem {start : Int} {cs : List Candle} (h : read files directory key start = .ok cs) :
      ∀ c ∈ cs, start ≤ c.timestamp ∧ IsFinite c := by
    obtain ⟨text, ds, -, hrows, rfl⟩ := read_eq_ok_iff.1 h
    exact fun c hc => mem_of_readRows hrows c (List.mem_mergeSort.1 hc)
  have hordered {start : Int} {cs : List Candle} (h : read files directory key start = .ok cs) :
      cs.Pairwise fun c d => c.timestamp ≤ d.timestamp := by
    obtain ⟨text, ds, -, -, rfl⟩ := read_eq_ok_iff.1 h
    exact Candle.sortByTime_sorted ds
  refine ⟨hordered, fun h c hc => (hmem h c hc).1, fun h c hc => (hmem h c hc).2, ?_, ?_⟩
  · intro start start' cs hle h
    obtain ⟨text, ds, hfile, hrows, rfl⟩ := read_eq_ok_iff.1 h
    exact read_eq_ok_iff.2 ⟨text, _, hfile, readRows_later hle hrows, Candle.filter_sortByTime _ ds⟩
  · intro start cs h
    rw [source, h]
    change Except.ok (Feed.ofCandles cs) = _
    rw [Feed.ofCandles, Candle.sortByTime_of_sorted (hordered h)]

end CandleFile

/-! ### Databases -/

namespace Database

/-- The candles that a database has under a key. -/
def candlesUnder (d : Database) (key : String) : List Candle :=
  (d.tables.bind (·.candles.get? key)).getD []

/-- Whether the candles under each key are in the order of their times, no two of one time. -/
def IsOrdered (d : Database) : Prop :=
  ∀ key, (d.candlesUnder key).Pairwise fun c d => c.timestamp < d.timestamp

/-- What is fetched are the candles from a second on, if their prices are finite. -/
theorem fetchCandles_eq_ok_iff {d : Database} {key : String} {start : Int} {cs : List Candle} :
    d.fetchCandles key start = .ok cs ↔
      d.tables.isSome = true ∧ cs = (d.candlesUnder key).filter (fun c => start ≤ c.timestamp) ∧
        ∀ c ∈ cs, c.hasFinitePrices = true := by
  rw [fetchCandles, candlesUnder, required]
  cases d.tables with
  | none =>
      constructor
      · intro h
        cases h
      · rintro ⟨h, -⟩
        cases h
  | some t =>
      simp only [bind, Except.bind, Option.bind_some, Option.isSome_some, true_and]
      generalize List.filter _ _ = found
      split
      · next c hfind =>
          constructor
          · intro h
            cases h
          · rintro ⟨rfl, hfinite⟩
            have hc := hfinite c (List.mem_of_find?_eq_some hfind)
            have := List.find?_some hfind
            rw [hc] at this
            cases this
      · next hfind =>
          rw [Except.ok.injEq]
          refine ⟨?_, fun h => h.1.symm⟩
          rintro rfl
          exact ⟨rfl, fun c hc => by simpa using List.find?_eq_none.1 hfind c hc⟩

/-! ### The order of the candles -/

/-- A candle is put among others, in place of one of the same time. -/
theorem mem_insertCandle {c e : Candle} {cs : List Candle} (h : e ∈ insertCandle c cs) :
    e = c ∨ e ∈ cs := by
  induction cs with
  | nil => exact Or.inl (List.mem_singleton.1 h)
  | cons d ds ih =>
      rw [insertCandle] at h
      split at h
      · exact List.mem_cons.1 h
      split at h
      · exact (List.mem_cons.1 h).imp_right (List.mem_cons_of_mem d)
      · rcases List.mem_cons.1 h with rfl | h
        · exact Or.inr List.mem_cons_self
        · exact (ih h).imp_right (List.mem_cons_of_mem d)

/-- A candle is put at its place. -/
theorem sorted_insertCandle {c : Candle} {cs : List Candle}
    (h : cs.Pairwise fun c d => c.timestamp < d.timestamp) :
    (insertCandle c cs).Pairwise fun c d => c.timestamp < d.timestamp := by
  induction cs with
  | nil => exact List.pairwise_singleton _ c
  | cons d ds ih =>
      obtain ⟨hd, hds⟩ := List.pairwise_cons.1 h
      rw [insertCandle]
      split
      · next hlt =>
          exact List.pairwise_cons.2
            ⟨List.forall_mem_cons.2 ⟨hlt, fun e he => Int.lt_trans hlt (hd e he)⟩, h⟩
      · next hle =>
          split
          · next heq => exact List.pairwise_cons.2 ⟨fun e he => heq ▸ hd e he, hds⟩
          · next hne =>
              refine List.pairwise_cons.2 ⟨fun e he => ?_, ih hds⟩
              rcases mem_insertCandle he with rfl | he
              · omega
              · exact hd e he

/-- Candles are put one by one, each at its place. -/
theorem sorted_foldl_insertCandle (new : List Candle) {cs : List Candle}
    (h : cs.Pairwise fun c d => c.timestamp < d.timestamp) :
    (new.foldl (fun cs c => insertCandle c cs) cs).Pairwise
      fun c d => c.timestamp < d.timestamp := by
  induction new generalizing cs with
  | nil => exact h
  | cons c new ih => exact ih (sorted_insertCandle h)

/-- A database without tables has no candles. -/
theorem isOrdered_blank : blank.IsOrdered :=
  fun _ => List.Pairwise.nil

/-- Making the tables adds no candles. -/
theorem IsOrdered.withTables {d : Database} (h : d.IsOrdered) : d.withTables.IsOrdered := by
  intro key
  have hkey := h key
  rw [candlesUnder] at hkey ⊢
  rw [Database.withTables]
  cases hd : d.tables with
  | none => exact List.Pairwise.nil
  | some t =>
      rw [hd] at hkey
      exact hkey

/-- Saving predictions leaves the candles as they are. -/
theorem IsOrdered.save {d d' : Database} {ps : Keyed Prediction} (h : d.IsOrdered)
    (hsave : d.save ps = .ok d') : d'.IsOrdered := by
  rcases save_eq_ok_iff.1 hsave with ⟨-, rfl⟩ | ⟨-, t, ht, -, rfl⟩
  · exact h
  · intro key
    have hkey := h key
    rw [candlesUnder, ht] at hkey
    exact hkey

/-- **New candles are kept in their places,** among those that are kept already. -/
theorem IsOrdered.insertCandles {d d' : Database} {key : String} {cs : List Candle}
    (h : d.IsOrdered) (hinsert : d.insertCandles key cs = .ok d') : d'.IsOrdered := by
  rw [Database.insertCandles, required] at hinsert
  split at hinsert
  · cases hinsert
    exact h
  · cases htables : d.tables with
    | none =>
        rw [htables] at hinsert
        cases hinsert
    | some t =>
        rw [htables] at hinsert
        simp only [bind, Except.bind] at hinsert
        split at hinsert
        · cases hinsert
        · next kept hkept =>
            cases hinsert
            intro other
            have hother (name : String) : ((t.candles.get? name).getD []).Pairwise
                fun c d => c.timestamp < d.timestamp := by
              have := h name
              rwa [candlesUnder, htables] at this
            rw [candlesUnder, Option.bind_some, Keyed.get?_insert]
            split
            · exact sorted_foldl_insertCandle kept (hother key)
            · exact hother other

/-- A database that is read from its text has its candles in order, whatever the order in the text. -/
theorem isOrdered_ofImage? {text : String} {d : Database} (h : ofImage? text = some d) :
    d.IsOrdered := by
  rw [ofImage?] at h
  split at h
  · cases h
    exact isOrdered_blank
  · obtain ⟨t, ht, rfl⟩ := Option.map_eq_some_iff.1 h
    obtain ⟨j, -, ht⟩ := Option.bind_eq_some_iff.1 ht
    obtain ⟨f, -, ht⟩ := Option.bind_eq_some_iff.1 ht
    obtain ⟨rows, -, ht⟩ := Option.bind_eq_some_iff.1 ht
    obtain ⟨candles, -, ht⟩ := Option.bind_eq_some_iff.1 ht
    cases ht
    intro key
    rw [candlesUnder, Option.bind_some, Keyed.get?_map]
    cases candles.get? key with
    | none => exact List.Pairwise.nil
    | some cs => exact sorted_foldl_insertCandle cs List.Pairwise.nil

/-- **A database serves suffixes** of candles with finite prices. -/
theorem IsOrdered.servesSuffixes {d : Database} (h : d.IsOrdered) (key : String) :
    ServesSuffixes (·.hasFinitePrices = true) (d.fetchCandles key) (d.source key) := by
  have hordered {start : Int} {cs : List Candle} (hfetch : d.fetchCandles key start = .ok cs) :
      cs.Pairwise fun c d => c.timestamp ≤ d.timestamp := by
    obtain ⟨-, rfl, -⟩ := fetchCandles_eq_ok_iff.1 hfetch
    exact ((h key).filter _).imp Int.le_of_lt
  refine ⟨hordered, ?_, fun hfetch => (fetchCandles_eq_ok_iff.1 hfetch).2.2, ?_, ?_⟩
  · intro start cs hfetch c hc
    obtain ⟨-, rfl, -⟩ := fetchCandles_eq_ok_iff.1 hfetch
    exact of_decide_eq_true (List.mem_filter.1 hc).2
  · intro start start' cs hle hfetch
    obtain ⟨htables, rfl, hfinite⟩ := fetchCandles_eq_ok_iff.1 hfetch
    refine fetchCandles_eq_ok_iff.2 ⟨htables, ?_, fun c hc => hfinite c (List.mem_filter.1 hc).1⟩
    rw [List.filter_filter]
    refine List.filter_congr fun c _ => ?_
    rw [← Bool.decide_and, decide_eq_decide]
    omega
  · intro start cs hfetch
    rw [source, hfetch]
    change Except.ok (Feed.ofCandles cs) = _
    rw [Feed.ofCandles, Candle.sortByTime_of_sorted (hordered hfetch)]

end Database

/-- **Files and databases serve suffixes.** -/
theorem sources_serve_suffixes :
    (∀ (files : CandleFile.Files) (directory key : String),
      ServesSuffixes CandleFile.IsFinite (CandleFile.read files directory key)
        (CandleFile.source files directory key)) ∧
      ∀ d : Database, d.IsOrdered → ∀ key,
        ServesSuffixes (·.hasFinitePrices = true) (d.fetchCandles key) (d.source key) :=
  ⟨CandleFile.servesSuffixes_read, fun _ h key => h.servesSuffixes key⟩

/-- A file whose rows are not in order. Two are of one time, and the earliest has nothing but that. -/
def shuffledFile : String :=
  "time,open,high,low,close,volume\n120,4,4,4,4,9\n60,2,2,2,2,-\n1970-01-01T00:02:00Z,3,3,3,3,9\n0,,,,,"

/-- The candles of the file that are complete. -/
def shuffledCandles : List Candle :=
  [⟨120, 4, 4, 4, 4, 9⟩, ⟨60, 2, 2, 2, 2, 0⟩, ⟨120, 3, 3, 3, 3, 9⟩]

/-- The file serves all these candles, and a database that has kept them the last of each time. -/
theorem sources_serve_suffixes_shuffled :
    (CandleFile.read (fun _ => .ok shuffledFile) "" "COIN:X:Y" 60 =
        .ok [⟨60, 2, 2, 2, 2, 0⟩, ⟨120, 4, 4, 4, 4, 9⟩, ⟨120, 3, 3, 3, 3, 9⟩] ∧
      CandleFile.read (fun _ => .ok shuffledFile) "" "COIN:X:Y" 61 =
        .ok [⟨120, 4, 4, 4, 4, 9⟩, ⟨120, 3, 3, 3, 3, 9⟩]) ∧
      ∃ d, Database.blank.withTables.insertCandles "COIN:X:Y" shuffledCandles = .ok d ∧
        d.fetchCandles "COIN:X:Y" 60 = .ok [⟨60, 2, 2, 2, 2, 0⟩, ⟨120, 3, 3, 3, 3, 9⟩] ∧
        d.fetchCandles "COIN:X:Y" 61 = .ok [⟨120, 3, 3, 3, 3, 9⟩] := by
  have hrows : CandleFile.readRows 60 1 (Csv.rows shuffledFile) = .ok shuffledCandles := by
    with_unfolding_all rfl
  have hsort : [⟨60, 2, 2, 2, 2, 0⟩, ⟨120, 4, 4, 4, 4, 9⟩, ⟨120, 3, 3, 3, 3, 9⟩] =
      Candle.sortByTime shuffledCandles := by
    simp [Candle.sortByTime, shuffledCandles, List.mergeSort]
  have hread : CandleFile.read (fun _ => .ok shuffledFile) "" "COIN:X:Y" 60 = .ok _ :=
    CandleFile.read_eq_ok_iff.2 ⟨_, _, rfl, hrows, hsort⟩
  have hinsert : Database.blank.withTables.insertCandles "COIN:X:Y" shuffledCandles =
      .ok ⟨some ⟨.empty, Keyed.empty.insert "COIN:X:Y"
        [⟨60, 2, 2, 2, 2, 0⟩, ⟨120, 3, 3, 3, 3, 9⟩]⟩⟩ := by
    with_unfolding_all rfl
  have hordered := Database.isOrdered_blank.withTables.insertCandles hinsert
  refine ⟨⟨hread, (sources_serve_suffixes.1 _ _ _).later (by decide) hread⟩, _, hinsert, ?_⟩
  refine and_iff_left_of_imp (fun hfetch => ?_) |>.2 ?_
  · exact (sources_serve_suffixes.2 _ hordered _).later (by decide) hfetch
  · exact Database.fetchCandles_eq_ok_iff.2 ⟨rfl, rfl, by decide +kernel⟩

end Forecast
