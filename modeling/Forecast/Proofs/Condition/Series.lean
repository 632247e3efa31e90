import Mathlib.Data.List.Basic
import Forecast.Proofs.Condition.Feeding

/-!
# A Series of Tick Sets

What becomes of a condition that is fed several sets of ticks in turn. A condition that is not
finished after a series was not finished at any time before, and remembers the last set exactly
(`remembers_of_feed`). So to feed this set once more changes nothing (`feed_again`): a condition
that resumes with the set it has seen last goes on as if it had never been interrupted.
-/

namespace Forecast

namespace Condition

variable {α : Type} [Quantity α]

/-- Feeds tick sets in turn, up to the first that is refused. -/
def feedEach (c : Condition α) (zs : List (TickSet α)) : Except FeedError (Condition α) :=
  zs.foldlM feed c

/-- Nothing comes of no ticks. -/
@[simp] theorem feedEach_nil (c : Condition α) : c.feedEach [] = .ok c := rfl

/-- A series goes through if its first set is accepted and the others go through afterwards. -/
theorem feedEach_cons_eq_ok_iff {c e : Condition α} {z : TickSet α} {zs : List (TickSet α)} :
    c.feedEach (z :: zs) = .ok e ↔ ∃ d, c.feed z = .ok d ∧ d.feedEach zs = .ok e := by
  rw [feedEach, List.foldlM_cons]
  cases hz : c.feed z with
  | error err => exact ⟨nofun, fun ⟨d, hd, _⟩ => nomatch hd⟩
  | ok d =>
      refine ⟨fun h => ⟨d, rfl, h⟩, ?_⟩
      rintro ⟨d', hd', h⟩
      cases hd'
      exact h

/-- A series goes through if its first part does and the second does afterwards. -/
theorem feedEach_append_eq_ok_iff {c e : Condition α} {zs ws : List (TickSet α)} :
    c.feedEach (zs ++ ws) = .ok e ↔ ∃ d, c.feedEach zs = .ok d ∧ d.feedEach ws = .ok e := by
  induction zs generalizing c with
  | nil =>
      refine ⟨fun h => ⟨c, rfl, h⟩, ?_⟩
      rintro ⟨d, hd, h⟩
      cases hd
      exact h
  | cons z zs ih =>
      rw [List.cons_append, feedEach_cons_eq_ok_iff]
      constructor
      · rintro ⟨d, hd, h⟩
        obtain ⟨d', hd', h'⟩ := ih.1 h
        exact ⟨d', feedEach_cons_eq_ok_iff.2 ⟨d, hd, hd'⟩, h'⟩
      · rintro ⟨d', hd', h'⟩
        obtain ⟨d, hd, h⟩ := feedEach_cons_eq_ok_iff.1 hd'
        exact ⟨d, hd, ih.2 ⟨d', h, h'⟩⟩

/-- A series of one set is the set. -/
theorem feedEach_singleton (c : Condition α) (z : TickSet α) : c.feedEach [z] = c.feed z := by
  rw [feedEach, List.foldlM_cons]
  cases c.feed z <;> rfl

/-- The first part of a series that is one set long is its first set. -/
theorem feedEach_take_one (c : Condition α) (z : TickSet α) (zs : List (TickSet α)) :
    c.feedEach ((z :: zs).take 1) = c.feed z := by
  rw [List.take_succ_cons, List.take_zero, feedEach_singleton]

/-- What a series makes of a condition is a later stage of it. -/
theorem continues_of_feedEach {c d : Condition α} {zs : List (TickSet α)}
    (h : c.feedEach zs = .ok d) : c.Continues d := by
  induction zs generalizing c with
  | nil =>
      cases h
      exact .refl d
  | cons z zs ih =>
      obtain ⟨e, he, hd⟩ := feedEach_cons_eq_ok_iff.1 h
      exact (continues_of_feed he).trans (ih hd)

/-- A series of ticks up to a second leaves no trace later than that second. -/
theorem lastTs_le_of_feedEach {c d : Condition α} {zs : List (TickSet α)} {now : Int}
    (hnow : ∀ z ∈ zs, ∀ t ∈ z.values, t.timestamp ≤ now) (h : c.feedEach zs = .ok d) :
    d.state.lastTs ≤ max c.state.lastTs now := by
  induction zs generalizing c with
  | nil =>
      cases h
      exact Int.le_max_left _ _
  | cons z zs ih =>
      obtain ⟨e, he, hd⟩ := feedEach_cons_eq_ok_iff.1 h
      obtain ⟨hz, hzs⟩ := List.forall_mem_cons.1 hnow
      have hfirst := lastTs_le_of_feed hz he
      have hrest := ih hzs hd
      omega

/-- A series of sets that change nothing changes nothing. -/
theorem feedEach_of_idle {c : Condition α} {zs : List (TickSet α)}
    (h : ∀ z ∈ zs, c.feed z = .ok c) : c.feedEach zs = .ok c := by
  induction zs with
  | nil => rfl
  | cons z zs ih =>
      obtain ⟨hz, hzs⟩ := List.forall_mem_cons.1 h
      exact feedEach_cons_eq_ok_iff.2 ⟨c, hz, ih hzs⟩

/-- What a longer series makes of a condition is a later stage of what a first part of it does. -/
theorem continues_of_isPrefix {c d e : Condition α} {zs ws : List (TickSet α)} (h : zs <+: ws)
    (hd : c.feedEach zs = .ok d) (he : c.feedEach ws = .ok e) : d.Continues e := by
  obtain ⟨vs, rfl⟩ := h
  obtain ⟨d', hd', he'⟩ := feedEach_append_eq_ok_iff.1 he
  rw [hd] at hd'
  cases hd'
  exact continues_of_feedEach he'

/-- A set that changes nothing may be left out at the beginning of a series. -/
theorem feedEach_cons_of_idle {c : Condition α} {z : TickSet α} (h : c.feed z = .ok c)
    (zs : List (TickSet α)) : c.feedEach (z :: zs) = c.feedEach zs := by
  rw [feedEach, List.foldlM_cons, h]
  rfl

/-- A finished condition lets everything pass. -/
theorem feedEach_of_finished {c : Condition α} (h : c.isFinished = true)
    (zs : List (TickSet α)) : c.feedEach zs = .ok c :=
  feedEach_of_idle fun z _ => by rw [feed, if_pos h]

/-! ### The last set of a series -/

/-- What a condition remembers of a set of ticks from its window on that did not finish it: the set,
at its time. -/
theorem remembers_of_feed {c d : Condition α} {z : TickSet α} (h : c.feed z = .ok d)
    (hfrom : ∀ t ∈ z.values, c.fromTs ≤ t.timestamp) (hopen : d.isFinished = false) :
    ∃ ts, c.accepts z = .ok ts ∧ c.fromTs ≤ ts ∧ ts ≤ c.toTs ∧ c.holdsAt z = false ∧
      d = { c with state := ⟨.started, ts, z, c.value⟩ } := by
  rcases feed_eq_ok_iff.1 h with ⟨hfin, rfl⟩ | ⟨-, ts, hacc, rfl⟩
  · rw [hopen] at hfin
    cases hfin
  · obtain ⟨hne, hts, -, -⟩ := accepts_eq_ok_iff.1 hacc
    obtain ⟨t, ht⟩ := List.exists_mem_of_ne_nil _ hne
    have hle : c.fromTs ≤ ts := hts t ht ▸ hfrom t ht
    refine ⟨ts, hacc, hle, ?_⟩
    rw [isFinished, advance, if_neg (Int.not_lt.2 hle)] at hopen
    rw [advance, if_neg (Int.not_lt.2 hle)]
    split at hopen
    · cases hopen
    split at hopen
    · cases hopen
    · next hto hholds =>
        rw [if_neg hto, if_neg hholds]
        exact ⟨Int.not_lt.1 hto, Bool.eq_false_iff.2 hholds, rfl⟩

/-- **To feed a set once more changes nothing,** if it did not finish the condition. -/
theorem feed_again {c d : Condition α} {z : TickSet α} (h : c.feed z = .ok d)
    (hfrom : ∀ t ∈ z.values, c.fromTs ≤ t.timestamp) (hopen : d.isFinished = false) :
    d.feed z = .ok d := by
  obtain ⟨ts, hacc, hle, hto, hholds, rfl⟩ := remembers_of_feed h hfrom hopen
  obtain ⟨hne, hts, hall, -⟩ := accepts_eq_ok_iff.1 hacc
  refine feed_eq_ok_iff.2 (Or.inr ⟨hopen, ts, ?_, ?_⟩)
  · exact accepts_eq_ok_iff.2 ⟨hne, hts, hall, Int.le_refl _⟩
  · rw [advance, if_neg (by exact Int.not_lt.2 hle), if_neg (by exact Int.not_lt.2 hto),
      if_neg (by exact Bool.eq_false_iff.1 hholds)]

end Condition

end Forecast
