import Forecast.Condition
import Forecast.Proofs.Clause.Information

/-!
# What Feeding Does to a Condition

A set of ticks is accepted exactly when it is not empty, of one time, complete, and no older than
the last one (`accepts_eq_ok_iff`). What a condition becomes by it is then one of two things: a
finished condition stays, any other takes over the progress that `Condition.advance` says
(`feed_eq_ok_iff`). All that is proved of feeding is derived from these two facts.

A condition is *consistent* if it is settled exactly when it is finished. Conditions begin
consistent and feeding keeps them so. `Condition.Continues` collects what is true between a
condition and any later stage of it.
-/

namespace Forecast

namespace Condition

variable {α : Type}

/-! ### Acceptance -/

/-- A tick set is accepted at a time if it has ticks, all of them are of that time, no quoted
operand lacks one, and the time is no earlier than that of the last set. -/
theorem accepts_eq_ok_iff {c : Condition α} {ticks : TickSet α} {ts : Int} :
    c.accepts ticks = .ok ts ↔
      ticks.values ≠ [] ∧ (∀ t ∈ ticks.values, t.timestamp = ts) ∧
        (∀ i ∈ c.instruments, ticks.contains i.key = true) ∧ c.state.lastTs ≤ ts := by
  rw [accepts]
  cases hv : ticks.values with
  | nil => simp
  | cons t rest =>
      dsimp only
      by_cases hmixed : rest.any (·.timestamp != t.timestamp) = true
      · obtain ⟨u, hu, hne⟩ := List.any_eq_true.1 hmixed
        rw [if_pos hmixed]
        refine ⟨nofun, fun ⟨_, hall, _⟩ => ?_⟩
        have hut : u.timestamp = t.timestamp :=
          (hall u (List.mem_cons_of_mem _ hu)).trans (hall t List.mem_cons_self).symm
        exact absurd hut (bne_iff_ne.1 hne)
      · have hsame : ∀ u ∈ rest, u.timestamp = t.timestamp := by
          intro u hu
          by_contra hne
          exact hmixed (List.any_eq_true.2 ⟨u, hu, bne_iff_ne.2 hne⟩)
        rw [if_neg hmixed]
        cases hf : c.instruments.find? (fun i => !ticks.contains i.key) with
        | some i =>
            have hi := List.find?_some hf
            have hmem := List.mem_of_find?_eq_some hf
            refine ⟨nofun, fun ⟨_, _, hall, _⟩ => ?_⟩
            rw [hall i hmem] at hi
            cases hi
        | none =>
            have hall : ∀ i ∈ c.instruments, ticks.contains i.key = true := by
              simpa using hf
            by_cases hstale : t.timestamp < c.state.lastTs
            · simp only [hstale, if_true]
              refine ⟨nofun, fun ⟨_, hts, _, hle⟩ => ?_⟩
              have := hts t List.mem_cons_self
              omega
            · simp only [hstale, if_false, Except.ok.injEq]
              constructor
              · rintro rfl
                refine ⟨List.cons_ne_nil _ _, ?_, hall, by omega⟩
                exact List.forall_mem_cons.2 ⟨rfl, hsame⟩
              · rintro ⟨_, hts, _, _⟩
                exact hts t List.mem_cons_self

variable [Quantity α]

/-- What feeding makes of a condition: a finished one stays, any other accepts the ticks at some
time and advances. -/
theorem feed_eq_ok_iff {c d : Condition α} {ticks : TickSet α} :
    c.feed ticks = .ok d ↔
      (c.isFinished = true ∧ d = c) ∨
        (c.isFinished = false ∧
          ∃ ts, c.accepts ticks = .ok ts ∧ d = { c with state := c.advance ts ticks }) := by
  rw [feed]
  cases hfin : c.isFinished with
  | true => simp [eq_comm]
  | false =>
      cases hacc : c.accepts ticks with
      | error e => simp [Except.map]
      | ok ts => simp [Except.map, eq_comm]

/-! ### Stages of a condition -/

omit [Quantity α] in
/-- Whether a condition is settled exactly when it is finished. -/
def IsConsistent (c : Condition α) : Prop :=
  c.value.isDecided = c.isFinished

omit [Quantity α] in
instance (c : Condition α) : Decidable c.IsConsistent :=
  inferInstanceAs (Decidable (_ = _))

/-- What is true between a condition and a later stage of it. -/
structure Continues (c d : Condition α) : Prop where
  /-- Nothing but the progress changes. -/
  frame : d = { c with state := d.state }
  consistent : c.IsConsistent → d.IsConsistent
  /-- Once finished, the condition is as it was. -/
  finished : c.isFinished = true → d = c
  lastTs : c.state.lastTs ≤ d.state.lastTs

omit [Quantity α] in
/-- Every condition is a stage of itself. -/
theorem Continues.refl (c : Condition α) : c.Continues c :=
  ⟨rfl, id, fun _ => rfl, Int.le_refl _⟩

omit [Quantity α] in
/-- A later stage of a later stage is a later stage. -/
theorem Continues.trans {b c d : Condition α} (hbc : b.Continues c) (hcd : c.Continues d) :
    b.Continues d where
  frame := by
    calc d = { c with state := d.state } := hcd.frame
      _ = { b with state := d.state } := by rw [hbc.frame]
  consistent := fun hb => hcd.consistent (hbc.consistent hb)
  finished := fun hb => by
    obtain rfl := hbc.finished hb
    exact hcd.finished hb
  lastTs := Int.le_trans hbc.lastTs hcd.lastTs

/-- A condition that is not finished and advances stays consistent. -/
theorem isConsistent_advance {c : Condition α} (hc : c.IsConsistent)
    (hfin : c.isFinished = false) (ts : Int) (ticks : TickSet α) :
    IsConsistent { c with state := c.advance ts ticks } := by
  have hopen : c.value.isDecided = false := by rw [hc, hfin]
  rw [advance]
  split
  · exact hc
  split
  · rfl
  split
  · rfl
  · exact hopen

/-- Ticks are passed over, or the condition remembers them and their time. -/
theorem advance_cases (c : Condition α) (ts : Int) (ticks : TickSet α) :
    c.advance ts ticks = c.state ∨
      (c.advance ts ticks).lastTs = ts ∧ (c.advance ts ticks).lastTicks = ticks := by
  rw [advance]
  split
  · exact Or.inl rfl
  split
  · exact Or.inr ⟨rfl, rfl⟩
  split
  · exact Or.inr ⟨rfl, rfl⟩
  · exact Or.inr ⟨rfl, rfl⟩

/-- Advancing at an accepted time does not go back in time. -/
theorem lastTs_le_advance {c : Condition α} {ts : Int} (hle : c.state.lastTs ≤ ts)
    (ticks : TickSet α) : c.state.lastTs ≤ (c.advance ts ticks).lastTs := by
  rcases c.advance_cases ts ticks with h | ⟨h, -⟩
  · exact Int.le_of_eq (by rw [h])
  · rwa [h]

/-- Advancing stays between what was seen before and the time of the ticks. -/
theorem advance_lastTs_le (c : Condition α) (ts : Int) (ticks : TickSet α) :
    (c.advance ts ticks).lastTs ≤ max c.state.lastTs ts := by
  rcases c.advance_cases ts ticks with h | ⟨h, -⟩
  · rw [h]
    exact Int.le_max_left _ _
  · rw [h]
    exact Int.le_max_right _ _

/-- What a condition becomes by being fed is a later stage of it. -/
theorem continues_of_feed {c d : Condition α} {ticks : TickSet α} (h : c.feed ticks = .ok d) :
    c.Continues d := by
  rcases feed_eq_ok_iff.1 h with ⟨_, rfl⟩ | ⟨hfin, ts, hacc, rfl⟩
  · exact Continues.refl d
  · have hle : c.state.lastTs ≤ ts := (accepts_eq_ok_iff.1 hacc).2.2.2
    exact ⟨rfl, fun hc => isConsistent_advance hc hfin ts ticks,
      fun h => absurd (hfin.symm.trans h) Bool.false_ne_true, lastTs_le_advance hle ticks⟩

/-- What a condition remembers after it has been fed: what it did before, or the ticks, which are all of
the time that it has seen then. -/
theorem state_of_feed {c d : Condition α} {ticks : TickSet α} (h : c.feed ticks = .ok d) :
    d.state = c.state ∨
      d.state.lastTicks = ticks ∧ ticks.values ≠ [] ∧
        ∀ t ∈ ticks.values, t.timestamp = d.state.lastTs := by
  rcases feed_eq_ok_iff.1 h with ⟨-, rfl⟩ | ⟨-, ts, hacc, rfl⟩
  · exact Or.inl rfl
  · obtain ⟨hne, hts, -, -⟩ := accepts_eq_ok_iff.1 hacc
    rcases c.advance_cases ts ticks with h | ⟨hlast, hticks⟩
    · exact Or.inl h
    · exact Or.inr ⟨hticks, hne, fun t ht => (hts t ht).trans hlast.symm⟩

/-- Ticks up to a second leave no trace later than that second. -/
theorem lastTs_le_of_feed {c d : Condition α} {ticks : TickSet α} {now : Int}
    (hnow : ∀ t ∈ ticks.values, t.timestamp ≤ now) (h : c.feed ticks = .ok d) :
    d.state.lastTs ≤ max c.state.lastTs now := by
  rcases state_of_feed h with hstate | ⟨-, hne, hts⟩
  · rw [hstate]
    exact Int.le_max_left _ _
  · obtain ⟨t, ht⟩ := List.exists_mem_of_ne_nil _ hne
    rw [← hts t ht]
    exact Int.le_trans (hnow t ht) (Int.le_max_right _ _)

omit [Quantity α] in
/-- A settled value is not touched any more. -/
theorem Continues.value_settlesTo {c d : Condition α} (h : c.Continues d)
    (hc : c.IsConsistent) : c.value.SettlesTo d.value := by
  cases hfin : c.isFinished with
  | true => exact Or.inr (congrArg value (h.finished hfin)).symm
  | false =>
      refine Or.inl ?_
      have hopen : c.value.isDecided = false := hc.trans hfin
      cases hv : c.value with
      | undecided => rfl
      | yes => rw [hv] at hopen; cases hopen
      | no => rw [hv] at hopen; cases hopen

end Condition

end Forecast
