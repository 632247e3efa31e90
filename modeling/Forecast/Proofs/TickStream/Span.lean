import Mathlib.Data.List.Basic
import Forecast.TickStream

/-!
# The Span of a Tick Stream

A stream is asked for the ticks from one second to another. Whatever its feed delivers, in whatever
order and with whatever failures, every tick that it yields lies in that span, and the span itself
never changes.
-/

namespace Forecast

namespace TickStream

/-- A tick that is found lies in the span of the stream. -/
theorem search_tick {s : TickStream} {ts rest : List (Tick Price)} {t : Tick Price}
    (h : s.search ts = .tick t rest) : s.start ≤ t.timestamp ∧ t.timestamp ≤ s.now := by
  induction ts with
  | nil => cases h
  | cons u us ih =>
      rw [search] at h
      split at h
      · cases h
      split at h
      · exact ih h
      · next hend hskip =>
          obtain ⟨hstart, -⟩ := not_or.1 hskip
          cases h
          omega

/-- Drawing candles leaves the span as it is. -/
theorem draw_span (s : TickStream) (feed : Feed) :
    (s.draw feed).2.start = s.start ∧ (s.draw feed).2.now = s.now := by
  induction feed with
  | nil => exact ⟨rfl, rfl⟩
  | cons e feed ih =>
      cases e with
      | error e => cases e <;> exact ⟨rfl, rfl⟩
      | ok c =>
          rw [draw]
          split
          · split
            · exact ⟨rfl, rfl⟩
            · exact ⟨rfl, rfl⟩
            · exact ih
          · exact ⟨rfl, rfl⟩

/-- A tick that is drawn lies in the span of the stream. -/
theorem draw_tick {s : TickStream} {feed : Feed} {t : Tick Price}
    (h : (s.draw feed).1 = .ok t) : s.start ≤ t.timestamp ∧ t.timestamp ≤ s.now := by
  induction feed with
  | nil => cases h
  | cons e feed ih =>
      cases e with
      | error e => cases e <;> cases h
      | ok c =>
          rw [draw] at h
          split at h
          · split at h
            · next hfound =>
                cases h
                exact search_tick hfound
            · cases h
            · exact ih h
          · cases h

/-- The span of a stream never changes. -/
theorem next_span (s : TickStream) : s.next.2.start = s.start ∧ s.next.2.now = s.now := by
  rw [next]
  split
  · exact ⟨rfl, rfl⟩
  split
  · exact ⟨rfl, rfl⟩
  · exact ⟨rfl, rfl⟩
  · exact s.draw_span s.feed

/-- **Every tick that a stream yields lies in its span.** -/
theorem next_tick {s : TickStream} {t : Tick Price} (h : s.next.1 = .ok t) :
    s.start ≤ t.timestamp ∧ t.timestamp ≤ s.now := by
  rw [next] at h
  split at h
  · cases h
  split at h
  · next hfound =>
      cases h
      exact search_tick hfound
  · cases h
  · exact draw_tick h

end TickStream

end Forecast
