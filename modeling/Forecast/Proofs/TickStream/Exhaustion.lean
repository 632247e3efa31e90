import Forecast.TickStream

/-!
# What a Stream Has Left

A candle is four ticks, and a stream that has been opened on a feed yields no tick of anything else.
So what it may still yield is bounded by the candles that are left in its feed, and by the ticks of
the candle that it is at (`TickStream.ticksLeft`). Candles behind the end of a feed do not count, as
an exhausted stream stays so.

Asking a stream never adds to what it has left, and each tick that it yields takes one away
(`next_ticksLeft`).
-/

namespace Forecast

/-- How many candles a feed delivers before it is exhausted. -/
def Feed.candles : Feed → Nat
  | [] => 0
  | .ok _ :: feed => candles feed + 1
  | .error (.exhausted _) :: _ => 0
  | .error _ :: feed => candles feed

namespace TickStream

/-- How many ticks a stream has left at most. -/
def ticksLeft (s : TickStream) : Nat :=
  if s.exhausted then 0 else s.buffer.length + 4 * s.feed.candles

/-- How many ticks an answer of a stream is. -/
def yielded : Except MarketError (Tick Price) → Nat
  | .ok _ => 1
  | .error _ => 0

/-- A stream that is exhausted has nothing left. -/
theorem ticksLeft_of_exhausted {s : TickStream} (h : s.exhausted = true) : s.ticksLeft = 0 := by
  rw [ticksLeft, if_pos h]

/-- A stream has no more left than what it has not looked at. -/
theorem ticksLeft_le (s : TickStream) :
    s.ticksLeft ≤ s.buffer.length + 4 * s.feed.candles := by
  rw [ticksLeft]
  split
  · exact Nat.zero_le _
  · exact Nat.le_refl _

/-- A stream that has just been opened may yield four ticks for each candle of its feed. -/
theorem ticksLeft_ofFeed (key : String) (feed : Feed) (interval start now : Int) :
    (ofFeed key feed interval start now).ticksLeft = 4 * Feed.candles feed := by
  simp [ofFeed, ticksLeft]

/-- A tick that is found is not left behind. -/
theorem length_lt_of_search {s : TickStream} {ts rest : List (Tick Price)} {t : Tick Price}
    (h : s.search ts = .tick t rest) : rest.length < ts.length := by
  induction ts with
  | nil => cases h
  | cons u us ih =>
      rw [search] at h
      split at h
      · cases h
      split at h
      · exact Nat.lt_succ_of_lt (ih h)
      · cases h
        exact Nat.lt_succ_self _

/-- A stream that is finished has nothing left, and yields nothing. -/
theorem finish_ticksLeft (s : TickStream) (feed : Feed) :
    (s.finish feed).2.ticksLeft + yielded (s.finish feed).1 = 0 := by
  rw [finish, ticksLeft_of_exhausted rfl, yielded]

/-- Drawing takes from the candles of a feed what it yields and what it leaves behind. -/
theorem draw_ticksLeft (s : TickStream) (feed : Feed) :
    (s.draw feed).2.ticksLeft + yielded (s.draw feed).1 ≤ 4 * Feed.candles feed := by
  induction feed with
  | nil => exact Nat.le_of_eq (s.finish_ticksLeft [])
  | cons e feed ih =>
      have hfailed (e : MarketError) :
          ticksLeft { s with buffer := [], feed := feed } + yielded (.error e) ≤
            4 * Feed.candles feed := by
        have hle := ticksLeft_le { s with buffer := [], feed := feed }
        simp only [List.length_nil, yielded] at hle ⊢
        omega
      cases e with
      | error e =>
          cases e with
          | exhausted last =>
              exact Nat.le_trans (Nat.le_of_eq (s.finish_ticksLeft feed)) (Nat.zero_le _)
          | unsupportedOperand key => exact hfailed _
          | unsupportedProvider provider key => exact hfailed _
          | sourceFailed key reason => exact hfailed _
      | ok c =>
          rw [Feed.candles, draw]
          split
          · split
            next t buffer hsearch =>
              have hlt := length_lt_of_search hsearch
              have hle := ticksLeft_le (s.yielding t buffer feed).2
              rw [Candle.length_ticks] at hlt
              simp only [yielding, yielded] at hle ⊢
              omega
            next =>
              rw [finish_ticksLeft]
              exact Nat.zero_le _
            next => omega
          · exact Nat.le_trans (hfailed _) (Nat.mul_le_mul_left 4 (Nat.le_succ _))

/-- **Each tick that a stream yields is one less that it has left.** -/
theorem next_ticksLeft (s : TickStream) :
    s.next.2.ticksLeft + yielded s.next.1 ≤ s.ticksLeft := by
  rw [next]
  split
  · exact Nat.le_refl _
  · next hopen =>
      rw [ticksLeft.eq_def s, if_neg hopen]
      split
      next t buffer hsearch =>
        have hlt := length_lt_of_search hsearch
        have hle := ticksLeft_le (s.yielding t buffer s.feed).2
        simp only [yielding, yielded] at hle ⊢
        omega
      next =>
        rw [finish_ticksLeft]
        exact Nat.zero_le _
      next => exact Nat.le_trans (s.draw_ticksLeft s.feed) (Nat.le_add_left _ _)

end TickStream

end Forecast
