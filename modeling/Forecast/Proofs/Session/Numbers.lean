import Forecast.Proofs.Prediction.Numbers
import Forecast.Proofs.Session.Invariants

/-!
# Sessions Keep Predictions Proper

Whatever a market delivers, a condition is fed prices that are numbers only: a stream passes over no
price that is not finite without a failure, and shows none (`TickStream.keeps_numbers`). So a
session keeps its prediction proper, however it is drained (`Session.IsProper.drain`).
-/

namespace Forecast

/-! ### Streams -/

/-- The ticks of a candle with finite prices have finite prices. -/
theorem Candle.isFinite_of_mem_ticks {c : Candle} (h : c.hasFinitePrices = true) {interval : Int}
    {t : Tick Price} (ht : t ∈ c.ticks interval) : t.value.isFinite = true := by
  simp only [hasFinitePrices, Bool.and_eq_true] at h
  obtain ⟨⟨⟨hopened, hhigh⟩, hlow⟩, hclosed⟩ := h
  rw [ticks] at ht
  cases hbullish : c.isBullish with
  | true =>
      simp only [hbullish, if_true, List.mem_cons, List.not_mem_nil, or_false] at ht
      rcases ht with rfl | rfl | rfl | rfl
      · exact hopened
      · exact hlow
      · exact hhigh
      · exact hclosed
  | false =>
      simp only [hbullish, Bool.false_eq_true, if_false, List.mem_cons, List.not_mem_nil,
        or_false] at ht
      rcases ht with rfl | rfl | rfl | rfl
      · exact hopened
      · exact hhigh
      · exact hlow
      · exact hclosed

namespace TickStream

/-- Whether all ticks that a stream holds ready have prices that are numbers. -/
def HasNumbers (s : TickStream) : Prop :=
  ∀ t ∈ s.buffer, IsNumber t.value

/-- A search finds a tick of those it looks at, and leaves some of them. -/
theorem mem_of_search {s : TickStream} {ts rest : List (Tick Price)} {t : Tick Price}
    (h : s.search ts = .tick t rest) : t ∈ ts ∧ ∀ u ∈ rest, u ∈ ts := by
  induction ts with
  | nil => cases h
  | cons u us ih =>
      rw [search] at h
      split at h
      · cases h
      split at h
      · obtain ⟨ht, hrest⟩ := ih h
        exact ⟨List.mem_cons_of_mem _ ht, fun v hv => List.mem_cons_of_mem _ (hrest v hv)⟩
      · cases h
        exact ⟨List.mem_cons_self, fun v hv => List.mem_cons_of_mem _ hv⟩

section Prices

variable {R : Tick Price → Prop} (hR : ∀ t : Tick Price, t.value.isFinite = true → R t)

include hR

/-- Drawing candles yields and holds ready what can be said of finite prices. -/
theorem forall_draw (s : TickStream) (feed : Feed) :
    (∀ t ∈ (s.draw feed).2.buffer, R t) ∧ ∀ t, (s.draw feed).1 = .ok t → R t := by
  have hnone : ∀ t ∈ ([] : List (Tick Price)), R t := fun t ht => absurd ht List.not_mem_nil
  induction feed with
  | nil => exact ⟨hnone, fun t ht => by cases ht⟩
  | cons e feed ih =>
      cases e with
      | error e => cases e <;> exact ⟨hnone, fun t ht => by cases ht⟩
      | ok c =>
          rw [draw]
          split
          · next hfinite =>
              split
              · next hfound =>
                  obtain ⟨ht, hrest⟩ := mem_of_search hfound
                  have hprice {u : Tick Price} (hu : u ∈ c.ticks s.interval) : R u :=
                    hR u (Candle.isFinite_of_mem_ticks hfinite hu)
                  refine ⟨fun u hu => hprice (hrest u hu), fun u hu => ?_⟩
                  cases hu
                  exact hprice ht
              · exact ⟨hnone, fun t ht => by cases ht⟩
              · exact ih
          · exact ⟨hnone, fun t ht => by cases ht⟩

/-- **What can be said of finite prices is true of every price that a stream yields,** and of those
that it holds ready. -/
theorem keeps_prices : Session.Keeps (fun s => ∀ t ∈ s.buffer, R t) R := by
  have hboth {s : TickStream} (hs : ∀ t ∈ s.buffer, R t) :
      (∀ t ∈ s.next.2.buffer, R t) ∧ ∀ t, s.next.1 = .ok t → R t := by
    rw [next]
    split
    · exact ⟨hs, fun t ht => by cases ht⟩
    split
    · next hfound =>
        obtain ⟨ht, hrest⟩ := mem_of_search hfound
        refine ⟨fun u hu => hs u (hrest u hu), fun u hu => ?_⟩
        cases hu
        exact hs _ ht
    · exact ⟨fun t ht => absurd ht List.not_mem_nil, fun t ht => by cases ht⟩
    · exact forall_draw hR s s.feed
  exact ⟨fun hs => (hboth hs).1, fun hs => (hboth hs).2 _⟩

end Prices

/-- **Every price that a stream yields is a number,** and so are those that it holds ready. -/
theorem keeps_numbers : Session.Keeps HasNumbers (IsNumber ·.value) :=
  keeps_prices fun _ => isNumber_of_isFinite

end TickStream

namespace Session

/-! ### Sessions -/

/-- Whether a session has a proper prediction, and all its open streams hold numbers ready. -/
structure IsProper (s : Session) : Prop where
  prediction : s.prediction.IsProper
  streams : ∀ ss, some ss ∈ s.streams → ∀ stream ∈ ss, stream.HasNumbers

variable {m : Market} {s : Session}

theorem isProper_iff : s.IsProper ↔ s.Upholds Condition.IsProper TickStream.HasNumbers :=
  ⟨fun h => ⟨h.prediction, h.streams⟩, fun h => ⟨h.given, h.streams⟩⟩

/-- Conditions stay proper and streams hold numbers ready in every session. -/
theorem keeper_isProper (now : Int) :
    Keeper Condition.IsProper TickStream.HasNumbers (IsNumber ·.value) now where
  toKeeps := TickStream.keeps_numbers
  feed hc hz hfeed := hc.feed hz hfeed
  opened _ _ _ _ _ ht := absurd ht List.not_mem_nil

/-- Draining keeps a session proper. -/
theorem IsProper.drain (h : s.IsProper) (limit : Nat) : (s.drain m limit).1.IsProper :=
  isProper_iff.2 ((isProper_iff.1 h).drain (keeper_isProper s.now) limit)

/-- A session of a proper prediction begins proper. -/
theorem isProper_of_start {p : Prediction} {now : Int} (hp : p.IsProper)
    (h : Session.start m p now = .ok s) : s.IsProper :=
  isProper_iff.2 (upholds_of_start hp h)

end Session

end Forecast
