import Forecast.Market
import Forecast.Proofs.TickStream.Delivery

/-!
# Charts

A market serves charts (`Market.Serves`) if its source has candles under every key and delivers,
without failures and in order, those that begin at the second that it is asked for or later. Time is
divided into slots of the length of a candle. There is at most one candle to a slot, and it belongs
to the slot as a whole: all its ticks lie there. Candles that begin where a slot begins are of this
kind (`Candle.isSlotted_of_aligned`).

In such a market, what a stream delivers is a span of one list of ticks, whenever it is opened: all
ticks from its start to its end (`Serves.openStream`). A stream opened in the middle of a candle
misses none, since the source is asked for the whole slot.

Seconds are words, which makes a difference in the last slot and in the first. Ticks of the last
candle may have gone around, to the other end of time. No stream delivers them, since the candle
comes first, and so they do not count (`Candle.ticksAhead`). And what is said here of a stream
supposes that the slot in which it is opened begins at a word (`HasRoom`), as the slots of all seconds
of the calendar do (`hasRoom_of_firstWithRoom_le`).
-/

namespace Forecast

/-! ### Room for an interval -/

/-- Whether the interval that a second falls into begins at a word. -/
def HasRoom (interval second : Int) : Prop :=
  -9223372036854775808 ≤ second - second % interval

instance (interval second : Int) : Decidable (HasRoom interval second) :=
  Int.decLe _ _

/-- From this second on there is room for every interval. -/
def firstWithRoom : Int := -4611686018427387904

section Room

variable {interval : Int}

/-- A source is asked for the whole interval, or for more. -/
theorem HasRoom.intervalStart_le {second : Int} (h : HasRoom interval second) :
    intervalStart interval second ≤ second - second % interval :=
  Decimal.wrap_le h

/-- The beginning of the interval that a second falls into, by the number of the interval. -/
theorem sub_emod_eq (interval second : Int) :
    second - second % interval = interval * (second / interval) :=
  Int.sub_eq_iff_eq_add.2 (Int.mul_ediv_add_emod second interval).symm

/-- If there is room for the interval of a second, there is for those of all later ones. -/
theorem HasRoom.mono (hinterval : 0 < interval) {second second' : Int}
    (h : HasRoom interval second) (hle : second ≤ second') : HasRoom interval second' := by
  rw [HasRoom, sub_emod_eq] at *
  have := Int.mul_le_mul_of_nonneg_left (Int.ediv_le_ediv hinterval hle) (Int.le_of_lt hinterval)
  omega

/-- **There is room for every interval of a word** from some second on. -/
theorem hasRoom_of_firstWithRoom_le (hinterval : 0 < interval)
    (hword : Decimal.fitsWord interval = true) {second : Int} (h : firstWithRoom ≤ second) :
    HasRoom interval second := by
  rw [Decimal.fitsWord_iff] at hword
  refine HasRoom.mono hinterval ?_ h
  rw [HasRoom, firstWithRoom]
  have hlt := Int.emod_lt_of_pos (-4611686018427387904) hinterval
  by_cases hlong : 4611686018427387904 ≤ interval
  · -- the second falls into the interval before the second 0
    have hfirst : -1 ≤ -4611686018427387904 / interval :=
      (Int.le_ediv_iff_mul_le hinterval).2 (by omega)
    rw [sub_emod_eq]
    have := Int.mul_le_mul_of_nonneg_left hfirst (Int.le_of_lt hinterval)
    omega
  · omega

/-- Without room a source is asked for candles from the other end of time on. -/
theorem intervalStart_of_not_hasRoom (hinterval : 0 < interval)
    (hword : Decimal.fitsWord interval = true) {second : Int}
    (hfits : Decimal.fitsWord second = true) (h : ¬ HasRoom interval second) :
    intervalStart interval second = second - second % interval + 18446744073709551616 := by
  rw [Decimal.fitsWord_iff] at hword hfits
  rw [HasRoom] at h
  have := Int.emod_lt_of_pos second hinterval
  rw [intervalStart, Decimal.wrap, Int.bmod_def]
  split <;> omega

end Room

/-! ### Slots -/

/-- The slot of a second, among slots of the length of an interval. -/
def slotOf (interval second : Int) : Int :=
  second / interval

namespace Candle

/-- The ticks of a candle that are no earlier than the candle: all of them, but for those that have
gone around. -/
def ticksAhead (interval : Int) (c : Candle) : List (Tick Price) :=
  (c.ticks interval).filter fun t => c.timestamp ≤ t.timestamp

/-- Whether all ticks of a candle lie in the slot in which it begins. -/
def IsSlotted (interval : Int) (c : Candle) : Prop :=
  ∀ t ∈ c.ticksAhead interval, slotOf interval t.timestamp = slotOf interval c.timestamp

/-- Whether there is at most one candle to a slot, in order, and each lies in its slot. -/
structure AreSlotted (interval : Int) (cs : List Candle) : Prop where
  ordered : cs.Pairwise fun c d => slotOf interval c.timestamp < slotOf interval d.timestamp
  slotted : ∀ c ∈ cs, c.IsSlotted interval

/-- Whether a tick is no earlier than a candle, and less than all words later. -/
def IsNear (c : Candle) (t : Tick Price) : Prop :=
  c.timestamp ≤ t.timestamp ∧ t.timestamp < c.timestamp + 18446744073709551616

/-- The times of the ticks that are near their candle increase, by no more than a quarter of the
interval each. -/
theorem ticks_sorted {interval : Int} (hinterval : 0 < interval)
    (hword : Decimal.fitsWord interval = true) (c : Candle) :
    ((c.ticks interval).Pairwise fun t u =>
        c.IsNear t → c.IsNear u → t.timestamp < u.timestamp) ∧
      ∀ t ∈ c.ticks interval, c.IsNear t → t.timestamp ≤ c.timestamp + 3 * tickStep interval := by
  have hstep := one_le_tickStep interval
  have hbound : 4 * tickStep interval ≤ 9223372036854775807 := by
    rw [Decimal.fitsWord_iff] at hword
    rw [tickStep, Int.tdiv_eq_ediv_of_nonneg (Int.le_of_lt hinterval)]
    omega
  -- near the candle no time has gone around
  have hnear (n : Int) (hn : 0 ≤ n ∧ n ≤ 3 * tickStep interval) :
      c.timestamp ≤ Decimal.wrap (c.timestamp + n) →
        Decimal.wrap (c.timestamp + n) < c.timestamp + 18446744073709551616 →
          Decimal.wrap (c.timestamp + n) = c.timestamp + n :=
    Decimal.wrap_add_eq_self hn.1 (by omega)
  have hfirst := hnear (tickStep interval) (by omega)
  have hsecond := hnear (2 * tickStep interval) (by omega)
  have hthird := hnear (3 * tickStep interval) (by omega)
  rw [ticks]
  dsimp only
  constructor
  · simp only [List.pairwise_cons, List.mem_cons, List.not_mem_nil, or_false, forall_eq_or_imp,
      forall_eq, List.Pairwise.nil, IsEmpty.forall_iff, implies_true, and_true, IsNear]
    omega
  · simp only [List.mem_cons, List.not_mem_nil, or_false, forall_eq_or_imp, forall_eq, IsNear]
    omega

/-- The first tick of a candle is of the time of the candle. -/
theorem exists_ticks (interval : Int) (c : Candle) :
    ∃ t ts, c.ticks interval = t :: ts ∧ t.timestamp = c.timestamp :=
  ⟨_, _, rfl, rfl⟩

/-- All ticks of a candle are ahead if its last tick is at a word. -/
theorem ticksAhead_eq_ticks {interval : Int} {c : Candle}
    (hfirst : -9223372036854775808 ≤ c.timestamp)
    (hlast : c.timestamp + 3 * tickStep interval ≤ 9223372036854775807) :
    c.ticksAhead interval = c.ticks interval := by
  have hstep := one_le_tickStep interval
  have hheld (n : Int) (hn : 0 ≤ n ∧ n ≤ 3 * tickStep interval) :
      c.timestamp ≤ Decimal.wrap (c.timestamp + n) := by
    rw [Decimal.wrap_eq_self (Decimal.fitsWord_iff.2 (by omega))]
    omega
  refine List.filter_eq_self.2 ?_
  rw [ticks]
  simp only [List.forall_mem_cons, decide_eq_true_eq, Int.le_refl, true_and]
  exact ⟨hheld _ (by omega), hheld _ (by omega), hheld _ (by omega), List.forall_mem_nil _⟩

/-- A candle that begins at a word where a slot begins lies in it, if the slot has at least four
seconds. -/
theorem isSlotted_of_aligned {interval : Int} (hinterval : minInterval ≤ interval)
    (hword : Decimal.fitsWord interval = true) {c : Candle}
    (hfits : Decimal.fitsWord c.timestamp = true) (h : c.timestamp % interval = 0) :
    c.IsSlotted interval := by
  intro t ht
  obtain ⟨ht, hahead⟩ := List.mem_filter.1 ht
  rw [minInterval] at hinterval
  have hle := of_decide_eq_true hahead
  have hlt : t.timestamp < c.timestamp + 18446744073709551616 := by
    have hfits' := fitsWord_of_mem_ticks hfits t ht
    rw [Decimal.fitsWord_iff] at hfits hfits'
    omega
  have hnear := (ticks_sorted (by omega) hword c).2 t ht ⟨hle, hlt⟩
  have hquarter : 4 * tickStep interval ≤ interval := by
    rw [tickStep, Int.tdiv_eq_ediv_of_nonneg (by omega)]
    omega
  have hstep := one_le_tickStep interval
  obtain ⟨k, hk⟩ := Int.dvd_of_emod_eq_zero h
  obtain ⟨rest, hrest⟩ : ∃ rest, t.timestamp = rest + interval * k :=
    ⟨t.timestamp - interval * k, by omega⟩
  rw [slotOf, slotOf, hrest, hk, Int.add_mul_ediv_left rest k (by omega),
    Int.mul_ediv_cancel_left k (by omega), Int.ediv_eq_zero_of_lt (by omega) (by omega),
    Int.zero_add]

/-- Candles that begin at words where slots begin, one after the other, are one to a slot. -/
theorem areSlotted_of_aligned {interval : Int} (hinterval : minInterval ≤ interval)
    (hword : Decimal.fitsWord interval = true) {cs : List Candle}
    (hfits : ∀ c ∈ cs, Decimal.fitsWord c.timestamp = true)
    (haligned : ∀ c ∈ cs, c.timestamp % interval = 0)
    (hordered : cs.Pairwise fun c d => c.timestamp < d.timestamp) : AreSlotted interval cs where
  ordered := by
    refine hordered.imp_of_mem fun {c d} hc hd hlt => ?_
    rw [minInterval] at hinterval
    rw [slotOf, slotOf]
    refine Int.lt_of_mul_lt_mul_left (a := interval) ?_ (by omega)
    rwa [Int.mul_ediv_cancel_of_emod_eq_zero (haligned c hc),
      Int.mul_ediv_cancel_of_emod_eq_zero (haligned d hd)]
  slotted c hc := isSlotted_of_aligned hinterval hword (hfits c hc) (haligned c hc)

/-- Ticks of one slot are less than an interval apart. -/
theorem lt_of_slotOf_eq {interval second second' : Int} (hinterval : 0 < interval)
    (h : slotOf interval second = slotOf interval second') : second < second' + interval := by
  have hfirst := sub_emod_eq interval second
  have hsecond := sub_emod_eq interval second'
  rw [slotOf, slotOf] at h
  rw [h] at hfirst
  have := Int.emod_lt_of_pos second hinterval
  have := Int.emod_nonneg second' (Int.ne_of_gt hinterval)
  omega

/-- The ticks of candles to a slot each, one after the other, are in order. -/
theorem AreSlotted.ticks_sorted {interval : Int} (hinterval : 0 < interval)
    (hword : Decimal.fitsWord interval = true) {cs : List Candle} (h : AreSlotted interval cs) :
    (cs.flatMap (ticksAhead interval)).Pairwise fun t u => t.timestamp < u.timestamp := by
  refine List.pairwise_flatMap.2 ⟨fun c hc => ?_, ?_⟩
  · have hnear (t : Tick Price) (ht : t ∈ c.ticksAhead interval) : c.IsNear t := by
      refine ⟨of_decide_eq_true (List.mem_filter.1 ht).2, ?_⟩
      have := lt_of_slotOf_eq hinterval (h.slotted c hc t ht)
      rw [Decimal.fitsWord_iff] at hword
      omega
    refine ((Candle.ticks_sorted hinterval hword c).1.filter _).imp_of_mem fun ht hu hlt => ?_
    exact hlt (hnear _ ht) (hnear _ hu)
  · refine h.ordered.imp_of_mem fun {c d} hc hd hcd t ht u hu => ?_
    have hc := h.slotted c hc t ht
    have hd := h.slotted d hd u hu
    rw [← hc, ← hd] at hcd
    by_contra hle
    exact absurd (Int.ediv_le_ediv hinterval (Int.not_lt.1 hle)) (Int.not_le.2 hcd)

/-- A stream lets the same ticks pass of candles and of those ticks of them that are ahead. -/
theorem passing_ticksAhead (interval start now : Int) (cs : List Candle)
    (last : Option (Tick Price)) :
    TickStream.passing start now last (cs.flatMap (ticks interval)) =
      TickStream.passing start now last (cs.flatMap (ticksAhead interval)) := by
  induction cs generalizing last with
  | nil => rfl
  | cons c cs ih =>
      obtain ⟨t, ts, hticks, htime⟩ := c.exists_ticks interval
      have hahead : c.ticksAhead interval =
          t :: ts.filter fun u => t.timestamp ≤ u.timestamp := by
        rw [ticksAhead, hticks, ← htime, List.filter_cons_of_pos (by simp)]
      rw [List.flatMap_cons, List.flatMap_cons, hticks, TickStream.passing_cons_append, ← hahead]
      exact TickStream.passing_append_congr _ ih last

end Candle

/-! ### Spans -/

/-- The ticks from one second to another. -/
def span (start now : Int) (ts : List (Tick Price)) : List (Tick Price) :=
  ts.filter fun t => start ≤ t.timestamp ∧ t.timestamp ≤ now

/-- A tick of a span lies in it. -/
theorem mem_span {start now : Int} {ts : List (Tick Price)} {t : Tick Price}
    (h : t ∈ span start now ts) : start ≤ t.timestamp ∧ t.timestamp ≤ now :=
  of_decide_eq_true (List.mem_filter.1 h).2

/-- A span of ticks in order that ends later goes on. -/
theorem span_isPrefix {start now now' : Int} (hnow : now ≤ now') {ts : List (Tick Price)}
    (h : ts.Pairwise fun t u => t.timestamp < u.timestamp) :
    span start now ts <+: span start now' ts := by
  induction ts with
  | nil => exact List.prefix_rfl
  | cons t ts ih =>
      obtain ⟨hafter, hrest⟩ := List.pairwise_cons.1 h
      by_cases hlate : now < t.timestamp
      · have hnone : span start now (t :: ts) = [] := by
          refine List.filter_eq_nil_iff.2 (List.forall_mem_cons.2 ⟨?_, fun u hu => ?_⟩)
          · simp only [decide_eq_true_eq]
            omega
          · have := hafter u hu
            simp only [decide_eq_true_eq]
            omega
        rw [hnone]
        exact List.nil_prefix
      · by_cases hearly : t.timestamp < start
        · have hout (n : Int) : span start n (t :: ts) = span start n ts :=
            List.filter_cons_of_neg (by simp only [decide_eq_true_eq]; omega)
          rw [hout, hout]
          exact ih hrest
        · have hin {n : Int} (hn : t.timestamp ≤ n) :
              span start n (t :: ts) = t :: span start n ts :=
            List.filter_cons_of_pos (by simp only [decide_eq_true_eq]; omega)
          rw [hin (by omega), hin (by omega), List.prefix_cons_inj]
          exact ih hrest

/-- A span of ticks in order that starts with one of the ticks of another is the rest of it from
there. -/
theorem span_from {start now : Int} {ts : List (Tick Price)}
    (h : ts.Pairwise fun t u => t.timestamp < u.timestamp) {n : Nat} {t : Tick Price}
    (ht : (span start now ts)[n]? = some t) :
    span t.timestamp now ts = (span start now ts).drop n := by
  have hstart := (mem_span (List.mem_of_getElem? ht)).1
  have hnarrow : span t.timestamp now ts =
      (span start now ts).filter fun u => t.timestamp ≤ u.timestamp := by
    rw [span, span, List.filter_filter]
    refine List.filter_congr fun u _ => ?_
    rw [← Bool.decide_and, decide_eq_decide]
    omega
  have hsorted : (span start now ts).Pairwise fun t u => t.timestamp < u.timestamp := h.filter _
  rw [hnarrow]
  clear hnarrow hstart
  generalize span start now ts = us at hsorted ht
  induction us generalizing n with
  | nil => cases ht
  | cons u us ih =>
      obtain ⟨hafter, hrest⟩ := List.pairwise_cons.1 hsorted
      cases n with
      | zero =>
          obtain rfl : u = t := Option.some.inj ht
          rw [List.drop_zero]
          refine List.filter_eq_self.2 (List.forall_mem_cons.2 ⟨?_, fun v hv => ?_⟩)
          · exact decide_eq_true (Int.le_refl _)
          · exact decide_eq_true (Int.le_of_lt (hafter v hv))
      | succ n =>
          rw [List.getElem?_cons_succ] at ht
          have hlater := hafter t (List.mem_of_getElem? ht)
          rw [List.filter_cons_of_neg (by simp only [decide_eq_true_eq]; omega),
            List.drop_succ_cons]
          exact ih hrest ht

namespace Market

/-- Whether a market serves charts: candles under every key, one to a slot at most, of finite
prices, of which it delivers those that begin at a given second or later. -/
structure Serves (m : Market) (chart : String → List Candle) : Prop where
  interval : minInterval ≤ m.interval
  word : Decimal.fitsWord m.interval = true
  slotted : ∀ key, Candle.AreSlotted m.interval (chart key)
  finite : ∀ key, ∀ c ∈ chart key, c.hasFinitePrices = true
  source : ∀ key start,
    m.source key start = .ok (((chart key).filter fun c => start ≤ c.timestamp).map .ok)

/-- The market that serves charts. -/
def ofChart (config : MarketConfig) (chart : String → List Candle) : Market where
  toMarketConfig := config
  source key start := .ok (((chart key).filter fun c => start ≤ c.timestamp).map .ok)

/-- Charts are served as they are. -/
theorem serves_ofChart {config : MarketConfig} {chart : String → List Candle}
    (hinterval : minInterval ≤ config.interval) (hword : Decimal.fitsWord config.interval = true)
    (hslotted : ∀ key, Candle.AreSlotted config.interval (chart key))
    (hfinite : ∀ key, ∀ c ∈ chart key, c.hasFinitePrices = true) :
    (ofChart config chart).Serves chart :=
  ⟨hinterval, hword, hslotted, hfinite, fun _ _ => rfl⟩

/-- All ticks of a chart under a key. -/
def chartTicks (m : Market) (chart : String → List Candle) (key : String) : List (Tick Price) :=
  (chart key).flatMap (Candle.ticksAhead m.interval)

variable {m : Market} {chart : String → List Candle}

/-- The interval of a market with charts is positive. -/
theorem Serves.interval_pos (h : m.Serves chart) : 0 < m.interval :=
  Int.lt_of_lt_of_le (by decide) h.interval

/-- There is room for the intervals of a market with charts from some second on. -/
theorem Serves.hasRoom (h : m.Serves chart) {second : Int} (hsecond : firstWithRoom ≤ second) :
    HasRoom m.interval second :=
  hasRoom_of_firstWithRoom_le h.interval_pos h.word hsecond

/-- The ticks of a chart are in order. -/
theorem Serves.chartTicks_sorted (h : m.Serves chart) (key : String) :
    (m.chartTicks chart key).Pairwise fun t u => t.timestamp < u.timestamp :=
  (h.slotted key).ticks_sorted h.interval_pos h.word

/-- Ticks before the beginning of the slot of a second are before the second. -/
theorem Serves.lt_of_lt_sub_emod (h : m.Serves chart) {key : String} {c : Candle}
    (hc : c ∈ chart key) {start : Int} (hlt : c.timestamp < start - start % m.interval)
    {t : Tick Price} (ht : t ∈ c.ticksAhead m.interval) : t.timestamp < start := by
  have hinterval := h.interval_pos
  have hslot := (h.slotted key).slotted c hc t ht
  rw [slotOf, slotOf] at hslot
  rw [sub_emod_eq] at hlt
  have hearlier : t.timestamp / m.interval < start / m.interval := by
    rw [hslot]
    exact Int.ediv_lt_of_lt_mul hinterval (by rwa [Int.mul_comm])
  by_contra hle
  exact absurd (Int.ediv_le_ediv hinterval (Int.not_lt.1 hle)) (Int.not_le.2 hearlier)

/-- In a span from a second on there are no ticks of candles that begin before the slot of the
second. -/
theorem Serves.span_of_source (h : m.Serves chart) (key : String) {start : Int}
    (hroom : HasRoom m.interval start) (now : Int) :
    span start now (((chart key).filter fun c =>
      intervalStart m.interval start ≤ c.timestamp).flatMap (Candle.ticksAhead m.interval)) =
        span start now (m.chartTicks chart key) := by
  have hearly {c : Candle} (hc : c ∈ chart key)
      (hlt : c.timestamp < intervalStart m.interval start) :
      (c.ticksAhead m.interval).filter (fun t => start ≤ t.timestamp ∧ t.timestamp ≤ now) = [] := by
    refine List.filter_eq_nil_iff.2 fun t ht => ?_
    have := h.lt_of_lt_sub_emod hc (Int.lt_of_lt_of_le hlt hroom.intervalStart_le) ht
    simp only [decide_eq_true_eq]
    omega
  rw [span, span, chartTicks, List.filter_flatMap, List.filter_flatMap]
  generalize chart key = cs at hearly
  induction cs with
  | nil => rfl
  | cons c cs ih =>
      have hrest := ih fun hd => hearly (List.mem_cons_of_mem _ hd)
      by_cases hc : intervalStart m.interval start ≤ c.timestamp
      · simp only [List.filter_cons, decide_eq_true hc, if_true, List.flatMap_cons, hrest]
      · simp only [List.filter_cons, decide_eq_false hc, Bool.false_eq_true, if_false,
          List.flatMap_cons, hrest, hearly List.mem_cons_self (Int.not_le.1 hc), List.nil_append]

/-- What a stream in a market with charts delivers: a span of the ticks of the candles that the
source is asked for. -/
theorem Serves.exists_openStream (h : m.Serves chart) (i : Instrument) (start now : Int) :
    ∃ s, m.openStream i start now = .ok s ∧ s.key = i.key ∧ s.exhausted = false ∧
      s.Delivers (span start now (((chart i.key).filter fun c =>
        intervalStart m.interval start ≤ c.timestamp).flatMap (Candle.ticksAhead m.interval))) := by
  have hdelivers := TickStream.delivers_passing
    (s := .ofFeed i.key (((chart i.key).filter fun c =>
      intervalStart m.interval start ≤ c.timestamp).map .ok) m.interval start now)
    ⟨rfl, rfl, fun c hc => h.finite i.key c (List.mem_filter.1 hc).1⟩
  have hslotted : Candle.AreSlotted m.interval
      ((chart i.key).filter fun c => intervalStart m.interval start ≤ c.timestamp) :=
    ⟨(h.slotted i.key).ordered.filter _,
      fun c hc => (h.slotted i.key).slotted c (List.mem_filter.1 hc).1⟩
  refine ⟨_, by rw [Market.openStream, h.source]; rfl, rfl, rfl, ?_⟩
  rw [span, ← @TickStream.passing_of_sorted start now none _
    (hslotted.ticks_sorted h.interval_pos h.word) (fun u hu => nomatch hu),
    ← Candle.passing_ticksAhead]
  exact hdelivers

/-- **A stream in a market with charts delivers a span of the ticks of its chart,** if there is room
for the interval in which it is opened. -/
theorem Serves.openStream (h : m.Serves chart) (i : Instrument) {start : Int}
    (hroom : HasRoom m.interval start) (now : Int) :
    ∃ s, m.openStream i start now = .ok s ∧ s.key = i.key ∧ s.exhausted = false ∧
      s.Delivers (span start now (m.chartTicks chart i.key)) :=
  h.span_of_source i.key hroom now ▸ h.exists_openStream i start now

end Market

end Forecast
