import Mathlib.Data.List.Basic
import Forecast.Proofs.Condition.Feeding

/-!
# A Condition Settles at its First Hit

A condition may be offered whatever comes along: sets without ticks, of several times, without a tick
for some operand, from before its window, or older than what it has seen. What becomes of it can be
told from the sets alone. A set *counts* if it is whole, begins no earlier than the window, and is no
older than the one before it that counts (`counting`). The first set that counts and lies behind the
window, or at which the comparison holds, is a hit and settles the condition. Until then the condition
remembers the last set that counts (`seenAfter`).

The condition keeps no list of sets, only its progress. What carries the induction is that an open
condition lets a set count from the beginning of its window or from the time of the last one, whichever
is later; for a fresh condition whose window begins at 0 or later that is the beginning of the window.

## Main results

* `offer_of_counts`, `offer_of_not_counts`: what one set does to an open condition.
* `offerAll_of_open`: what a list of sets does to an open condition.
* `offerAll_eq_first_hit`: what a list of sets does to a fresh condition.
-/

namespace Forecast

namespace Condition

variable {α : Type}

/-! ### The sets that count -/

/-- The time of a set that is whole: it has ticks, all of them are of that time, and no quoted operand
lacks one. -/
def wholeAt? (c : Condition α) (z : TickSet α) : Option Int :=
  match z.values with
  | [] => none
  | t :: ts =>
    if ts.all (·.timestamp == t.timestamp) && c.instruments.all (z.contains ·.key) then
      some t.timestamp
    else none

/-- The sets that count, each with its time: those that are whole, of a second or later, and no older
than the one before that counts. -/
def counting (c : Condition α) : (since : Int) → List (TickSet α) → List (Int × TickSet α)
  | _, [] => []
  | since, z :: zs =>
    match (c.wholeAt? z).filter (since ≤ ·) with
    | some ts => (ts, z) :: c.counting ts zs
    | none => c.counting since zs

/-- Which sets are whole, and of which time. -/
theorem wholeAt?_eq_some_iff {c : Condition α} {z : TickSet α} {ts : Int} :
    c.wholeAt? z = some ts ↔
      z.values ≠ [] ∧ (∀ t ∈ z.values, t.timestamp = ts) ∧
        ∀ i ∈ c.instruments, z.contains i.key = true := by
  rw [wholeAt?]
  cases z.values with
  | nil => simp
  | cons t rest =>
      simp only [Option.ite_none_right_eq_some, Bool.and_eq_true, List.all_eq_true, beq_iff_eq,
        Option.some.injEq, ne_eq, reduceCtorEq, not_false_eq_true, true_and, List.forall_mem_cons]
      constructor
      · rintro ⟨⟨hsame, hall⟩, rfl⟩
        exact ⟨⟨rfl, hsame⟩, hall⟩
      · rintro ⟨⟨rfl, hsame⟩, hall⟩
        exact ⟨⟨hsame, hall⟩, rfl⟩

/-- A condition accepts the sets that are whole and no older than what it has seen. -/
theorem accepts_eq_ok_iff_whole {c : Condition α} {z : TickSet α} {ts : Int} :
    c.accepts z = .ok ts ↔ c.wholeAt? z = some ts ∧ c.state.lastTs ≤ ts := by
  rw [accepts_eq_ok_iff, wholeAt?_eq_some_iff]
  constructor
  · rintro ⟨hne, hts, hall, hle⟩
    exact ⟨⟨hne, hts, hall⟩, hle⟩
  · rintro ⟨⟨hne, hts, hall⟩, hle⟩
    exact ⟨hne, hts, hall, hle⟩

/-- A set that counts goes before those that count after it. -/
theorem counting_cons_of_counts {c : Condition α} {z : TickSet α} {since ts : Int}
    (hts : c.wholeAt? z = some ts) (hle : since ≤ ts) (zs : List (TickSet α)) :
    c.counting since (z :: zs) = (ts, z) :: c.counting ts zs := by
  rw [counting, hts, Option.filter_some, if_pos (decide_eq_true hle)]

/-- A set that does not count is passed over. -/
theorem counting_cons_of_not_counts {c : Condition α} {z : TickSet α} {since : Int}
    (h : ∀ ts, c.wholeAt? z = some ts → ts < since) (zs : List (TickSet α)) :
    c.counting since (z :: zs) = c.counting since zs := by
  have hnone : (c.wholeAt? z).filter (since ≤ ·) = none := by
    rw [Option.filter_eq_none_iff]
    intro ts hts
    have := h ts hts
    simpa using this
  rw [counting, hnone]

/-- Which sets count does not depend on what a condition has seen. -/
theorem counting_withState (c : Condition α) (s : Progress α) (since : Int)
    (zs : List (TickSet α)) :
    counting { c with state := s } since zs = c.counting since zs := by
  have hwhole (z : TickSet α) : wholeAt? { c with state := s } z = c.wholeAt? z := rfl
  induction zs generalizing since with
  | nil => rfl
  | cons z zs ih => simp only [counting, hwhole, ih]

/-! ### Offering sets -/

variable [Quantity α]

/-- Whether a set at a time is a hit: it lies behind the window, or the comparison holds at it. -/
def isHit (c : Condition α) (e : Int × TickSet α) : Bool :=
  c.toTs < e.1 || c.holdsAt e.2

/-- What a condition that had seen `before` has seen after the sets that count: the first hit settles it,
and without one it remembers the last set. -/
def seenAfter (c : Condition α) (before : Progress α) (counted : List (Int × TickSet α)) :
    Progress α :=
  match counted.find? c.isHit with
  | some (ts, z) => ⟨.finished, ts, z, if c.toTs < ts then .no else .yes⟩
  | none =>
    match counted.getLast? with
    | some (ts, z) => ⟨.started, ts, z, .undecided⟩
    | none => before

/-- Offers a set to a condition. One that it refuses changes nothing. -/
def offer (c : Condition α) (z : TickSet α) : Condition α :=
  match c.feed z with
  | .ok d => d
  | .error _ => c

/-- Offers sets in turn. -/
def offerAll (c : Condition α) (zs : List (TickSet α)) : Condition α :=
  zs.foldl offer c

/-- A finished condition lets everything pass. -/
theorem offerAll_of_finished {c : Condition α} (h : c.isFinished = true) (zs : List (TickSet α)) :
    c.offerAll zs = c := by
  induction zs with
  | nil => rfl
  | cons z zs ih =>
      have hoffer : c.offer z = c := by rw [offer, feed, if_pos h]
      rw [offerAll, List.foldl_cons, hoffer]
      exact ih

/-- An open condition advances at a set that counts. -/
theorem offer_of_counts {c : Condition α} {z : TickSet α} {ts : Int} (hopen : c.isFinished = false)
    (hts : c.wholeAt? z = some ts) (hle : max c.fromTs c.state.lastTs ≤ ts) :
    c.offer z = { c with state := c.advance ts z } := by
  have hacc : c.accepts z = .ok ts := accepts_eq_ok_iff_whole.2 ⟨hts, by omega⟩
  rw [offer, feed_eq_ok_iff.2 (Or.inr ⟨hopen, ts, hacc, rfl⟩)]

/-- A set that does not count changes nothing, whether it is refused or comes before the window. -/
theorem offer_of_not_counts {c : Condition α} {z : TickSet α}
    (h : ∀ ts, c.wholeAt? z = some ts → ts < max c.fromTs c.state.lastTs) : c.offer z = c := by
  rw [offer]
  cases hfeed : c.feed z with
  | error e => rfl
  | ok d =>
      rcases feed_eq_ok_iff.1 hfeed with ⟨-, rfl⟩ | ⟨-, ts, hacc, rfl⟩
      · rfl
      · obtain ⟨hts, hle⟩ := accepts_eq_ok_iff_whole.1 hacc
        have hbefore : ts < c.fromTs := by
          have := h ts hts
          omega
        rw [advance, if_pos hbefore]

/-- At a hit a condition is finished. -/
theorem advance_of_isHit {c : Condition α} {z : TickSet α} {ts : Int} (hfrom : c.fromTs ≤ ts)
    (h : c.isHit (ts, z) = true) :
    c.advance ts z = ⟨.finished, ts, z, if c.toTs < ts then .no else .yes⟩ := by
  rw [advance, if_neg (Int.not_lt.2 hfrom)]
  by_cases hbehind : c.toTs < ts
  · rw [if_pos hbehind, if_pos hbehind]
  · have hholds : c.holdsAt z = true := by simpa [isHit, hbehind] using h
    rw [if_neg hbehind, if_neg hbehind, if_pos hholds]

/-- At a set that is no hit a condition is started, and its value stays. -/
theorem advance_of_not_isHit {c : Condition α} {z : TickSet α} {ts : Int} (hfrom : c.fromTs ≤ ts)
    (h : c.isHit (ts, z) = false) : c.advance ts z = ⟨.started, ts, z, c.value⟩ := by
  obtain ⟨hbehind, hholds⟩ := Bool.or_eq_false_iff.1 h
  rw [advance, if_neg (Int.not_lt.2 hfrom), if_neg (of_decide_eq_false hbehind),
    if_neg (Bool.eq_false_iff.1 hholds)]
  rfl

/-- A first set that is a hit settles what has been seen. -/
theorem seenAfter_cons_of_isHit {c : Condition α} {before : Progress α} {ts : Int} {z : TickSet α}
    (h : c.isHit (ts, z) = true) (es : List (Int × TickSet α)) :
    c.seenAfter before ((ts, z) :: es) =
      ⟨.finished, ts, z, if c.toTs < ts then .no else .yes⟩ := by
  rw [seenAfter, List.find?_cons_of_pos h]

/-- A first set that is no hit is remembered for those that come after it. -/
theorem seenAfter_cons_of_not_isHit {c : Condition α} {before : Progress α} {ts : Int}
    {z : TickSet α} (h : c.isHit (ts, z) = false) (es : List (Int × TickSet α)) :
    c.seenAfter before ((ts, z) :: es) = c.seenAfter ⟨.started, ts, z, .undecided⟩ es := by
  rw [seenAfter, seenAfter, List.find?_cons_of_neg (Bool.eq_false_iff.1 h)]
  cases es.find? c.isHit with
  | some e => rfl
  | none =>
      rw [List.getLast?_cons]
      cases es.getLast? with
      | none => rfl
      | some e => rfl

/-- **What a list of sets does to an open condition.** -/
theorem offerAll_of_open {c : Condition α} (hopen : c.isFinished = false)
    (hvalue : c.value = .undecided) (zs : List (TickSet α)) :
    c.offerAll zs = { c with
      state := c.seenAfter c.state (c.counting (max c.fromTs c.state.lastTs) zs) } := by
  induction zs generalizing c with
  | nil => rfl
  | cons z zs ih =>
      rw [offerAll, List.foldl_cons]
      by_cases hcounts : ∃ ts, c.wholeAt? z = some ts ∧ max c.fromTs c.state.lastTs ≤ ts
      · obtain ⟨ts, hts, hle⟩ := hcounts
        have hfrom : c.fromTs ≤ ts := by omega
        rw [offer_of_counts hopen hts hle, counting_cons_of_counts hts hle]
        cases hhit : c.isHit (ts, z) with
        | true =>
            rw [advance_of_isHit hfrom hhit, seenAfter_cons_of_isHit hhit]
            exact offerAll_of_finished rfl zs
        | false =>
            rw [advance_of_not_isHit hfrom hhit, seenAfter_cons_of_not_isHit hhit, hvalue]
            have hrest := ih (c := { c with state := ⟨.started, ts, z, .undecided⟩ }) rfl rfl
            rw [counting_withState, Int.max_eq_right hfrom] at hrest
            exact hrest
      · have hnot : ∀ ts, c.wholeAt? z = some ts → ts < max c.fromTs c.state.lastTs :=
          fun ts hts => Int.not_le.1 fun hle => hcounts ⟨ts, hts, hle⟩
        rw [offer_of_not_counts hnot, counting_cons_of_not_counts hnot]
        exact ih hopen hvalue

/-- A set is refused exactly by a condition that is open, and only if it is not whole or older than
what the condition has seen. -/
theorem exists_feed_error_iff {c : Condition α} {z : TickSet α} :
    (∃ e, c.feed z = .error e) ↔
      c.isFinished = false ∧ ∀ ts, c.wholeAt? z = some ts → ts < c.state.lastTs := by
  constructor
  · rintro ⟨e, he⟩
    have hne : ∀ d, c.feed z ≠ .ok d := fun d hd => by
      rw [hd] at he
      cases he
    have hopen : c.isFinished = false :=
      Bool.eq_false_iff.2 fun hfin => hne c (feed_eq_ok_iff.2 (Or.inl ⟨hfin, rfl⟩))
    refine ⟨hopen, fun ts hts => Int.not_le.1 fun hle => ?_⟩
    have hacc : c.accepts z = .ok ts := accepts_eq_ok_iff_whole.2 ⟨hts, hle⟩
    exact hne _ (feed_eq_ok_iff.2 (Or.inr ⟨hopen, ts, hacc, rfl⟩))
  · rintro ⟨hopen, hold⟩
    cases hfeed : c.feed z with
    | error e => exact ⟨e, rfl⟩
    | ok d =>
        rcases feed_eq_ok_iff.1 hfeed with ⟨hfin, -⟩ | ⟨-, ts, hacc, -⟩
        · rw [hopen] at hfin
          cases hfin
        · obtain ⟨hts, hle⟩ := accepts_eq_ok_iff_whole.1 hacc
          exact absurd (hold ts hts) (Int.not_lt.2 hle)

/-- **The verdict of a condition is a first hit.** Of all sets that are offered to a fresh condition whose
window begins at 0 or later, take those that count from the beginning of the window on. If there is no
hit among them the condition is undecided, and remembers the last of them, if any. Else it is settled by
the first hit, which it remembers: it fails if the hit lies behind the window, and holds if not. Nothing
but the progress changes. A set is refused if the condition is open and the set is not whole or older
than what was seen, and then it changes nothing at all. -/
theorem offerAll_eq_first_hit {c : Condition α} (hfresh : c.state = .initial) (hfrom : 0 ≤ c.fromTs)
    (zs : List (TickSet α)) :
    c.offerAll zs = { c with state := c.seenAfter .initial (c.counting c.fromTs zs) } ∧
      ∀ z, ((∃ e, (c.offerAll zs).feed z = .error e) ↔
          (c.offerAll zs).isFinished = false ∧
            ∀ ts, c.wholeAt? z = some ts → ts < (c.offerAll zs).state.lastTs) ∧
        ∀ e, (c.offerAll zs).feed z = .error e → c.offerAll (zs ++ [z]) = c.offerAll zs := by
  have hstatus : c.state.status = .unstarted := congrArg Progress.status hfresh
  have hlast : c.state.lastTs = 0 := congrArg Progress.lastTs hfresh
  have hopen : c.isFinished = false := by
    rw [isFinished, hstatus]
    rfl
  have hall : c.offerAll zs =
      { c with state := c.seenAfter .initial (c.counting c.fromTs zs) } := by
    have hall := offerAll_of_open hopen (congrArg Progress.value hfresh) zs
    rwa [hlast, Int.max_eq_left hfrom, hfresh] at hall
  refine ⟨hall, fun z => ⟨?_, fun e he => ?_⟩⟩
  · have hwhole : (c.offerAll zs).wholeAt? z = c.wholeAt? z := by
      rw [hall]
      rfl
    rw [exists_feed_error_iff, hwhole]
  · rw [offerAll, offerAll, List.foldl_append]
    change offer (c.offerAll zs) z = c.offerAll zs
    rw [offer, he]

/-- A condition that a coin rises above a level within a window. -/
def level : Condition Price :=
  .fresh "level" .above [.market (.coin "BINANCE" "BTC" "USDT"), .number 5] 10 100 0

/-- A tick of the coin. -/
def coinAt (timestamp : Int) (value : Price) : String × Tick Price :=
  ("COIN:BINANCE:BTC-USDT", ⟨timestamp, value⟩)

/-- A tick of another coin. -/
def otherAt (timestamp : Int) : String × Tick Price :=
  ("COIN:BINANCE:ETH-USDT", ⟨timestamp, 9⟩)

/-- Sets up to a tick that the level refuses: none that count but the third. -/
def untilStale : List (TickSet Price) :=
  [.empty, .ofList [coinAt 5 9], .ofList [coinAt 20 1], .ofList [otherAt 25],
    .ofList [coinAt 25 9, otherAt 26]]

/-- The level refuses a tick older than the last that counts, and is reached later, by the second of two
sets of one time. -/
theorem offerAll_level :
    level.state = .initial ∧ 0 ≤ level.fromTs ∧
      level.offerAll untilStale =
        { level with state := ⟨.started, 20, .ofList [coinAt 20 1], .undecided⟩ } ∧
      level.offerAll (untilStale ++ [.ofList [coinAt 15 9]]) = level.offerAll untilStale ∧
      level.offerAll (untilStale ++ [.ofList [coinAt 20 3], .ofList [coinAt 20 6], .empty]) =
        { level with state := ⟨.finished, 20, .ofList [coinAt 20 6], .yes⟩ } := by
  have hfirst := offerAll_eq_first_hit (c := level) rfl (by decide)
  have hbefore : level.offerAll untilStale =
      { level with state := ⟨.started, 20, .ofList [coinAt 20 1], .undecided⟩ } :=
    (hfirst untilStale).1.trans (by with_unfolding_all rfl)
  have hstale : (level.offerAll untilStale).feed (.ofList [coinAt 15 9]) =
      .error (.stale "level" 15 20) := by
    rw [hbefore]
    with_unfolding_all rfl
  exact ⟨rfl, by decide, hbefore, ((hfirst untilStale).2 _).2 _ hstale,
    (hfirst _).1.trans (by with_unfolding_all rfl)⟩

end Condition

end Forecast
