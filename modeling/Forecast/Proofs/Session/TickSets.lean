import Mathlib.Order.Basic
import Forecast.Proofs.Keyed.Merging
import Forecast.Proofs.Session.Supply

/-!
# Tick Sets from Several Streams

Streams that deliver lists of ticks supply sets: one of all first ticks, one of all second ticks,
and so on, as long as every list has one (`sets`). Ticks are put together by their number and not by
their time; whether they are of one time is for the condition to see.

Since streams of one key deliver the same, the lists are given by a function of the key.

## Main results

* `supplies_sets`: what streams supply, from what each of them delivers.
* `sets_drop`, `sets_isPrefix`: sets of shortened lists and of lists that go on.
-/

namespace Forecast

/-- What stands in a list stands at the same place in a list that goes on. -/
theorem getElem?_of_isPrefix {α : Type} {xs ys : List α} (h : xs <+: ys) {n : Nat} {x : α}
    (hx : xs[n]? = some x) : ys[n]? = some x := by
  obtain ⟨zs, rfl⟩ := h
  rw [List.getElem?_append_left (List.getElem?_eq_some_iff.1 hx).1, hx]

namespace Session

/-! ### Sets -/

/-- How many ticks the shortest of some lists has, 0 without lists. -/
def shortest (keys : List String) (ticks : String → List (Tick Price)) : Nat :=
  ((keys.map fun key => (ticks key).length).min?).getD 0

/-- The ticks of one number under their keys. -/
def setAt (keys : List String) (ticks : String → List (Tick Price)) (n : Nat) : TickSet Price :=
  .ofList (keys.filterMap fun key => (ticks key)[n]?.map fun t => (key, t))

/-- The sets of ticks that have a tick under every key. -/
def sets (keys : List String) (ticks : String → List (Tick Price)) : List (TickSet Price) :=
  (List.range (shortest keys ticks)).map (setAt keys ticks)

variable {keys : List String} {ticks ticks' : String → List (Tick Price)}

/-- The shortest list is longer than a number if every list is. -/
theorem lt_shortest_iff (hkeys : keys ≠ []) {n : Nat} :
    n < shortest keys ticks ↔ ∀ key ∈ keys, n < (ticks key).length := by
  cases hmin : (keys.map fun key => (ticks key).length).min? with
  | none => exact absurd (List.map_eq_nil_iff.1 (List.min?_eq_none_iff.1 hmin)) hkeys
  | some least =>
      rw [shortest, hmin, Option.getD_some, ← Nat.succ_le_iff, List.le_min?_iff hmin,
        List.forall_mem_map]
      rfl

/-- One of the lists is the shortest. -/
theorem exists_length_le_shortest (hkeys : keys ≠ []) (ticks : String → List (Tick Price)) :
    ∃ key ∈ keys, (ticks key).length ≤ shortest keys ticks := by
  have hnot : ¬ ∀ key ∈ keys, shortest keys ticks < (ticks key).length :=
    mt (lt_shortest_iff hkeys).2 (Nat.lt_irrefl _)
  simpa using hnot

/-- As many sets are there as the shortest list has ticks. -/
@[simp] theorem length_sets : (sets keys ticks).length = shortest keys ticks := by
  rw [sets, List.length_map, List.length_range]

/-- The sets by their numbers. -/
theorem getElem?_sets (n : Nat) :
    (sets keys ticks)[n]? =
      if n < shortest keys ticks then some (setAt keys ticks n) else none := by
  rw [sets, List.getElem?_map]
  split
  · next h => rw [List.getElem?_range h, Option.map_some]
  · next h => rw [List.getElem?_eq_none (by simpa using h), Option.map_none]

/-- The first sets, by their numbers. -/
theorem take_sets {n : Nat} (hn : n ≤ shortest keys ticks) :
    (sets keys ticks).take n = (List.range n).map (setAt keys ticks) := by
  rw [sets, ← List.map_take, List.take_range, Nat.min_eq_left hn]

/-- Under every key a set has the tick of its number. -/
theorem get?_setAt (n : Nat) {key : String} (hkey : key ∈ keys) :
    (setAt keys ticks n).get? key = (ticks key)[n]? := by
  rw [setAt, Keyed.get?_ofList_filterMap fun key => (ticks key)[n]?, if_pos hkey]

/-- A tick of a set is that of its number under some key. -/
theorem exists_of_mem_setAt {n : Nat} {t : Tick Price} (h : t ∈ (setAt keys ticks n).values) :
    ∃ key ∈ keys, (ticks key)[n]? = some t := by
  obtain ⟨⟨key, u⟩, he, rfl⟩ := List.mem_map.1 h
  have hget := (Keyed.mem_entries_iff _ _ _).1 he
  rw [setAt, Keyed.get?_ofList_filterMap fun key => (ticks key)[n]?] at hget
  split at hget
  · next hkey => exact ⟨key, hkey, hget⟩
  · cases hget

/-- Under every key there is a tick of the set of a number, and it is in the set. -/
theorem exists_of_getElem?_sets {n : Nat} {z : TickSet Price} (hz : (sets keys ticks)[n]? = some z)
    {key : String} (hkey : key ∈ keys) : ∃ t, (ticks key)[n]? = some t ∧ t ∈ z.values := by
  rw [getElem?_sets] at hz
  split at hz
  · next hlt =>
      cases hz
      have ht := List.getElem?_eq_getElem
        ((lt_shortest_iff (List.ne_nil_of_mem hkey)).1 hlt key hkey)
      refine ⟨_, ht, ?_⟩
      rw [← get?_setAt n hkey, ← Keyed.mem_entries_iff] at ht
      exact List.mem_map_of_mem ht
  · cases hz

/-- Sets read only the lists of their keys. -/
theorem sets_congr (h : ∀ key ∈ keys, ticks key = ticks' key) :
    sets keys ticks = sets keys ticks' := by
  have hshortest : shortest keys ticks = shortest keys ticks' := by
    rw [shortest, shortest, List.map_congr_left fun key hkey => by rw [h key hkey]]
  have hset : setAt keys ticks = setAt keys ticks' := by
    funext n
    rw [setAt, setAt, List.filterMap_congr fun key hkey => by rw [h key hkey]]
  rw [sets, sets, hshortest, hset]

/-- The sets of lists without their first ticks are the later sets. -/
theorem sets_drop (n : Nat) :
    sets keys (fun key => (ticks key).drop n) = (sets keys ticks).drop n := by
  by_cases hkeys : keys = []
  · subst hkeys
    simp [sets, shortest]
  · have hlt (k : Nat) :
        k < shortest keys (fun key => (ticks key).drop n) ↔ n + k < shortest keys ticks := by
      simp only [lt_shortest_iff hkeys, List.length_drop, Nat.lt_sub_iff_add_lt']
    refine List.ext_getElem? fun k => ?_
    rw [List.getElem?_drop, getElem?_sets, getElem?_sets]
    simp only [hlt, setAt, List.getElem?_drop]

/-- The sets of lists that go on begin with the sets of the lists. -/
theorem sets_isPrefix (h : ∀ key ∈ keys, ticks key <+: ticks' key) :
    sets keys ticks <+: sets keys ticks' := by
  by_cases hkeys : keys = []
  · subst hkeys
    exact List.prefix_rfl
  · refine List.prefix_iff_getElem?.2 fun n hn => ?_
    have hn' : n < shortest keys ticks := by rwa [length_sets] at hn
    have hlt : ∀ key ∈ keys, n < (ticks key).length := (lt_shortest_iff hkeys).1 hn'
    have hlt' : n < shortest keys ticks' :=
      (lt_shortest_iff hkeys).2 fun key hkey =>
        Nat.lt_of_lt_of_le (hlt key hkey) (h key hkey).length_le
    have hsame : setAt keys ticks' n = setAt keys ticks n := by
      rw [setAt, setAt]
      congr 1
      refine List.filterMap_congr fun key hkey => ?_
      rw [List.prefix_iff_getElem?.1 (h key hkey) n (hlt key hkey),
        List.getElem?_eq_getElem (hlt key hkey)]
    rw [← List.getElem?_eq_getElem hn, getElem?_sets, getElem?_sets, if_pos hlt', if_pos hn', hsame]

/-- Where every list has a tick, the first ticks are the first set. -/
theorem sets_eq_cons (hkeys : keys ≠ []) (h : ∀ key ∈ keys, ticks key ≠ []) :
    sets keys ticks = setAt keys ticks 0 :: sets keys fun key => (ticks key).tail := by
  have hpos : 0 < shortest keys ticks :=
    (lt_shortest_iff hkeys).2 fun key hkey => List.length_pos_iff.2 (h key hkey)
  have htail : (fun key => (ticks key).tail) = fun key => (ticks key).drop 1 :=
    funext fun key => List.drop_one.symm
  have hhead : (sets keys ticks).head? = some (setAt keys ticks 0) := by
    rw [List.head?_eq_getElem?, getElem?_sets, if_pos hpos]
  rw [htail, sets_drop, List.drop_one]
  exact List.eq_cons_of_mem_head? hhead

/-- Where a list has no tick there are no sets. -/
theorem sets_eq_nil {key : String} (hkey : key ∈ keys) (h : ticks key = []) :
    sets keys ticks = [] := by
  refine List.eq_nil_of_length_eq_zero ?_
  rw [length_sets]
  by_contra hpos
  have hlt := (lt_shortest_iff (List.ne_nil_of_mem hkey)).1 (Nat.pos_of_ne_zero hpos) key hkey
  rw [h] at hlt
  exact Nat.lt_irrefl _ hlt

/-- Ticks of one key, each a set of its own. -/
def oneByOne (key : String) (ts : List (Tick Price)) : List (TickSet Price) :=
  ts.map fun t => .ofList [(key, t)]

/-- The sets of one list are its ticks, one by one. -/
theorem sets_singleton (key : String) (ticks : String → List (Tick Price)) :
    sets [key] ticks = oneByOne key (ticks key) := by
  have hshortest : shortest [key] ticks = (ticks key).length := by
    simp [shortest]
  refine List.ext_getElem? fun n => ?_
  rw [oneByOne, getElem?_sets, hshortest, List.getElem?_map]
  split
  · next h => simp [setAt, List.getElem?_eq_getElem h]
  · next h => rw [List.getElem?_eq_none (Nat.not_lt.1 h), Option.map_none]

/-! ### What streams supply -/

/-- Whether streams are under some keys, one after the other, not known to be exhausted, and deliver
what a function says. -/
def Deliver (keys : List String) (ticks : String → List (Tick Price)) (ss : List TickStream) :
    Prop :=
  List.Forall₂ (fun key s => s.key = key ∧ s.exhausted = false ∧ s.Delivers (ticks key)) keys ss

variable {ss : List TickStream}

/-- Instruments that are served and whose streams deliver what a function says are opened under their
keys. -/
theorem exists_openStreams_of_deliver {m : Market} {start now : Int} {is : List Instrument}
    (h : ∀ i ∈ is, m.check (.market i) = .ok i ∧ ∃ s, m.openStream i start now = .ok s ∧
      s.key = i.key ∧ s.exhausted = false ∧ s.Delivers (ticks i.key)) :
    ∃ openings ss, openStreams m start now is = (openings, .ok ss) ∧
      Deliver (is.map Instrument.key) ticks ss := by
  induction is with
  | nil => exact ⟨[], [], rfl, .nil⟩
  | cons i is ih =>
      obtain ⟨⟨hi, s, hs, hstream⟩, his⟩ := List.forall_mem_cons.1 h
      obtain ⟨openings, ss, hss, hdeliver⟩ := ih his
      rw [openStreams_of_opened hi hs, hss]
      exact ⟨_, _, rfl, .cons hstream hdeliver⟩

/-- Streams of which each has a tick give a set of them. -/
theorem drawEach_of_deliver (h : Deliver keys ticks ss) (hsome : ∀ key ∈ keys, ticks key ≠ [])
    (drawn : TickSet Price) :
    ∃ ss', drawEach drawn ss =
        (.ticks ((keys.filterMap fun key => (ticks key)[0]?.map fun t => (key, t)).foldl
          (fun m e => m.insert e.1 e.2) drawn), ss') ∧
      Deliver keys (fun key => (ticks key).tail) ss' := by
  induction h generalizing drawn with
  | nil => exact ⟨[], rfl, .nil⟩
  | @cons key s keys ss hs _ ih =>
      obtain ⟨hkey, hopen, hdelivers⟩ := hs
      obtain ⟨hne, hsome⟩ := List.forall_mem_cons.1 hsome
      generalize hticks : ticks key = ts at hdelivers hne
      cases hdelivers with
      | nothing => exact absurd rfl hne
      | @tick _ s' t ts hnext hrest =>
          have hkey' : s'.key = key := by
            have hsame := s.next_key
            rw [hnext] at hsame
            exact hsame.trans hkey
          obtain ⟨ss', hdrawn, hdeliver⟩ := ih hsome (drawn.insert key t)
          refine ⟨s' :: ss', ?_, .cons ⟨hkey', ?_, ?_⟩ hdeliver⟩
          · rw [drawEach_of_tick hnext, hkey', hdrawn,
              List.filterMap_cons_some (by rw [hticks]; rfl), List.foldl_cons]
          · exact (TickStream.not_exhausted_of_next hnext).2
          · show s'.Delivers (ticks key).tail
            rw [hticks]
            exact hrest

/-- Streams of which one has no tick run dry. -/
theorem drawEach_of_deliver_nil (h : Deliver keys ticks ss) {key : String} (hkey : key ∈ keys)
    (hnone : ticks key = []) (drawn : TickSet Price) : ∃ ss', drawEach drawn ss = (.dry, ss') := by
  induction h generalizing drawn with
  | nil => exact absurd hkey List.not_mem_nil
  | @cons key' s keys ss hs _ ih =>
      obtain ⟨-, -, hdelivers⟩ := hs
      generalize hticks : ticks key' = ts at hdelivers
      cases hdelivers with
      | nothing hnext => exact ⟨_, drawEach_of_exhausted hnext _ _⟩
      | @tick _ s' t ts hnext hrest =>
          rcases List.mem_cons.1 hkey with rfl | hkey
          · rw [hnone] at hticks
            cases hticks
          · obtain ⟨ss', hdrawn⟩ := ih hkey (drawn.insert s'.key t)
            rw [drawEach_of_tick hnext, hdrawn]
            exact ⟨_, rfl⟩

/-- Streams that are not known to be exhausted are asked. -/
theorem drawAll_of_deliver (h : Deliver keys ticks ss) : drawAll ss = drawEach .empty ss := by
  refine drawAll_of_open ?_
  induction h with
  | nil => rfl
  | cons hs _ ih => rw [List.any_cons, hs.2.1, ih, Bool.false_or]

/-- **Streams supply the sets of what they deliver.** -/
theorem supplies_sets (hkeys : keys ≠ []) (h : Deliver keys ticks ss) :
    Supplies ss (sets keys ticks) := by
  generalize hn : shortest keys ticks = n
  induction n generalizing ticks ss with
  | zero =>
      obtain ⟨key, hkey, hle⟩ := exists_length_le_shortest hkeys ticks
      rw [hn] at hle
      have hnone : ticks key = [] := List.eq_nil_of_length_eq_zero (Nat.le_zero.1 hle)
      obtain ⟨ss', hdrawn⟩ := drawEach_of_deliver_nil h hkey hnone .empty
      rw [sets_eq_nil hkey hnone]
      exact .dry ((drawAll_of_deliver h).trans hdrawn)
  | succ n ih =>
      have hsome : ∀ key ∈ keys, ticks key ≠ [] := fun key hkey =>
        List.length_pos_iff.1
          ((lt_shortest_iff hkeys).1 (by rw [hn]; exact Nat.succ_pos n) key hkey)
      obtain ⟨ss', hdrawn, hrest⟩ := drawEach_of_deliver h hsome .empty
      have hcons := sets_eq_cons hkeys hsome
      have hshorter : shortest keys (fun key => (ticks key).tail) = n := by
        have hlength := congrArg List.length hcons
        rw [List.length_cons, length_sets, length_sets, hn] at hlength
        exact (Nat.succ.inj hlength).symm
      rw [hcons]
      exact .ticks ((drawAll_of_deliver h).trans hdrawn) (ih hrest hshorter)

end Session

end Forecast
