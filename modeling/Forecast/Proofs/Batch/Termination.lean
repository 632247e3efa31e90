import Forecast.Proofs.Batch.Completion
import Forecast.Proofs.Session.Chronology
import Forecast.Proofs.Session.Termination

/-!
# Batches End

A batch makes as many passes as the longest of its sessions, and each of these has ended after one
pass more than its market has ticks for. So without a limit on passes a batch ends by itself, within
one pass more than the largest of these numbers.

A stuck prediction is the exception, and it is a real one: its session never ends
(`never_ends_of_stuck`).

## Main results

* `ends_within_reserve`: how many passes sessions and batches take.
-/

namespace Forecast

namespace Batch

/-! ### Largest numbers -/

/-- The largest of some numbers is no smaller than any of them. -/
theorem le_most {ns : List Nat} {n : Nat} (h : n ∈ ns) : n ≤ most ns := by
  induction ns with
  | nil => exact absurd h List.not_mem_nil
  | cons k ks ih =>
      rw [most, List.foldr_cons]
      rcases List.mem_cons.1 h with rfl | h
      · exact Nat.le_max_left _ _
      · exact Nat.le_trans (ih h) (Nat.le_max_right _ _)

/-- The largest of some numbers is within every bound on them. -/
theorem most_le {ns : List Nat} {bound : Nat} (h : ∀ n ∈ ns, n ≤ bound) : most ns ≤ bound := by
  induction ns with
  | nil => exact Nat.zero_le _
  | cons k ks ih =>
      obtain ⟨hk, hks⟩ := List.forall_mem_cons.1 h
      rw [most, List.foldr_cons]
      exact Nat.max_le.2 ⟨hk, ih hks⟩

end Batch

namespace Session

variable {m : Market} {s : Session}

/-- A session that has ended after some passes takes no more of them. -/
theorem drainPasses_le {n : Nat} (limit : Nat) (h : (afterPasses m n s).inactive = true) :
    s.drainPasses m limit ≤ n := by
  induction limit generalizing n s with
  | zero => exact Nat.zero_le _
  | succ limit ih =>
      cases hactive : s.inactive with
      | true =>
          rw [drainPasses_of_inactive _ hactive]
          exact Nat.zero_le _
      | false =>
          cases n with
          | zero =>
              rw [afterPasses, hactive] at h
              cases h
          | succ n =>
              rw [afterPasses] at h
              rw [drainPasses_succ limit hactive]
              exact Nat.succ_le_succ (ih h)

/-- **A session that is not stuck has ended after one pass more than its market has ticks for.** -/
theorem inactive_after_reserve {p : Prediction} {now : Int} (hp : ¬ p.IsStuck)
    (h : Session.start m p now = .ok s) {n : Nat} (hn : 1 + p.reserve m ≤ n) :
    (afterPasses m n s).inactive = true := by
  obtain ⟨hsound, hprediction, hleft⟩ := isSound_of_start h
  refine inactive_afterPasses hsound (hprediction ▸ hp) ?_
  omega

end Session

namespace Batch

open Session (afterPasses)

variable {m : Market} {now : Int} {limit : Nat} {ps : Keyed Prediction}

/-- A batch has no active sessions left once each of them has had enough passes. -/
theorem active_run_eq_nil {t : Tally} (hactive : ∀ s ∈ t.active, s.inactive = false)
    (h : ∀ s ∈ t.active, (afterPasses m limit s).inactive = true) :
    (t.run m limit).active = [] := by
  induction limit generalizing t with
  | zero =>
      refine List.eq_nil_iff_forall_not_mem.2 fun s hs => ?_
      exact absurd ((hactive s hs).symm.trans (h s hs)) nofun
  | succ limit ih =>
      rw [Tally.run]
      split
      · next hempty => exact List.isEmpty_iff.1 hempty
      · have hpassed : (t.advance m).active = (passed m t).filter (!·.inactive) := by
          rw [advance_eq]
        refine ih (fun s hs => ?_) fun s hs => ?_
        · rw [hpassed] at hs
          exact Bool.not_eq_true' .. ▸ (List.mem_filter.1 hs).2
        · rw [hpassed] at hs
          obtain ⟨s', hs', rfl⟩ := List.mem_map.1 (List.mem_filter.1 hs).1
          exact h s' hs'

/-- The sessions of a batch are active when it begins. -/
theorem inactive_of_mem_begin {s : Session} (h : s ∈ (begin m now ps.values).2) :
    s.inactive = false := by
  obtain ⟨p, -, hstart⟩ := mem_begin_iff.1 h
  rw [Session.start_eq_ok hstart]

/-- A batch is within every bound on its sessions, and is not ended by a larger limit. -/
theorem passes_le {bound : Nat}
    (h : ∀ s ∈ (begin m now ps.values).2, (afterPasses m bound s).inactive = true) :
    (advance m now limit ps).passes ≤ bound ∧ (bound ≤ limit → Completes m now limit ps) := by
  constructor
  · rw [advance_eq_tally]
    dsimp only
    rw [(isDrained_tally m now limit ps).passes, Nat.zero_add]
    refine most_le fun n hn => ?_
    obtain ⟨s, hs, rfl⟩ := List.mem_map.1 hn
    exact Session.drainPasses_le _ (h s hs)
  · intro hlimit
    refine active_run_eq_nil (fun s hs => inactive_of_mem_begin hs) fun s hs => ?_
    obtain ⟨k, hk⟩ := Nat.exists_eq_add_of_le (Nat.le_trans hlimit (Nat.le_max_left limit 1))
    rw [hk, Session.afterPasses_add, Session.afterPasses_of_inactive k (h s hs)]
    exact h s hs

/-- **Sessions and batches end.** A session that is not stuck has ended after one pass more than the
market has ticks for what its conditions quote first, and from then on a pass changes nothing and
has no errors. A batch of predictions that are not stuck makes no more than one pass more than the
largest of these numbers, and no limit of as many passes ends it before its sessions have ended. -/
theorem ends_within_reserve (m : Market) (now : Int) :
    (∀ (p : Prediction) (s : Session), ¬ p.IsStuck → Session.start m p now = .ok s →
      (∀ n, 1 + p.reserve m ≤ n → (afterPasses m n s).inactive = true) ∧
      ∀ n, (afterPasses m n s).inactive = true →
        (afterPasses m n s).pass m = ⟨afterPasses m n s, [], []⟩ ∧
          ∀ k, afterPasses m (n + k) s = afterPasses m n s) ∧
    ∀ (ps : Keyed Prediction) (limit : Nat), (∀ p ∈ ps.values, ¬ p.IsStuck) →
      (advance m now limit ps).passes ≤ 1 + most (ps.values.map (Prediction.reserve m)) ∧
      (1 + most (ps.values.map (Prediction.reserve m)) ≤ limit → Completes m now limit ps) := by
  refine ⟨fun p s hp hstart => ⟨fun n => Session.inactive_after_reserve hp hstart, ?_⟩,
    fun ps limit hps => passes_le fun s hs => ?_⟩
  · intro n hended
    refine ⟨Session.pass_of_inactive hended, fun k => ?_⟩
    rw [Session.afterPasses_add, Session.afterPasses_of_inactive k hended]
  · obtain ⟨p, hp, hstart⟩ := mem_begin_iff.1 hs
    refine Session.inactive_after_reserve (hps p hp) hstart (Nat.add_le_add_left ?_ 1)
    exact le_most (List.mem_map_of_mem hp)

open Session (race riseAndFall bitcoin) in
/-- A session of the race has ended after seventeen passes, and so has a batch of it. -/
theorem race_ends_within_reserve :
    ¬ race.IsStuck ∧ race.reserve riseAndFall = 16 ∧
      (∃ s, Session.start riseAndFall race 120 = .ok s ∧
        (afterPasses riseAndFall 17 s).inactive = true) ∧
      (advance riseAndFall 120 defaultLimit (.ofList [("race", race)])).passes ≤ 17 := by
  have hstuck : ¬ race.IsStuck := by
    rintro ⟨i, -, c, hc, hnone, -⟩
    have hquoted : ∀ c ∈ race.given, c.instruments = [bitcoin] := by decide +kernel
    rw [hquoted c (List.mem_of_getElem? hc)] at hnone
    cases hnone
  have hreserve : race.reserve riseAndFall = 16 := by decide +kernel
  have hvalues : (Keyed.ofList [("race", race)]).values = [race] := rfl
  have hstart : Session.start riseAndFall race 120 =
      .ok ⟨race, race, 120, [none, none], false⟩ := by with_unfolding_all rfl
  obtain ⟨hsession, hbatch⟩ := ends_within_reserve riseAndFall 120
  obtain ⟨hpasses, -⟩ := hbatch (.ofList [("race", race)]) defaultLimit
    (by rw [hvalues]; exact List.forall_mem_singleton.2 hstuck)
  refine ⟨hstuck, hreserve, ⟨_, hstart, (hsession race _ hstuck hstart).1 17 ?_⟩, ?_⟩
  · rw [hreserve]
  · rw [hvalues, List.map_singleton, hreserve] at hpasses
    exact hpasses

/-! ### Stuck predictions -/

/-- A prediction about two numbers that is finished without a value. -/
def stalled : Prediction where
  id := "stalled"
  createdAt := ⟨0, 0⟩
  postedAt := ⟨0, 0⟩
  reporter := ""
  postAuthor := ""
  postUrl := ""
  postText := ""
  given :=
    [⟨"numbers", .above, [.number 2, .number 1], 0, 60, 0, ⟨.finished, 0, .empty, .undecided⟩⟩]
  pre := .none
  main := .ofClause (.literal 0)
  state := .initial
  shape := .unsupported

/-- Its session after the first pass, and after every other. -/
def stalledSession : Session where
  initial := stalled
  prediction := { stalled with state := ⟨.started, 0, .running⟩ }
  now := 120
  streams := [some []]
  inactive := false

/-- **The session of a stuck prediction never ends,** although no tick is left for it. -/
theorem never_ends_of_stuck :
    stalled.reserve Session.riseAndFall = 0 ∧
      ∃ s, Session.start Session.riseAndFall stalled 120 = .ok s ∧
        ∀ n, (afterPasses Session.riseAndFall n s).inactive = false := by
  have hstart : Session.start Session.riseAndFall stalled 120 =
      .ok ⟨stalled, stalled, 120, [none], false⟩ := rfl
  have hfirst : (Session.pass Session.riseAndFall ⟨stalled, stalled, 120, [none], false⟩).session =
      stalledSession := rfl
  have hagain : (stalledSession.pass Session.riseAndFall).session = stalledSession := rfl
  have hforever (n : Nat) : afterPasses Session.riseAndFall n stalledSession = stalledSession := by
    induction n with
    | zero => rfl
    | succ n ih => rw [afterPasses, hagain, ih]
  refine ⟨rfl, _, hstart, fun n => ?_⟩
  cases n with
  | zero => rfl
  | succ n => rw [afterPasses, hfirst, hforever]; rfl

end Batch

end Forecast
