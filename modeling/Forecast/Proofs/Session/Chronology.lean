import Mathlib.Tactic.Choose
import Forecast.Proofs.Batch.History
import Forecast.Proofs.Session.Lockstep
import Forecast.Proofs.Session.TickSets

/-!
# The Verdict on One Stream

A session opens a stream for each condition, feeds a condition only while it is open and its phase
needs it, and evaluates at the end of each pass. If all conditions of a freshly compiled prediction
quote one instrument from one second on, and there are no preconditions, then all this comes to
reading the ticks of the instrument once, in the order of their times: the session ends with the
outcome after the first tick that makes it final.

## Main results

* `drain_eq_chronological`: the verdict of a session is the chronological one.
-/

namespace Forecast

namespace Market

variable {m : Market} {i : Instrument} {start now : Int} {s : TickStream}

/-- The ticks of an instrument are those of its stream, if it is served. -/
theorem ticks_eq_ok_iff :
    m.ticks (.market i) start now = .ok s ↔
      m.check (.market i) = .ok i ∧ m.openStream i start now = .ok s := by
  rw [ticks]
  cases hcheck : m.check (.market i) with
  | error e => exact ⟨nofun, fun h => nomatch h.1⟩
  | ok j =>
      obtain rfl := check_eq_ok hcheck
      exact ⟨fun h => ⟨rfl, h⟩, fun h => h.2⟩

/-- A stream is opened under the key of its instrument, for a span of time, and not exhausted. -/
theorem of_openStream (h : m.openStream i start now = .ok s) :
    s.key = i.key ∧ s.exhausted = false ∧ s.start = start := by
  rw [openStream] at h
  cases hsource : m.source i.key (intervalStart m.interval start) with
  | error e =>
      rw [hsource] at h
      cases h
  | ok feed =>
      rw [hsource] at h
      cases h
      exact ⟨rfl, rfl, rfl⟩

/-- The ticks of an instrument are in order, and none lies before the second from which they are
asked for. -/
theorem sorted_of_ticks (h : m.ticks (.market i) start now = .ok s) {ts : List (Tick Price)}
    (hts : s.Delivers ts) :
    (ts.Pairwise fun t u => t.timestamp < u.timestamp) ∧ ∀ t ∈ ts, start ≤ t.timestamp := by
  obtain ⟨-, -, hstart⟩ := of_openStream (ticks_eq_ok_iff.1 h).2
  obtain ⟨hsorted, hafter⟩ := hts.sorted
  exact ⟨hsorted, fun t ht => hstart ▸ (hafter t ht).1⟩

end Market

namespace Condition

/-- A condition on one instrument accepts ticks of it in order. -/
theorem exists_feedEach_of_sorted {c : Condition Price} {i : Instrument}
    (hc : c.instruments = [i]) {ts : List (Tick Price)}
    (hsorted : ts.Pairwise fun t u => t.timestamp < u.timestamp)
    (hlast : ∀ t ∈ ts, c.state.lastTs ≤ t.timestamp) :
    ∃ d, c.feedEach (Session.oneByOne i.key ts) = .ok d := by
  induction ts generalizing c with
  | nil => exact ⟨c, rfl⟩
  | cons t ts ih =>
      obtain ⟨hafter, hsorted⟩ := List.pairwise_cons.1 hsorted
      obtain ⟨hfirst, -⟩ := List.forall_mem_cons.1 hlast
      obtain ⟨d, hd⟩ : ∃ d, c.feed (Keyed.ofList [(i.key, t)]) = .ok d := by
        have haccepts : c.accepts (Keyed.ofList [(i.key, t)]) = .ok t.timestamp := by
          refine accepts_eq_ok_iff.2 ⟨List.cons_ne_nil _ _, ?_, ?_, hfirst⟩
          · exact List.forall_mem_singleton.2 rfl
          · rw [hc]
            refine List.forall_mem_singleton.2 ?_
            simp [Keyed.contains, Keyed.ofList, Keyed.get?_insert]
        rw [feed]
        split
        · exact ⟨c, rfl⟩
        · rw [haccepts]
          exact ⟨_, rfl⟩
      have hcontinues := continues_of_feed hd
      have hinstruments : d.instruments = [i] := by
        rw [hcontinues.frame]
        exact hc
      have hbound : d.state.lastTs ≤ max c.state.lastTs t.timestamp :=
        lastTs_le_of_feed (fun u hu => by
          obtain rfl := List.mem_singleton.1 hu
          exact Int.le_refl _) hd
      obtain ⟨e, he⟩ := ih hinstruments hsorted fun u hu => by
        have := hafter u hu
        omega
      exact ⟨e, feedEach_cons_eq_ok_iff.2 ⟨d, hd, he⟩⟩

end Condition

namespace Prediction

/-- Feeds a series of tick sets to every condition. -/
def feedSeries (p : Prediction) (zs : List (TickSet Price)) : Except FeedError Prediction :=
  (p.given.mapM (Condition.feedEach · zs)).map fun given => { p with given }

/-- A series that every condition accepts leads to a stage of the prediction. -/
theorem exists_feedSeries {p : Prediction} {zs : List (TickSet Price)}
    (h : ∀ c ∈ p.given, ∃ d, c.feedEach zs = .ok d) :
    ∃ q, p.feedSeries zs = .ok q ∧ q.main = p.main ∧ ∀ is, Fed is zs p q := by
  let after (c : Condition Price) : Condition Price := (c.feedEach zs).toOption.getD c
  have hafter : ∀ c ∈ p.given, c.feedEach zs = .ok (after c) := by
    intro c hc
    obtain ⟨d, hd⟩ := h c hc
    simp only [after, hd]
    rfl
  refine ⟨{ p with given := p.given.map after }, ?_, rfl, fun is i _ => ?_⟩
  · rw [feedSeries, mapM_eq_ok hafter]
    rfl
  · rw [List.getElem?_map]
    cases hc : p.given[i]? with
    | none => exact .none
    | some c => exact .some (hafter c (List.mem_of_getElem? hc))

/-- The outcome of the second phase, from the conditions as they are. -/
def mainVerdict (p : Prediction) : Outcome :=
  p.main.evaluate p.valueAt

/-- A first phase without clauses is passed. -/
theorem evaluate_of_isEmpty {pre : PrePhase} (h : pre.isEmpty = true) (v : Nat → Option Trilean) :
    pre.evaluate v = .running := by
  simp only [PrePhase.isEmpty, Bool.and_eq_true, Option.isNone_iff_eq_none] at h
  obtain ⟨⟨hwrong, hannulled⟩, hpredict⟩ := h
  rw [PrePhase.evaluate, hwrong, hannulled, hpredict]
  refine Policy.resolvePre_eq_running_iff.2 ⟨rfl, ?_, ?_⟩
  · simp [sideValue, Policy.settle, Trilean.orNo]
  · simp [sideValue, Policy.settle, Trilean.orNo]

end Prediction

namespace Session

open Prediction (Fed EndsInOrder)

variable {m : Market} {p : Prediction} {i : Instrument} {start now : Int} {stream : TickStream}

/-- Conditions that have seen nothing accept the ticks of a stream that they quote. -/
theorem exists_feedEach_of_shared (hstart : 0 ≤ start)
    (hgiven : ∀ c ∈ p.given, c.instruments = [i] ∧ c.fromTs = start)
    (hfresh : ∀ c ∈ p.given, c.state = .initial)
    (hstream : m.ticks (.market i) start now = .ok stream) {ts : List (Tick Price)}
    (hts : stream.Delivers ts) :
    ∀ c ∈ p.given, ∃ d, c.feedEach (oneByOne i.key ts) = .ok d := by
  intro c hc
  obtain ⟨hsorted, hafter⟩ := Market.sorted_of_ticks hstream hts
  refine Condition.exists_feedEach_of_sorted (hgiven c hc).1 hsorted fun t ht => ?_
  rw [hfresh c hc]
  exact Int.le_trans hstart (hafter t ht)

/-- A session begins in lock-step if its conditions quote one instrument from one second on and have
seen nothing. -/
theorem inStep_of_shared (hpre : p.pre.isEmpty = true) (hp : p.IsConsistent) (hstart : 0 ≤ start)
    (hgiven : ∀ c ∈ p.given, c.instruments = [i] ∧ c.fromTs = start)
    (hfresh : ∀ c ∈ p.given, c.state = .initial)
    (hstream : m.ticks (.market i) start now = .ok stream) {ts : List (Tick Price)}
    (hts : stream.Delivers ts) :
    InStep m (fun _ => oneByOne i.key ts) [] (oneByOne i.key ts)
      ⟨p, p, now, p.given.map fun _ => none, false⟩ := by
  obtain ⟨hcheck, hopen⟩ := Market.ticks_eq_ok_iff.1 hstream
  obtain ⟨hkey, hactive, -⟩ := Market.of_openStream hopen
  have hunmentioned : ∀ j, j ∉ mentioned p.pre.clauses := by
    rw [Prediction.mentioned_of_isEmpty hpre]
    exact fun _ => List.not_mem_nil
  refine ⟨⟨List.length_map _, fun j c hc => ?_⟩, hp, fun j hj => absurd hj (hunmentioned j),
    fun j hj => absurd hj (hunmentioned j), fun _ _ _ _ _ => rfl⟩
  have hmem := List.mem_of_getElem? hc
  have hmax : max c.fromTs c.state.lastTs = start := by
    rw [(hgiven c hmem).2, hfresh c hmem]
    exact Int.max_eq_left hstart
  have hsupplies : Supplies [stream] (sets [i.key] fun _ => ts) :=
    supplies_sets (List.cons_ne_nil _ _) (.cons ⟨hkey, hactive, hts⟩ .nil)
  rw [sets_singleton] at hsupplies
  refine .closed [⟨i.key, intervalStart m.interval start⟩] [stream] ?_ ?_ hsupplies
  · simp only [List.getElem?_map]
    cases p.given[j]? <;> rfl
  · rw [(hgiven c hmem).1, hmax, openStreams_of_opened hcheck hopen]
    rfl

/-- A session in lock-step that has no errors ends in order after enough passes. If it is stored as
final, it must stand as evaluated. -/
theorem InStep.drain_of_limit {s : Session} {supply : Nat → List (TickSet Price)}
    {zs ws : List (TickSet Price)} (h : s.InStep m supply zs ws) (hactive : s.inactive = false)
    (hstored : s.prediction.isFinal = true → s.prediction.evaluated = s.prediction) {limit : Nat}
    (herrors : (s.drain m limit).2 = []) (hlimit : zs.length + ws.length < limit) :
    (s.drain m limit).1.inactive = true ∧
      (s.drain m limit).1.prediction.evaluated = (s.drain m limit).1.prediction ∧
      EndsInOrder s.prediction.pre s.prediction.main zs ws s.prediction
        (s.drain m limit).1.prediction := by
  cases hfinal : s.prediction.isFinal with
  | false =>
      have hended := h.inactive_of_limit hactive hfinal herrors hlimit
      obtain ⟨-, -, hevaluated, -⟩ :=
        h.supplied.exists_hasTaken_drain limit hactive hfinal herrors hended
      exact ⟨hended, hevaluated, h.endsInOrder hactive hfinal limit herrors hended⟩
  | true =>
      obtain ⟨limit, rfl⟩ : ∃ limit', limit = limit' + 1 :=
        Nat.exists_eq_add_one.2 (Nat.zero_lt_of_lt hlimit)
      rw [drain_succ limit hactive, pass_of_final hactive hfinal, drain_of_inactive limit rfl]
      refine ⟨rfl, hstored hfinal, .of_isFinal ?_⟩
      rwa [← hstored hfinal] at hfinal

/-- **The verdict on one stream is the chronological one.** Take a freshly compiled prediction
without preconditions whose conditions all quote one instrument from one second on, and a market
that delivers ticks of it from that second to another. Let `stage n` be the prediction when every
condition has been fed the first `n` of these ticks. Then a session can be begun, and every drain of
more passes than there are ticks ends it without errors, with the outcome of the second phase at the
first stage at which it is final, or else at the last stage. The conditions that the second phase
mentions are left as they are at that stage, and the others as they were. -/
theorem drain_eq_chronological (hp : p.IsCompiled) (hpre : p.pre.isEmpty = true)
    (hstart : 0 ≤ start) (hgiven : ∀ c ∈ p.given, c.instruments = [i] ∧ c.fromTs = start)
    (hstream : m.ticks (.market i) start now = .ok stream) {ts : List (Tick Price)}
    (hts : stream.Delivers ts) :
    ∃ stage : Nat → Prediction,
      (∀ n, p.feedSeries (oneByOne i.key (ts.take n)) = .ok (stage n)) ∧
      ∃ s, Session.start m p now = .ok s ∧
        ∀ limit, ts.length < limit → ∃ count ≤ ts.length, ∃ done,
          s.drain m limit = (done, []) ∧ done.inactive = true ∧
          done.prediction.state.outcome = (stage count).mainVerdict ∧
          ((stage count).mainVerdict.isFinal = true ∨ count = ts.length) ∧
          (∀ n < count, (stage n).mainVerdict.isFinal = false) ∧
          (∀ j ∈ mentioned p.main.clauses,
            done.prediction.given[j]? = (stage count).given[j]?) ∧
          ∀ j ∉ mentioned p.main.clauses, done.prediction.given[j]? = p.given[j]? := by
  obtain ⟨hfresh, hfinal⟩ := hp.fresh
  have hin := inStep_of_shared hpre hp.isKept.1 hstart hgiven hfresh hstream hts
  have haccepts := exists_feedEach_of_shared hstart hgiven hfresh hstream hts
  have hstages (n : Nat) : ∃ q, p.feedSeries (oneByOne i.key (ts.take n)) = .ok q ∧
      q.main = p.main ∧ ∀ is, Fed is ((oneByOne i.key ts).take n) p q := by
    rw [oneByOne, oneByOne, ← List.map_take]
    refine Prediction.exists_feedSeries fun c hc => ?_
    obtain ⟨e, he⟩ := haccepts c hc
    rw [oneByOne, ← List.take_append_drop n ts, List.map_append,
      Condition.feedEach_append_eq_ok_iff] at he
    obtain ⟨d, hd, -⟩ := he
    exact ⟨d, hd⟩
  choose stage hstage hmain hfed using hstages
  have hserved : ∀ c ∈ p.given, ∀ j ∈ c.instruments, m.check (.market j) = .ok j := by
    intro c hc j hj
    rw [(hgiven c hc).1, List.mem_singleton] at hj
    rw [hj]
    exact (Market.ticks_eq_ok_iff.1 hstream).1
  have hbegun : Session.start m p now = .ok ⟨p, p, now, p.given.map fun _ => none, false⟩ :=
    start_eq_ok_iff.2 ⟨hserved, rfl⟩
  refine ⟨stage, hstage, _, hbegun, fun limit hlimit => ?_⟩
  have hlength : (oneByOne i.key ts).length = ts.length := List.length_map _
  have hall : ∀ j < p.given.length, j ∈ List.range p.given.length := fun j hj =>
    List.mem_range.2 hj
  have herrors := hin.supplied.drain_errors_eq_nil limit hall fun j _ c hc =>
    haccepts c (List.mem_of_getElem? hc)
  obtain ⟨hended, hevaluated, hends⟩ :=
    hin.drain_of_limit rfl hfinal herrors (by rw [hlength, List.length_nil]; omega)
  have hframe := (drain_advances m limit (isBounded_start hbegun)).runs.frame
  generalize drain m limit _ = done at herrors hended hevaluated hends hframe
  obtain ⟨done, errors⟩ := done
  obtain rfl : errors = [] := herrors
  obtain ⟨count, hcount, hseries, hlast, hbefore⟩ :=
    hends.second (Prediction.evaluate_of_isEmpty hpre _)
  have hsame := hseries.given_eq (hfed count _)
  have hverdict : (stage count).mainVerdict = p.main.evaluate done.prediction.valueAt := by
    rw [Prediction.mainVerdict, hmain]
    exact (Prediction.fed_nil_iff.2 hsame).main_eq
  have hpre' : done.prediction.pre = p.pre := by rw [hframe]
  have hmain' : done.prediction.main = p.main := by rw [hframe]
  refine ⟨count, hlength ▸ hcount, done, rfl, hended, ?_, hverdict ▸ hlength ▸ hlast,
    fun n hn => ?_, fun j hj => (hsame j hj).symm, fun j hj => hends.others j ?_ hj⟩
  · rw [← hevaluated, hverdict, ← hmain']
    exact Prediction.outcome_of_running (hpre' ▸ Prediction.evaluate_of_isEmpty hpre _)
  · have := hbefore n hn (stage n) (hfed n _)
    rwa [Prediction.mainVerdict, hmain]
  · rw [Prediction.mentioned_of_isEmpty hpre]
    exact List.not_mem_nil

/-- A prediction that one level is reached before another, as an author writes it. -/
def raceDraft : Draft where
  id := some "race"
  postedAt := "1970-01-01T00:00:00Z"
  reporter := ""
  postAuthor := ""
  postUrl := ""
  postText := ""
  given := .ofList
    [("high", ⟨"COIN:BINANCE:BTC-USDT > 3", none, none, some "1d", none⟩),
      ("low", ⟨"COIN:BINANCE:BTC-USDT < 1", none, none, some "1d", none⟩)]
  pre := none
  main := ⟨some "low", none, "high", false, false⟩

/-- The compiled prediction. -/
def race : Prediction where
  id := "race"
  createdAt := ⟨0, 0⟩
  postedAt := ⟨0, 0⟩
  reporter := ""
  postAuthor := ""
  postUrl := ""
  postText := ""
  given :=
    [.fresh "high" .above [.market (.coin "BINANCE" "BTC" "USDT"), .number 3] 0 86400 0,
      .fresh "low" .below [.market (.coin "BINANCE" "BTC" "USDT"), .number 1] 0 86400 0]
  pre := .none
  main := ⟨some (.literal 1), none, .literal 0, .default⟩
  state := .initial
  shape := .raceOrWrong

/-- The draft compiles to the prediction. -/
theorem compile_raceDraft : Compile.prediction raceDraft ⟨0, 0⟩ = .ok race := by
  have htime : Calendar.readTime raceDraft.postedAt = .ok ⟨0, 0⟩ := by rfl
  have hconditions : Compile.conditions ⟨0, 0⟩ [] (raceDraft.given.entries.map Compile.toEntry) =
      .ok race.given := by with_unfolding_all rfl
  have hentries : Compile.entries raceDraft.given = raceDraft.given.entries.map Compile.toEntry :=
    Compile.entries_of_sorted (by decide +kernel)
  simp only [Compile.prediction, hentries, htime, Except.mapError, bind, Except.bind, hconditions]
  with_unfolding_all rfl

/-- A market in which the upper level is reached in the first candle and the lower one in the
second. -/
def riseAndFall : Market where
  providers := ["BINANCE"]
  interval := 60
  source _ _ := .ok [.ok ⟨0, 2, 5, 2, 5, 1⟩, .ok ⟨60, 5, 5, 0, 0, 1⟩]

/-- The coin that is quoted. -/
def bitcoin : Instrument := .coin "BINANCE" "BTC" "USDT"

/-- The stream of its ticks. -/
def riseAndFallStream : TickStream :=
  .ofFeed bitcoin.key [.ok ⟨0, 2, 5, 2, 5, 1⟩, .ok ⟨60, 5, 5, 0, 0, 1⟩] 60 0 120

example :
    (Session.start riseAndFall race 120).toOption.map (fun s =>
      (s.drain riseAndFall 9).1.prediction.state) = some ⟨.finished, 90, .incorrect⟩ := by
  decide +kernel

/-- The session of the race. -/
theorem drain_race :
    race.IsCompiled ∧ race.pre.isEmpty = true ∧
      (∀ c ∈ race.given, c.instruments = [bitcoin] ∧ c.fromTs = 0) ∧
      riseAndFall.ticks (.market bitcoin) 0 120 = .ok riseAndFallStream ∧
      ∃ s, Session.start riseAndFall race 120 = .ok s ∧ ∃ count ≤ 8, ∃ done,
        s.drain riseAndFall 9 = (done, []) ∧ done.inactive = true := by
  have hcompiled : race.IsCompiled := ⟨raceDraft, ⟨0, 0⟩, race, compile_raceDraft, Or.inl rfl⟩
  have hpre : race.pre.isEmpty = true := rfl
  have hgiven : ∀ c ∈ race.given, c.instruments = [bitcoin] ∧ c.fromTs = 0 := by decide +kernel
  have hstream : riseAndFall.ticks (.market bitcoin) 0 120 = .ok riseAndFallStream :=
    Market.ticks_eq_ok_iff.2 ⟨rfl, rfl⟩
  have hleft : riseAndFallStream.HasLeft [⟨0, 2, 5, 2, 5, 1⟩, ⟨60, 5, 5, 0, 0, 1⟩] :=
    ⟨rfl, rfl, by decide +kernel⟩
  have hdelivers := TickStream.delivers_passing hleft
  obtain ⟨stage, -, s, hs, hdrain⟩ :=
    drain_eq_chronological hcompiled hpre (Int.le_refl 0) hgiven hstream hdelivers
  obtain ⟨count, hcount, done, hdone, hinactive, -⟩ := hdrain 9 (by decide +kernel)
  have hlength : count ≤ 8 := Nat.le_trans hcount (by decide +kernel)
  exact ⟨hcompiled, hpre, hgiven, hstream, s, hs, count, hlength, done, hdone, hinactive⟩

end Session

end Forecast
