import Forecast.Proofs.Prediction.Justified
import Forecast.Proofs.Session.Chronology

/-!
# Whatever Is Done with a Prediction

A prediction can be fed ticks, evaluated, asked for the conditions worth feeding and cleared, and it
can be brought forward by a session, pass by pass (`Operation`). It is in a session as long as
passes follow one another, and anything else is done with what the session has made of it
(`Stage`).

Starting from a compiled prediction, all of this leads to predictions that justify themselves. A
session feeds and evaluates and does nothing else, so that its passes are runs, also those that a
fault ends in the middle.

## Convention

A pass of a session whose prediction is final looks at nothing and only ends the session. It does
not evaluate, so a tick that was fed after the last evaluation is not in the state then
(`pass_leaves_final_state`).

## Main results

* `justified_after_operations`: what holds after any list of operations.
-/

namespace Forecast

/-- What can be done with a prediction. -/
inductive Operation where
  /-- A condition is fed a set of ticks, which it may refuse. -/
  | feed (f : Feeding)
  | evaluate
  /-- The conditions worth feeding are asked for, after an evaluation. -/
  | findActionable
  | clear
  /-- A session is begun in a market, up to a second. -/
  | start (m : Market) (now : Int)
  /-- The session makes a pass, if there is one. -/
  | pass (m : Market)

/-- Where a prediction is. -/
inductive Stage where
  /-- By itself. -/
  | idle (p : Prediction)
  /-- In a session. -/
  | running (s : Session)

namespace Stage

/-- What has become of the prediction. -/
def prediction : Stage → Prediction
  | .idle p => p
  | .running s => s.prediction

/-- What an operation leads to. A session that cannot be begun leaves the prediction by itself. -/
def perform (g : Stage) : Operation → Stage
  | .feed f => .idle (g.prediction.feed f)
  | .evaluate => .idle g.prediction.evaluated
  | .findActionable => .idle g.prediction.evaluated
  | .clear => .idle g.prediction.cleared
  | .start m now =>
    match Session.start m g.prediction now with
    | .ok s => .running s
    | .error _ => .idle g.prediction
  | .pass m =>
    match g with
    | .idle p => .idle p
    | .running s => .running (s.pass m).session

/-- What operations lead to, one after the other. -/
def performAll (g : Stage) (ops : List Operation) : Stage :=
  ops.foldl perform g

/-- Whether an operation evaluates: evaluation itself does, asking for the conditions worth feeding
does, and a pass does if it looks at any. -/
def Evaluates : Stage → Operation → Prop
  | _, .evaluate => True
  | _, .findActionable => True
  | .running s, .pass _ => s.inactive = false ∧ s.prediction.isFinal = false
  | _, _ => False

/-- Whether the prediction is justified, and its session has no streams that go on after its
end. -/
structure IsSound (g : Stage) : Prop where
  justified : g.prediction.IsJustified
  bounded : ∀ s, g = .running s → s.IsBounded

variable {g : Stage} {p : Prediction}

/-- A justified prediction by itself is sound. -/
theorem isSound_idle (hp : p.IsJustified) : (idle p).IsSound := by
  refine ⟨hp, ?_⟩
  rintro s ⟨⟩

/-- **Every operation keeps a stage sound.** -/
theorem IsSound.perform (hg : g.IsSound) (op : Operation) : (g.perform op).IsSound := by
  cases op with
  | feed f => exact isSound_idle (hg.justified.feed f)
  | evaluate => exact isSound_idle hg.justified.evaluated.1
  | findActionable => exact isSound_idle hg.justified.evaluated.1
  | clear => exact isSound_idle g.prediction.isJustified_cleared
  | start m now =>
      rw [Stage.perform]
      cases hstart : Session.start m g.prediction now with
      | error e => exact isSound_idle hg.justified
      | ok s =>
          refine ⟨?_, ?_⟩
          · rw [Session.start_eq_ok hstart]
            exact hg.justified
          · rintro _ ⟨⟩
            exact Session.isBounded_start hstart
  | pass m =>
      cases g with
      | idle p => exact hg
      | running s =>
          have hadvances := Session.pass_advances m (hg.bounded s rfl)
          refine ⟨hadvances.runs.isJustified hg.justified, ?_⟩
          rintro _ ⟨⟩
          exact hadvances.bounded

/-- **Operations keep a stage sound.** -/
theorem IsSound.performAll (hg : g.IsSound) (ops : List Operation) :
    (g.performAll ops).IsSound := by
  induction ops generalizing g with
  | nil => exact hg
  | cons op ops ih => exact ih (hg.perform op)

/-- An operation that evaluates leaves a state that is derived from all that has been seen. -/
theorem IsSound.isDerived (hg : g.IsSound) {op : Operation} (h : g.Evaluates op) :
    (g.perform op).prediction.IsDerived := by
  cases op with
  | evaluate => exact hg.justified.evaluated.2
  | findActionable => exact hg.justified.evaluated.2
  | pass m =>
      cases g with
      | idle p => exact h.elim
      | running s =>
          obtain ⟨hactive, hopen⟩ := h
          have hround := Session.round_advances m (hg.bounded s rfl) s.prediction.actionable
          have hjustified := hround.runs.isJustified hg.justified
          rw [Stage.perform, Stage.prediction, Session.pass_prediction hactive hopen]
          exact hjustified.evaluated.2
  | feed f => cases g <;> exact h.elim
  | clear => cases g <;> exact h.elim
  | start m now => cases g <;> exact h.elim

/-- **Every reachable state justifies itself.** Whatever is done with a compiled prediction, its
conditions bear out where they stand, and its state is final exactly if its status says so and of no
later time than they have seen. After every operation that evaluates, its state is of the latest
time that they have seen, and no longer unstarted. -/
theorem justified_after_operations {draft : Draft} {createdAt : Calendar.Instant}
    (h : Compile.prediction draft createdAt = .ok p) (ops : List Operation) :
    ((idle p).performAll ops).prediction.IsJustified ∧
      ∀ op, ((idle p).performAll ops).Evaluates op →
        (((idle p).performAll ops).perform op).prediction.IsDerived := by
  have hsound := (isSound_idle (Prediction.isJustified_of_compile h)).performAll ops
  exact ⟨hsound.justified, fun op hop => hsound.isDerived hop⟩

open Session (raceDraft race compile_raceDraft riseAndFall bitcoin)

/-- A tick set of the coin that the race is about. -/
def bitcoinAt (timestamp : Int) (value : Price) : TickSet Price :=
  .ofList [(bitcoin.key, ⟨timestamp, value⟩)]

/-- The race when the upper level has been fed a tick and a session is under way. -/
def begun : List Operation :=
  [.feed ⟨0, bitcoinAt 10 2⟩, .start riseAndFall 120, .pass riseAndFall]

/-- The race is justified then, and another pass derives its state. -/
theorem race_justified_after_operations :
    Compile.prediction raceDraft ⟨0, 0⟩ = .ok race ∧
      ((idle race).performAll begun).prediction.IsJustified ∧
      ((idle race).performAll begun).Evaluates (.pass riseAndFall) ∧
      (((idle race).performAll begun).perform (.pass riseAndFall)).prediction.IsDerived := by
  obtain ⟨hjustified, hderived⟩ := justified_after_operations compile_raceDraft begun
  have hevaluates : ((idle race).performAll begun).Evaluates (.pass riseAndFall) := by
    with_unfolding_all exact ⟨rfl, rfl⟩
  exact ⟨compile_raceDraft, hjustified, hevaluates, hderived _ hevaluates⟩

/-- The race when the lower level has been reached and the upper one has been fed a later tick. -/
def lost : List Operation :=
  [.feed ⟨1, bitcoinAt 10 0⟩, .evaluate, .feed ⟨0, bitcoinAt 20 2⟩, .start riseAndFall 120]

/-- **A pass of a session whose prediction is final leaves its state behind** what has been seen: it
ends the session, which was active, and nothing else. -/
theorem pass_leaves_final_state :
    Compile.prediction raceDraft ⟨0, 0⟩ = .ok race ∧
      ∃ s, (idle race).performAll lost = .running s ∧ s.inactive = false ∧
        (s.pass riseAndFall).session.inactive = true ∧
        (s.pass riseAndFall).session.prediction.state.lastTs = 10 ∧
        (s.pass riseAndFall).session.prediction.latest = 20 := by
  refine ⟨compile_raceDraft, ?_⟩
  with_unfolding_all exact ⟨_, rfl, rfl, rfl, rfl, rfl⟩

end Stage

end Forecast
