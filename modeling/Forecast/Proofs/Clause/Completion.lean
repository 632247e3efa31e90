import Forecast.Proofs.Clause.Information
import Forecast.Prediction

/-!
# Decided Clauses and What May Still Come

Conditions that are undecided now will hold or fail in the end. A completion of a list of conditions
says of each whether it does, and says the same as the conditions that are decided. Once everything is
decided a clause has the value that it has in two-valued logic (`Clause.holds`), with the convention
that a chain over no members holds, the disjunction too, and that a position of no condition holds.

A decided clause does not wait for the completion: its value is the one that it has under each.

## Main results

* `Clause.evaluate_ofBool`: evaluation of what is decided is evaluation in two values.
* `Clause.decided_for_good`: a decided clause keeps its value as conditions are decided, and has the
  value of every completion.
-/

namespace Forecast

variable {α : Type}

/-- The value of the condition at a position of a list, as a prediction looks it up. -/
def Condition.valueIn (cs : List (Condition α)) (i : Nat) : Option Trilean :=
  cs[i]?.map value

example (p : Prediction) : p.valueAt = Condition.valueIn p.given := rfl

/-! ### Two-valued logic -/

namespace Trilean

/-- Conjunction of settled values is conjunction. -/
theorem and_ofBool (b d : Bool) : and (ofBool b) (ofBool d) = ofBool (b && d) := by
  cases b <;> cases d <;> rfl

/-- Disjunction of settled values is disjunction. -/
theorem or_ofBool (b d : Bool) : or (ofBool b) (ofBool d) = ofBool (b || d) := by
  cases b <;> cases d <;> rfl

/-- Negation of a settled value is negation. -/
theorem not_ofBool (b : Bool) : not (ofBool b) = ofBool (!b) := by
  cases b <;> rfl

/-- A fold over settled values is the fold of what they stand for. -/
theorem foldl_ofBool {op : Trilean → Trilean → Trilean} {bop : Bool → Bool → Bool}
    (hop : ∀ b d, op (ofBool b) (ofBool d) = ofBool (bop b d)) (bs : List Bool) (b : Bool) :
    (bs.map ofBool).foldl op (ofBool b) = ofBool (bs.foldl bop b) := by
  induction bs generalizing b with
  | nil => rfl
  | cons d bs ih => rw [List.map_cons, List.foldl_cons, hop, ih, List.foldl_cons]

/-- The conjunction of settled values holds if all of them do. -/
theorem all_ofBool (bs : List Bool) : all (bs.map ofBool) = ofBool (bs.all id) := by
  have hall (b : Bool) : bs.foldl (· && ·) b = (b && bs.all id) := by
    induction bs generalizing b with
    | nil => simp
    | cons d bs ih => simp [ih, Bool.and_assoc]
  calc all (bs.map ofBool) = ofBool (bs.foldl (· && ·) true) := foldl_ofBool and_ofBool bs true
    _ = ofBool (bs.all id) := by rw [hall, Bool.true_and]

/-- The disjunction of settled values holds if one of them does, or if there are none. -/
theorem any_ofBool (bs : List Bool) : any (bs.map ofBool) = ofBool (bs.isEmpty || bs.any id) := by
  cases bs with
  | nil => rfl
  | cons b bs =>
      have hany (b : Bool) : bs.foldl (· || ·) b = (b || bs.any id) := by
        induction bs generalizing b with
        | nil => simp
        | cons d bs ih => simp [ih, Bool.or_assoc]
      calc any ((b :: bs).map ofBool) = ofBool (bs.foldl (· || ·) b) := foldl_ofBool or_ofBool bs b
        _ = ofBool ((b :: bs).isEmpty || (b :: bs).any id) := by
          rw [hany, List.isEmpty_cons, Bool.false_or, List.any_cons, id_eq]

end Trilean

namespace Clause

mutual

/-- Whether a clause holds in two-valued logic, when the condition at each position holds or fails. -/
def holds (truthAt : Nat → Option Bool) : Clause → Bool
  | .literal i => (truthAt i).getD true
  | .conj cs => (holdsEach truthAt cs).all id
  | .disj cs => cs.isEmpty || (holdsEach truthAt cs).any id
  | .neg c => !holds truthAt c

/-- Which of a list of clauses hold. -/
def holdsEach (truthAt : Nat → Option Bool) : List Clause → List Bool
  | [] => []
  | c :: cs => holds truthAt c :: holdsEach truthAt cs

end

theorem holdsEach_eq_map (truthAt : Nat → Option Bool) (cs : List Clause) :
    holdsEach truthAt cs = cs.map (holds truthAt) := by
  induction cs with
  | nil => rfl
  | cons c cs ih => rw [holdsEach, ih, List.map_cons]

/-- **Evaluation of what is decided is evaluation in two values.** -/
theorem evaluate_ofBool (truthAt : Nat → Option Bool) (c : Clause) :
    c.evaluate (fun i => (truthAt i).map Trilean.ofBool) = .ofBool (c.holds truthAt) := by
  have chain (cs : List Clause)
      (ih : ∀ c ∈ cs,
        c.evaluate (fun i => (truthAt i).map Trilean.ofBool) = .ofBool (c.holds truthAt)) :
      evaluateEach (fun i => (truthAt i).map Trilean.ofBool) cs =
        (holdsEach truthAt cs).map Trilean.ofBool := by
    rw [evaluateEach_eq_map, holdsEach_eq_map, List.map_map]
    exact List.map_congr_left ih
  induction c using Clause.induction with
  | literal i =>
      rw [evaluate, holds]
      cases truthAt i with
      | none => rfl
      | some b => rfl
  | conj cs ih => rw [evaluate, holds, chain cs ih, Trilean.all_ofBool]
  | disj cs ih =>
      have hempty : (holdsEach truthAt cs).isEmpty = cs.isEmpty := by
        rw [holdsEach_eq_map, List.isEmpty_map]
      rw [evaluate, holds, chain cs ih, Trilean.any_ofBool, hempty]
  | neg c ih => rw [evaluate, holds, ih, Trilean.not_ofBool]

/-! ### Completions -/

/-- Whether a list says of every condition if it holds in the end, and says of those that a clause
mentions what is decided of them. -/
structure IsCompletion (c : Clause) (cs : List (Condition α)) (bs : List Bool) : Prop where
  length : bs.length = cs.length
  agrees : ∀ i ∈ c.references, ∀ x b, cs[i]? = some x → bs[i]? = some b →
    x.value ≠ .undecided → x.value = .ofBool b

/-- What is at a position settles from one list to another if it keeps its value there once it is
decided. Lists of one length have something at the same positions. -/
theorem settlesTo_at {β γ : Type} {xs : List β} {ys : List γ} {f : β → Trilean} {g : γ → Trilean}
    (hlength : ys.length = xs.length) {i : Nat}
    (hsame : ∀ x y, xs[i]? = some x → ys[i]? = some y → f x ≠ .undecided → f x = g y) :
    ((xs[i]?.map f).getD .yes).SettlesTo ((ys[i]?.map g).getD .yes) := by
  by_cases hi : i < xs.length
  · have hi' : i < ys.length := hlength ▸ hi
    have hx : xs[i]? = some xs[i] := List.getElem?_eq_getElem hi
    have hy : ys[i]? = some ys[i] := List.getElem?_eq_getElem hi'
    rw [hx, hy, Option.map_some, Option.map_some, Option.getD_some, Option.getD_some]
    by_cases hopen : f xs[i] = .undecided
    · exact .inl hopen
    · exact .inr (hsame _ _ hx hy hopen)
  · have hi' : ¬ i < ys.length := hlength ▸ hi
    rw [List.getElem?_eq_none (Nat.not_lt.1 hi), List.getElem?_eq_none (Nat.not_lt.1 hi')]
    exact .refl .yes

/-- A clause settles to its value under any completion. -/
theorem IsCompletion.settlesTo {c : Clause} {cs : List (Condition α)} {bs : List Bool}
    (h : c.IsCompletion cs bs) :
    (c.evaluate (Condition.valueIn cs)).SettlesTo (.ofBool (c.holds (bs[·]?))) := by
  rw [← evaluate_ofBool]
  exact evaluate_settlesTo fun i hi => settlesTo_at h.length (h.agrees i hi)

/-- **A decided clause is decided for good.** If those of the conditions it mentions that are decided
keep their values, whatever becomes of all others, it keeps its value; and this is its value in
two-valued logic whichever of the open conditions hold in the end. -/
theorem decided_for_good {c : Clause} {cs ds : List (Condition α)} (hlength : ds.length = cs.length)
    (hsame : ∀ i ∈ c.references, ∀ x y, cs[i]? = some x → ds[i]? = some y →
      x.value ≠ .undecided → x.value = y.value)
    (hdecided : c.evaluate (Condition.valueIn cs) ≠ .undecided) :
    c.evaluate (Condition.valueIn ds) = c.evaluate (Condition.valueIn cs) ∧
      ∀ bs, c.IsCompletion cs bs →
        c.evaluate (Condition.valueIn cs) = .ofBool (c.holds (bs[·]?)) := by
  have hsettles :
      (c.evaluate (Condition.valueIn cs)).SettlesTo (c.evaluate (Condition.valueIn ds)) :=
    evaluate_settlesTo fun i hi => settlesTo_at hlength (hsame i hi)
  exact ⟨hsettles.eq hdecided, fun bs hbs => (hbs.settlesTo.eq hdecided).symm⟩

/-- Conditions that have come to some values. -/
def withValues (values : List Trilean) : List (Condition Price) :=
  values.map fun value =>
    { Condition.fresh "level" .above [] 0 1 0 with state := { Progress.initial with value } }

theorem value_of_withValues {values : List Trilean} {i : Nat} {x : Condition Price}
    (h : (withValues values)[i]? = some x) : values[i]? = some x.value := by
  rw [withValues, List.getElem?_map, Option.map_eq_some_iff] at h
  obtain ⟨value, hvalue, rfl⟩ := h
  exact hvalue

/-- A clause with a disjunction over no members and a position that may be of no condition. -/
def sturdy : Clause :=
  .conj [.disj [.literal 0, .literal 1], .neg (.conj [.literal 2, .literal 0]), .disj [], .literal 9]

/-- The clause holds of four conditions of which the first is open, and then whatever becomes of the
first, and of the last, which it does not mention. -/
theorem decided_for_good_sturdy :
    sturdy.evaluate (Condition.valueIn (withValues [.undecided, .yes, .no, .yes])) = .yes ∧
      sturdy.evaluate (Condition.valueIn (withValues [.no, .yes, .no, .undecided])) = .yes ∧
      sturdy.IsCompletion (withValues [.undecided, .yes, .no, .yes]) [true, true, false, false] ∧
      sturdy.holds ([true, true, false, false][·]?) = true := by
  have hmentions {i : Nat} (hi : i ∈ sturdy.references) : i = 0 ∨ i = 1 ∨ i = 2 ∨ i = 9 := by
    rw [show sturdy.references = [0, 1, 2, 0, 9] from rfl] at hi
    simp only [List.mem_cons, List.not_mem_nil, or_false] at hi
    omega
  have hyes : sturdy.evaluate (Condition.valueIn (withValues [.undecided, .yes, .no, .yes])) = .yes := by
    rfl
  have hcompletion :
      sturdy.IsCompletion (withValues [.undecided, .yes, .no, .yes]) [true, true, false, false] := by
    refine ⟨rfl, fun i hi x b hx hb hne => ?_⟩
    have hvalue := value_of_withValues hx
    rcases hmentions hi with rfl | rfl | rfl | rfl
    · exact absurd (Option.some.inj hvalue).symm hne
    · cases hb
      exact (Option.some.inj hvalue).symm
    · cases hb
      exact (Option.some.inj hvalue).symm
    · cases hb
  obtain ⟨hsame, hvalue⟩ := @decided_for_good _ sturdy
    (withValues [.undecided, .yes, .no, .yes]) (withValues [.no, .yes, .no, .undecided]) rfl
    (fun i hi x y hx hy hne => by
      have hvalue := value_of_withValues hx
      have hvalue' := value_of_withValues hy
      rcases hmentions hi with rfl | rfl | rfl | rfl
      · exact absurd (Option.some.inj hvalue).symm hne
      · exact (Option.some.inj hvalue).symm.trans (Option.some.inj hvalue')
      · exact (Option.some.inj hvalue).symm.trans (Option.some.inj hvalue')
      · cases hvalue)
    (by rw [hyes]; decide)
  refine ⟨hyes, hsame.trans hyes, hcompletion, ?_⟩
  have hholds : Trilean.ofBool _ = .yes := (hvalue _ hcompletion).symm.trans hyes
  revert hholds
  cases sturdy.holds ([true, true, false, false][·]?) with
  | true => exact fun _ => rfl
  | false => exact fun hno => by cases hno

end Clause

end Forecast
