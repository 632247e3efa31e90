import Forecast.Trilean

/-!
# Clauses

A clause combines conditions with *and*, *or* and *not*. Its leaves are positions in the list of
conditions of a prediction; several leaves may point at one condition, so that a tick fed to it is
seen by every clause that mentions it. A position that points at no condition counts as true.

The walks over a clause take what they need to know about the conditions as a function of the
position, so that they are about the clause alone.
-/

namespace Forecast

/-- A combination of conditions, given by their positions. -/
inductive Clause where
  | literal (index : Nat)
  | conj (members : List Clause)
  | disj (members : List Clause)
  | neg (member : Clause)
  deriving Repr, Inhabited

namespace Clause

mutual

/-- Whether two clauses are the same. -/
def same : Clause → Clause → Bool
  | .literal i, .literal j => i == j
  | .conj cs, .conj ds => sameList cs ds
  | .disj cs, .disj ds => sameList cs ds
  | .neg c, .neg d => same c d
  | _, _ => false

/-- Whether two lists of clauses are the same. -/
def sameList : List Clause → List Clause → Bool
  | [], [] => true
  | c :: cs, d :: ds => same c d && sameList cs ds
  | _, _ => false

end

instance : BEq Clause := ⟨same⟩

mutual

/-- The value of a clause when the condition at each position has the value `valueAt`; positions of
no condition have none. Every member is evaluated. -/
def evaluate (valueAt : Nat → Option Trilean) : Clause → Trilean
  | .literal i => (valueAt i).getD .yes
  | .conj cs => Trilean.all (evaluateEach valueAt cs)
  | .disj cs => Trilean.any (evaluateEach valueAt cs)
  | .neg c => (evaluate valueAt c).not

/-- The values of a list of clauses. -/
def evaluateEach (valueAt : Nat → Option Trilean) : List Clause → List Trilean
  | [] => []
  | c :: cs => evaluate valueAt c :: evaluateEach valueAt cs

end

mutual

/-- Every position in the clause from left to right, repetitions included. -/
def references : Clause → List Nat
  | .literal i => [i]
  | .conj cs => referencesOf cs
  | .disj cs => referencesOf cs
  | .neg c => references c

/-- Every position in a list of clauses. -/
def referencesOf : List Clause → List Nat
  | [] => []
  | c :: cs => references c ++ referencesOf cs

end

mutual

/-- The positions of undecided conditions in the clause from left to right, repetitions included. -/
def undecided (valueAt : Nat → Option Trilean) : Clause → List Nat
  | .literal i => if valueAt i = some .undecided then [i] else []
  | .conj cs => undecidedOf valueAt cs
  | .disj cs => undecidedOf valueAt cs
  | .neg c => undecided valueAt c

/-- The positions of undecided conditions in a list of clauses. -/
def undecidedOf (valueAt : Nat → Option Trilean) : List Clause → List Nat
  | [] => []
  | c :: cs => undecided valueAt c ++ undecidedOf valueAt cs

end

mutual

/-- Applies a change to every condition that the clause mentions. Positions of no condition are
passed over. -/
def modify {α : Type} (change : α → α) : Clause → List α → List α
  | .literal i, xs => xs.modify i change
  | .conj cs, xs => modifyAll change cs xs
  | .disj cs, xs => modifyAll change cs xs
  | .neg c, xs => modify change c xs

/-- Applies a change to every condition that a list of clauses mentions. -/
def modifyAll {α : Type} (change : α → α) : List Clause → List α → List α
  | [], xs => xs
  | c :: cs, xs => modifyAll change cs (modify change c xs)

end

/-! ### Written form -/

/-- Whether the clause is a conjunction or a disjunction. -/
def isChain : Clause → Bool
  | .conj _ => true
  | .disj _ => true
  | _ => false

/-- Puts parentheses around a text. -/
def parenthesised (s : String) : String :=
  "(" ++ s ++ ")"

mutual

/-- The clause in words, with the names of the conditions; a position of no condition is shown as
a number. Chains within chains, and chains under *not*, stand in parentheses. -/
def render (nameAt : Nat → Option String) : Clause → String
  | .literal i => (nameAt i).getD ("#" ++ toString i)
  | .conj cs => " and ".intercalate (renderEach nameAt cs)
  | .disj cs => " or ".intercalate (renderEach nameAt cs)
  | .neg c =>
    "not " ++ (if c.isChain then parenthesised (render nameAt c) else render nameAt c)

/-- The members of a chain in words. -/
def renderEach (nameAt : Nat → Option String) : List Clause → List String
  | [] => []
  | c :: cs =>
    (if c.isChain then parenthesised (render nameAt c) else render nameAt c) ::
      renderEach nameAt cs

end

/-- The value of a clause that may be missing: a missing clause asks for nothing. -/
def evaluateOptional (valueAt : Nat → Option Trilean) : Option Clause → Trilean
  | some c => c.evaluate valueAt
  | none => .yes

/-! ### The walks agree -/

theorem evaluateEach_eq_map (valueAt : Nat → Option Trilean) (cs : List Clause) :
    evaluateEach valueAt cs = cs.map (evaluate valueAt) := by
  induction cs with
  | nil => rfl
  | cons c cs ih => simp [evaluateEach, ih]

theorem referencesOf_eq_flatMap (cs : List Clause) :
    referencesOf cs = cs.flatMap references := by
  induction cs with
  | nil => rfl
  | cons c cs ih => simp [referencesOf, ih]

theorem undecidedOf_eq_flatMap (valueAt : Nat → Option Trilean) (cs : List Clause) :
    undecidedOf valueAt cs = cs.flatMap (undecided valueAt) := by
  induction cs with
  | nil => rfl
  | cons c cs ih => simp [undecidedOf, ih]

theorem modifyAll_eq_foldl {α : Type} (change : α → α) (cs : List Clause) (xs : List α) :
    modifyAll change cs xs = cs.foldl (fun ys c => c.modify change ys) xs := by
  induction cs generalizing xs with
  | nil => rfl
  | cons c cs ih => simp [modifyAll, ih]

end Clause

end Forecast
