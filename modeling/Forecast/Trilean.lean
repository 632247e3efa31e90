/-!
# Three-valued truth

A clause about prices is undecided until the market settles it, so clauses are evaluated in three
values with the connectives of Kleene: a conjunction is settled by one member that fails, a
disjunction by one that holds, and what is undecided stays so under negation.

Over no members at all both connectives hold. A clause that names nothing asks for nothing.
-/

namespace Forecast

/-- A truth value that may still be open. -/
inductive Trilean where
  | undecided
  | yes
  | no
  deriving Repr, DecidableEq, Inhabited

namespace Trilean

/-- Kleene conjunction. -/
def and : Trilean → Trilean → Trilean
  | .no, _ => .no
  | _, .no => .no
  | .yes, .yes => .yes
  | _, _ => .undecided

/-- Kleene disjunction. -/
def or : Trilean → Trilean → Trilean
  | .yes, _ => .yes
  | _, .yes => .yes
  | .no, .no => .no
  | _, _ => .undecided

/-- Kleene negation. -/
def not : Trilean → Trilean
  | .undecided => .undecided
  | .yes => .no
  | .no => .yes

/-- The conjunction of a list; it holds over no members. -/
def all (vs : List Trilean) : Trilean :=
  vs.foldl and .yes

/-- The disjunction of a list, started from its first member; it holds over no members too. -/
def any : List Trilean → Trilean
  | [] => .yes
  | v :: vs => vs.foldl or v

/-- Whether the value is settled. -/
def isDecided : Trilean → Bool
  | .undecided => false
  | _ => true

/-- Counts an open value as failing. -/
def orNo : Trilean → Trilean
  | .undecided => .no
  | v => v

/-- The settled value of a Boolean. -/
def ofBool (b : Bool) : Trilean :=
  if b then .yes else .no

/-- The word for a value in documents and messages. -/
def word : Trilean → String
  | .undecided => "UNDECIDED"
  | .yes => "TRUE"
  | .no => "FALSE"

/-- Every value. -/
def values : List Trilean := [.undecided, .yes, .no]

/-- The value that a word stands for. -/
def ofWord? (s : String) : Option Trilean :=
  values.find? (·.word == s)

theorem and_comm (v w : Trilean) : and v w = and w v := by
  cases v <;> cases w <;> rfl

theorem or_comm (v w : Trilean) : or v w = or w v := by
  cases v <;> cases w <;> rfl

theorem and_assoc (u v w : Trilean) : and (and u v) w = and u (and v w) := by
  cases u <;> cases v <;> cases w <;> rfl

theorem or_assoc (u v w : Trilean) : or (or u v) w = or u (or v w) := by
  cases u <;> cases v <;> cases w <;> rfl

@[simp] theorem not_not (v : Trilean) : not (not v) = v := by
  cases v <;> rfl

/-- De Morgan's law for two values. -/
theorem not_and (v w : Trilean) : not (and v w) = or (not v) (not w) := by
  cases v <;> cases w <;> rfl

@[simp] theorem ofWord?_word (v : Trilean) : ofWord? v.word = some v := by
  cases v <;> rfl

end Trilean

end Forecast
