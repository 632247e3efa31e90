import Forecast.Text.Words

/-!
# Reading and writing whole numbers

A whole number is an optional sign and one or more ASCII digits, nothing else. Timestamps and
settings are 64-bit, so `readWord` also refuses a number that does not fit; leading zeros do not
matter. Sums of words are not refused: beyond an end of the words they go on at the other (`wrap`).
-/

namespace Forecast.Decimal

/-- The value of a run of digits, most significant first. -/
def digitsValue (cs : List Char) : Nat :=
  cs.foldl (fun n c => 10 * n + (c.toNat - '0'.toNat)) 0

/-- Reads one or more ASCII digits and nothing else. -/
def readNat (cs : List Char) : Option Nat :=
  if cs ≠ [] ∧ cs.all Char.isDigit then some (digitsValue cs) else none

/-- Reads digits with an optional sign in front. -/
def readInt : List Char → Option Int
  | '+' :: cs => (readNat cs).map Int.ofNat
  | '-' :: cs => (readNat cs).map fun n => -Int.ofNat n
  | cs => (readNat cs).map Int.ofNat

/-- The whole numbers that a signed 64-bit word holds. -/
def fitsWord (i : Int) : Bool :=
  -9223372036854775808 ≤ i && i ≤ 9223372036854775807

/-- What a signed 64-bit word holds of a whole number: itself if it fits, and else what is left of it
when it has gone around. -/
def wrap (i : Int) : Int :=
  i.bmod 18446744073709551616

theorem fitsWord_iff {i : Int} :
    fitsWord i = true ↔ -9223372036854775808 ≤ i ∧ i ≤ 9223372036854775807 := by
  rw [fitsWord, Bool.and_eq_true, decide_eq_true_eq, decide_eq_true_eq]

/-- A whole number that fits is held as it is. -/
theorem wrap_eq_self {i : Int} (h : fitsWord i = true) : wrap i = i := by
  rw [fitsWord_iff] at h
  exact Int.bmod_eq_of_le (by omega) (by omega)

/-- What is held always fits. -/
theorem fitsWord_wrap (i : Int) : fitsWord (wrap i) = true := by
  rw [fitsWord_iff, wrap, Int.bmod_def]
  split <;> omega

/-- What is held of a number that is not below all words is no greater. -/
theorem wrap_le {i : Int} (h : -9223372036854775808 ≤ i) : wrap i ≤ i := by
  rw [wrap, Int.bmod_def]
  split <;> omega

/-- What is held of a sum is the sum, unless it has gone around. -/
theorem wrap_add_eq_self {i n : Int} (hn : 0 ≤ n) (hn' : n < 18446744073709551616)
    (hle : i ≤ wrap (i + n)) (hlt : wrap (i + n) < i + 18446744073709551616) :
    wrap (i + n) = i + n := by
  rw [wrap, Int.bmod_def] at *
  split at * <;> omega

/-- Reads a whole number that fits a signed 64-bit word. -/
def readWord (s : String) : Option Int :=
  (readInt s.toList).filter fitsWord

/-- A power of ten. -/
def tenTo (n : Nat) : Nat :=
  Nat.pow 10 n

/-- A power of two. -/
def twoTo (n : Nat) : Nat :=
  Nat.pow 2 n

/-- The digits of a number in base ten, most significant first. -/
def natDigits (n : Nat) : List Char :=
  Nat.toDigits 10 n

/-- A number filled with zeros on the left up to a width. -/
def padZeros (width n : Nat) : List Char :=
  List.replicate (width - (natDigits n).length) '0' ++ natDigits n

end Forecast.Decimal
