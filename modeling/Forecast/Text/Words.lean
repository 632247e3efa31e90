import Forecast.Text.Upper
import Forecast.Text.Lower
import Forecast.Text.Alphanumeric

/-!
# Blanks, words and pieces

How author text is cut up before anything is read from it: blanks are dropped at the ends
(`trim`), a text is cut at blanks into words (`words`), and at separators into pieces (`pieces`).
A blank is any character with the Unicode property White_Space, which includes the no-break space
and the ideographic space but not the zero-width space or the byte order mark.

## Main results

* `join_pieces`: cutting at a separator and joining again gives the text back.
* `not_separator_of_mem_pieces`: no piece holds a separator.
-/

namespace Forecast.Text

/-- The characters of Unicode with the property White_Space. -/
def isBlank (c : Char) : Bool :=
  let n := c.toNat
  (9 ≤ n && n ≤ 13) || n == 0x20 || n == 0x85 || n == 0xA0 || n == 0x1680 ||
    (0x2000 ≤ n && n ≤ 0x200A) || n == 0x2028 || n == 0x2029 || n == 0x202F || n == 0x205F ||
    n == 0x3000

/-- Drops blanks at the front. -/
def trimStart (cs : List Char) : List Char :=
  cs.dropWhile isBlank

/-- Drops blanks at the end. -/
def trimEnd (cs : List Char) : List Char :=
  (cs.reverse.dropWhile isBlank).reverse

/-- Drops blanks at both ends. -/
def trimChars (cs : List Char) : List Char :=
  trimEnd (trimStart cs)

/-- Drops blanks at both ends of a string. -/
def trim (s : String) : String :=
  String.ofList (trimChars s.toList)

/-- Whether a string is empty or blank throughout. -/
def isBlankText (s : String) : Bool :=
  s.toList.all isBlank

/-- Cuts a text at every separator; separators next to each other leave empty pieces. -/
def pieces (separator : Char → Bool) : List Char → List (List Char)
  | [] => [[]]
  | c :: cs =>
    if separator c then [] :: pieces separator cs
    else
      match pieces separator cs with
      | [] => [[c]]
      | w :: ws => (c :: w) :: ws

/-- The maximal runs of characters that are not blank. -/
def words (cs : List Char) : List (List Char) :=
  (pieces isBlank cs).filter (· ≠ [])

/-- Cuts a string at a separating character. -/
def splitAt (separator : Char) (s : String) : List String :=
  (pieces (· == separator) s.toList).map String.ofList

/-- The text before and after the first occurrence of a character. -/
def cutAt (separator : Char) (cs : List Char) : Option (List Char × List Char) :=
  match cs.dropWhile (· ≠ separator) with
  | [] => none
  | _ :: rest => some (cs.takeWhile (· ≠ separator), rest)

/-- Equality of texts when letters of ASCII are compared without their case. -/
def sameLetters (s t : String) : Bool :=
  s.toList.map Char.toLower == t.toList.map Char.toLower

/-- Fills a string with spaces on the right up to a width in characters. -/
def padRight (width : Nat) (s : String) : String :=
  s ++ String.ofList (List.replicate (width - s.length) ' ')

/-- The length of a text in bytes of UTF-8. -/
def byteLength (cs : List Char) : Nat :=
  cs.foldl (fun n c => n + c.utf8Size) 0

/-! ### Laws of cutting and trimming -/

theorem pieces_ne_nil (separator : Char → Bool) (cs : List Char) : pieces separator cs ≠ [] := by
  induction cs with
  | nil => simp [pieces]
  | cons c cs ih =>
    simp only [pieces]
    split
    · simp
    · split <;> simp

/-- No piece holds a separator. -/
theorem not_separator_of_mem_pieces {separator : Char → Bool} {cs w : List Char} {c : Char}
    (hw : w ∈ pieces separator cs) (hc : c ∈ w) : separator c = false := by
  induction cs generalizing w with
  | nil => simp_all [pieces]
  | cons d ds ih =>
    simp only [pieces] at hw
    split at hw
    · rcases List.mem_cons.1 hw with rfl | h
      · simp at hc
      · exact ih h hc
    · split at hw
      · exact absurd ‹_› (pieces_ne_nil _ _)
      · rename_i hd _ u us hu
        rcases List.mem_cons.1 hw with rfl | h
        · rcases List.mem_cons.1 hc with rfl | h'
          · simpa using hd
          · exact ih (hu ▸ List.mem_cons_self) h'
        · exact ih (hu ▸ List.mem_cons_of_mem _ h) hc

/-- A text without separators is its only piece. -/
theorem pieces_of_not_separator {separator : Char → Bool} {cs : List Char}
    (h : ∀ c ∈ cs, separator c = false) : pieces separator cs = [cs] := by
  induction cs with
  | nil => rfl
  | cons c cs ih =>
    have hc := h c List.mem_cons_self
    have hcs := ih fun d hd => h d (List.mem_cons_of_mem _ hd)
    simp [pieces, hc, hcs]

/-- Cutting at one character and joining with it gives the text back. -/
theorem join_pieces (separator : Char) (cs : List Char) :
    [separator].intercalate (pieces (· == separator) cs) = cs := by
  induction cs with
  | nil => rfl
  | cons c cs ih =>
    obtain ⟨w, ws, hw⟩ : ∃ w ws, pieces (· == separator) cs = w :: ws := by
      match h : pieces (· == separator) cs with
      | [] => exact absurd h (pieces_ne_nil _ _)
      | w :: ws => exact ⟨w, ws, rfl⟩
    rw [hw] at ih
    simp only [pieces, hw]
    split
    · rename_i h
      obtain rfl : c = separator := by simpa using h
      simpa [List.intercalate] using ih
    · cases ws <;> simp_all [List.intercalate]

end Forecast.Text
