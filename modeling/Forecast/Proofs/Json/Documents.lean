import Forecast.Json.Printer
import Forecast.Json.Reader
import Forecast.Proofs.Json.Numerals
import Forecast.Proofs.Json.Quotations

/-!
# Reading Documents Back

A document that is written is read back with its arrays, its objects and its texts as they were. Its
numbers are read by their spelling, which may be a neighbour of the number that was written, and a
number that is not finite is read as null (`Json.asRead`).

The proof goes by the tokens of the document (`Json.tokensOf`): cutting what is written yields these
tokens, and reading the tokens yields the document. Both are said with what comes after the document,
so that they can be used for its parts.

## Main results

* `read_compress`: what is read of a document that was written.
-/

namespace Forecast.Json

open Decimal (Spelling)

/-- A value without parts as it is read back. -/
def leafAsRead : Json → Json
  | .bool b => .bool b
  | .int i => (numeralOf (.ofInt i)).value
  | .float x => if x.isFinite then (numeralOf (.ofFloat x)).value else .null
  | .string s => .string s
  | _ => .null

mutual

/-- A document as it is read back. -/
def asRead : Json → Json
  | .array items => .array (itemsAsRead items)
  | .object entries => .object (entriesAsRead entries)
  | j => leafAsRead j

/-- The items of an array as they are read back. -/
def itemsAsRead : List Json → List Json
  | [] => []
  | j :: js => asRead j :: itemsAsRead js

/-- The entries of an object as they are read back. -/
def entriesAsRead : List (String × Json) → List (String × Json)
  | [] => []
  | (name, j) :: es => (name, asRead j) :: entriesAsRead es

end

theorem itemsAsRead_eq_map (js : List Json) : itemsAsRead js = js.map asRead := by
  induction js with
  | nil => rfl
  | cons j js ih => rw [itemsAsRead, ih, List.map_cons]

theorem entriesAsRead_eq_map (es : List (String × Json)) :
    entriesAsRead es = es.map fun e => (e.1, e.2.asRead) := by
  induction es with
  | nil => rfl
  | cons e es ih => rw [entriesAsRead, ih, List.map_cons]

/-! ### Tokens of a document -/

/-- The token of a value without parts. -/
def leafToken : Json → Token
  | .string s => .text (some s)
  | j => .leaf (leafAsRead j)

mutual

/-- The tokens of a document. -/
def tokensOf : Json → List Token
  | .array items => .openArray :: itemTokens items
  | .object entries => .openObject :: entryTokens entries
  | j => [leafToken j]

/-- The tokens of the items of an array and of its closing bracket. -/
def itemTokens : List Json → List Token
  | [] => [.closeArray]
  | [j] => tokensOf j ++ [.closeArray]
  | j :: js => tokensOf j ++ .comma :: itemTokens js

/-- The tokens of the entries of an object and of its closing brace. -/
def entryTokens : List (String × Json) → List Token
  | [] => [.closeObject]
  | [(name, j)] => .text (some name) :: .colon :: (tokensOf j ++ [.closeObject])
  | (name, j) :: es => .text (some name) :: .colon :: (tokensOf j ++ .comma :: entryTokens es)

end

/-! ### Cutting what is written -/

/-- Whether a text is cut into some tokens. -/
def Scans (cs : List Char) (ts : List Token) : Prop :=
  ∀ fuel, cs.length ≤ fuel → scanTokens fuel cs = some ts

theorem scans_nil : Scans [] [] := by
  intro fuel _
  cases fuel <;> rfl

/-- A text that is one token is cut off in front of others. -/
theorem Scans.token {cs rest : List Char} {t : Token} {ts : List Token}
    (hscan : scanToken (cs ++ rest) = some (t, rest))
    (hfirst : ∃ c ds, cs = c :: ds ∧ isGap c = false) (hrest : Scans rest ts) :
    Scans (cs ++ rest) (t :: ts) := by
  obtain ⟨c, ds, rfl, hc⟩ := hfirst
  intro fuel hfuel
  cases fuel with
  | zero => exact absurd hfuel (by simp)
  | succ fuel =>
      simp only [List.cons_append] at hscan hfuel ⊢
      have hshort := hrest fuel (by simp at hfuel; omega)
      rw [scanTokens, List.dropWhile_cons_of_neg (by simp [hc])]
      dsimp only
      rw [hscan]
      dsimp only
      rw [hshort]
      rfl

/-- A text between quotes is one token. -/
theorem Scans.quote (s : String) {rest : List Char} {ts : List Token} (h : Scans rest ts) :
    Scans (Json.quote s.toList ++ rest) (.text (some s) :: ts) := by
  refine Scans.token ?_ ⟨'"', _, rfl, rfl⟩ h
  have hscan := scanQuoted_quote s.toList rest
  rw [Json.quote, List.append_assoc, List.cons_append, scanToken]
  simp only [List.singleton_append, hscan, Option.map_some, String.ofList_toList]

/-- What is written for a number is one token. -/
theorem Scans.spelling {n : Spelling} (hn : n.IsStrict) {rest : List Char} {ts : List Token}
    (hdelimited : IsDelimited rest) (h : Scans rest ts) :
    Scans (n.chars ++ rest) (.leaf (numeralOf n).value :: ts) := by
  refine Scans.token (scanToken_chars hn hdelimited) ?_ h
  obtain ⟨c, cs, hcs, hc⟩ := exists_chars_cons hn
  refine ⟨c, cs, hcs, Bool.eq_false_iff.2 fun hgap => ?_⟩
  simp only [isGap, Bool.or_eq_true, beq_iff_eq] at hgap
  rcases hgap with ((rfl | rfl) | rfl) | rfl <;> revert hc <;> decide

/-- What is written for a value without parts is one token. -/
theorem Scans.leaf (j : Json) (hj : ∀ items, j ≠ .array items) (hj' : ∀ entries, j ≠ .object entries)
    {rest : List Char} {ts : List Token} (hdelimited : IsDelimited rest) (h : Scans rest ts) :
    Scans (printLeaf j ++ rest) (leafToken j :: ts) := by
  have hnull : Scans ("null".toList ++ rest) (.leaf .null :: ts) :=
    Scans.token rfl ⟨'n', _, rfl, rfl⟩ h
  cases j with
  | null => exact hnull
  | unusable => exact hnull
  | bool b =>
      cases b with
      | true => exact Scans.token rfl ⟨'t', _, rfl, rfl⟩ h
      | false => exact Scans.token rfl ⟨'f', _, rfl, rfl⟩ h
  | int i =>
      rw [printLeaf, printInt, Spelling.toString_int]
      exact Scans.spelling (Spelling.isStrict_ofInt i) hdelimited h
  | float x =>
      rw [printLeaf, printFloat, leafToken, leafAsRead]
      · split
        · next hfinite =>
            rw [Spelling.write_stored hfinite]
            exact Scans.spelling (Spelling.isStrict_ofFloat x) hdelimited h
        · exact hnull
      · nofun
  | string s => exact Scans.quote s h
  | array items => exact absurd rfl (hj items)
  | object entries => exact absurd rfl (hj' entries)

/-- A character that is a token is cut off. -/
theorem Scans.mark {c : Char} {t : Token} (hscan : ∀ rest, scanToken (c :: rest) = some (t, rest))
    (hc : isGap c = false) {rest : List Char} {ts : List Token} (h : Scans rest ts) :
    Scans (c :: rest) (t :: ts) :=
  have htoken : scanToken ([c] ++ rest) = some (t, rest) := hscan rest
  Scans.token htoken ⟨c, [], rfl, hc⟩ h

mutual

/-- What is written for a document is cut into its tokens. -/
theorem scans_print : ∀ (j : Json) {rest : List Char} {ts : List Token}, IsDelimited rest →
    Scans rest ts → Scans (print j ++ rest) (tokensOf j ++ ts)
  | .array items, rest, ts, _, h => by
      rw [print, tokensOf]
      exact Scans.mark (fun _ => rfl) rfl (scans_printItems items h)
  | .object entries, rest, ts, _, h => by
      rw [print, tokensOf]
      exact Scans.mark (fun _ => rfl) rfl (scans_printEntries entries h)
  | .null, _, _, hdelimited, h => Scans.leaf .null nofun nofun hdelimited h
  | .bool b, _, _, hdelimited, h => Scans.leaf (.bool b) nofun nofun hdelimited h
  | .int i, _, _, hdelimited, h => Scans.leaf (.int i) nofun nofun hdelimited h
  | .float x, _, _, hdelimited, h => Scans.leaf (.float x) nofun nofun hdelimited h
  | .string s, _, _, hdelimited, h => Scans.leaf (.string s) nofun nofun hdelimited h
  | .unusable, _, _, hdelimited, h => Scans.leaf .unusable nofun nofun hdelimited h

/-- What is written for the items of an array is cut into their tokens. -/
theorem scans_printItems : ∀ (js : List Json) {rest : List Char} {ts : List Token},
    Scans rest ts → Scans (printItems js ++ rest) (itemTokens js ++ ts)
  | [], _, _, h => Scans.mark (fun _ => rfl) rfl h
  | [j], rest, ts, h => by
      rw [printItems, itemTokens, List.append_assoc, List.append_assoc]
      exact scans_print j (isDelimited_closeArray _) (Scans.mark (fun _ => rfl) rfl h)
  | j :: k :: js, rest, ts, h => by
      rw [printItems, itemTokens, List.append_assoc, List.append_assoc]
      · exact scans_print j (isDelimited_comma _)
          (Scans.mark (fun _ => rfl) rfl (scans_printItems (k :: js) h))
      · nofun
      · nofun

/-- What is written for the entries of an object is cut into their tokens. -/
theorem scans_printEntries : ∀ (es : List (String × Json)) {rest : List Char} {ts : List Token},
    Scans rest ts → Scans (printEntries es ++ rest) (entryTokens es ++ ts)
  | [], _, _, h => Scans.mark (fun _ => rfl) rfl h
  | [(name, j)], rest, ts, h => by
      rw [printEntries, entryTokens]
      simp only [List.append_assoc, List.cons_append, List.nil_append]
      exact Scans.quote name (Scans.mark (fun _ => rfl) rfl
        (scans_print j (isDelimited_closeObject _) (Scans.mark (fun _ => rfl) rfl h)))
  | (name, j) :: e :: es, rest, ts, h => by
      rw [printEntries, entryTokens]
      · simp only [List.append_assoc, List.cons_append]
        exact Scans.quote name (Scans.mark (fun _ => rfl) rfl
          (scans_print j (isDelimited_comma _)
            (Scans.mark (fun _ => rfl) rfl (scans_printEntries (e :: es) h))))
      · nofun
      · nofun

end

/-! ### Reading the tokens -/

/-- Entries with the names that are there. -/
def namedEntries (es : List (String × Json)) : Entries :=
  es.map fun e => (some e.1, e.2)

/-- Entries whose names are all there make an object. -/
theorem ofEntries_namedEntries (es : List (String × Json)) :
    ofEntries (namedEntries es) = .object es := by
  have hnames : (namedEntries es).mapM (fun e => e.1.map (·, e.2)) = some es := by
    induction es with
    | nil => rfl
    | cons e es ih =>
        rw [namedEntries] at ih ⊢
        rw [List.map_cons, List.mapM_cons, ih]
        rfl
  rw [ofEntries, hnames]

/-- Where an array may end, a document is read as where it may not. -/
theorem readTokens_itemOrEnd (j : Json) (stack : List Frame) (ts : List Token) :
    readTokens .itemOrEnd stack (tokensOf j ++ ts) = readTokens .value stack (tokensOf j ++ ts) := by
  cases j <;> rfl

/-- Where an object may end, entries are read as where it may not. -/
theorem readTokens_nameOrEnd (acc : Entries) (e : String × Json) (es : List (String × Json))
    (stack : List Frame) (ts : List Token) :
    readTokens (.nameOrEnd acc) stack (entryTokens (e :: es) ++ ts) =
      readTokens (.name acc) stack (entryTokens (e :: es) ++ ts) := by
  cases es <;> rfl

/-- The token of a value without parts is read as the value. -/
theorem readTokens_leaf (j : Json) (stack : List Frame) (ts : List Token) :
    readTokens .value stack (leafToken j :: ts) = readTokens (.after (leafAsRead j)) stack ts := by
  cases j <;> rfl

mutual

/-- The tokens of a document are read as the document. -/
theorem readTokens_tokensOf : ∀ (j : Json) (stack : List Frame) (ts : List Token),
    readTokens .value stack (tokensOf j ++ ts) = readTokens (.after j.asRead) stack ts
  | .array [], _, _ => rfl
  | .array (j :: js), stack, ts => by
      have hfirst : ∃ us, itemTokens (j :: js) = tokensOf j ++ us := by
        cases js with
        | nil => exact ⟨_, rfl⟩
        | cons k js => exact ⟨.comma :: itemTokens (k :: js), by rw [itemTokens]; nofun⟩
      have hitems := readTokens_itemTokens (j :: js) [] stack ts nofun
      obtain ⟨us, hus⟩ := hfirst
      rw [tokensOf, asRead, List.cons_append, readTokens]
      rw [hus, List.append_assoc] at hitems ⊢
      rw [readTokens_itemOrEnd]
      exact hitems
  | .object [], _, _ => rfl
  | .object (e :: es), stack, ts => by
      rw [tokensOf, asRead, List.cons_append, readTokens, readTokens_nameOrEnd,
        readTokens_entryTokens (e :: es) [] stack ts nofun, List.reverse_nil, List.nil_append,
        ofEntries_namedEntries]
  | .null, stack, ts => readTokens_leaf .null stack ts
  | .bool b, stack, ts => readTokens_leaf (.bool b) stack ts
  | .int i, stack, ts => readTokens_leaf (.int i) stack ts
  | .float x, stack, ts => readTokens_leaf (.float x) stack ts
  | .string s, stack, ts => readTokens_leaf (.string s) stack ts
  | .unusable, stack, ts => readTokens_leaf .unusable stack ts

/-- The tokens of items are read as the items behind those that have been read. -/
theorem readTokens_itemTokens : ∀ (js acc : List Json) (stack : List Frame) (ts : List Token),
    js ≠ [] → readTokens .value (.array acc :: stack) (itemTokens js ++ ts) =
      readTokens (.after (.array (acc.reverse ++ itemsAsRead js))) stack ts
  | [], _, _, _, hjs => absurd rfl hjs
  | [j], acc, stack, ts, _ => by
      rw [itemTokens, List.append_assoc, readTokens_tokensOf j, List.singleton_append, readTokens,
        List.reverse_cons]
      rfl
  | j :: k :: js, acc, stack, ts, _ => by
      rw [itemTokens]
      · rw [List.append_assoc, readTokens_tokensOf j, List.cons_append, readTokens,
          readTokens_itemTokens (k :: js) _ _ _ nofun, List.reverse_cons, List.append_assoc]
        rfl
      · nofun

/-- The tokens of entries are read as the entries behind those that have been read. -/
theorem readTokens_entryTokens : ∀ (es : List (String × Json)) (acc : Entries)
    (stack : List Frame) (ts : List Token),
    es ≠ [] → readTokens (.name acc) stack (entryTokens es ++ ts) =
      readTokens (.after (ofEntries (acc.reverse ++ namedEntries (entriesAsRead es)))) stack ts
  | [], _, _, _, hes => absurd rfl hes
  | [(name, j)], acc, stack, ts, _ => by
      rw [entryTokens, List.cons_append, List.cons_append, List.append_assoc, readTokens, readTokens,
        readTokens_tokensOf j, List.singleton_append, readTokens, List.reverse_cons]
      rfl
  | (name, j) :: e :: es, acc, stack, ts, _ => by
      rw [entryTokens]
      · rw [List.cons_append, List.cons_append, List.append_assoc, readTokens, readTokens,
          readTokens_tokensOf j, List.cons_append, readTokens,
          readTokens_entryTokens (e :: es) _ _ _ nofun, List.reverse_cons, List.append_assoc]
        rfl
      · nofun

end

/-- **What is read of a document that was written** is the document with its numbers as they are
read. -/
theorem read_compress (j : Json) : read (compress j) = some j.asRead := by
  have hscans := scans_print j isDelimited_nil scans_nil
  rw [List.append_nil, List.append_nil] at hscans
  rw [read, compress, String.toList_ofList, readChars, tokens?, hscans _ (Nat.le_refl _)]
  have hread := readTokens_tokensOf j [] []
  rw [List.append_nil] at hread
  exact hread

end Forecast.Json
