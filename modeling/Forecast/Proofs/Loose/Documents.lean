import Forecast.Json.Printer
import Forecast.Loose.Reader
import Forecast.Proofs.Loose.Numerals
import Forecast.Proofs.Loose.Texts

/-!
# Written Documents as Loose Documents

A database reads what it stores as a loose document. Of a document that was written strictly it reads
the arrays, objects, texts and numbers that were written (`Loose.ofJson`), as long as the document does
not nest more deeply than the reader can follow.

As for the strict reader, the proof goes by the tokens of the document, and each step is said with what
comes after it. There is one thing more to carry along: the reader stops at a character with the number
0, so none may be written.

## Main results

* `read_compress`: what is read of a document that was written.
-/

namespace Forecast.Loose

open Decimal (Spelling AreDigits)
open Json (IsDelimited printLeaf)

/-! ### Documents as they are read -/

/-- A value without parts as a loose document. -/
def leafOf : Json → Loose
  | .bool b => .bool b
  | .int i => .number (numeralOf (.ofInt i))
  | .float x => if x.isFinite then .number (numeralOf (.ofFloat x)) else .null
  | .string s => .text (textOf s)
  | _ => .null

mutual

/-- A document as a loose document. -/
def ofJson : Json → Loose
  | .array items => .array (itemsOf items)
  | .object entries => .object (entriesOf entries)
  | j => leafOf j

/-- The items of an array as loose documents. -/
def itemsOf : List Json → List Loose
  | [] => []
  | j :: js => ofJson j :: itemsOf js

/-- The entries of an object as those of a loose document. -/
def entriesOf : List (String × Json) → List (Text × Loose)
  | [] => []
  | (name, j) :: es => (textOf name, ofJson j) :: entriesOf es

end

/-- The token of a value without parts. -/
def leafToken : Json → Token
  | .string s => .quoted (textOf s)
  | j => .leaf (leafOf j)

mutual

/-- The tokens of a document. -/
def tokensOf : Json → List Token
  | .array items => .openArray :: itemTokens items
  | .object entries => .openObject :: entryTokens entries
  | j => [leafToken j]

/-- The tokens of the items of an array and of its closing bracket. -/
def itemTokens : List Json → List Token
  | [] => [.closeArray]
  | [j] => tokensOf j ++ [.closeArray]
  | j :: js => tokensOf j ++ .comma :: itemTokens js

/-- The tokens of the entries of an object and of its closing brace. -/
def entryTokens : List (String × Json) → List Token
  | [] => [.closeObject]
  | [(name, j)] => .quoted (textOf name) :: .colon :: (tokensOf j ++ [.closeObject])
  | (name, j) :: es => .quoted (textOf name) :: .colon :: (tokensOf j ++ .comma :: entryTokens es)

end

/-! ### Cutting what is written -/

/-- Whether a text has no end within and is cut into some tokens. -/
structure Scans (cs : List Char) (ts : List Token) : Prop where
  endless : ∀ c ∈ cs, c ≠ nul
  tokens : ∀ fuel, cs.length ≤ fuel → scanTokens fuel cs = some ts

theorem scans_nil : Scans [] [] where
  endless c hc := by cases hc
  tokens fuel _ := by cases fuel <;> rfl

/-- What begins with no blank and no comment begins with no gap. -/
theorem skipGap_cons {c : Char} (hgap : isGap c = false) (hslash : c ≠ '/') (fuel : Nat)
    (cs : List Char) : skipGap (fuel + 1) (c :: cs) = c :: cs := by
  rw [skipGap.eq_def]
  split
  · next heq => cases heq
  · next heq => exact absurd (List.cons.inj heq).1 hslash
  · next heq => exact absurd (List.cons.inj heq).1 hslash
  · next hfuel heq =>
      obtain ⟨rfl, rfl⟩ := List.cons.inj heq
      rw [if_neg (by rw [hgap]; decide)]
  · next heq => cases heq

/-- A text that is one token is cut off in front of others. -/
theorem Scans.token {cs rest : List Char} {t : Token} {ts : List Token}
    (hscan : scanToken (cs ++ rest) = some (t, rest))
    (hfirst : ∃ c ds, cs = c :: ds ∧ isGap c = false ∧ c ≠ '/') (hendless : ∀ c ∈ cs, c ≠ nul)
    (hrest : Scans rest ts) : Scans (cs ++ rest) (t :: ts) where
  endless c hc := (List.mem_append.1 hc).elim (hendless c) (hrest.endless c)
  tokens fuel hfuel := by
    obtain ⟨c, ds, rfl, hgap, hslash⟩ := hfirst
    cases fuel with
    | zero => exact absurd hfuel (by simp)
    | succ fuel =>
        simp only [List.cons_append] at hscan hfuel ⊢
        have hshort := hrest.tokens fuel (by simp at hfuel; omega)
        rw [scanTokens, skipGap_cons hgap hslash]
        dsimp only
        rw [hscan]
        dsimp only
        rw [hshort]
        rfl

/-- A character that is a token is cut off. -/
theorem Scans.mark {c : Char} {t : Token} (hscan : ∀ rest, scanToken (c :: rest) = some (t, rest))
    (hc : isGap c = false ∧ c ≠ '/' ∧ c ≠ nul) {rest : List Char} {ts : List Token}
    (h : Scans rest ts) : Scans (c :: rest) (t :: ts) :=
  have htoken : scanToken ([c] ++ rest) = some (t, rest) := hscan rest
  Scans.token htoken ⟨c, [], rfl, hc.1, hc.2.1⟩ (fun _ hd => List.mem_singleton.1 hd ▸ hc.2.2) h

/-- A text between quotes is one token. -/
theorem Scans.quote (s : String) {rest : List Char} {ts : List Token} (h : Scans rest ts) :
    Scans (Json.quote s.toList ++ rest) (.quoted (textOf s) :: ts) := by
  refine Scans.token ?_ ⟨'"', _, rfl, by decide⟩ (fun c => ne_nul_of_mem_quote) h
  have hscan := scanText_quote s rest
  rw [Json.quote, List.append_assoc, List.cons_append, scanToken]
  simp only [List.singleton_append, hscan, Option.map_some]

/-- The characters of a strict spelling. -/
theorem ne_nul_of_mem_chars {n : Spelling} (h : n.IsStrict) {c : Char} (hc : c ∈ n.chars) :
    c ≠ nul := by
  have hdigits {ds : List Char} (hds : AreDigits ds) (hmem : c ∈ ds) : c ≠ nul := by
    rintro rfl
    exact absurd (hds _ hmem) (by decide)
  rw [Spelling.chars] at hc
  rcases List.mem_append.1 hc with hc | hc
  · rw [Spelling.signChars] at hc
    split at hc
    · obtain rfl := List.mem_singleton.1 hc
      decide
    · cases hc
  rcases List.mem_append.1 hc with hc | hc
  · exact hdigits h.digits hc
  rcases List.mem_append.1 hc with hc | hc
  · cases hfraction : n.fraction with
    | none =>
        rw [hfraction] at hc
        cases hc
    | some ds =>
        rw [hfraction] at hc
        rcases List.mem_cons.1 hc with rfl | hc
        · decide
        · exact hdigits (h.fraction ds hfraction).1 hc
  · cases hexponent : n.exponent with
    | none =>
        rw [hexponent] at hc
        cases hc
    | some e =>
        obtain ⟨sign, ds⟩ := e
        obtain ⟨hsign, hds, -⟩ := h.exponent sign ds hexponent
        rw [hexponent] at hc
        rcases List.mem_cons.1 hc with rfl | hc
        · decide
        rcases List.mem_cons.1 hc with rfl | hc
        · rcases hsign with rfl | rfl <;> decide
        · exact hdigits hds hc

/-- What is written for a number is one token. -/
theorem Scans.spelling {n : Spelling} (hn : n.IsStrict) {rest : List Char} {ts : List Token}
    (hdelimited : IsDelimited rest) (h : Scans rest ts) :
    Scans (n.chars ++ rest) (.leaf (.number (numeralOf n)) :: ts) := by
  refine Scans.token (scanToken_chars hn hdelimited) ?_ (fun c => ne_nul_of_mem_chars hn) h
  obtain ⟨c, cs, hcs, hc⟩ := Json.exists_chars_cons hn
  refine ⟨c, cs, hcs, ?_⟩
  rcases hc with hc | rfl
  · -- no blank is as low as a digit, or between the digits
    simp only [Char.isDigit, Bool.and_eq_true, decide_eq_true_eq, ge_iff_le] at hc
    have hge : 48 ≤ c.toNat := UInt32.le_iff_toNat_le.1 hc.1
    have hle : c.toNat ≤ 57 := UInt32.le_iff_toNat_le.1 hc.2
    have hgap : ∀ m ≤ 57, 48 ≤ m → isGap (Char.ofNat m) = false ∧ Char.ofNat m ≠ '/' := by
      decide
    have hresult := hgap c.toNat hle hge
    rwa [Char.ofNat_toNat] at hresult
  · decide

/-- A word for a value is one token. -/
theorem Scans.word (word : String) {v : Loose} (hvalue : wordValue? word = some v)
    (halphanum : word.toList.all Char.isAlphanum = true)
    (hword : ∀ rest, scanToken (word.toList ++ rest) = scanWord (word.toList ++ rest))
    (hfirst : ∃ c ds, word.toList = c :: ds ∧ isGap c = false ∧ c ≠ '/') {rest : List Char}
    {ts : List Token} (hdelimited : IsDelimited rest) (h : Scans rest ts) :
    Scans (word.toList ++ rest) (.leaf v :: ts) := by
  have hchars : ∀ c ∈ word.toList, c.isAlphanum = true := List.all_eq_true.1 halphanum
  have hstop : rest.takeWhile Char.isAlphanum = [] ∧ rest.dropWhile Char.isAlphanum = rest := by
    cases rest with
    | nil => exact ⟨rfl, rfl⟩
    | cons c cs => rcases hdelimited c rfl with rfl | rfl | rfl <;> exact ⟨rfl, rfl⟩
  refine Scans.token ?_ hfirst (fun c hc => ?_) h
  · rw [hword, scanWord, List.takeWhile_append_of_pos hchars, List.dropWhile_append_of_pos hchars,
      hstop.1, hstop.2, List.append_nil, String.ofList_toList, hvalue]
  · rintro rfl
    exact absurd (hchars _ hc) (by decide)

/-- What is written for a value without parts is one token. -/
theorem Scans.leaf (j : Json) (hj : ∀ items, j ≠ .array items) (hj' : ∀ entries, j ≠ .object entries)
    {rest : List Char} {ts : List Token} (hdelimited : IsDelimited rest) (h : Scans rest ts) :
    Scans (printLeaf j ++ rest) (leafToken j :: ts) := by
  have hnull : Scans ("null".toList ++ rest) (.leaf .null :: ts) :=
    Scans.word "null" rfl rfl (fun _ => rfl) ⟨'n', _, rfl, by decide⟩ hdelimited h
  cases j with
  | null => exact hnull
  | unusable => exact hnull
  | bool b =>
      cases b with
      | true =>
          exact Scans.word "true" rfl rfl (fun _ => rfl) ⟨'t', _, rfl, by decide⟩ hdelimited h
      | false =>
          exact Scans.word "false" rfl rfl (fun _ => rfl) ⟨'f', _, rfl, by decide⟩ hdelimited h
  | int i =>
      rw [printLeaf, Json.printInt, Spelling.toString_int]
      exact Scans.spelling (Spelling.isStrict_ofInt i) hdelimited h
  | float x =>
      rw [printLeaf, Json.printFloat, leafToken, leafOf]
      · split
        · next hfinite =>
            rw [Spelling.write_stored hfinite]
            exact Scans.spelling (Spelling.isStrict_ofFloat x) hdelimited h
        · exact hnull
      · nofun
  | string s => exact Scans.quote s h
  | array items => exact absurd rfl (hj items)
  | object entries => exact absurd rfl (hj' entries)

mutual

/-- What is written for a document is cut into its tokens. -/
theorem scans_print : ∀ (j : Json) {rest : List Char} {ts : List Token}, IsDelimited rest →
    Scans rest ts → Scans (Json.print j ++ rest) (tokensOf j ++ ts)
  | .array items, rest, ts, _, h => by
      rw [Json.print, tokensOf]
      exact Scans.mark (fun _ => rfl) (by decide) (scans_printItems items h)
  | .object entries, rest, ts, _, h => by
      rw [Json.print, tokensOf]
      exact Scans.mark (fun _ => rfl) (by decide) (scans_printEntries entries h)
  | .null, _, _, hdelimited, h => Scans.leaf .null nofun nofun hdelimited h
  | .bool b, _, _, hdelimited, h => Scans.leaf (.bool b) nofun nofun hdelimited h
  | .int i, _, _, hdelimited, h => Scans.leaf (.int i) nofun nofun hdelimited h
  | .float x, _, _, hdelimited, h => Scans.leaf (.float x) nofun nofun hdelimited h
  | .string s, _, _, hdelimited, h => Scans.leaf (.string s) nofun nofun hdelimited h
  | .unusable, _, _, hdelimited, h => Scans.leaf .unusable nofun nofun hdelimited h

/-- What is written for the items of an array is cut into their tokens. -/
theorem scans_printItems : ∀ (js : List Json) {rest : List Char} {ts : List Token},
    Scans rest ts → Scans (Json.printItems js ++ rest) (itemTokens js ++ ts)
  | [], _, _, h => Scans.mark (fun _ => rfl) (by decide) h
  | [j], rest, ts, h => by
      rw [Json.printItems, itemTokens, List.append_assoc, List.append_assoc]
      exact scans_print j (Json.isDelimited_closeArray _)
        (Scans.mark (fun _ => rfl) (by decide) h)
  | j :: k :: js, rest, ts, h => by
      rw [Json.printItems, itemTokens, List.append_assoc, List.append_assoc]
      · exact scans_print j (Json.isDelimited_comma _)
          (Scans.mark (fun _ => rfl) (by decide) (scans_printItems (k :: js) h))
      · nofun
      · nofun

/-- What is written for the entries of an object is cut into their tokens. -/
theorem scans_printEntries : ∀ (es : List (String × Json)) {rest : List Char} {ts : List Token},
    Scans rest ts → Scans (Json.printEntries es ++ rest) (entryTokens es ++ ts)
  | [], _, _, h => Scans.mark (fun _ => rfl) (by decide) h
  | [(name, j)], rest, ts, h => by
      rw [Json.printEntries, entryTokens]
      simp only [List.append_assoc, List.cons_append, List.nil_append]
      exact Scans.quote name (Scans.mark (fun _ => rfl) (by decide)
        (scans_print j (Json.isDelimited_closeObject _)
          (Scans.mark (fun _ => rfl) (by decide) h)))
  | (name, j) :: e :: es, rest, ts, h => by
      rw [Json.printEntries, entryTokens]
      · simp only [List.append_assoc, List.cons_append]
        exact Scans.quote name (Scans.mark (fun _ => rfl) (by decide)
          (scans_print j (Json.isDelimited_comma _)
            (Scans.mark (fun _ => rfl) (by decide) (scans_printEntries (e :: es) h))))
      · nofun
      · nofun

end

/-! ### Reading the tokens -/

/-- Where an array may end, a document is read as where it may not. -/
theorem readTokens_item (j : Json) (stack : List Frame) (ts : List Token) :
    readTokens .item stack (tokensOf j ++ ts) = readTokens .value stack (tokensOf j ++ ts) := by
  cases j <;> rfl

/-- The token of a value without parts is read as the value. -/
theorem readTokens_leaf (j : Json) (stack : List Frame) (ts : List Token) :
    readTokens .value stack (leafToken j :: ts) = readTokens (.after (leafOf j)) stack ts := by
  cases j <;> rfl

mutual

/-- The tokens of a document are read as the document, as long as the reader can follow its
nesting. -/
theorem readTokens_tokensOf : ∀ (j : Json) {room : Nat} (stack : List Frame) (ts : List Token),
    j.isSound room = true → room + stack.length ≤ maxNesting →
    readTokens .value stack (tokensOf j ++ ts) = readTokens (.after (ofJson j)) stack ts
  | .array _, 0, _, _, h, _ => by cases h
  | .object _, 0, _, _, h, _ => by cases h
  | .array items, room + 1, stack, ts, h, hroom => by
      rw [tokensOf, ofJson, List.cons_append, readTokens, if_pos (by omega),
        readTokens_itemTokens items [] stack ts h (by omega)]
      rfl
  | .object entries, room + 1, stack, ts, h, hroom => by
      rw [tokensOf, ofJson, List.cons_append, readTokens, if_pos (by omega),
        readTokens_entryTokens entries [] stack ts h (by omega)]
      rfl
  | .null, _, stack, ts, _, _ => readTokens_leaf .null stack ts
  | .bool b, _, stack, ts, _, _ => readTokens_leaf (.bool b) stack ts
  | .int i, _, stack, ts, _, _ => readTokens_leaf (.int i) stack ts
  | .float x, _, stack, ts, _, _ => readTokens_leaf (.float x) stack ts
  | .string s, _, stack, ts, _, _ => readTokens_leaf (.string s) stack ts
  | .unusable, _, stack, ts, _, _ => readTokens_leaf .unusable stack ts

/-- The tokens of items are read as the items behind those that have been read. -/
theorem readTokens_itemTokens : ∀ (js : List Json) {room : Nat} (acc : List Loose)
    (stack : List Frame) (ts : List Token),
    Json.areSound room js = true → room + 1 + stack.length ≤ maxNesting →
    readTokens .item (.array acc :: stack) (itemTokens js ++ ts) =
      readTokens (.after (.array (acc.reverse ++ itemsOf js))) stack ts
  | [], _, acc, stack, ts, _, _ => by
      rw [itemTokens, itemsOf, List.append_nil]
      rfl
  | [j], room, acc, stack, ts, h, hroom => by
      rw [Json.areSound, Bool.and_eq_true] at h
      rw [itemTokens, List.append_assoc, readTokens_item,
        readTokens_tokensOf j _ _ h.1 (by rw [List.length_cons]; omega), List.singleton_append,
        readTokens, List.reverse_cons]
      rfl
  | j :: k :: js, room, acc, stack, ts, h, hroom => by
      rw [Json.areSound, Bool.and_eq_true] at h
      rw [itemTokens]
      · rw [List.append_assoc, readTokens_item,
          readTokens_tokensOf j _ _ h.1 (by rw [List.length_cons]; omega), List.cons_append,
          readTokens, readTokens_itemTokens (k :: js) _ _ _ h.2 hroom, List.reverse_cons,
          List.append_assoc]
        rfl
      · nofun

/-- The tokens of entries are read as the entries behind those that have been read. -/
theorem readTokens_entryTokens : ∀ (es : List (String × Json)) {room : Nat}
    (acc : List (Text × Loose)) (stack : List Frame) (ts : List Token),
    Json.entriesSound room es = true → room + 1 + stack.length ≤ maxNesting →
    readTokens (.name acc) stack (entryTokens es ++ ts) =
      readTokens (.after (.object (acc.reverse ++ entriesOf es))) stack ts
  | [], _, acc, stack, ts, _, _ => by
      rw [entryTokens, entriesOf, List.append_nil]
      rfl
  | [(name, j)], room, acc, stack, ts, h, hroom => by
      rw [Json.entriesSound, Bool.and_eq_true] at h
      rw [entryTokens, List.cons_append, List.cons_append, List.append_assoc, readTokens, readTokens,
        readTokens_tokensOf j _ _ h.1 (by rw [List.length_cons]; omega), List.singleton_append,
        readTokens, List.reverse_cons]
      rfl
  | (name, j) :: e :: es, room, acc, stack, ts, h, hroom => by
      rw [Json.entriesSound, Bool.and_eq_true] at h
      rw [entryTokens]
      · rw [List.cons_append, List.cons_append, List.append_assoc, readTokens, readTokens,
          readTokens_tokensOf j _ _ h.1 (by rw [List.length_cons]; omega), List.cons_append,
          readTokens, readTokens_entryTokens (e :: es) _ _ _ h.2 hroom, List.reverse_cons,
          List.append_assoc]
        rfl
      · nofun

end

/-- **What is read of a document that was written** is the document. -/
theorem read_compress {j : Json} (h : j.isSound maxNesting = true) :
    read (Json.compress j) = some (ofJson j) := by
  have hscans := scans_print j Json.isDelimited_nil scans_nil
  rw [List.append_nil, List.append_nil] at hscans
  have hwhole : (Json.print j).takeWhile (· ≠ nul) = Json.print j := by
    refine List.takeWhile_eq_self_iff.2 fun c hc => ?_
    exact decide_eq_true (hscans.endless c hc)
  have hread := readTokens_tokensOf j [] [] h (Nat.le_refl _)
  rw [List.append_nil] at hread
  rw [read, Json.compress, String.toList_ofList, tokens?]
  simp only [hwhole]
  rw [hscans.tokens _ (Nat.le_refl _), Option.bind_some, hread]
  rfl

end Forecast.Loose
