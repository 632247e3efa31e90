import Mathlib.Data.List.Basic
import Forecast.CandleFile
import Forecast.Operand
import Forecast.Proofs.Failure.Steps

/-!
# Keys of Operands

Ticks are joined to operands by key, and candle files are named after keys. So a key must tell which
operand it is the key of, and the name of a file must tell the key, though it has `_` for `:`.

An author may write an operand in any letters that become letters of ASCII in upper case, but what is
kept of it is in capitals and digits of ASCII (`Instrument.IsPlain`): nothing else passes as the name
of a provider or an asset once the text is read in upper case. In a key of such names the colons and
the first dash stand where they were put, so the key is read as the operand again (`parse_key`). This
is why equal keys are keys of equal operands; and no `_` stands in a key, so that the key can be read
off the name of its file (`eq_of_name_eq`).

## Main results

* `key_identifies`: an operand is read again from its key, and its key and its file are its own.
-/

namespace Forecast

namespace Text

/-! ### Capitals -/

/-- Whether a character is a capital letter or a digit of ASCII. -/
def isCapital (c : Char) : Bool :=
  c.isUpper || c.isDigit

/-- Whether a character may stand in a key. -/
def isKeyChar (c : Char) : Bool :=
  isCapital c || c == ':' || c == '-'

theorem toNat_lt_of_isAlphanum {c : Char} (h : c.isAlphanum = true) : c.toNat < 128 := by
  change (decide ('A'.val ≤ c.val ∧ c.val ≤ 'Z'.val) || ('a'.val ≤ c.val && c.val ≤ 'z'.val) ||
    ('0'.val ≤ c.val && c.val ≤ '9'.val)) = true at h
  simp only [Bool.or_eq_true, Bool.and_eq_true, decide_eq_true_eq, UInt32.le_iff_toNat_le] at h
  have hval : c.toNat = c.val.toNat := rfl
  have hupper : 'Z'.val.toNat = 90 := rfl
  have hlower : 'z'.val.toNat = 122 := rfl
  have hdigit : '9'.val.toNat = 57 := rfl
  omega

theorem isAlphanum_of_isCapital {c : Char} (h : isCapital c = true) : c.isAlphanum = true := by
  rw [isCapital, Bool.or_eq_true] at h
  change (c.isUpper || c.isLower || c.isDigit) = true
  rw [Bool.or_eq_true, Bool.or_eq_true]
  exact h.imp_left Or.inl

theorem toNat_lt_of_isKeyChar {c : Char} (h : isKeyChar c = true) : c.toNat < 128 := by
  simp only [isKeyChar, Bool.or_eq_true, beq_iff_eq] at h
  rcases h with (hc | rfl) | rfl
  · exact toNat_lt_of_isAlphanum (isAlphanum_of_isCapital hc)
  · decide
  · decide

theorem isCapital_cases : ∀ n < 128, isCapital (Char.ofNat n) = true →
    Char.ofNat n ≠ ':' ∧ Char.ofNat n ≠ '-' := by
  decide

theorem isKeyChar_cases : ∀ n < 128, isKeyChar (Char.ofNat n) = true →
    isBlank (Char.ofNat n) = false ∧ (Char.ofNat n).toUpper = Char.ofNat n ∧
      Char.ofNat n ≠ '_' := by
  decide

theorem isAlphanum_cases : ∀ n < 128, (Char.ofNat n).isAlphanum = true →
    isCapital (Char.ofNat n).toUpper = true := by
  decide

/-- Capitals are no signs of a key. -/
theorem ne_of_isCapital {c : Char} (h : isCapital c = true) : c ≠ ':' ∧ c ≠ '-' := by
  have hc := isCapital_cases c.toNat (toNat_lt_of_isAlphanum (isAlphanum_of_isCapital h))
  rw [Char.ofNat_toNat] at hc
  exact hc h

/-- What stands in a key is no blank, is its own upper case, and is no `_`. -/
theorem of_isKeyChar {c : Char} (h : isKeyChar c = true) :
    isBlank c = false ∧ upperChar c = [c] ∧ c ≠ '_' := by
  have hc := isKeyChar_cases c.toNat (toNat_lt_of_isKeyChar h)
  rw [Char.ofNat_toNat] at hc
  obtain ⟨hblank, hupper, hne⟩ := hc h
  exact ⟨hblank, by rw [upperChar, if_pos (toNat_lt_of_isKeyChar h), hupper], hne⟩

/-- Letters and digits of ASCII are capitals in upper case. -/
theorem upperChar_of_isAlphanum {c : Char} (h : c.isAlphanum = true) :
    upperChar c = [c.toUpper] ∧ isCapital c.toUpper = true := by
  have hc := isAlphanum_cases c.toNat (toNat_lt_of_isAlphanum h)
  rw [Char.ofNat_toNat] at hc
  exact ⟨by rw [upperChar, if_pos (toNat_lt_of_isAlphanum h)], hc h⟩

/-! ### Texts that are left as they are -/

/-- A text without blanks has none around it. -/
theorem trimChars_of_forall {cs : List Char} (h : ∀ c ∈ cs, isBlank c = false) :
    trimChars cs = cs := by
  have hdrop {ds : List Char} (hds : ∀ d ∈ ds, isBlank d = false) : ds.dropWhile isBlank = ds := by
    cases ds with
    | nil => rfl
    | cons d ds =>
        rw [List.dropWhile_cons_of_neg (Bool.eq_false_iff.1 (hds d List.mem_cons_self))]
  have hreverse : ∀ c ∈ cs.reverse, isBlank c = false := fun c hc => h c (List.mem_reverse.1 hc)
  rw [trimChars, trimStart, hdrop h, trimEnd, hdrop hreverse, List.reverse_reverse]

/-- A text of characters that are their own upper case is its own. -/
theorem upperChars_of_forall {cs : List Char} (h : ∀ c ∈ cs, upperChar c = [c]) :
    upperChars cs = cs := by
  induction cs with
  | nil => rfl
  | cons c cs ih =>
      obtain ⟨hc, hcs⟩ := List.forall_mem_cons.1 h
      rw [upperChars, List.flatMap_cons, hc]
      exact congrArg (c :: ·) (ih hcs)

/-- The first piece ends at the first separator. -/
theorem pieces_append_cons {separator : Char → Bool} {w : List Char} {c : Char} (cs : List Char)
    (hw : ∀ d ∈ w, separator d = false) (hc : separator c = true) :
    pieces separator (w ++ c :: cs) = w :: pieces separator cs := by
  induction w with
  | nil => rw [List.nil_append, pieces, if_pos hc]
  | cons d w ih =>
      obtain ⟨hd, hw⟩ := List.forall_mem_cons.1 hw
      rw [List.cons_append, pieces, if_neg (Bool.eq_false_iff.1 hd), ih hw]

/-- A text is cut at the first place where the character stands. -/
theorem cutAt_append_cons {separator : Char} {w : List Char} (cs : List Char)
    (hw : ∀ d ∈ w, d ≠ separator) :
    cutAt separator (w ++ separator :: cs) = some (w, cs) := by
  have hpass : ∀ d ∈ w, decide (d ≠ separator) = true := fun d hd => decide_eq_true (hw d hd)
  rw [cutAt, List.dropWhile_append_of_pos hpass, List.takeWhile_append_of_pos hpass]
  simp

end Text

/-! ### Instruments in plain names -/

/-- Whether a name is plain: not empty, and in capital letters and digits of ASCII only. -/
def IsPlainName (w : String) : Prop :=
  w ≠ "" ∧ ∀ c ∈ w.toList, Text.isCapital c = true

instance (w : String) : Decidable (IsPlainName w) :=
  decidable_of_iff (w ≠ "" ∧ w.toList.all Text.isCapital = true) (by
    rw [IsPlainName, List.all_eq_true])

/-- The words in front of what is quoted are plain. -/
theorem isPlainName_kinds : IsPlainName "COIN" ∧ IsPlainName "MARKETCAP" := by
  decide

namespace Instrument

/-- The names that an instrument consists of: who quotes it, and its assets. -/
def names : Instrument → List String
  | .coin p b q => [p, b, q]
  | .marketcap p b => [p, b]

/-- Whether all names of an instrument are plain. -/
def IsPlain (i : Instrument) : Prop :=
  ∀ w ∈ i.names, IsPlainName w

instance (i : Instrument) : Decidable i.IsPlain :=
  inferInstanceAs (Decidable (∀ w ∈ i.names, _))

theorem isPlain_coin {p b q : String} :
    (coin p b q).IsPlain ↔ IsPlainName p ∧ IsPlainName b ∧ IsPlainName q := by
  simp [IsPlain, names]

theorem isPlain_marketcap {p b : String} :
    (marketcap p b).IsPlain ↔ IsPlainName p ∧ IsPlainName b := by
  simp [IsPlain, names]

end Instrument

/-- The characters of a plain name may stand in a key. -/
theorem IsPlainName.isKeyChar {w : String} (h : IsPlainName w) :
    ∀ c ∈ w.toList, Text.isKeyChar c = true := by
  intro c hc
  rw [Text.isKeyChar, h.2 c hc]
  rfl

namespace Operand

/-! ### Reading -/

/-- Which texts pass as names. -/
theorem readSymbol_eq_ok_iff {cs : List Char} {w : String} :
    readSymbol cs = .ok w ↔ isSymbol cs = true ∧ w = String.ofList cs := by
  rw [readSymbol]
  split
  · next h => simp [h, eq_comm]
  · next h => simp [h]

/-- In upper case, what passes as a name is plain. -/
theorem isPlainName_of_readSymbol {cs : List Char} {w : String} (h : readSymbol cs = .ok w) :
    IsPlainName (Text.upper w) := by
  obtain ⟨hsymbol, rfl⟩ := readSymbol_eq_ok_iff.1 h
  rw [isSymbol, Bool.and_eq_true, List.all_eq_true] at hsymbol
  obtain ⟨hne, hall⟩ := hsymbol
  constructor
  · intro hempty
    have hchars := congrArg String.toList hempty
    rw [Text.toList_upper, String.toList_ofList] at hchars
    cases cs with
    | nil => cases hne
    | cons c cs =>
        have hc := (Text.upperChar_of_isAlphanum (hall c List.mem_cons_self)).1
        rw [Text.upperChars, List.flatMap_cons, hc] at hchars
        cases hchars
  · intro d hd
    rw [Text.toList_upper, String.toList_ofList] at hd
    obtain ⟨c, hc, hd⟩ := List.mem_flatMap.1 hd
    obtain ⟨hupper, hcapital⟩ := Text.upperChar_of_isAlphanum (hall c hc)
    rw [hupper, List.mem_singleton] at hd
    exact hd ▸ hcapital

/-- A plain name passes, and is its own upper case. -/
theorem readSymbol_of_plain {w : String} (h : IsPlainName w) :
    readSymbol w.toList = .ok w ∧ Text.upper w = w := by
  refine ⟨readSymbol_eq_ok_iff.2 ⟨?_, String.ofList_toList.symm⟩, ?_⟩
  · rw [isSymbol, Bool.and_eq_true, List.all_eq_true]
    refine ⟨?_, fun c hc => Text.isAlphanum_of_isCapital (h.2 c hc)⟩
    simpa using h.1
  · have hupper : ∀ c ∈ w.toList, Text.upperChar c = [c] := fun c hc =>
      (Text.of_isKeyChar (h.isKeyChar c hc)).2.1
    rw [Text.upper, Text.upperChars_of_forall hupper, String.ofList_toList]

/-- Coins are read name by name. -/
theorem readCoin_eq_ok_iff {provider pair : List Char} {i : Instrument} :
    readCoin provider pair = .ok i ↔
      ∃ base quote p b q, Text.cutAt '-' pair = some (base, quote) ∧ readSymbol provider = .ok p ∧
        readSymbol base = .ok b ∧ readSymbol quote = .ok q ∧ i = .coinOf p b q := by
  constructor
  · intro h
    rw [readCoin] at h
    split at h
    · cases h
    · next base quote hcut =>
        obtain ⟨p, hp, h⟩ := bind_eq_ok_iff.1 h
        obtain ⟨b, hb, h⟩ := bind_eq_ok_iff.1 h
        obtain ⟨q, hq, h⟩ := bind_eq_ok_iff.1 h
        cases h
        exact ⟨base, quote, p, b, q, hcut, hp, hb, hq, rfl⟩
  · rintro ⟨base, quote, p, b, q, hcut, hp, hb, hq, rfl⟩
    simp only [readCoin, hcut, bind_eq_ok_iff]
    exact ⟨p, hp, b, hb, q, hq, rfl⟩

/-- Market capitalisations are read name by name. -/
theorem readMarketcap_eq_ok_iff {provider base : List Char} {i : Instrument} :
    readMarketcap provider base = .ok i ↔
      ∃ p b, readSymbol provider = .ok p ∧ readSymbol base = .ok b ∧ i = .marketcapOf p b := by
  simp only [readMarketcap, bind_eq_ok_iff]
  constructor
  · rintro ⟨p, hp, b, hb, h⟩
    cases h
    exact ⟨p, b, hp, hb, rfl⟩
  · rintro ⟨p, b, hp, hb, rfl⟩
    exact ⟨p, hp, b, hb, rfl⟩

/-- Whether two texts behind a word are the names of an instrument. -/
inductive Reads : List Char → List Char → List Char → Instrument → Prop
  | coin {provider pair : List Char} {i : Instrument} (h : readCoin provider pair = .ok i) :
      Reads "COIN".toList provider pair i
  | marketcap {provider base : List Char} {i : Instrument}
      (h : readMarketcap provider base = .ok i) : Reads "MARKETCAP".toList provider base i

/-- **A text is something quoted** exactly if in upper case it has three pieces between colons: a word
and two texts that are the names of an instrument. -/
theorem parse_eq_market_iff {s : String} {i : Instrument} :
    parse s = .ok (.market i) ↔
      ∃ kind provider rest,
        Text.pieces (· == ':') (Text.upperChars (Text.trimChars s.toList)) = [kind, provider, rest] ∧
        Reads kind provider rest i := by
  constructor
  · intro h
    rw [parse] at h
    split at h
    · cases h
    unfold ofPieces at h
    split at h
    · obtain ⟨v, -, hv⟩ := map_eq_ok_iff.1 h
      cases hv
    · next kind provider rest hpieces =>
        refine ⟨kind, provider, rest, hpieces, ?_⟩
        split at h
        · next hkind =>
            obtain ⟨j, hread, hj⟩ := map_eq_ok_iff.1 h
            cases hj
            exact hkind ▸ .coin hread
        split at h
        · next hkind =>
            obtain ⟨j, hread, hj⟩ := map_eq_ok_iff.1 h
            cases hj
            exact hkind ▸ .marketcap hread
        · cases h
    · cases h
  · rintro ⟨kind, provider, rest, hpieces, hreads⟩
    have hne : (Text.trimChars s.toList).isEmpty = false := by
      cases hcs : Text.trimChars s.toList with
      | nil =>
          rw [hcs] at hpieces
          cases hpieces
      | cons c cs => rfl
    simp only [parse, hne, Bool.false_eq_true, if_false, hpieces]
    cases hreads with
    | coin h => simp only [ofPieces, if_true, h]; rfl
    | marketcap h =>
        have hother : "MARKETCAP".toList ≠ "COIN".toList := by decide
        simp only [ofPieces, if_neg hother, if_true, h]
        rfl

/-- **What is read as something quoted is plain.** -/
theorem isPlain_of_parse {s : String} {i : Instrument} (h : parse s = .ok (.market i)) :
    i.IsPlain := by
  obtain ⟨kind, provider, rest, -, hreads⟩ := parse_eq_market_iff.1 h
  cases hreads with
  | coin h =>
      obtain ⟨_, _, p, b, q, -, hp, hb, hq, rfl⟩ := readCoin_eq_ok_iff.1 h
      exact Instrument.isPlain_coin.2 ⟨isPlainName_of_readSymbol hp, isPlainName_of_readSymbol hb,
        isPlainName_of_readSymbol hq⟩
  | marketcap h =>
      obtain ⟨p, b, hp, hb, rfl⟩ := readMarketcap_eq_ok_iff.1 h
      exact Instrument.isPlain_marketcap.2
        ⟨isPlainName_of_readSymbol hp, isPlainName_of_readSymbol hb⟩

end Operand

/-! ### Keys -/

namespace Instrument

theorem toList_key_coin (p b q : String) :
    (coin p b q).key.toList =
      "COIN".toList ++ ':' :: (p.toList ++ ':' :: (b.toList ++ '-' :: q.toList)) := by
  simp [key]

theorem toList_key_marketcap (p b : String) :
    (marketcap p b).key.toList = "MARKETCAP".toList ++ ':' :: (p.toList ++ ':' :: b.toList) := by
  simp [key]

/-- All that stands in the key of an instrument in plain names may stand there. -/
theorem IsPlain.isKeyChar {i : Instrument} (h : i.IsPlain) :
    ∀ c ∈ i.key.toList, Text.isKeyChar c = true := by
  cases i with
  | coin p b q =>
      obtain ⟨hp, hb, hq⟩ := isPlain_coin.1 h
      simp only [toList_key_coin, List.forall_mem_append, List.forall_mem_cons]
      exact ⟨isPlainName_kinds.1.isKeyChar, rfl, hp.isKeyChar, rfl, hb.isKeyChar, rfl, hq.isKeyChar⟩
  | marketcap p b =>
      obtain ⟨hp, hb⟩ := isPlain_marketcap.1 h
      simp only [toList_key_marketcap, List.forall_mem_append, List.forall_mem_cons]
      exact ⟨isPlainName_kinds.2.isKeyChar, rfl, hp.isKeyChar, rfl, hb.isKeyChar⟩

end Instrument

/-- No colon stands in a plain name. -/
theorem IsPlainName.not_colon {w : String} (h : IsPlainName w) :
    ∀ c ∈ w.toList, (c == ':') = false :=
  fun c hc => beq_false_of_ne (Text.ne_of_isCapital (h.2 c hc)).1

namespace Operand

/-- **A key is read as the operand that it is the key of.** -/
theorem parse_key {i : Instrument} (h : i.IsPlain) : parse i.key = .ok (.market i) := by
  have htrim : Text.trimChars i.key.toList = i.key.toList :=
    Text.trimChars_of_forall fun c hc => (Text.of_isKeyChar (h.isKeyChar c hc)).1
  have hupper : Text.upperChars i.key.toList = i.key.toList :=
    Text.upperChars_of_forall fun c hc => (Text.of_isKeyChar (h.isKeyChar c hc)).2.1
  refine parse_eq_market_iff.2 ?_
  rw [htrim, hupper]
  cases i with
  | coin p b q =>
      obtain ⟨hp, hb, hq⟩ := Instrument.isPlain_coin.1 h
      have hdash : ∀ c ∈ b.toList, c ≠ '-' := fun c hc => (Text.ne_of_isCapital (hb.2 c hc)).2
      have hpair : ∀ c ∈ b.toList ++ '-' :: q.toList, (c == ':') = false := by
        simp only [List.forall_mem_append, List.forall_mem_cons]
        exact ⟨hb.not_colon, rfl, hq.not_colon⟩
      refine ⟨_, p.toList, b.toList ++ '-' :: q.toList, ?_, .coin (readCoin_eq_ok_iff.2 ?_)⟩
      · rw [Instrument.toList_key_coin, Text.pieces_append_cons _ isPlainName_kinds.1.not_colon rfl,
          Text.pieces_append_cons _ hp.not_colon rfl, Text.pieces_of_not_separator hpair]
      · refine ⟨b.toList, q.toList, p, b, q, Text.cutAt_append_cons _ hdash,
          (readSymbol_of_plain hp).1, (readSymbol_of_plain hb).1, (readSymbol_of_plain hq).1, ?_⟩
        rw [Instrument.coinOf, (readSymbol_of_plain hp).2, (readSymbol_of_plain hb).2,
          (readSymbol_of_plain hq).2]
  | marketcap p b =>
      obtain ⟨hp, hb⟩ := Instrument.isPlain_marketcap.1 h
      refine ⟨_, p.toList, b.toList, ?_, .marketcap (readMarketcap_eq_ok_iff.2 ?_)⟩
      · rw [Instrument.toList_key_marketcap,
          Text.pieces_append_cons _ isPlainName_kinds.2.not_colon rfl,
          Text.pieces_append_cons _ hp.not_colon rfl, Text.pieces_of_not_separator hb.not_colon]
      · refine ⟨p, b, (readSymbol_of_plain hp).1, (readSymbol_of_plain hb).1, ?_⟩
        rw [Instrument.marketcapOf, (readSymbol_of_plain hp).2, (readSymbol_of_plain hb).2]

/-- Instruments in plain names with one key are the same. -/
theorem eq_of_key_eq {i j : Instrument} (hi : i.IsPlain) (hj : j.IsPlain) (h : i.key = j.key) :
    i = j := by
  have hread : parse i.key = .ok (.market j) := h ▸ parse_key hj
  rw [parse_key hi] at hread
  cases hread
  rfl

end Operand

/-! ### Files -/

namespace CandleFile

/-- The character of a key that stands for one of the name of its file. -/
def keyChar (c : Char) : Char :=
  if c = '_' then ':' else c

/-- **Keys without `_` can be read off the names of their files.** -/
theorem eq_of_name_eq {key key' : String} (h : ∀ c ∈ key.toList, c ≠ '_')
    (h' : ∀ c ∈ key'.toList, c ≠ '_') (hname : name key = name key') : key = key' := by
  have hback {cs : List Char} (hcs : ∀ c ∈ cs, c ≠ '_') :
      (cs.map fun c => if c = ':' then '_' else c).map keyChar = cs := by
    rw [List.map_map]
    refine (List.map_congr_left fun c hc => ?_).trans (List.map_id cs)
    by_cases hcolon : c = ':'
    · rw [hcolon]
      rfl
    · simp [keyChar, hcolon, hcs c hc]
  have hchars := congrArg String.toList hname
  simp only [name, String.toList_append, String.toList_ofList] at hchars
  have hmap := congrArg (List.map keyChar) (List.append_cancel_right hchars)
  rw [hback h, hback h'] at hmap
  exact String.toList_inj.1 hmap

end CandleFile

namespace Operand

/-- **Keys identify operands.** An operand that is read from a text, and is no number, consists of names
that are not empty and in capital letters and digits of ASCII. It is read again from its key. No other
operand that is read from a text has its key, nor one whose file has the name of its file. -/
theorem key_identifies {s : String} {i : Instrument} (h : parse s = .ok (.market i)) :
    i.IsPlain ∧ parse i.key = .ok (.market i) ∧
      ∀ s' j, parse s' = .ok (.market j) →
        i.key = j.key ∨ CandleFile.name i.key = CandleFile.name j.key → i = j := by
  have hi := isPlain_of_parse h
  refine ⟨hi, parse_key hi, fun s' j hs' hsame => ?_⟩
  have hj := isPlain_of_parse hs'
  have hunderscore {k : Instrument} (hk : k.IsPlain) : ∀ c ∈ k.key.toList, c ≠ '_' := fun c hc =>
    (Text.of_isKeyChar (hk.isKeyChar c hc)).2.2
  rcases hsame with hkey | hname
  · exact eq_of_key_eq hi hj hkey
  · exact eq_of_key_eq hi hj (CandleFile.eq_of_name_eq (hunderscore hi) (hunderscore hj) hname)

/-- A coin in letters of which some are none of ASCII. -/
def oddCoin : String :=
  " coin:b\u0131nance:\u00dftc-u\u017fdt"

/-- The capitalisation of an asset that has the name of the coin. -/
def oddCap : String :=
  "MarketCap:B\u0131nance:\u00dftc"

/-- Two texts in such letters are read as instruments in plain names, whose files have different
names. -/
theorem key_identifies_odd :
    parse oddCoin = .ok (.market (.coin "BINANCE" "SSTC" "USDT")) ∧
      (Instrument.coin "BINANCE" "SSTC" "USDT").IsPlain ∧
      parse "COIN:BINANCE:SSTC-USDT" = .ok (.market (.coin "BINANCE" "SSTC" "USDT")) ∧
      parse oddCap = .ok (.market (.marketcap "BINANCE" "SSTC")) ∧
      CandleFile.name "COIN:BINANCE:SSTC-USDT" ≠ CandleFile.name "MARKETCAP:BINANCE:SSTC" := by
  have hcoin : parse oddCoin = .ok (.market (.coin "BINANCE" "SSTC" "USDT")) := by
    with_unfolding_all rfl
  have hcap : parse oddCap = .ok (.market (.marketcap "BINANCE" "SSTC")) := by
    with_unfolding_all rfl
  obtain ⟨hplain, hread, hown⟩ := key_identifies hcoin
  refine ⟨hcoin, hplain, hread, hcap, fun hname => ?_⟩
  have hsame := hown oddCap (.marketcap "BINANCE" "SSTC") hcap (Or.inr hname)
  cases hsame

end Operand

end Forecast
