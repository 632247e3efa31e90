import Forecast.Condition
import Forecast.Proofs.Clause.Information
import Forecast.Proofs.Clause.Spelling

/-!
# Clauses in Words

A clause in words is a written clause, in which just the chains within chains and the chains under
`not` stand in parentheses (`Clause.asWritten`). Reading it gives the clause again
(`parse_render`), whatever parentheses the text had that the clause was read from.

That the words have these tokens is said of words with others after them (`Clause.Spans`), since
the words of a clause are put together from those of its members. A name could go on in what
follows it, so this must not begin with a character of a word.

Parentheses are openings, and they are the only ones that can be done without. No written clause of
the same meaning has fewer openings around its primaries than the clause in words
(`nesting_asWritten_le`), so the limit on them is kept.

## Main results

* `lexes_render`: the tokens of a clause in words.
* `nesting_asWritten_le`: a clause in words is nested as little as possible.
* `parse_render`: a clause that is read is read again from its words.
-/

namespace Forecast

namespace Clause

/-! ### The written clause -/

/-- The written clause with some members in a chain. A chain of one is its member; one without
members is not written, and anything may stand for it. -/
def Joiner.written (j : Joiner) : List Primary → Written
  | [] => .single (.name "")
  | [p] => .single p
  | p :: q :: ps => .chain j p q ps

section Printed

variable (nameAt : Nat → Option String)

mutual

/-- The primary that a clause is written as within another one. -/
def asPrimary : Clause → Primary
  | .literal i => .name ((nameAt i).getD ("#" ++ toString i))
  | .conj cs => .parens (Joiner.written .and (asPrimaries cs))
  | .disj cs => .parens (Joiner.written .or (asPrimaries cs))
  | .neg c => .not (asPrimary c)

/-- The primaries that the members of a chain are written as. -/
def asPrimaries : List Clause → List Primary
  | [] => []
  | c :: cs => asPrimary c :: asPrimaries cs

end

/-- The written clause that a clause is written as. -/
def asWritten : Clause → Written
  | .literal i => .single (asPrimary nameAt (.literal i))
  | .conj cs => Joiner.written .and (asPrimaries nameAt cs)
  | .disj cs => Joiner.written .or (asPrimaries nameAt cs)
  | .neg c => .single (asPrimary nameAt (.neg c))

/-- The words of a clause within another one. -/
def renderMember (c : Clause) : String :=
  if c.isChain then parenthesised (c.render nameAt) else c.render nameAt

/-- The word of a joiner with the blanks around it. -/
def Joiner.words : Joiner → String
  | .and => " and "
  | .or => " or "

end Printed

variable {nameAt : Nat → Option String} {declared : String → Option Nat}

/-- A chain is written as its members with the joiner between them. -/
theorem asWritten_chain (j : Joiner) (cs : List Clause) :
    asWritten nameAt (j.chain cs) = j.written (asPrimaries nameAt cs) := by
  cases j <;> rfl

/-- A chain in words. -/
theorem render_chain (j : Joiner) (cs : List Clause) :
    (j.chain cs).render nameAt = j.words.intercalate (cs.map (renderMember nameAt)) := by
  have heach : renderEach nameAt cs = cs.map (renderMember nameAt) := by
    induction cs with
    | nil => rfl
    | cons c cs ih => simp only [renderEach, ih, List.map_cons, renderMember]
  cases j <;> simp only [Joiner.chain, render, heach, Joiner.words]

/-! ### Words before other words -/

/-- Whether a text has some tokens wherever it stands before a text that does not go on with a
word. -/
def Spans (cs : List Char) (ts : List Token) : Prop :=
  ∀ rest us, (∀ c ∈ rest.head?, isWordChar c = false) → Lexes rest us →
    Lexes (cs ++ rest) (ts ++ us)

/-- A text has its tokens where nothing stands after it. -/
theorem Spans.lexes {cs : List Char} {ts : List Token} (h : Spans cs ts) : Lexes cs ts := by
  have hlexes : Lexes (cs ++ []) (ts ++ []) := h [] [] (by rintro _ ⟨⟩) .finish
  rwa [List.append_nil, List.append_nil] at hlexes

/-- A keyword and a blank after it. -/
theorem lexes_keyword (word : String) {t : Token} {rest : List Char} {us : List Token}
    (hne : word.toList ≠ []) (hword : word.toList.all isWordChar = true)
    (ht : ofWord (Text.lower word) = t) (hrest : Lexes rest us) :
    Lexes (word.toList ++ ' ' :: rest) (t :: us) := by
  have hblank : ∀ c ∈ (' ' :: rest).head?, isWordChar c = false := by
    rintro c ⟨⟩
    decide
  subst ht
  exact .word hne (List.all_eq_true.1 hword) hblank (.gap (by decide) hrest)

/-- A name spans its token. -/
theorem spans_name {name : String} (hname : isName name = true) (hlower : Text.lower name = name) :
    Spans name.toList [.name name] := by
  simp only [isName, Bool.and_eq_true, decide_eq_true_eq, List.all_eq_true, Bool.not_eq_true',
    hlower] at hname
  obtain ⟨⟨hne, hchars⟩, hkeyword⟩ := hname
  have htoken : ofWord name = .name name := by
    unfold ofWord
    split
    · exact absurd hkeyword (by decide)
    · exact absurd hkeyword (by decide)
    · exact absurd hkeyword (by decide)
    · rfl
  intro rest us hrest hus
  have hlexes := Lexes.word (mt String.toList_eq_nil_iff.1 hne) hchars hrest hus
  rwa [← Text.lower, hlower, htoken] at hlexes

/-- Parentheses around a text. -/
theorem Spans.parenthesised {s : String} {ts : List Token} (h : Spans s.toList ts) :
    Spans (parenthesised s).toList (.openParen :: (ts ++ [.closeParen])) := by
  intro rest us hrest hus
  have hclose : ∀ c ∈ (')' :: rest).head?, isWordChar c = false := by
    rintro c ⟨⟩
    decide
  have hlexes := Lexes.openParen (h _ _ hclose (.closeParen hus))
  simpa [Clause.parenthesised] using hlexes

/-- The word `not` before a text. -/
theorem Spans.not {s : String} {ts : List Token} (h : Spans s.toList ts) :
    Spans ("not " ++ s).toList (.not :: ts) := by
  intro rest us hrest hus
  have hlexes : Lexes ("not".toList ++ ' ' :: (s.toList ++ rest)) (.not :: (ts ++ us)) :=
    lexes_keyword "not" (by decide) (by decide) (by decide) (h _ _ hrest hus)
  simpa using hlexes

/-- A joiner between two texts. -/
theorem Spans.joined {cs ds : List Char} {ts us : List Token} (j : Joiner) (hcs : Spans cs ts)
    (hds : Spans ds us) :
    Spans (cs ++ (j.words.toList ++ ds)) (ts ++ j.token :: us) := by
  intro rest vs hrest hvs
  have hlexes : Lexes (j.words.toList ++ (ds ++ rest)) (j.token :: (us ++ vs)) := by
    cases j with
    | and =>
        exact .gap (by decide) (lexes_keyword "and" (by decide) (by decide) (by decide)
          (hds _ _ hrest hvs))
    | or =>
        exact .gap (by decide) (lexes_keyword "or" (by decide) (by decide) (by decide)
          (hds _ _ hrest hvs))
  have hblank : ∀ c ∈ (j.words.toList ++ (ds ++ rest)).head?, isWordChar c = false := by
    cases j <;> (rintro c ⟨⟩; decide)
  simpa using hcs _ _ hblank hlexes

/-! ### The words of a clause -/

/-- Members of a chain after a first text, each with the joiner before it. -/
theorem spans_intercalate (j : Joiner) {cs : List Clause}
    (hcs : ∀ c ∈ cs, Spans (renderMember nameAt c).toList (asPrimary nameAt c).tokens) {s : String}
    {ts : List Token} (hs : Spans s.toList ts) :
    Spans (j.words.intercalate (s :: cs.map (renderMember nameAt))).toList
      (ts ++ memberTokens j (asPrimaries nameAt cs)) := by
  induction cs generalizing s ts with
  | nil =>
      rw [asPrimaries, memberTokens, List.append_nil, List.map_nil, String.intercalate_singleton]
      exact hs
  | cons c cs ih =>
      obtain ⟨hc, hcs⟩ := List.forall_mem_cons.1 hcs
      rw [asPrimaries, memberTokens, List.map_cons, String.intercalate_cons_cons,
        String.toList_append, String.toList_append, List.append_assoc]
      exact Spans.joined j hs (ih hcs hc)

/-- A chain of two members or more. -/
theorem spans_chain (j : Joiner) {cs : List Clause} (hlength : 2 ≤ cs.length)
    (hcs : ∀ c ∈ cs, Spans (renderMember nameAt c).toList (asPrimary nameAt c).tokens) :
    Spans ((j.chain cs).render nameAt).toList (j.written (asPrimaries nameAt cs)).tokens := by
  rw [render_chain]
  match cs, hlength with
  | c :: d :: cs, _ =>
      obtain ⟨hc, hcs⟩ := List.forall_mem_cons.1 hcs
      rw [asPrimaries, asPrimaries, Joiner.written, Written.tokens_chain, ← asPrimaries]
      exact spans_intercalate j hcs hc

/-- Every member of full chains has full chains. -/
theorem AllHaveFullChains.of_mem {cs : List Clause} (h : AllHaveFullChains cs) :
    ∀ c ∈ cs, c.HasFullChains := by
  induction cs with
  | nil => exact nofun
  | cons c cs ih => exact List.forall_mem_cons.2 ⟨h.1, ih h.2⟩

/-- Whether every leaf of a clause has a name that can stand for it in a text. -/
def HasNames (nameAt : Nat → Option String) (c : Clause) : Prop :=
  ∀ i ∈ c.references, ∃ name, nameAt i = some name ∧ isName name = true ∧ Text.lower name = name

/-- If a clause in words has its tokens, it also has them within another clause. -/
theorem Spans.member {c : Clause}
    (h : Spans (c.render nameAt).toList (asWritten nameAt c).tokens) :
    Spans (renderMember nameAt c).toList (asPrimary nameAt c).tokens := by
  cases c with
  | literal i => exact h
  | neg c => exact h
  | conj cs => exact h.parenthesised
  | disj cs => exact h.parenthesised

/-- A clause in words spans the tokens of the clause that it is written as. -/
theorem spans_render {c : Clause} (hfull : c.HasFullChains) (hnames : c.HasNames nameAt) :
    Spans (c.render nameAt).toList (asWritten nameAt c).tokens := by
  induction c using Clause.induction with
  | literal i =>
      obtain ⟨name, hname, hvalid, hlower⟩ := hnames i List.mem_cons_self
      simpa only [render, asWritten, asPrimary, Written.tokens, Primary.tokens, hname,
        Option.getD_some] using spans_name hvalid hlower
  | neg c ih =>
      rw [render, asWritten, Written.tokens, asPrimary, Primary.tokens]
      exact (ih hfull hnames).member.not
  | conj cs ih =>
      obtain ⟨hlength, hfull⟩ := hfull
      refine spans_chain .and hlength fun c hc => (ih c hc (hfull.of_mem c hc) ?_).member
      exact fun i hi => hnames i (mem_referencesOf hc hi)
  | disj cs ih =>
      obtain ⟨hlength, hfull⟩ := hfull
      refine spans_chain .or hlength fun c hc => (ih c hc (hfull.of_mem c hc) ?_).member
      exact fun i hi => hnames i (mem_referencesOf hc hi)

/-- **The tokens of a clause in words** are those of the clause that it is written as. -/
theorem lexes_render {c : Clause} (hfull : c.HasFullChains) (hnames : c.HasNames nameAt) :
    Lexes (c.render nameAt).toList (asWritten nameAt c).tokens :=
  (spans_render hfull hnames).lexes

/-! ### The meaning of the words -/

/-- Whether the names of the leaves of a clause are declared for them. -/
def Declares (declared : String → Option Nat) (nameAt : Nat → Option String) (c : Clause) : Prop :=
  ∀ i ∈ c.references, ∃ name, nameAt i = some name ∧ declared name = some i

/-- The members of a chain mean what they are written as if each of them does. -/
theorem memberClauses?_asPrimaries {cs : List Clause}
    (h : ∀ c ∈ cs, (asPrimary nameAt c).clause? declared = some c) :
    memberClauses? declared (asPrimaries nameAt cs) = some cs := by
  induction cs with
  | nil => rfl
  | cons c cs ih =>
      obtain ⟨hc, hcs⟩ := List.forall_mem_cons.1 h
      exact memberClauses?_cons_eq_some_iff.2 ⟨c, cs, hc, ih hcs, rfl⟩

/-- A chain of two members or more means what it is written as if each of its members does. -/
theorem clause?_chain (j : Joiner) {cs : List Clause} (hlength : 2 ≤ cs.length)
    (h : ∀ c ∈ cs, (asPrimary nameAt c).clause? declared = some c) :
    (j.written (asPrimaries nameAt cs)).clause? declared = some (j.chain cs) := by
  match cs, hlength with
  | c :: d :: cs, _ =>
      obtain ⟨hc, h⟩ := List.forall_mem_cons.1 h
      obtain ⟨hd, h⟩ := List.forall_mem_cons.1 h
      exact Written.clause?_chain_eq_some_iff.2
        ⟨c, d, cs, hc, hd, memberClauses?_asPrimaries h, rfl⟩

/-- A clause means what it is written as within another one. -/
theorem clause?_asPrimary {c : Clause} (hfull : c.HasFullChains)
    (hdeclared : c.Declares declared nameAt) : (asPrimary nameAt c).clause? declared = some c := by
  induction c using Clause.induction with
  | literal i =>
      obtain ⟨name, hname, hi⟩ := hdeclared i List.mem_cons_self
      simp only [asPrimary, Primary.clause?, hname, Option.getD_some, hi, Option.map_some]
  | neg c ih => simp only [asPrimary, Primary.clause?, ih hfull hdeclared, Option.map_some]
  | conj cs ih =>
      obtain ⟨hlength, hfull⟩ := hfull
      refine clause?_chain .and hlength fun c hc => ih c hc (hfull.of_mem c hc) ?_
      exact fun i hi => hdeclared i (mem_referencesOf hc hi)
  | disj cs ih =>
      obtain ⟨hlength, hfull⟩ := hfull
      refine clause?_chain .or hlength fun c hc => ih c hc (hfull.of_mem c hc) ?_
      exact fun i hi => hdeclared i (mem_referencesOf hc hi)

/-- A clause means what it is written as. -/
theorem clause?_asWritten {c : Clause} (hfull : c.HasFullChains)
    (hdeclared : c.Declares declared nameAt) : (asWritten nameAt c).clause? declared = some c := by
  have hprimary := clause?_asPrimary hfull hdeclared
  cases c with
  | literal i => exact hprimary
  | neg c => exact hprimary
  | conj cs => exact hprimary
  | disj cs => exact hprimary

/-! ### The nesting of the words -/

/-- What a clause is written as within another one has at most the parentheses besides. -/
theorem nesting_asPrimary_le (c : Clause) :
    (asPrimary nameAt c).nesting ≤ (asWritten nameAt c).nesting + 1 := by
  cases c with
  | literal i => exact Nat.le_succ _
  | neg c => exact Nat.le_succ _
  | conj cs => exact Nat.le_refl _
  | disj cs => exact Nat.le_refl _

/-- A clause on its own is not nested deeper than within another one. -/
theorem nesting_asWritten_le_asPrimary (c : Clause) :
    (asWritten nameAt c).nesting ≤ (asPrimary nameAt c).nesting := by
  cases c with
  | literal i => exact Nat.le_refl _
  | neg c => exact Nat.le_refl _
  | conj cs => exact Nat.le_succ _
  | disj cs => exact Nat.le_succ _

mutual

/-- No primary of the same meaning is nested less than what the clause is written as within another
one. -/
theorem Primary.nesting_asPrimary_le : ∀ (p : Primary) {c : Clause},
    p.clause? declared = some c → (asPrimary nameAt c).nesting ≤ p.nesting
  | .name word, c, h => by
      simp only [Primary.clause?, Option.map_eq_some_iff] at h
      obtain ⟨i, -, rfl⟩ := h
      exact Nat.le_refl 0
  | .not p, c, h => by
      simp only [Primary.clause?, Option.map_eq_some_iff] at h
      obtain ⟨d, hd, rfl⟩ := h
      exact Nat.succ_le_succ (p.nesting_asPrimary_le hd)
  | .parens w, c, h => by
      have hle := w.nesting_asWritten_le h
      exact (nesting_asPrimary_le c).trans (Nat.succ_le_succ hle)

/-- **A clause in words is nested as little as possible:** no written clause of the same meaning is
nested less. -/
theorem Written.nesting_asWritten_le : ∀ (w : Written) {c : Clause},
    w.clause? declared = some c → (asWritten nameAt c).nesting ≤ w.nesting
  | .single p, c, h => (nesting_asWritten_le_asPrimary c).trans (p.nesting_asPrimary_le h)
  | .chain j p q ps, c, h => by
      obtain ⟨a, b, cs, ha, hb, hcs, rfl⟩ := Written.clause?_chain_eq_some_iff.1 h
      have hp := p.nesting_asPrimary_le ha
      have hq := q.nesting_asPrimary_le hb
      have hps := memberNesting_asPrimaries_le ps hcs
      rw [asWritten_chain, asPrimaries, asPrimaries, Joiner.written, Written.nesting,
        Written.nesting]
      omega

/-- No further members of the same meaning are nested less than what the members of a chain are
written as. -/
theorem memberNesting_asPrimaries_le : ∀ (ps : List Primary) {cs : List Clause},
    memberClauses? declared ps = some cs →
      memberNesting (asPrimaries nameAt cs) ≤ memberNesting ps
  | [], cs, h => by
      simp only [memberClauses?, Option.some.injEq] at h
      subst h
      exact Nat.le_refl 0
  | p :: ps, cs, h => by
      obtain ⟨a, bs, ha, hbs, rfl⟩ := memberClauses?_cons_eq_some_iff.1 h
      have hp := p.nesting_asPrimary_le ha
      have hps := memberNesting_asPrimaries_le ps hbs
      rw [asPrimaries, memberNesting, memberNesting]
      omega

end

/-! ### Reading the words -/

section Reading

variable {given : List (Condition Price)}

/-- The leaves of a clause that is read are positions that are declared for names. -/
theorem exists_declared_of_clause? {w : Written} {c : Clause}
    (h : w.clause? declared = some c) : ∀ i ∈ c.references, ∃ word, declared word = some i := by
  intro i hi
  have hmem : some i ∈ (namesIn w.tokens).map declared := by
    rw [w.references_of_clause? h]
    exact List.mem_map_of_mem hi
  obtain ⟨word, -, hword⟩ := List.mem_map.1 hmem
  exact ⟨word, hword⟩

/-- The name of a condition, if the name can stand in a text, is one that a leaf can be written
as. -/
theorem hasNames_of_valid
    (hvalid : ∀ c ∈ given, isName c.name = true ∧ Text.lower c.name = c.name) {c : Clause}
    (hnames : ∀ i ∈ c.references, ∃ word, given[i]?.map (·.name) = some word) :
    c.HasNames fun i => given[i]?.map (·.name) := by
  intro i hi
  obtain ⟨word, hword⟩ := hnames i hi
  obtain ⟨d, hd, rfl⟩ := Option.map_eq_some_iff.1 hword
  obtain ⟨hname, hlower⟩ := hvalid d (List.mem_of_getElem? hd)
  exact ⟨d.name, hword, hname, hlower⟩

/-- **A clause that is read is read again from its words.** Let every name that is declared be that
of the condition at its position, and let the names of conditions be in lower case and fit to stand
in a text. Then whatever text a clause is read from, it is also read from its own words. These are a
written clause that is nested as little as possible, so the limit on openings is never in the
way. -/
theorem parse_render (hvalid : ∀ c ∈ given, isName c.name = true ∧ Text.lower c.name = c.name)
    (hdeclared : ∀ word i, declared word = some i → given[i]?.map (·.name) = some word)
    {text : String} {c : Clause} (h : parse declared text = .ok c) :
    parse declared (c.render fun i => given[i]?.map (·.name)) = .ok c ∧
      ∃ w : Written, Lexes (c.render fun i => given[i]?.map (·.name)).toList w.tokens ∧
        w.clause? declared = some c ∧ w.nesting ≤ 31 ∧
          ∀ v : Written, v.clause? declared = some c → w.nesting ≤ v.nesting := by
  obtain ⟨v, -, hv, hmeans⟩ := exists_written_of_parse h
  have hfull : c.HasFullChains := v.hasFullChains_of_clause? hmeans
  have hdeclares : c.Declares declared fun i => given[i]?.map (·.name) := by
    intro i hi
    obtain ⟨word, hword⟩ := exists_declared_of_clause? hmeans i hi
    exact ⟨word, hdeclared word i hword, hword⟩
  have hnames : c.HasNames fun i => given[i]?.map (·.name) := by
    refine hasNames_of_valid hvalid fun i hi => ?_
    obtain ⟨word, hword, -⟩ := hdeclares i hi
    exact ⟨word, hword⟩
  have hlexes := lexes_render hfull hnames
  have hagain := clause?_asWritten hfull hdeclares
  have hleast (v : Written) (hv : v.clause? declared = some c) :
      (asWritten (fun i => given[i]?.map (·.name)) c).nesting ≤ v.nesting :=
    v.nesting_asWritten_le hv
  have hle := (hleast v hmeans).trans hv
  exact ⟨parse_of_written hlexes hle hagain, _, hlexes, hagain, hle, hleast⟩

/-- Two conditions with names that are not alike. -/
def upAndDown : List (Condition Price) :=
  [.fresh "up" .above [] 0 1 0, .fresh "down_2" .below [] 0 1 0]

/-- Parentheses that a clause can do without are not in its words, and it is read again. -/
theorem parse_render_upAndDown :
    parse (fun word => upAndDown.findIdx? (·.name == word)) "((UP)) and not(up or(NOT down_2))" =
        .ok (.conj [.literal 0, .neg (.disj [.literal 0, .neg (.literal 1)])]) ∧
      parse (fun word => upAndDown.findIdx? (·.name == word)) "up and not (up or not down_2)" =
        .ok (.conj [.literal 0, .neg (.disj [.literal 0, .neg (.literal 1)])]) := by
  have hread : parse (fun word => upAndDown.findIdx? (·.name == word))
      "((UP)) and not(up or(NOT down_2))" =
        .ok (.conj [.literal 0, .neg (.disj [.literal 0, .neg (.literal 1)])]) := by
    with_unfolding_all rfl
  have hdeclared (word : String) (i : Nat)
      (hi : upAndDown.findIdx? (·.name == word) = some i) :
      upAndDown[i]?.map (·.name) = some word := by
    obtain ⟨hlt, hname, -⟩ := List.findIdx?_eq_some_iff_getElem.1 hi
    rw [List.getElem?_eq_getElem hlt, Option.map_some, beq_iff_eq.1 hname]
  have hvalid : ∀ c ∈ upAndDown, isName c.name = true ∧ Text.lower c.name = c.name := by decide
  have hwords : (Clause.conj [.literal 0, .neg (.disj [.literal 0, .neg (.literal 1)])]).render
      (fun i => upAndDown[i]?.map (·.name)) = "up and not (up or not down_2)" := by rfl
  have hagain := (parse_render hvalid hdeclared hread).1
  rw [hwords] at hagain
  exact ⟨hread, hagain⟩

end Reading

end Clause

end Forecast
