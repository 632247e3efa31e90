import Forecast.Proofs.Clause.Parsing

/-!
# Clauses and the Names in Their Texts

The leaves of a clause are positions, and what is written in a text are names. A text spells a
clause (`Clause.Spells`) if its names are, one by one and in their order, the names of the
conditions at the leaves. Nothing else of a clause says which conditions it is about, so this is
what has to hold of a clause that is read; where its parentheses stand does not matter to it.

A clause that is read also has no chain with less than two members (`Clause.HasFullChains`).
-/

namespace Forecast

namespace Clause

/-- The name that a token is, if it is no keyword and no parenthesis. -/
def Token.name? : Token → Option String
  | .name word => some word
  | _ => none

/-- The names among some tokens, in their order. -/
def namesIn (ts : List Token) : List String :=
  ts.filterMap Token.name?

@[simp] theorem namesIn_nil : namesIn [] = [] := rfl

@[simp] theorem namesIn_name (word : String) (ts : List Token) :
    namesIn (.name word :: ts) = word :: namesIn ts := rfl

@[simp] theorem namesIn_not (ts : List Token) : namesIn (.not :: ts) = namesIn ts := rfl

@[simp] theorem namesIn_openParen (ts : List Token) :
    namesIn (.openParen :: ts) = namesIn ts := rfl

@[simp] theorem namesIn_closeParen (ts : List Token) :
    namesIn (.closeParen :: ts) = namesIn ts := rfl

@[simp] theorem namesIn_joiner (j : Joiner) (ts : List Token) :
    namesIn (j.token :: ts) = namesIn ts := by
  cases j <;> rfl

@[simp] theorem namesIn_append (ts us : List Token) :
    namesIn (ts ++ us) = namesIn ts ++ namesIn us :=
  List.filterMap_append

/-- Whether a text spells a clause, given the names of the conditions: the first name in it is that
of the condition at the first leaf, and so on, up to the last name and the last leaf. -/
def Spells (nameAt : Nat → Option String) (text : String) (c : Clause) : Prop :=
  ∃ ts, Lexes text.toList ts ∧ c.references.map nameAt = (namesIn ts).map some

mutual

/-- Whether every chain in a clause has two members or more. -/
def HasFullChains : Clause → Prop
  | .literal _ => True
  | .conj cs => 2 ≤ cs.length ∧ AllHaveFullChains cs
  | .disj cs => 2 ≤ cs.length ∧ AllHaveFullChains cs
  | .neg c => HasFullChains c

/-- Whether every chain in a list of clauses has two members or more. -/
def AllHaveFullChains : List Clause → Prop
  | [] => True
  | c :: cs => HasFullChains c ∧ AllHaveFullChains cs

end

/-- A chain of two clauses or more is full if they are. -/
theorem hasFullChains_chain {j : Joiner} {a b : Clause} {cs : List Clause}
    (ha : a.HasFullChains) (hb : b.HasFullChains) (hcs : AllHaveFullChains cs) :
    (j.chain (a :: b :: cs)).HasFullChains := by
  have hlength : 2 ≤ (a :: b :: cs).length := Nat.le_add_left 2 cs.length
  cases j with
  | and => exact ⟨hlength, ha, hb, hcs⟩
  | or => exact ⟨hlength, ha, hb, hcs⟩

/-- The leaves of a chain are those of its members. -/
theorem references_chain (j : Joiner) (cs : List Clause) :
    (j.chain cs).references = referencesOf cs := by
  cases j <;> rfl

section Meaning

variable {declared : String → Option Nat}

/-! ### Leaves and names -/

mutual

/-- The leaves of the clause that a primary means are the positions of the names in it. -/
theorem Primary.references_of_clause? : ∀ (p : Primary) {c : Clause},
    p.clause? declared = some c → (namesIn p.tokens).map declared = c.references.map some
  | .name word, c, h => by
      simp only [Primary.clause?, Option.map_eq_some_iff] at h
      obtain ⟨i, hi, rfl⟩ := h
      simp only [Primary.tokens, namesIn_name, namesIn_nil, List.map_cons, List.map_nil, hi,
        references]
  | .not p, c, h => by
      simp only [Primary.clause?, Option.map_eq_some_iff] at h
      obtain ⟨d, hd, rfl⟩ := h
      simpa only [Primary.tokens, namesIn_not, references] using p.references_of_clause? hd
  | .parens w, c, h => by
      simpa only [Primary.tokens, namesIn_openParen, namesIn_append, namesIn_closeParen,
        namesIn_nil, List.append_nil] using w.references_of_clause? h

/-- The leaves of the clause that a written clause means are the positions of the names in it. -/
theorem Written.references_of_clause? : ∀ (w : Written) {c : Clause},
    w.clause? declared = some c → (namesIn w.tokens).map declared = c.references.map some
  | .single p, _, h => p.references_of_clause? h
  | .chain j p q ps, c, h => by
      obtain ⟨a, b, cs, ha, hb, hcs, rfl⟩ := Written.clause?_chain_eq_some_iff.1 h
      simp only [Written.tokens, namesIn_append, namesIn_joiner, List.map_append,
        references_chain, referencesOf, p.references_of_clause? ha, q.references_of_clause? hb,
        referencesOf_of_memberClauses? j ps hcs]

/-- The leaves of what the further members of a chain mean are the positions of the names in
them. -/
theorem referencesOf_of_memberClauses? (j : Joiner) : ∀ (ps : List Primary) {cs : List Clause},
    memberClauses? declared ps = some cs →
      (namesIn (memberTokens j ps)).map declared = (referencesOf cs).map some
  | [], cs, h => by
      simp only [memberClauses?, Option.some.injEq] at h
      subst h
      rfl
  | p :: ps, cs, h => by
      obtain ⟨a, bs, ha, hbs, rfl⟩ := memberClauses?_cons_eq_some_iff.1 h
      simp only [memberTokens, namesIn_append, namesIn_joiner, List.map_append, referencesOf,
        p.references_of_clause? ha, referencesOf_of_memberClauses? j ps hbs]

end

/-! ### Full chains -/

mutual

/-- What a primary means has full chains. -/
theorem Primary.hasFullChains_of_clause? : ∀ (p : Primary) {c : Clause},
    p.clause? declared = some c → c.HasFullChains
  | .name word, c, h => by
      simp only [Primary.clause?, Option.map_eq_some_iff] at h
      obtain ⟨i, -, rfl⟩ := h
      trivial
  | .not p, c, h => by
      simp only [Primary.clause?, Option.map_eq_some_iff] at h
      obtain ⟨d, hd, rfl⟩ := h
      have hfull : d.HasFullChains := p.hasFullChains_of_clause? hd
      exact hfull
  | .parens w, _, h => w.hasFullChains_of_clause? h

/-- What a written clause means has full chains. -/
theorem Written.hasFullChains_of_clause? : ∀ (w : Written) {c : Clause},
    w.clause? declared = some c → c.HasFullChains
  | .single p, _, h => p.hasFullChains_of_clause? h
  | .chain j p q ps, c, h => by
      obtain ⟨a, b, cs, ha, hb, hcs, rfl⟩ := Written.clause?_chain_eq_some_iff.1 h
      exact hasFullChains_chain (p.hasFullChains_of_clause? ha) (q.hasFullChains_of_clause? hb)
        (allHaveFullChains_of_memberClauses? ps hcs)

/-- What the further members of a chain mean has full chains. -/
theorem allHaveFullChains_of_memberClauses? : ∀ (ps : List Primary) {cs : List Clause},
    memberClauses? declared ps = some cs → AllHaveFullChains cs
  | [], cs, h => by
      simp only [memberClauses?, Option.some.injEq] at h
      subst h
      trivial
  | p :: ps, cs, h => by
      obtain ⟨a, bs, ha, hbs, rfl⟩ := memberClauses?_cons_eq_some_iff.1 h
      exact ⟨p.hasFullChains_of_clause? ha, allHaveFullChains_of_memberClauses? ps hbs⟩

end

/-! ### Clauses that are read -/

/-- If names are declared at some positions, these positions have the names. -/
theorem map_nameAt_of_map_declared {nameAt : Nat → Option String}
    (hdeclared : ∀ word i, declared word = some i → nameAt i = some word) {names : List String}
    {is : List Nat} (h : names.map declared = is.map some) : is.map nameAt = names.map some := by
  induction names generalizing is with
  | nil =>
      obtain rfl : is = [] := List.map_eq_nil_iff.1 h.symm
      rfl
  | cons name names ih =>
      cases is with
      | nil => cases h
      | cons i is =>
          obtain ⟨hi, his⟩ := List.cons.inj h
          simp only [List.map_cons, hdeclared name i hi, ih his]

/-- If every declared name is that of the condition at its position, a text spells the clause that
is read from it, and the clause has full chains. -/
theorem spells_of_parse {nameAt : Nat → Option String}
    (hdeclared : ∀ word i, declared word = some i → nameAt i = some word) {text : String}
    {c : Clause} (h : parse declared text = .ok c) : Spells nameAt text c ∧ c.HasFullChains := by
  obtain ⟨w, hlexes, -, hc⟩ := exists_written_of_parse h
  have hnames := map_nameAt_of_map_declared hdeclared (w.references_of_clause? hc)
  exact ⟨⟨w.tokens, hlexes, hnames⟩, w.hasFullChains_of_clause? hc⟩

end Meaning

/-- A leaf of a clause that a text spells is the position of a condition. -/
theorem Spells.exists_nameAt {nameAt : Nat → Option String} {text : String} {c : Clause}
    (h : Spells nameAt text c) : ∀ i ∈ c.references, ∃ name, nameAt i = some name := by
  obtain ⟨ts, -, hnames⟩ := h
  intro i hi
  have hmem : nameAt i ∈ (namesIn ts).map some := hnames ▸ List.mem_map_of_mem hi
  obtain ⟨name, -, hname⟩ := List.mem_map.1 hmem
  exact ⟨name, hname.symm⟩

end Clause

end Forecast
