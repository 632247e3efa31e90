import Forecast.Clause.Reading

/-!
# The Grammar of Clauses

A clause as it is written is a tree of its own (`Clause.Written`): parentheses are still there, and
a name is a name and not a position. Such a tree is a derivation of the grammar, and the tokens
under it are what the grammar derives:

* a clause is a primary, or two or more primaries with one joiner between them;
* a primary is a name, `not` and a primary, or a clause in parentheses.

The grammar is unambiguous (`Written.tokens_injective`). What makes it so is that a primary is known
to be complete from its own tokens, and that a chain ends with the first token that joins nothing;
both are said of tokens with others after them, since this is what the parts of a tree look like.

A written clause means a clause once every name in it has a position (`Written.clause?`).
-/

namespace Forecast

namespace Clause

/-- The token of a joiner. -/
def Joiner.token : Joiner → Token
  | .and => .and
  | .or => .or

@[simp] theorem Joiner.joiner?_token (j : Joiner) : j.token.joiner? = some j := by
  cases j <;> rfl

/-- A token that joins is that of its joiner. -/
theorem Token.eq_token_of_joiner? {t : Token} {j : Joiner} (h : t.joiner? = some j) :
    t = j.token := by
  cases t with
  | and => cases h; rfl
  | or => cases h; rfl
  | name word => cases h
  | not => cases h
  | openParen => cases h
  | closeParen => cases h

mutual

/-- A primary as it is written. -/
inductive Primary where
  | name (word : String)
  | not (inner : Primary)
  | parens (inner : Written)

/-- A clause as it is written. -/
inductive Written where
  | single (primary : Primary)
  | chain (joiner : Joiner) (first second : Primary) (others : List Primary)

end

/-! ### Tokens -/

mutual

/-- The tokens of a primary. -/
def Primary.tokens : Primary → List Token
  | .name word => [.name word]
  | .not p => .not :: p.tokens
  | .parens w => .openParen :: (w.tokens ++ [.closeParen])

/-- The tokens of a clause. -/
def Written.tokens : Written → List Token
  | .single p => p.tokens
  | .chain j p q ps => p.tokens ++ j.token :: (q.tokens ++ memberTokens j ps)

/-- The tokens of the further members of a chain, each with the joiner before it. -/
def memberTokens (j : Joiner) : List Primary → List Token
  | [] => []
  | p :: ps => j.token :: (p.tokens ++ memberTokens j ps)

end

/-- The tokens of a chain are those of its first member and of the further ones. -/
theorem Written.tokens_chain (j : Joiner) (p q : Primary) (ps : List Primary) :
    (Written.chain j p q ps).tokens = p.tokens ++ memberTokens j (q :: ps) := by
  rw [Written.tokens, memberTokens]

/-! ### Openings -/

mutual

/-- The largest number of openings, `not` or `(`, around a primary within a primary. -/
def Primary.nesting : Primary → Nat
  | .name _ => 0
  | .not p => p.nesting + 1
  | .parens w => w.nesting + 1

/-- The largest number of openings around a primary within a clause. -/
def Written.nesting : Written → Nat
  | .single p => p.nesting
  | .chain _ p q ps => max p.nesting (max q.nesting (memberNesting ps))

/-- The largest number of openings around a primary within the further members of a chain. -/
def memberNesting : List Primary → Nat
  | [] => 0
  | p :: ps => max p.nesting (memberNesting ps)

end

/-! ### Meaning -/

mutual

/-- The clause that a primary means, if all its names have positions. -/
def Primary.clause? (declared : String → Option Nat) : Primary → Option Clause
  | .name word => (declared word).map .literal
  | .not p => (p.clause? declared).map .neg
  | .parens w => w.clause? declared

/-- The clause that a written clause means, if all its names have positions. -/
def Written.clause? (declared : String → Option Nat) : Written → Option Clause
  | .single p => p.clause? declared
  | .chain j p q ps => do
    let c ← p.clause? declared
    let d ← q.clause? declared
    let cs ← memberClauses? declared ps
    return j.chain (c :: d :: cs)

/-- The clauses that the further members of a chain mean. -/
def memberClauses? (declared : String → Option Nat) : List Primary → Option (List Clause)
  | [] => some []
  | p :: ps => do
    let c ← p.clause? declared
    let cs ← memberClauses? declared ps
    return c :: cs

end

section Meaning

variable {declared : String → Option Nat}

/-- What a chain means. -/
theorem Written.clause?_chain_eq_some_iff {j : Joiner} {p q : Primary} {ps : List Primary}
    {c : Clause} :
    (Written.chain j p q ps).clause? declared = some c ↔
      ∃ a b cs, p.clause? declared = some a ∧ q.clause? declared = some b ∧
        memberClauses? declared ps = some cs ∧ c = j.chain (a :: b :: cs) := by
  simp only [Written.clause?, bind, Option.bind_eq_some_iff, pure, Option.some.injEq]
  constructor
  · rintro ⟨a, ha, b, hb, cs, hcs, rfl⟩
    exact ⟨a, b, cs, ha, hb, hcs, rfl⟩
  · rintro ⟨a, b, cs, ha, hb, hcs, rfl⟩
    exact ⟨a, ha, b, hb, cs, hcs, rfl⟩

/-- What further members of a chain mean. -/
theorem memberClauses?_cons_eq_some_iff {p : Primary} {ps : List Primary} {cs : List Clause} :
    memberClauses? declared (p :: ps) = some cs ↔
      ∃ a bs, p.clause? declared = some a ∧ memberClauses? declared ps = some bs ∧
        cs = a :: bs := by
  simp only [memberClauses?, bind, Option.bind_eq_some_iff, pure, Option.some.injEq]
  constructor
  · rintro ⟨a, ha, bs, hbs, rfl⟩
    exact ⟨a, bs, ha, hbs, rfl⟩
  · rintro ⟨a, bs, ha, hbs, rfl⟩
    exact ⟨a, ha, bs, hbs, rfl⟩

end Meaning

/-! ### No two trees for the same tokens -/

/-- Whether tokens may follow a chain: they do not go on with a joiner. -/
def Follows (ts : List Token) : Prop :=
  ∀ t ∈ ts.head?, t.joiner? = none

/-- What follows a chain does not begin with a joiner. -/
theorem Follows.ne_token {ts rest : List Token} {j : Joiner} (h : Follows ts)
    (heq : ts = j.token :: rest) : False := by
  subst heq
  have hnone := h j.token rfl
  rw [Joiner.joiner?_token] at hnone
  cases hnone

mutual

/-- A primary is known from its tokens, whatever comes after them. -/
theorem Primary.tokens_append_inj : ∀ (p q : Primary) {r s : List Token},
    p.tokens ++ r = q.tokens ++ s → p = q ∧ r = s
  | .name v, .name w, r, s, h => by
      simp only [Primary.tokens, List.cons_append, List.nil_append, List.cons.injEq,
        Token.name.injEq] at h
      obtain ⟨rfl, rfl⟩ := h
      exact ⟨rfl, rfl⟩
  | .not p, .not q, r, s, h => by
      simp only [Primary.tokens, List.cons_append, List.cons.injEq, true_and] at h
      obtain ⟨rfl, rfl⟩ := Primary.tokens_append_inj p q h
      exact ⟨rfl, rfl⟩
  | .parens v, .parens w, r, s, h => by
      simp only [Primary.tokens, List.cons_append, List.append_assoc, List.nil_append,
        List.cons.injEq, true_and] at h
      -- a closing parenthesis joins nothing, so the clause inside ends there
      have hclose (ts : List Token) : Follows (Token.closeParen :: ts) := by
        rintro t ⟨⟩
        rfl
      obtain ⟨rfl, hrest⟩ := Written.tokens_append_inj v w (hclose r) (hclose s) h
      obtain ⟨-, rfl⟩ := List.cons.inj hrest
      exact ⟨rfl, rfl⟩
  | .name _, .not _, _, _, h => by simp [Primary.tokens] at h
  | .name _, .parens _, _, _, h => by simp [Primary.tokens] at h
  | .not _, .name _, _, _, h => by simp [Primary.tokens] at h
  | .not _, .parens _, _, _, h => by simp [Primary.tokens] at h
  | .parens _, .name _, _, _, h => by simp [Primary.tokens] at h
  | .parens _, .not _, _, _, h => by simp [Primary.tokens] at h

/-- A clause is known from its tokens, whatever comes after them that may follow a chain. -/
theorem Written.tokens_append_inj : ∀ (v w : Written) {r s : List Token}, Follows r → Follows s →
    v.tokens ++ r = w.tokens ++ s → v = w ∧ r = s
  | .single p, .single q, r, s, _, _, h => by
      obtain ⟨rfl, rfl⟩ := Primary.tokens_append_inj p q h
      exact ⟨rfl, rfl⟩
  | .single p, .chain j q q' qs, r, s, hr, _, h => by
      simp only [Written.tokens, List.append_assoc, List.cons_append] at h
      obtain ⟨-, hrest⟩ := Primary.tokens_append_inj p q h
      exact (hr.ne_token hrest).elim
  | .chain j p p' ps, .single q, r, s, _, hs, h => by
      simp only [Written.tokens, List.append_assoc, List.cons_append] at h
      obtain ⟨-, hrest⟩ := Primary.tokens_append_inj p q h
      exact (hs.ne_token hrest.symm).elim
  | .chain j p p' ps, .chain k q q' qs, r, s, hr, hs, h => by
      simp only [Written.tokens, List.append_assoc, List.cons_append] at h
      obtain ⟨rfl, hrest⟩ := Primary.tokens_append_inj p q h
      obtain ⟨hjoiner, hrest⟩ := List.cons.inj hrest
      obtain rfl : j = k := by
        have hsome := congrArg Token.joiner? hjoiner
        simpa using hsome
      obtain ⟨rfl, hothers⟩ := Primary.tokens_append_inj p' q' hrest
      obtain ⟨rfl, rfl⟩ := memberTokens_append_inj j ps qs hr hs hothers
      exact ⟨rfl, rfl⟩

/-- The further members of a chain are known from their tokens. -/
theorem memberTokens_append_inj (j : Joiner) : ∀ (ps qs : List Primary) {r s : List Token},
    Follows r → Follows s → memberTokens j ps ++ r = memberTokens j qs ++ s → ps = qs ∧ r = s
  | [], [], r, s, _, _, h => ⟨rfl, h⟩
  | [], q :: qs, r, s, hr, _, h => by
      simp only [memberTokens, List.nil_append, List.cons_append] at h
      exact (hr.ne_token h).elim
  | p :: ps, [], r, s, _, hs, h => by
      simp only [memberTokens, List.nil_append, List.cons_append] at h
      exact (hs.ne_token h.symm).elim
  | p :: ps, q :: qs, r, s, hr, hs, h => by
      simp only [memberTokens, List.cons_append, List.append_assoc, List.cons.injEq,
        true_and] at h
      obtain ⟨rfl, hrest⟩ := Primary.tokens_append_inj p q h
      obtain ⟨rfl, rfl⟩ := memberTokens_append_inj j ps qs hr hs hrest
      exact ⟨rfl, rfl⟩

end

/-- **The grammar is unambiguous.** -/
theorem Written.tokens_injective {v w : Written} (h : v.tokens = w.tokens) : v = w := by
  have hnil : Follows [] := nofun
  have happend : v.tokens ++ [] = w.tokens ++ [] := by rw [h]
  exact (Written.tokens_append_inj v w hnil hnil happend).1

end Clause

end Forecast
