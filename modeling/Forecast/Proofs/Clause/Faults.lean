import Forecast.Proofs.Clause.Parsing

/-!
# Where a Text Stops Being a Clause

An error is reported at a place of the text. What stands before the place could still have become a
clause: its tokens go on to those of a written clause. What stands at the place spoils it: no text
that is accepted has these tokens and then that one (`first_bad_token`).

Of a reader this is said by `FirstFault`, with the two sets of lists of tokens that matter to it:
what its tokens have to go on to, and what is accepted with anything after it that may stand there.
They differ in the limit on openings, which only the second one knows. An error passes from a part
to the whole if the tokens that were read before the part can be put in front of all lists
(`FirstFault.after`), and that nothing else goes on like that is what makes the grammar unambiguous
(`Primary.tokens_append_inj`).

## Main results

* `faults_readPrimary`, `firstFault_readChain`: where the readers report an error.
* `divides_of_begins`: the place of a token in the text.
* `first_bad_token`: where a text that is refused stops being a clause.
-/

namespace Forecast

namespace Clause

/-! ### The first fault -/

/-- Whether an error is at the first of some tokens that spoils them: those before it are viable,
and no list that is accepted begins with them and it. -/
def FirstFault (Viable Accepted : List Token → Prop) (ts : Tokens) (e : ClauseError) : Prop :=
  ∃ us last, Begins us ts last ∧ last.position = e.position ∧ Viable us ∧
    ∀ u position rest, last = .token u position rest →
      ∀ vs, Accepted vs → ¬ us ++ [u] <+: vs

section FirstFault

variable {Viable Accepted Viable' Accepted' : List Token → Prop} {ts mid : Tokens}
  {us : List Token} {e : ClauseError}

/-- The error is right after some tokens. -/
theorem FirstFault.here (hbegins : Begins us ts mid) (hposition : mid.position = e.position)
    (hviable : Viable us)
    (haccepted : ∀ t position rest, mid = .token t position rest →
      ∀ vs, ¬ Accepted (us ++ t :: vs)) :
    FirstFault Viable Accepted ts e := by
  refine ⟨us, mid, hbegins, hposition, hviable, ?_⟩
  rintro t position rest hmid - hvs ⟨vs, rfl⟩
  refine haccepted t position rest hmid vs ?_
  simpa using hvs

/-- The error is in a part after some tokens. What is accepted with these tokens before it goes on
with the first token of the part, and is accepted there. -/
theorem FirstFault.after (h : FirstFault Viable Accepted mid e) (hbegins : Begins us ts mid)
    (hviable : ∀ vs, Viable vs → Viable' (us ++ vs))
    (haccepted : ∀ t position rest, mid = .token t position rest →
      ∀ vs, Accepted' (us ++ t :: vs) → Accepted (t :: vs)) :
    FirstFault Viable' Accepted' ts e := by
  obtain ⟨vs, last, hvs, hposition, hpart, hfirst⟩ := h
  refine ⟨us ++ vs, last, begins_append.2 ⟨mid, hbegins, hvs⟩, hposition, hviable vs hpart, ?_⟩
  rintro u position rest rfl ws hws ⟨others, rfl⟩
  rw [List.append_assoc, List.append_assoc] at hws
  cases vs with
  | nil =>
      obtain rfl : mid = .token u position rest := hvs
      exact hfirst u position rest rfl _ (haccepted u position rest rfl others hws) ⟨others, rfl⟩
  | cons v vs =>
      obtain ⟨position', rest', rfl, -⟩ := hvs
      have hbegin := haccepted v position' rest' rfl _ hws
      exact hfirst u position rest rfl _ hbegin ⟨others, by simp⟩

end FirstFault

/-! ### What tokens may be -/

section Lists

variable (declared : String → Option Nat) (P : Primary → Clause → Prop) (joiner : Joiner)
  (us : List Token)

/-- Whether a primary with declared names begins with some tokens. -/
def StartPrimary : Prop :=
  ∃ (p : Primary) (c : Clause), p.clause? declared = some c ∧ us <+: p.tokens

/-- Whether further members of a chain, with declared names, begin with some tokens. -/
def StartMembers : Prop :=
  ∃ ps cs, memberClauses? declared ps = some cs ∧ us <+: memberTokens joiner ps

/-- Whether a clause with declared names begins with some tokens. -/
def StartClause : Prop :=
  ∃ (w : Written) (c : Clause), w.clause? declared = some c ∧ us <+: w.tokens

/-- Whether some tokens begin with a primary that a predicate admits. -/
def BeginPrimary : Prop :=
  ∃ (p : Primary) (c : Clause) (rest : List Token), P p c ∧ us = p.tokens ++ rest

/-- Whether some tokens begin with all further members of a chain. -/
def BeginMembers : Prop :=
  ∃ ps cs rest, List.Forall₂ P ps cs ∧ Follows rest ∧ us = memberTokens joiner ps ++ rest

/-- Whether some tokens begin with a clause that ends there. -/
def BeginClause : Prop :=
  ∃ (w : Written) (c : Clause) (rest : List Token), Joins P w c ∧ Follows rest ∧
    us = w.tokens ++ rest

/-- Whether a reader of primaries reports the first fault of its tokens. -/
def Faults (reader : PrimaryReader) : Prop :=
  ∀ ts e, reader ts = .error e → FirstFault (StartPrimary declared) (BeginPrimary P) ts e

end Lists

/-! ### Chains -/

section Chains

variable {declared : String → Option Nat} {reader : PrimaryReader}
  {P : Primary → Clause → Prop}

/-- Tokens that may follow a chain are no further member. -/
theorem BeginMembers.exists_of_cons {joiner : Joiner} {t : Token} {us : List Token}
    (h : BeginMembers P joiner (t :: us)) (ht : t.joiner? ≠ none) :
    t = joiner.token ∧ ∃ p c ps cs rest, P p c ∧ List.Forall₂ P ps cs ∧ Follows rest ∧
      us = p.tokens ++ (memberTokens joiner ps ++ rest) := by
  obtain ⟨ps, cs, rest, hps, hrest, heq⟩ := h
  cases hps with
  | nil =>
      rw [memberTokens, List.nil_append] at heq
      subst heq
      exact absurd (hrest t rfl) ht
  | @cons p c ps cs hp hps =>
      rw [memberTokens, List.cons_append, List.append_assoc] at heq
      obtain ⟨rfl, rfl⟩ := List.cons.inj heq
      exact ⟨rfl, p, c, ps, cs, rest, hp, hps, hrest, rfl⟩

/-- The reader of the further members of a chain reports the first fault. -/
theorem firstFault_readMembers (hreads : Reads reader P) (hfaults : Faults declared P reader)
    (hP : ∀ p c, P p c → p.clause? declared = some c) {joiner : Joiner} {ts : Tokens}
    {e : ClauseError} (h : readMembers reader joiner ts = .error e) :
    FirstFault (StartMembers declared joiner) (BeginMembers P joiner) ts e := by
  have hempty : StartMembers declared joiner [] := ⟨[], [], rfl, List.nil_prefix⟩
  fun_induction readMembers reader joiner ts generalizing e with
  | case1 position => cases h
  | case2 c position =>
      cases h
      have hhere : Begins [] (.stray c position) (.stray c position) := rfl
      exact .here hhere rfl hempty (by rintro _ _ _ ⟨⟩)
  | case3 t position rest hnone => cases h
  | case4 t position rest e' hprimary hjoiner =>
      -- the fault is in the primary after the joiner
      cases h
      have hbegins : Begins [t] (.token t position rest) rest := ⟨position, rest, rfl, rfl⟩
      refine (hfaults rest e' hprimary).after hbegins ?_ ?_
      · rintro vs ⟨p, c, hp, hvs⟩
        refine ⟨[p], [c], memberClauses?_cons_eq_some_iff.2 ⟨c, [], hp, rfl, rfl⟩, ?_⟩
        rw [Token.eq_token_of_joiner? hjoiner, memberTokens, memberTokens, List.append_nil]
        exact List.cons_prefix_cons.2 ⟨rfl, hvs⟩
      · rintro u _ _ - vs haccepted
        obtain ⟨-, p, c, ps, cs, others, hp, -, -, heq⟩ :=
          haccepted.exists_of_cons (by simp [hjoiner])
        exact ⟨p, c, _, hp, heq⟩
  | case5 t position rest c after hafter hprimary e' hmembers hjoiner ih =>
      -- the fault is in the members after the first one
      cases h
      obtain ⟨p, hp, hbegin⟩ := (hreads rest c after).1 ⟨hafter, hprimary⟩
      have hbegins : Begins (t :: p.tokens) (.token t position rest) after :=
        ⟨position, rest, rfl, hbegin⟩
      refine (ih hmembers).after hbegins ?_ ?_
      · rintro vs ⟨ps, cs, hps, hvs⟩
        refine ⟨p :: ps, c :: cs,
          memberClauses?_cons_eq_some_iff.2 ⟨c, cs, hP p c hp, hps, rfl⟩, ?_⟩
        rw [Token.eq_token_of_joiner? hjoiner, memberTokens]
        exact List.cons_prefix_cons.2 ⟨rfl, (List.prefix_append_right_inj _).2 hvs⟩
      · rintro u _ _ - vs haccepted
        obtain ⟨-, q, d, ps, cs, others, -, hps, hothers, heq⟩ :=
          haccepted.exists_of_cons (by simp [hjoiner])
        obtain ⟨-, hvs⟩ := Primary.tokens_append_inj p q heq
        exact ⟨ps, cs, others, hps, hothers, hvs⟩
  | case6 => cases h
  | case7 t position rest j hjoiner hne =>
      cases h
      have hhere : Begins [] (.token t position rest) (.token t position rest) := rfl
      refine .here hhere rfl hempty ?_
      rintro _ _ _ ⟨⟩ vs haccepted
      obtain ⟨rfl, -⟩ := haccepted.exists_of_cons (by simp [hjoiner])
      rw [Joiner.joiner?_token, Option.some.injEq] at hjoiner
      exact hne hjoiner.symm

/-- A clause begins with its first primary. -/
theorem BeginClause.beginPrimary {us : List Token} (h : BeginClause P us) : BeginPrimary P us := by
  obtain ⟨w, c, rest, hw, -, rfl⟩ := h
  cases hw with
  | single hp => exact ⟨_, _, rest, hp, rfl⟩
  | chain hp hq hps =>
      rw [Written.tokens, List.append_assoc]
      exact ⟨_, _, _, hp, rfl⟩

/-- What comes after the first primary of a clause, if it begins with a joiner, is its further
members. -/
theorem BeginClause.beginMembers {p : Primary} {j : Joiner} {us : List Token}
    (h : BeginClause P (p.tokens ++ j.token :: us)) : BeginMembers P j (j.token :: us) := by
  obtain ⟨w, c, rest, hw, hrest, heq⟩ := h
  cases hw with
  | @single q _ hq =>
      obtain ⟨-, heq⟩ := Primary.tokens_append_inj p q heq
      exact (hrest.ne_token heq.symm).elim
  | @chain k q q' qs a b cs hq hq' hqs =>
      rw [Written.tokens_chain, List.append_assoc] at heq
      obtain ⟨-, heq⟩ := Primary.tokens_append_inj p q heq
      obtain rfl : j = k := by
        rw [memberTokens, List.cons_append] at heq
        have hsome := congrArg Token.joiner? (List.cons.inj heq).1
        simpa using hsome
      exact ⟨q' :: qs, b :: cs, rest, .cons hq' hqs, hrest, heq⟩

/-- A clause begins with a first member and what further ones begin with. -/
theorem StartMembers.startClause {p : Primary} {c : Clause} (hp : p.clause? declared = some c)
    {j : Joiner} {us : List Token} (h : StartMembers declared j us) :
    StartClause declared (p.tokens ++ us) := by
  obtain ⟨ps, cs, hps, hus⟩ := h
  cases ps with
  | nil =>
      obtain rfl : us = [] := List.prefix_nil.1 hus
      refine ⟨.single p, c, hp, ?_⟩
      rw [List.append_nil]
      exact List.prefix_rfl
  | cons q ps =>
      obtain ⟨b, cs, hb, hcs, rfl⟩ := memberClauses?_cons_eq_some_iff.1 hps
      have hmeans : (Written.chain j p q ps).clause? declared = some (j.chain (c :: b :: cs)) :=
        Written.clause?_chain_eq_some_iff.2 ⟨c, b, cs, hp, hb, hcs, rfl⟩
      refine ⟨.chain j p q ps, _, hmeans, ?_⟩
      rw [Written.tokens_chain]
      exact (List.prefix_append_right_inj _).2 hus

/-- The reader of clauses reports the first fault. -/
theorem firstFault_readChain (hreads : Reads reader P) (hfaults : Faults declared P reader)
    (hP : ∀ p c, P p c → p.clause? declared = some c) {ts : Tokens} {e : ClauseError}
    (h : readChain reader ts = .error e) :
    FirstFault (StartClause declared) (BeginClause P) ts e := by
  rw [readChain] at h
  cases hfirst : reader ts with
  | error e' =>
      rw [hfirst] at h
      cases h
      have hbegins : Begins [] ts ts := rfl
      refine (hfaults ts e hfirst).after hbegins ?_ fun _ _ _ _ _ => BeginClause.beginPrimary
      rintro vs ⟨p, c, hp, hvs⟩
      exact ⟨.single p, c, hp, hvs⟩
  | ok done =>
      obtain ⟨first, rest, hrest⟩ := done
      rw [hfirst] at h
      obtain ⟨p, hp, hbegins⟩ := (hreads ts first rest).1 ⟨hrest, hfirst⟩
      have hmeans := hP p first hp
      cases rest with
      | finish position => cases h
      | stray d position =>
          cases h
          exact .here hbegins rfl ⟨.single p, first, hmeans, List.prefix_rfl⟩ (by rintro _ _ _ ⟨⟩)
      | token t position rest =>
          dsimp only at h
          cases hjoiner : t.joiner? with
          | none =>
              simp only [hjoiner] at h
              cases h
          | some j =>
              simp only [hjoiner] at h
              cases hmembers : readMembers reader j (.token t position rest) with
              | ok done =>
                  obtain ⟨cs, last, hlast⟩ := done
                  rw [hmembers] at h
                  cases h
              | error e' =>
                  rw [hmembers] at h
                  cases h
                  refine (firstFault_readMembers hreads hfaults hP hmembers).after hbegins
                    (fun vs => StartMembers.startClause hmeans) ?_
                  rintro _ _ _ ⟨⟩ vs haccepted
                  obtain rfl := Token.eq_token_of_joiner? hjoiner
                  exact haccepted.beginMembers

end Chains

/-! ### Primaries -/

section Room

variable {declared : String → Option Nat}

/-- What a primary that fits into a room begins with, and what comes after that. -/
theorem BeginPrimary.cases_of_cons {room : Nat} {t : Token} {us : List Token}
    (h : BeginPrimary (Fits declared (room + 1)) (t :: us)) :
    (∃ word i, t = .name word ∧ declared word = some i) ∨
      (t = .not ∧ BeginPrimary (Fits declared room) us) ∨
      (t = .openParen ∧ ∃ (w : Written) (c : Clause) (rest : List Token),
        Joins (Fits declared room) w c ∧ us = w.tokens ++ .closeParen :: rest) := by
  obtain ⟨p, c, rest, ⟨hlt, hc⟩, heq⟩ := h
  cases p with
  | name word =>
      simp only [Primary.clause?, Option.map_eq_some_iff] at hc
      obtain ⟨i, hi, -⟩ := hc
      exact .inl ⟨word, i, (List.cons.inj heq).1, hi⟩
  | not p =>
      simp only [Primary.clause?, Option.map_eq_some_iff] at hc
      obtain ⟨d, hd, -⟩ := hc
      obtain ⟨ht, hus⟩ := List.cons.inj heq
      exact .inr (.inl ⟨ht, p, d, rest, ⟨Nat.lt_of_succ_lt_succ hlt, hd⟩, hus⟩)
  | parens w =>
      rw [Primary.tokens, List.cons_append, List.append_assoc] at heq
      obtain ⟨ht, hus⟩ := List.cons.inj heq
      have hw : Joins (Fits declared room) w c :=
        joins_fits_iff.2 ⟨Nat.lt_of_succ_lt_succ hlt, hc⟩
      exact .inr (.inr ⟨ht, w, c, rest, hw, hus⟩)

/-- A parenthesis that has to be closed, and what stands in its place. -/
theorem firstFault_unclosed {room : Nat} {w : Written} {c : Clause} {ts last : Tokens}
    {e : ClauseError} (hw : Joins (Fits declared room) w c)
    (hbegins : Begins (.openParen :: w.tokens) ts last) (hposition : last.position = e.position)
    (hlast : ∀ t position rest, last = .token t position rest →
      t.joiner? = none ∧ t ≠ .closeParen) :
    FirstFault (StartPrimary declared) (BeginPrimary (Fits declared (room + 1))) ts e := by
  refine .here hbegins hposition
    ⟨.parens w, c, (joins_fits_iff.1 hw).2, [.closeParen], rfl⟩ ?_
  intro t position rest ht vs haccepted
  obtain ⟨hjoiner, hclose⟩ := hlast t position rest ht
  obtain ⟨_, _, h, -⟩ | ⟨h, -⟩ | ⟨-, v, d, others, hv, heq⟩ := haccepted.cases_of_cons
  · cases h
  · cases h
  · have hfollows : Follows (t :: vs) := by
      rintro _ ⟨⟩
      exact hjoiner
    have hcloses : Follows (.closeParen :: others) := by
      rintro _ ⟨⟩
      rfl
    obtain ⟨-, hrest⟩ := Written.tokens_append_inj w v hfollows hcloses heq
    exact hclose (List.cons.inj hrest).1

/-- A token that no primary that fits begins with, or none, where a primary has to begin. -/
theorem firstFault_noPrimary (hdeclared : ∃ word i, declared word = some i) {room : Nat}
    {ts : Tokens} {e : ClauseError} (hposition : ts.position = e.position)
    (haccepted : ∀ t position rest, ts = .token t position rest →
      ∀ vs, ¬ BeginPrimary (Fits declared room) (t :: vs)) :
    FirstFault (StartPrimary declared) (BeginPrimary (Fits declared room)) ts e := by
  obtain ⟨word, i, hi⟩ := hdeclared
  have hhere : Begins [] ts ts := rfl
  have hword : (Primary.name word).clause? declared = some (.literal i) := by
    rw [Primary.clause?, hi, Option.map_some]
  exact .here hhere hposition ⟨.name word, .literal i, hword, List.nil_prefix⟩ haccepted

/-- No primary begins with a token that is no name, no `not` and no opening parenthesis. -/
theorem not_beginPrimary {room : Nat} {u : Token} {place : Nat} {next : Tokens}
    (hname : ∀ word, u ≠ .name word) (hnot : u ≠ .not) (hopen : u ≠ .openParen) :
    ∀ t position rest, Tokens.token u place next = .token t position rest →
      ∀ vs, ¬ BeginPrimary (Fits declared (room + 1)) (t :: vs) := by
  rintro _ _ _ ⟨⟩ vs haccepted
  obtain ⟨word, i, rfl, -⟩ | ⟨rfl, -⟩ | ⟨rfl, -⟩ := haccepted.cases_of_cons
  · exact hname word rfl
  · exact hnot rfl
  · exact hopen rfl

/-- A name that is not declared. -/
theorem firstFault_undeclared (hdeclared : ∃ word i, declared word = some i) {room position : Nat}
    {word : String} (hword : declared word = none) (rest : Tokens) :
    FirstFault (StartPrimary declared) (BeginPrimary (Fits declared (room + 1)))
      (.token (.name word) position rest) ⟨.undeclared word, position⟩ := by
  refine firstFault_noPrimary hdeclared rfl ?_
  rintro _ _ _ ⟨⟩ vs haccepted
  obtain ⟨_, i, ht, hi⟩ | ⟨ht, -⟩ | ⟨ht, -⟩ := haccepted.cases_of_cons
  · cases ht
    rw [hword] at hi
    cases hi
  · cases ht
  · cases ht

section Inner

variable {room : Nat} {rest : Tokens} {e : ClauseError}

/-- The first fault behind a `not` is that of the primary there. -/
theorem FirstFault.not
    (h : FirstFault (StartPrimary declared) (BeginPrimary (Fits declared room)) rest e)
    (position : Nat) :
    FirstFault (StartPrimary declared) (BeginPrimary (Fits declared (room + 1)))
      (.token .not position rest) e := by
  have hbegins : Begins [.not] (.token .not position rest) rest := ⟨position, rest, rfl, rfl⟩
  refine h.after hbegins ?_ ?_
  · rintro vs ⟨p, c, hp, hvs⟩
    refine ⟨.not p, .neg c, ?_, List.cons_prefix_cons.2 ⟨rfl, hvs⟩⟩
    rw [Primary.clause?, hp, Option.map_some]
  · intro u _ _ _ vs haccepted
    obtain ⟨_, _, ht, -⟩ | ⟨-, hbegin⟩ | ⟨ht, -⟩ := haccepted.cases_of_cons
    · cases ht
    · exact hbegin
    · cases ht

/-- The first fault of the clause in a parenthesis is the first one behind the parenthesis. -/
theorem FirstFault.openParen
    (h : FirstFault (StartClause declared) (BeginClause (Fits declared room)) rest e)
    (position : Nat) :
    FirstFault (StartPrimary declared) (BeginPrimary (Fits declared (room + 1)))
      (.token .openParen position rest) e := by
  have hbegins : Begins [.openParen] (.token .openParen position rest) rest :=
    ⟨position, rest, rfl, rfl⟩
  refine h.after hbegins ?_ ?_
  · rintro vs ⟨w, c, hw, hvs⟩
    have hclosed : vs <+: w.tokens ++ [.closeParen] := hvs.trans (List.prefix_append _ _)
    exact ⟨.parens w, c, hw, List.cons_prefix_cons.2 ⟨rfl, hclosed⟩⟩
  · intro u _ _ _ vs haccepted
    obtain ⟨_, _, ht, -⟩ | ⟨ht, -⟩ | ⟨-, w, c, others, hw, heq⟩ := haccepted.cases_of_cons
    · cases ht
    · cases ht
    · refine ⟨w, c, _, hw, ?_, heq⟩
      rintro _ ⟨⟩
      rfl

/-- The reader of primaries reports the first fault of a parenthesis: that of the clause in it or,
if there is none, what stands where it has to be closed. -/
theorem firstFault_parens (ih : Faults declared (Fits declared room) (readPrimary declared room))
    {position : Nat}
    (h : readPrimary declared (room + 1) (.token .openParen position rest) = .error e) :
    FirstFault (StartPrimary declared) (BeginPrimary (Fits declared (room + 1)))
      (.token .openParen position rest) e := by
  have hreads := reads_readPrimary declared room
  simp only [readPrimary] at h
  cases hinner : readChain (readPrimary declared room) rest with
  | error e' =>
      rw [hinner] at h
      cases h
      exact (firstFault_readChain hreads ih (fun p c hp => hp.2) hinner).openParen position
  | ok done =>
      obtain ⟨d, after, hafter⟩ := done
      rw [hinner] at h
      obtain ⟨hend, w, hw, hbegin⟩ := joins_of_readChain hreads hinner
      have hbegins : Begins (.openParen :: w.tokens) (.token .openParen position rest) after :=
        ⟨position, rest, rfl, hbegin⟩
      cases after with
      | finish position' =>
          cases h
          exact firstFault_unclosed hw hbegins rfl (by rintro _ _ _ ⟨⟩)
      | stray d position' =>
          cases h
          exact firstFault_unclosed hw hbegins rfl (by rintro _ _ _ ⟨⟩)
      | token t position' after =>
          have hclose : t ≠ .closeParen ∧ e.position = position' := by
            cases t <;> cases h <;> exact ⟨by simp, rfl⟩
          obtain ⟨hclose, hposition⟩ := hclose
          refine firstFault_unclosed hw hbegins hposition.symm ?_
          rintro _ _ _ ⟨⟩
          exact ⟨hend, hclose⟩

end Inner

/-- The reader of primaries reports the first fault, if it does with one opening less in the
room. -/
theorem faults_readPrimary_succ (hdeclared : ∃ word i, declared word = some i) {room : Nat}
    (ih : Faults declared (Fits declared room) (readPrimary declared room)) :
    Faults declared (Fits declared (room + 1)) (readPrimary declared (room + 1)) := by
  intro ts e h
  cases ts with
  | finish position =>
      cases h
      exact firstFault_noPrimary hdeclared rfl (by rintro _ _ _ ⟨⟩)
  | stray d position =>
      cases h
      exact firstFault_noPrimary hdeclared rfl (by rintro _ _ _ ⟨⟩)
  | token t position rest =>
      cases t with
      | name word =>
          simp only [readPrimary] at h
          cases hword : declared word with
          | some i =>
              simp only [hword] at h
              cases h
          | none =>
              simp only [hword] at h
              cases h
              exact firstFault_undeclared hdeclared hword rest
      | not =>
          simp only [readPrimary] at h
          cases hinner : readPrimary declared room rest with
          | ok done =>
              obtain ⟨d, after, hafter⟩ := done
              rw [hinner] at h
              cases h
          | error e' =>
              rw [hinner] at h
              cases h
              exact (ih rest e hinner).not position
      | openParen => exact firstFault_parens ih h
      | and =>
          cases h
          exact firstFault_noPrimary hdeclared rfl (not_beginPrimary (by simp) (by simp) (by simp))
      | or =>
          cases h
          exact firstFault_noPrimary hdeclared rfl (not_beginPrimary (by simp) (by simp) (by simp))
      | closeParen =>
          cases h
          exact firstFault_noPrimary hdeclared rfl (not_beginPrimary (by simp) (by simp) (by simp))

/-- **The reader of primaries reports the first fault.** -/
theorem faults_readPrimary (hdeclared : ∃ word i, declared word = some i) (room : Nat) :
    Faults declared (Fits declared room) (readPrimary declared room) := by
  induction room with
  | zero =>
      intro ts e h
      -- nothing fits without room, so no token is accepted here
      have hposition : ts.position = e.position := by
        cases ts <;> cases h <;> rfl
      refine firstFault_noPrimary hdeclared hposition ?_
      rintro t position rest - vs ⟨p, c, others, ⟨hlt, -⟩, -⟩
      exact Nat.not_lt_zero _ hlt
  | succ room ih => exact faults_readPrimary_succ hdeclared ih

end Room

/-! ### Places in a text -/

/-- Which token is at the beginning of a text. -/
inductive StartsWith : List Char → Token → Prop
  | openParen {cs : List Char} : StartsWith ('(' :: cs) .openParen
  | closeParen {cs : List Char} : StartsWith (')' :: cs) .closeParen
  /-- A run of word characters that is as long as it can be. -/
  | word {w cs : List Char} :
      w ≠ [] → (∀ c ∈ w, isWordChar c = true) → (∀ c ∈ cs.head?, isWordChar c = false) →
        StartsWith (w ++ cs) (ofWord (String.ofList (Text.lowerChars w)))

/-- A token that a text begins with is known from the first character of the text. -/
theorem StartsWith.cases_of_cons {c : Char} {cs : List Char} {t : Token}
    (h : StartsWith (c :: cs) t) :
    (c = '(' ∧ t = .openParen) ∨ (c = ')' ∧ t = .closeParen) ∨
      (isWordChar c = true ∧
        t = ofWord (String.ofList (Text.lowerChars (c :: cs.takeWhile isWordChar)))) := by
  generalize hds : c :: cs = ds at h
  cases h with
  | openParen => exact .inl ⟨(List.cons.inj hds).1, rfl⟩
  | closeParen => exact .inr (.inl ⟨(List.cons.inj hds).1, rfl⟩)
  | @word w rest hne hw hrest =>
      obtain ⟨d, w, rfl⟩ := List.exists_cons_of_ne_nil hne
      obtain ⟨rfl, hcs⟩ := List.cons.inj hds
      obtain ⟨hc, hw⟩ := List.forall_mem_cons.1 hw
      have htake : cs.takeWhile isWordChar = w := by
        rw [hcs]
        exact (takeWhile_dropWhile_append hw hrest).1
      rw [htake]
      exact .inr (.inr ⟨hc, rfl⟩)

/-- An empty text begins with no token. -/
theorem not_startsWith_nil {t : Token} (h : StartsWith [] t) : False := by
  generalize hnil : ([] : List Char) = cs at h
  cases h with
  | openParen => cases hnil
  | closeParen => cases hnil
  | word hne => exact hne (List.append_eq_nil_iff.1 hnil.symm).1

/-- Bytes of characters are counted one by one. -/
theorem byteLength_append (cs ds : List Char) :
    Text.byteLength (cs ++ ds) = Text.byteLength cs + Text.byteLength ds := by
  have hfold (n : Nat) (ds : List Char) :
      ds.foldl (fun n c => n + c.utf8Size) n = n + Text.byteLength ds := by
    rw [Text.byteLength]
    induction ds generalizing n with
    | nil => rfl
    | cons d ds ih =>
        rw [List.foldl_cons, List.foldl_cons, ih, ih (0 + d.utf8Size)]
        omega
  rw [Text.byteLength, List.foldl_append, hfold]
  rfl

/-- Whether a text that begins at a position can be divided so that it has some tokens in front and
goes on with other ones: their place is where the rest begins, and so does their first token. -/
def Divides (position : Nat) (cs : List Char) (us : List Token) (last : Tokens) : Prop :=
  ∃ before after, cs = before ++ after ∧ last.position = position + Text.byteLength before ∧
    Lexes before us ∧ ∀ u, StartsWith after u → ∃ place rest, last = .token u place rest

/-- A text is divided before its first character if no tokens are in front. -/
theorem divides_nil {ts : Tokens} {cs : List Char}
    (hstarts : ∀ u, StartsWith cs u → ∃ place rest, ts = .token u place rest) :
    Divides ts.position cs [] ts :=
  ⟨[], cs, rfl, rfl, .finish, hstarts⟩

/-- A text that begins with a token is divided before this token or where the text after it is. -/
theorem divides_of_token {position : Nat} (front : List Char) {cs : List Char} {t : Token}
    {us : List Token} {rest last : Tokens}
    (hlexes : ∀ before after us, cs = before ++ after → Lexes before us →
      Lexes (front ++ before) (t :: us))
    (hstarts : ∀ u, StartsWith (front ++ cs) u → u = t)
    (ih : ∀ {us}, Begins us rest last →
      Divides (position + Text.byteLength front) cs us last)
    (h : Begins us (.token t position rest) last) : Divides position (front ++ cs) us last := by
  cases us with
  | nil =>
      obtain rfl : Tokens.token t position rest = last := h
      refine divides_nil fun u hu => ?_
      obtain rfl := hstarts u hu
      exact ⟨position, rest, rfl⟩
  | cons u us =>
      obtain ⟨_, _, ⟨⟩, hrest⟩ := h
      obtain ⟨before, after, hcs, hposition, hbefore, hafter⟩ := ih hrest
      refine ⟨front ++ before, after, ?_, ?_, hlexes before after us hcs hbefore, hafter⟩
      · rw [hcs, List.append_assoc]
      · rw [hposition, byteLength_append, Nat.add_assoc]

/-- **The place of tokens in their text.** -/
theorem divides_of_begins {position : Nat} {cs : List Char} {us : List Token} {last : Tokens}
    (h : Begins us (tokensFrom position cs) last) : Divides position cs us last := by
  fun_induction tokensFrom position cs generalizing us with
  | case1 position =>
      cases us with
      | nil =>
          obtain rfl : Tokens.finish position = last := h
          exact divides_nil fun u hu => (not_startsWith_nil hu).elim
      | cons u us => obtain ⟨_, _, ⟨⟩, -⟩ := h
  | case2 position c cs hgap ih =>
      obtain ⟨before, after, rfl, hposition, hlexes, hstarts⟩ := ih h
      have hbyte : Text.byteLength [c] = 1 := by
        simp only [isGap, Bool.or_eq_true, beq_iff_eq] at hgap
        rcases hgap with (((rfl | rfl) | rfl) | rfl) | rfl <;> rfl
      refine ⟨c :: before, after, rfl, ?_, .gap hgap hlexes, hstarts⟩
      rw [hposition, ← List.singleton_append, byteLength_append, hbyte, Nat.add_assoc]
  | case3 position cs _ ih =>
      refine divides_of_token ['('] (fun before _ _ _ => .openParen) (fun u hu => ?_) ih h
      obtain ⟨-, rfl⟩ | ⟨hne, -⟩ | ⟨hword, -⟩ := hu.cases_of_cons
      · rfl
      · exact absurd hne (by decide)
      · exact absurd hword (by decide)
  | case4 position cs _ _ ih =>
      refine divides_of_token [')'] (fun before _ _ _ => .closeParen) (fun u hu => ?_) ih h
      obtain ⟨hne, -⟩ | ⟨-, rfl⟩ | ⟨hword, -⟩ := hu.cases_of_cons
      · exact absurd hne (by decide)
      · rfl
      · exact absurd hword (by decide)
  | case5 position c cs hgap hopen hclose hc word =>
      rename_i ih
      have hsplit : word ++ cs.dropWhile isWordChar = c :: cs := by
        simp only [word, List.cons_append, List.takeWhile_append_dropWhile]
      have hword : ∀ d ∈ word, isWordChar d = true := by
        intro d hd
        rcases List.mem_cons.1 hd with rfl | hd
        · exact hc
        · exact List.mem_takeWhile_imp hd
      rw [← hsplit]
      refine divides_of_token word ?_ ?_ ih h
      · intro before after us hcs hus
        refine .word (List.cons_ne_nil _ _) hword (fun d hd => ?_) hus
        have hhead : d ∈ (cs.dropWhile isWordChar).head? := by
          rw [hcs]
          exact List.mem_head?_append_of_mem_head? hd
        exact not_isWordChar_of_head?_dropWhile d hhead
      · intro u hu
        rw [hsplit] at hu
        obtain ⟨hc', -⟩ | ⟨hc', -⟩ | ⟨-, rfl⟩ := hu.cases_of_cons
        · exact absurd hc' hopen
        · exact absurd hc' hclose
        · rfl
  | case6 position c cs hgap hopen hclose hc =>
      cases us with
      | nil =>
          obtain rfl : Tokens.stray c position = last := h
          refine divides_nil fun u hu => ?_
          obtain ⟨hc', -⟩ | ⟨hc', -⟩ | ⟨hc', -⟩ := hu.cases_of_cons
          · exact absurd hc' hopen
          · exact absurd hc' hclose
          · exact absurd hc' hc
      | cons u us => obtain ⟨_, _, ⟨⟩, -⟩ := h

/-! ### Texts -/

section Texts

variable {declared : String → Option Nat} {text : String} {e : ClauseError}

/-- The reader of whole clauses reports the first fault; what it accepts is used up by a clause. -/
theorem firstFault_ofTokens (hdeclared : ∃ word i, declared word = some i) {ts : Tokens}
    (h : ofTokens declared ts = .error e) :
    FirstFault (StartClause declared)
      (fun us => ∃ (w : Written) (c : Clause), w.nesting ≤ 31 ∧ w.clause? declared = some c ∧
        us = w.tokens) ts e := by
  have hreads := reads_readPrimary declared maxNesting
  rw [ofTokens] at h
  cases hread : readChain (readPrimary declared maxNesting) ts with
  | error e' =>
      rw [hread] at h
      cases h
      have hbegins : Begins [] ts ts := rfl
      have hfault := firstFault_readChain hreads (faults_readPrimary hdeclared maxNesting)
        (fun p c hp => hp.2) hread
      refine hfault.after hbegins (fun _ hvs => hvs) ?_
      rintro t _ _ - vs ⟨w, c, hle, hc, heq⟩
      have hw : Joins (Fits declared maxNesting) w c :=
        joins_fits_iff.2 ⟨Nat.lt_succ_of_le hle, hc⟩
      refine ⟨w, c, [], hw, by rintro _ ⟨⟩, ?_⟩
      rw [List.append_nil]
      exact heq
  | ok done =>
      obtain ⟨c, last, hlast⟩ := done
      rw [hread] at h
      obtain ⟨hend, w, hw, hbegins⟩ := joins_of_readChain hreads hread
      have hstart : StartClause declared w.tokens :=
        ⟨w, c, (joins_fits_iff.1 hw).2, List.prefix_rfl⟩
      cases last with
      | finish position => cases h
      | stray d position =>
          cases h
          exact .here hbegins rfl hstart (by rintro _ _ _ ⟨⟩)
      | token t position rest =>
          cases h
          refine .here hbegins rfl hstart ?_
          rintro _ _ _ ⟨⟩ vs ⟨v, d, -, -, heq⟩
          have hfollows : Follows (t :: vs) := by
            rintro _ ⟨⟩
            exact hend
          have hnil : Follows [] := by rintro _ ⟨⟩
          have happend : w.tokens ++ t :: vs = v.tokens ++ [] := by rw [List.append_nil, heq]
          obtain ⟨-, hrest⟩ := Written.tokens_append_inj w v hfollows hnil happend
          cases hrest

/-- **An error is at the first token that spoils a text.** Let a text be no clause, and let there be
a name that is declared. Then the text can be divided at the position of the error. What is in front
has tokens, and some clause with declared names begins with these, however deep it is nested. If
what is behind begins with a token, no text that a clause is read from has tokens that begin with
those in front and then this one. -/
theorem first_bad_token (hdeclared : ∃ word i, declared word = some i)
    (h : parse declared text = .error e) :
    ∃ before after ts, text.toList = before ++ after ∧ e.position = Text.byteLength before ∧
      Lexes before ts ∧
      (∃ (w : Written) (c : Clause), w.clause? declared = some c ∧ ts <+: w.tokens) ∧
      ∀ u, StartsWith after u → ∀ other d us, parse declared other = .ok d →
        Lexes other.toList us → ¬ ts ++ [u] <+: us := by
  obtain ⟨ts, last, hbegins, hposition, hstart, hfirst⟩ := firstFault_ofTokens hdeclared h
  obtain ⟨before, after, htext, hplace, hlexes, hstarts⟩ := divides_of_begins hbegins
  refine ⟨before, after, ts, htext, ?_, hlexes, hstart, ?_⟩
  · rw [← hposition, hplace, Nat.zero_add]
  · intro u hu other d us hread hus
    obtain ⟨place, rest, hlast⟩ := hstarts u hu
    obtain ⟨w, hw, hle, hc⟩ := exists_written_of_parse hread
    obtain rfl : us = w.tokens :=
      Option.some.inj ((toList?_of_lexes hus 0).symm.trans (toList?_of_lexes hw 0))
    exact hfirst u place rest hlast _ ⟨w, d, hle, hc, rfl⟩

/-- The only name is `up`. -/
def onlyUp (word : String) : Option Nat :=
  if word = "up" then some 0 else none

/-- A parenthesis is not closed before something has been joined to what is in front. -/
theorem first_bad_token_dangling :
    parse onlyUp "not (Up or) and up" = .error ⟨.noPrimary (.token .closeParen), 10⟩ ∧
      ∃ before after ts, "not (Up or) and up".toList = before ++ after ∧
        10 = Text.byteLength before ∧ Lexes before ts ∧
        (∃ (w : Written) (c : Clause), w.clause? onlyUp = some c ∧ ts <+: w.tokens) ∧
        ∀ u, StartsWith after u → ∀ other d us, parse onlyUp other = .ok d →
          Lexes other.toList us → ¬ ts ++ [u] <+: us := by
  have hread : parse onlyUp "not (Up or) and up" =
      .error ⟨.noPrimary (.token .closeParen), 10⟩ := by
    with_unfolding_all rfl
  exact ⟨hread, first_bad_token ⟨"up", 0, rfl⟩ hread⟩

end Texts

end Clause

end Forecast
