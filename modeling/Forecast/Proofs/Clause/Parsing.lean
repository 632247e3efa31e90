import Mathlib.Data.List.Forall2
import Forecast.Proofs.Clause.Grammar
import Forecast.Proofs.Clause.Lexing

/-!
# The Reader of Clauses Accepts Its Grammar

The reader takes tokens from the front and leaves the rest. What it takes is said by `Begins`, and
of a reader of primaries by `Reads`: it succeeds exactly on the tokens of the primaries that a
predicate admits, with the clause that they mean, and leaves exactly what comes after them. From
such a reader come one of the members of a chain and one of clauses, whatever the predicate is: what
they read is of the grammar (`joins_of_readChain`), and all of the grammar that a chain can end
after is read (`readChain_of_joins`).

So the induction is on the room for openings alone (`reads_readPrimary`): with no room there is
nothing to read, and each opening hands on one less.

## Main results

* `reads_readPrimary`: what primaries are read with a room.
* `parse_iff_written`: the clauses that are read from a text.
-/

namespace Forecast

namespace Clause

/-! ### What tokens begin with -/

/-- Whether some tokens begin with a list of tokens and go on with other ones. -/
def Begins : List Token → Tokens → Tokens → Prop
  | [], ts, last => ts = last
  | t :: us, ts, last => ∃ position rest, ts = .token t position rest ∧ Begins us rest last

/-- What begins with two lists begins with the first, and goes on with the second. -/
theorem begins_append {us vs : List Token} {ts last : Tokens} :
    Begins (us ++ vs) ts last ↔ ∃ mid, Begins us ts mid ∧ Begins vs mid last := by
  induction us generalizing ts with
  | nil => simp [Begins]
  | cons u us ih =>
      simp only [List.cons_append, Begins, ih]
      constructor
      · rintro ⟨position, rest, rfl, mid, hmid, hlast⟩
        exact ⟨mid, ⟨position, rest, rfl, hmid⟩, hlast⟩
      · rintro ⟨mid, ⟨position, rest, rfl, hmid⟩, hlast⟩
        exact ⟨position, rest, rfl, mid, hmid, hlast⟩

/-- What tokens begin with is not left of them. -/
theorem Begins.length_eq {us : List Token} {ts last : Tokens} (h : Begins us ts last) :
    ts.length = us.length + last.length := by
  induction us generalizing ts with
  | nil =>
      rw [Begins] at h
      simp [h]
  | cons u us ih =>
      obtain ⟨position, rest, rfl, hrest⟩ := h
      simp only [Tokens.length, List.length_cons, ih hrest]
      omega

/-- A text has tokens exactly if it is used up after them. -/
theorem toList?_eq_some_iff {ts : Tokens} {us : List Token} :
    ts.toList? = some us ↔ ∃ position, Begins us ts (.finish position) := by
  induction ts generalizing us with
  | finish position =>
      simp only [Tokens.toList?, Option.some.injEq]
      constructor
      · rintro rfl
        exact ⟨position, rfl⟩
      · rintro ⟨other, h⟩
        cases us with
        | nil => rfl
        | cons u us => simp [Begins] at h
  | stray c position =>
      simp only [Tokens.toList?, reduceCtorEq, false_iff, not_exists]
      intro other h
      cases us with
      | nil => simp [Begins] at h
      | cons u us => simp [Begins] at h
  | token t position rest ih =>
      simp only [Tokens.toList?, Option.map_eq_some_iff, ih]
      constructor
      · rintro ⟨vs, ⟨last, hvs⟩, rfl⟩
        exact ⟨last, position, rest, rfl, hvs⟩
      · rintro ⟨last, h⟩
        cases us with
        | nil => simp [Begins] at h
        | cons u us =>
            obtain ⟨position', rest', heq, hus⟩ := h
            cases heq
            exact ⟨us, ⟨last, hus⟩, rfl⟩

/-- Whether a chain ends before some tokens: they do not go on with a joiner, and what is next is
no stray character. -/
def Tokens.EndChain : Tokens → Prop
  | .finish _ => True
  | .stray _ _ => False
  | .token t _ _ => t.joiner? = none

/-! ### Readers -/

/-- Whether a reader takes exactly the primaries that a predicate admits, each for the clause that
goes with it. -/
def Reads (reader : PrimaryReader) (P : Primary → Clause → Prop) : Prop :=
  ∀ ts c last, (∃ h, reader ts = .ok (c, ⟨last, h⟩)) ↔ ∃ p, P p c ∧ Begins p.tokens ts last

/-- The clauses whose primaries a predicate admits, each with the clause that it stands for. -/
inductive Joins (P : Primary → Clause → Prop) : Written → Clause → Prop
  | single {p : Primary} {c : Clause} : P p c → Joins P (.single p) c
  | chain {j : Joiner} {p q : Primary} {ps : List Primary} {c d : Clause} {cs : List Clause} :
      P p c → P q d → List.Forall₂ P ps cs → Joins P (.chain j p q ps) (j.chain (c :: d :: cs))

section Chains

variable {reader : PrimaryReader} {P : Primary → Clause → Prop} {joiner : Joiner}

/-- What is read as the members of a chain are members of it, and the chain ends there. -/
theorem members_of_readMembers (hreads : Reads reader P) {ts last : Tokens} {cs : List Clause}
    {h : last.length ≤ ts.length} (hread : readMembers reader joiner ts = .ok (cs, ⟨last, h⟩)) :
    last.EndChain ∧ ∃ ps, List.Forall₂ P ps cs ∧ Begins (memberTokens joiner ps) ts last := by
  fun_induction readMembers reader joiner ts generalizing cs last with
  | case1 position =>
      cases hread
      exact ⟨trivial, [], .nil, rfl⟩
  | case2 c position => cases hread
  | case3 t position rest hnone =>
      cases hread
      exact ⟨hnone, [], .nil, rfl⟩
  | case4 => cases hread
  | case5 => cases hread
  | case6 t position rest c after hafter hprimary ds last' hlast' hmembers hsome ih =>
      cases hread
      obtain ⟨hend, ps, hps, hbegins⟩ := ih hmembers
      obtain ⟨p, hp, hbegin⟩ := (hreads rest c after).1 ⟨hafter, hprimary⟩
      refine ⟨hend, p :: ps, .cons hp hps, position, rest, ?_, begins_append.2 ⟨_, hbegin, hbegins⟩⟩
      rw [Token.eq_token_of_joiner? hsome]
  | case7 => cases hread

/-- Members of a chain that ends after them are read. -/
theorem readMembers_of_members (hreads : Reads reader P) {last : Tokens} (hend : last.EndChain)
    {ps : List Primary} {cs : List Clause} (hps : List.Forall₂ P ps cs) {ts : Tokens}
    (hbegins : Begins (memberTokens joiner ps) ts last) :
    ∃ h, readMembers reader joiner ts = .ok (cs, ⟨last, h⟩) := by
  induction hps generalizing ts with
  | nil =>
      rw [memberTokens, Begins] at hbegins
      subst hbegins
      cases ts with
      | finish position =>
          rw [readMembers]
          exact ⟨Nat.le_refl _, rfl⟩
      | stray c position => exact hend.elim
      | token t position rest =>
          have hnone : t.joiner? = none := hend
          rw [readMembers]
          simp only [hnone]
          exact ⟨Nat.le_refl _, trivial⟩
  | @cons p c ps cs hp _ ih =>
      have hlength := hbegins.length_eq
      obtain ⟨position, rest, rfl, hrest⟩ := hbegins
      obtain ⟨mid, hmid, hlast⟩ := begins_append.1 hrest
      obtain ⟨hafter, hprimary⟩ := (hreads rest c mid).2 ⟨p, hp, hmid⟩
      obtain ⟨hle, hmembers⟩ := ih hlast
      refine ⟨by omega, ?_⟩
      rw [readMembers]
      simp only [Joiner.joiner?_token, if_true, hprimary, hmembers]

/-- A clause that is read is one of primaries that are admitted, and a chain ends after it. -/
theorem joins_of_readChain (hreads : Reads reader P) {ts last : Tokens} {c : Clause}
    {h : last.length < ts.length} (hread : readChain reader ts = .ok (c, ⟨last, h⟩)) :
    last.EndChain ∧ ∃ w, Joins P w c ∧ Begins w.tokens ts last := by
  rw [readChain] at hread
  cases hfirst : reader ts with
  | error e =>
      rw [hfirst] at hread
      cases hread
  | ok done =>
      obtain ⟨first, rest, hrest⟩ := done
      rw [hfirst] at hread
      obtain ⟨p, hp, hbegin⟩ := (hreads ts first rest).1 ⟨hrest, hfirst⟩
      cases rest with
      | finish position =>
          cases hread
          exact ⟨trivial, .single p, .single hp, hbegin⟩
      | stray d position => cases hread
      | token t position rest =>
          dsimp only at hread
          cases hjoiner : t.joiner? with
          | none =>
              simp only [hjoiner] at hread
              cases hread
              exact ⟨hjoiner, .single p, .single hp, hbegin⟩
          | some j =>
              simp only [hjoiner] at hread
              cases hmembers : readMembers reader j (.token t position rest) with
              | error e =>
                  rw [hmembers] at hread
                  cases hread
              | ok done =>
                  obtain ⟨cs, last', hlast'⟩ := done
                  rw [hmembers] at hread
                  cases hread
                  obtain ⟨hend, ps, hps, hbegins⟩ := members_of_readMembers hreads hmembers
                  cases hps with
                  | nil =>
                      -- without a further member the chain would end before its joiner
                      rw [memberTokens, Begins] at hbegins
                      subst hbegins
                      rw [Tokens.EndChain, hjoiner] at hend
                      cases hend
                  | @cons q d ps cs hq hps =>
                      refine ⟨hend, .chain j p q ps, .chain hp hq hps, ?_⟩
                      rw [Written.tokens_chain]
                      exact begins_append.2 ⟨_, hbegin, hbegins⟩

/-- A clause of primaries that are admitted is read, if a chain ends after it. -/
theorem readChain_of_joins (hreads : Reads reader P) {ts last : Tokens} (hend : last.EndChain)
    {w : Written} {c : Clause} (hw : Joins P w c) (hbegins : Begins w.tokens ts last) :
    ∃ h, readChain reader ts = .ok (c, ⟨last, h⟩) := by
  cases hw with
  | @single p _ hp =>
      obtain ⟨hlt, hfirst⟩ := (hreads ts c last).2 ⟨p, hp, hbegins⟩
      refine ⟨hlt, ?_⟩
      rw [readChain, hfirst]
      cases last with
      | finish position => rfl
      | stray d position => exact hend.elim
      | token t position rest =>
          have hnone : t.joiner? = none := hend
          simp only [hnone]
  | @chain j p q ps a b cs hp hq hps =>
      rw [Written.tokens_chain] at hbegins
      obtain ⟨mid, hmid, hrest⟩ := begins_append.1 hbegins
      obtain ⟨hlt, hfirst⟩ := (hreads ts a mid).2 ⟨p, hp, hmid⟩
      obtain ⟨hle, hmembers⟩ := readMembers_of_members hreads hend (.cons hq hps) hrest
      obtain ⟨position, rest, rfl, -⟩ := hrest
      refine ⟨Nat.lt_of_le_of_lt hle hlt, ?_⟩
      rw [readChain, hfirst]
      simp only [Joiner.joiner?_token, hmembers]

end Chains

/-! ### Primaries with a room -/

section Room

variable {declared : String → Option Nat}

/-- Whether a primary fits into a room for openings, itself counted, and means a clause. -/
def Fits (declared : String → Option Nat) (room : Nat) (p : Primary) (c : Clause) : Prop :=
  p.nesting < room ∧ p.clause? declared = some c

/-- Further members of a chain fit if they do together. -/
theorem forall₂_fits_iff {room : Nat} (hroom : 0 < room) {ps : List Primary} {cs : List Clause} :
    List.Forall₂ (Fits declared room) ps cs ↔
      memberNesting ps < room ∧ memberClauses? declared ps = some cs := by
  induction ps generalizing cs with
  | nil => simp [memberNesting, memberClauses?, hroom, eq_comm]
  | cons p ps ih =>
      simp only [List.forall₂_cons_left_iff, ih, memberNesting, memberClauses?_cons_eq_some_iff,
        Fits]
      constructor
      · rintro ⟨c, ds, ⟨hlt, hc⟩, ⟨hlts, hds⟩, rfl⟩
        exact ⟨by omega, c, ds, hc, hds, rfl⟩
      · rintro ⟨hlt, c, ds, hc, hds, rfl⟩
        exact ⟨c, ds, ⟨by omega, hc⟩, ⟨by omega, hds⟩, rfl⟩

/-- A clause fits into a room if all of its primaries do. -/
theorem joins_fits_iff {room : Nat} {w : Written} {c : Clause} :
    Joins (Fits declared room) w c ↔ w.nesting < room ∧ w.clause? declared = some c := by
  constructor
  · intro h
    cases h with
    | single hp => exact hp
    | chain hp hq hps =>
        obtain ⟨hlt, ha⟩ := hp
        obtain ⟨hlt', hb⟩ := hq
        obtain ⟨hlts, hcs⟩ := (forall₂_fits_iff (Nat.zero_lt_of_lt hlt)).1 hps
        refine ⟨?_, Written.clause?_chain_eq_some_iff.2 ⟨_, _, _, ha, hb, hcs, rfl⟩⟩
        simp only [Written.nesting]
        omega
  · rintro ⟨hlt, hc⟩
    cases w with
    | single p => exact .single ⟨hlt, hc⟩
    | chain j p q ps =>
        obtain ⟨a, b, cs, ha, hb, hcs, rfl⟩ := Written.clause?_chain_eq_some_iff.1 hc
        simp only [Written.nesting] at hlt
        refine .chain ⟨by omega, ha⟩ ⟨by omega, hb⟩ ?_
        exact (forall₂_fits_iff (by omega)).2 ⟨by omega, hcs⟩

/-- A primary that is read with one more opening in the room fits into it. -/
theorem fits_of_readPrimary {room : Nat}
    (hreads : Reads (readPrimary declared room) (Fits declared room)) {ts last : Tokens}
    {c : Clause} {h : last.length < ts.length}
    (hread : readPrimary declared (room + 1) ts = .ok (c, ⟨last, h⟩)) :
    ∃ p, Fits declared (room + 1) p c ∧ Begins p.tokens ts last := by
  cases ts with
  | finish position => cases hread
  | stray d position => cases hread
  | token t position rest =>
      cases t with
      | name word =>
          simp only [readPrimary] at hread
          cases hdeclared : declared word with
          | none =>
              simp only [hdeclared] at hread
              cases hread
          | some i =>
              simp only [hdeclared] at hread
              cases hread
              refine ⟨.name word, ⟨Nat.succ_pos _, ?_⟩, position, last, rfl, rfl⟩
              simp only [Primary.clause?, hdeclared, Option.map_some]
      | not =>
          simp only [readPrimary] at hread
          cases hinner : readPrimary declared room rest with
          | error e =>
              rw [hinner] at hread
              cases hread
          | ok done =>
              obtain ⟨d, after, hafter⟩ := done
              rw [hinner] at hread
              cases hread
              obtain ⟨p, ⟨hlt, hd⟩, hbegins⟩ := (hreads rest d last).1 ⟨hafter, hinner⟩
              refine ⟨.not p, ⟨Nat.succ_lt_succ hlt, ?_⟩, position, rest, rfl, hbegins⟩
              simp only [Primary.clause?, hd, Option.map_some]
      | openParen =>
          simp only [readPrimary] at hread
          cases hinner : readChain (readPrimary declared room) rest with
          | error e =>
              rw [hinner] at hread
              cases hread
          | ok done =>
              obtain ⟨d, after, hafter⟩ := done
              rw [hinner] at hread
              obtain ⟨-, w, hw, hbegins⟩ := joins_of_readChain hreads hinner
              obtain ⟨hlt, hd⟩ := joins_fits_iff.1 hw
              cases after with
              | finish position => cases hread
              | stray e position => cases hread
              | token t position' after =>
                  cases t <;> cases hread
                  refine ⟨.parens w, ⟨Nat.succ_lt_succ hlt, hd⟩, position, rest, rfl, ?_⟩
                  exact begins_append.2 ⟨_, hbegins, position', last, rfl, rfl⟩
      | and => cases hread
      | or => cases hread
      | closeParen => cases hread

/-- A primary that fits into a room with one more opening is read with it. -/
theorem readPrimary_of_fits {room : Nat}
    (hreads : Reads (readPrimary declared room) (Fits declared room)) {ts last : Tokens}
    {p : Primary} {c : Clause} (hfits : Fits declared (room + 1) p c)
    (hbegins : Begins p.tokens ts last) :
    ∃ h, readPrimary declared (room + 1) ts = .ok (c, ⟨last, h⟩) := by
  obtain ⟨hlt, hc⟩ := hfits
  have hlength := hbegins.length_eq
  cases p with
  | name word =>
      obtain ⟨position, rest, rfl, rfl⟩ := hbegins
      simp only [Primary.clause?, Option.map_eq_some_iff] at hc
      obtain ⟨i, hi, rfl⟩ := hc
      refine ⟨Nat.lt_succ_self _, ?_⟩
      simp only [readPrimary, hi]
  | not p =>
      obtain ⟨position, rest, rfl, hrest⟩ := hbegins
      simp only [Primary.clause?, Option.map_eq_some_iff] at hc
      obtain ⟨d, hd, rfl⟩ := hc
      have hfits : Fits declared room p d := ⟨Nat.lt_of_succ_lt_succ hlt, hd⟩
      obtain ⟨hafter, hinner⟩ := (hreads rest d last).2 ⟨p, hfits, hrest⟩
      refine ⟨Nat.lt_succ_of_lt hafter, ?_⟩
      simp only [readPrimary, hinner]
  | parens w =>
      obtain ⟨position, rest, rfl, hrest⟩ := hbegins
      obtain ⟨after, hinside, position', last', rfl, rfl⟩ := begins_append.1 hrest
      have hw : Joins (Fits declared room) w c :=
        joins_fits_iff.2 ⟨Nat.lt_of_succ_lt_succ hlt, hc⟩
      have hend : (Tokens.token .closeParen position' last').EndChain := rfl
      obtain ⟨hafter, hinner⟩ := readChain_of_joins hreads hend hw hinside
      simp only [Primary.tokens, List.length_cons, List.length_append] at hlength
      refine ⟨by omega, ?_⟩
      simp only [readPrimary, hinner]

/-- **A primary is read with a room exactly if it fits into it.** -/
theorem reads_readPrimary (declared : String → Option Nat) (room : Nat) :
    Reads (readPrimary declared room) (Fits declared room) := by
  induction room with
  | zero =>
      intro ts c last
      constructor
      · rintro ⟨h, hread⟩
        cases ts <;> cases hread
      · rintro ⟨p, ⟨hlt, -⟩, -⟩
        exact absurd hlt (Nat.not_lt_zero _)
  | succ room ih =>
      intro ts c last
      constructor
      · rintro ⟨h, hread⟩
        exact fits_of_readPrimary ih hread
      · rintro ⟨p, hfits, hbegins⟩
        exact readPrimary_of_fits ih hfits hbegins

end Room

/-! ### Texts -/

section Texts

variable {declared : String → Option Nat} {text : String} {c : Clause}

/-- A clause that is read from a text is written there. -/
theorem exists_written_of_parse (h : parse declared text = .ok c) :
    ∃ w : Written, Lexes text.toList w.tokens ∧ w.nesting ≤ 31 ∧
      w.clause? declared = some c := by
  rw [parse, ofTokens] at h
  cases hread : readChain (readPrimary declared maxNesting) (tokens text) with
  | error e =>
      rw [hread] at h
      cases h
  | ok done =>
      obtain ⟨d, last, hlast⟩ := done
      rw [hread] at h
      obtain ⟨-, w, hw, hbegins⟩ :=
        joins_of_readChain (reads_readPrimary declared maxNesting) hread
      obtain ⟨hlt, hd⟩ := joins_fits_iff.1 hw
      cases last with
      | stray e position => cases h
      | token t position rest => cases h
      | finish position =>
          cases h
          have hlexes := toList?_tokens.1 (toList?_eq_some_iff.2 ⟨position, hbegins⟩)
          exact ⟨w, hlexes, Nat.le_of_lt_succ hlt, hd⟩

/-- A clause that is written in a text is read from it. -/
theorem parse_of_written {w : Written} (hlexes : Lexes text.toList w.tokens)
    (hle : w.nesting ≤ 31) (hc : w.clause? declared = some c) : parse declared text = .ok c := by
  obtain ⟨position, hbegins⟩ := toList?_eq_some_iff.1 (toList?_tokens.2 hlexes)
  have hw : Joins (Fits declared maxNesting) w c := joins_fits_iff.2 ⟨Nat.lt_succ_of_le hle, hc⟩
  have hend : (Tokens.finish position).EndChain := trivial
  obtain ⟨hlast, hread⟩ :=
    readChain_of_joins (reads_readPrimary declared maxNesting) hend hw hbegins
  rw [parse, ofTokens, hread]

end Texts

/-- **The clauses that are read from a text.** A clause is read from a text exactly if the text has
tokens, and they are those of a written clause that means this clause, with all of its names
declared, and has no more than 31 openings around any of its primaries. No other written clause has
these tokens. -/
theorem parse_iff_written (declared : String → Option Nat) (text : String) (c : Clause) :
    (parse declared text = .ok c ↔
      ∃ (ts : List Token) (w : Written), Lexes text.toList ts ∧ w.tokens = ts ∧
        w.nesting ≤ 31 ∧ w.clause? declared = some c) ∧
      ∀ v w : Written, v.tokens = w.tokens → v = w := by
  refine ⟨⟨fun h => ?_, ?_⟩, fun v w => Written.tokens_injective⟩
  · obtain ⟨w, hlexes, hle, hc⟩ := exists_written_of_parse h
    exact ⟨w.tokens, w, hlexes, rfl, hle, hc⟩
  · rintro ⟨ts, w, hlexes, rfl, hle, hc⟩
    exact parse_of_written hlexes hle hc

end Clause

end Forecast
