import Mathlib.Data.List.Sort
import Forecast.Proofs.Compile.WellFormed

/-!
# Names of Conditions in any Spelling and Order

An author may write the name of a condition in any case and with blanks around it, and a document
lists its conditions in the order of their names as they are written, in which capital letters stand
before small ones. None of this makes a difference. What counts of the conditions of a draft is the
collection of their drafts under their names without blanks around them and in lower case
(`named`): two drafts with the same collection are compiled to the same prediction, or neither is.

The order in which conditions are compiled decides which error is met first, and nothing else. So
which conditions are compiled is said here without it (`conditions_eq_ok_iff`). In particular no name
stands twice among conditions that are compiled, and then there is one way only to put them in the
order of their names (`map_nameAndDraft_entries_eq`).

## Main results

* `prediction_eq_ok_iff_of_perm`: what a draft is compiled to does not depend on how its names are
  spelled, or in which order they stand.
-/

namespace Forecast.Compile

/-- The drafts of conditions under their names without blanks around them and in lower case, in the
order of their names as they are written. -/
def named (given : Keyed ConditionDraft) : List (String × ConditionDraft) :=
  given.entries.map fun e => (Text.lower (Text.trim e.1), e.2)

/-- What compiling looks at of an entry: its name in lower case and its draft. -/
def Entry.nameAndDraft (e : Entry) : String × ConditionDraft :=
  (e.name, e.draft)

/-! ### The order of entries -/

/-- Sorting entries loses none of what is given, and adds nothing. -/
theorem perm_entries (given : Keyed ConditionDraft) :
    ((entries given).map Entry.nameAndDraft).Perm (named given) := by
  have hsort := (List.mergeSort_perm (given.entries.map toEntry)
    fun a b => a.name ≤ b.name).map Entry.nameAndDraft
  rwa [List.map_map] at hsort

/-- The names of entries are those under which something is given. -/
theorem perm_names_entries (given : Keyed ConditionDraft) :
    ((entries given).map (·.name)).Perm ((named given).map Prod.fst) := by
  have hnames := (perm_entries given).map Prod.fst
  rwa [List.map_map] at hnames

/-- Entries without a name that stands twice are in the one order of their names. -/
theorem pairwise_nameAndDraft_entries {given : Keyed ConditionDraft}
    (h : ((named given).map Prod.fst).Nodup) :
    ((entries given).map Entry.nameAndDraft).Pairwise fun a b => a.1 < b.1 := by
  have hnodup : ((entries given).map (·.name)).Nodup := (perm_names_entries given).nodup_iff.2 h
  have hincrease := ((pairwise_entries given).and hnodup).imp fun ⟨hle, hne⟩ =>
    Std.lt_of_le_of_ne hle hne
  rw [List.pairwise_map] at hincrease ⊢
  exact hincrease

/-- **There is one way to put names in order,** if none stands twice: entries do not depend on the
order in which their drafts are given. -/
theorem map_nameAndDraft_entries_eq {given given' : Keyed ConditionDraft}
    (h : (named given).Perm (named given')) (hnodup : ((named given).map Prod.fst).Nodup) :
    (entries given).map Entry.nameAndDraft = (entries given').map Entry.nameAndDraft := by
  have hperm : ((entries given).map Entry.nameAndDraft).Perm
      ((entries given').map Entry.nameAndDraft) :=
    (perm_entries given).trans (h.trans (perm_entries given').symm)
  refine hperm.eq_of_pairwise ?_ (pairwise_nameAndDraft_entries hnodup)
    (pairwise_nameAndDraft_entries ((h.map Prod.fst).nodup_iff.1 hnodup))
  intro a b _ _ hab hba
  exact absurd hba (String.lt_asymm hab)

/-! ### Which conditions are compiled -/

/-- **Which conditions are compiled.** Entries are compiled exactly if every name can be used and
none is taken or stands twice, and each entry is compiled by itself. -/
theorem conditions_eq_ok_iff {postedAt : Calendar.Instant} {taken : List String} {es : List Entry}
    {cs : List (Condition Price)} :
    conditions postedAt taken es = .ok cs ↔
      (∀ e ∈ es, Clause.isName e.name = true ∧ e.name ∉ taken) ∧ (es.map (·.name)).Nodup ∧
        List.Forall₂ (fun e c => condition e.name e.draft postedAt = .ok c) es cs := by
  induction es generalizing taken cs with
  | nil =>
      constructor
      · rintro ⟨⟩
        exact ⟨fun e he => absurd he List.not_mem_nil, .nil, .nil⟩
      · rintro ⟨-, -, ⟨⟩⟩
        rfl
  | cons e es ih =>
      constructor
      · intro h
        obtain ⟨hname, hfree, c, ds, hc, hds, rfl⟩ := exists_of_conditions_cons h
        obtain ⟨husable, hnodup, hall⟩ := ih.1 hds
        refine ⟨List.forall_mem_cons.2 ⟨⟨hname, hfree⟩, fun d hd => ?_⟩, ?_, .cons hc hall⟩
        · obtain ⟨hdname, hdfree⟩ := husable d hd
          exact ⟨hdname, fun htaken => hdfree (List.mem_cons_of_mem _ htaken)⟩
        · refine List.nodup_cons.2 ⟨fun hmem => ?_, hnodup⟩
          obtain ⟨d, hd, hdname⟩ := List.mem_map.1 hmem
          exact (husable d hd).2 (hdname ▸ List.mem_cons_self)
      · rintro ⟨husable, hnodup, hall⟩
        obtain ⟨⟨hname, hfree⟩, husable⟩ := List.forall_mem_cons.1 husable
        obtain ⟨hnew, hnodup⟩ := List.nodup_cons.1 hnodup
        cases hall with
        | @cons _ c _ ds hc hall =>
            have hrest : conditions postedAt (e.name :: taken) es = .ok ds := by
              refine ih.2 ⟨fun d hd => ⟨(husable d hd).1, fun htaken => ?_⟩, hnodup, hall⟩
              rcases List.mem_cons.1 htaken with hsame | htaken
              · exact hnew (List.mem_map.2 ⟨d, hd, hsame⟩)
              · exact (husable d hd).2 htaken
            rw [conditions, if_neg (by simp [hname]), if_neg (by simpa using hfree), hc]
            dsimp only
            rw [hrest]
            rfl

/-- Entries are compiled to what their names and drafts say, however the names were written. -/
theorem conditions_eq_ok_of_map_eq {postedAt : Calendar.Instant} {taken : List String}
    {es ds : List Entry} {cs : List (Condition Price)}
    (heq : es.map Entry.nameAndDraft = ds.map Entry.nameAndDraft)
    (h : conditions postedAt taken es = .ok cs) : conditions postedAt taken ds = .ok cs := by
  obtain ⟨husable, hnodup, hall⟩ := conditions_eq_ok_iff.1 h
  have hnames : es.map (·.name) = ds.map (·.name) := by
    have := congrArg (List.map Prod.fst) heq
    rwa [List.map_map, List.map_map] at this
  refine conditions_eq_ok_iff.2 ⟨fun d hd => ?_, hnames ▸ hnodup, ?_⟩
  · have hmem : d.name ∈ es.map (·.name) := hnames ▸ List.mem_map_of_mem hd
    obtain ⟨e, he, hname⟩ := List.mem_map.1 hmem
    exact hname ▸ husable e he
  · have hpairs : List.Forall₂ (fun e c => condition e.1 e.2 postedAt = .ok c)
        (es.map Entry.nameAndDraft) cs := List.forall₂_map_left_iff.2 hall
    exact List.forall₂_map_left_iff.1 (heq ▸ hpairs)

/-- Conditions that are given under the same names are compiled to the same, or not at all. -/
theorem conditions_entries_of_perm {postedAt : Calendar.Instant}
    {given given' : Keyed ConditionDraft} {cs : List (Condition Price)}
    (h : (named given).Perm (named given'))
    (hcs : conditions postedAt [] (entries given) = .ok cs) :
    conditions postedAt [] (entries given') = .ok cs := by
  have hnodup : ((named given).map Prod.fst).Nodup :=
    (perm_names_entries given).nodup_iff.1 (conditions_eq_ok_iff.1 hcs).2.1
  exact conditions_eq_ok_of_map_eq (map_nameAndDraft_entries_eq h hnodup) hcs

/-! ### Predictions -/

/-- Of what is given in a draft, only the conditions that it is compiled to count. -/
theorem prediction_of_conditions {given given' : Keyed ConditionDraft}
    (h : ∀ postedAt cs, conditions postedAt [] (entries given) = .ok cs →
      conditions postedAt [] (entries given') = .ok cs)
    {draft : Draft} {createdAt : Calendar.Instant} {p : Prediction}
    (hp : prediction { draft with given } createdAt = .ok p) :
    prediction { draft with given := given' } createdAt = .ok p := by
  simp only [prediction, derivedId, bind, Except.bind] at hp ⊢
  split at hp
  · cases hp
  next postedAt hposted =>
    split at hp
    · cases hp
    next cs hcs =>
      rw [h postedAt cs hcs]
      exact hp

/-- **Names of conditions do not depend on case, blanks or order.** If two drafts differ only in what
is given, and both give the same drafts of conditions under the same names without blanks around them
and in lower case, in whatever order and as often, then they are compiled to the same prediction, or
neither is compiled. -/
theorem prediction_eq_ok_iff_of_perm {given given' : Keyed ConditionDraft}
    (h : (named given).Perm (named given')) (draft : Draft) (createdAt : Calendar.Instant)
    (p : Prediction) :
    prediction { draft with given } createdAt = .ok p ↔
      prediction { draft with given := given' } createdAt = .ok p :=
  ⟨prediction_of_conditions fun _ _ => conditions_entries_of_perm h,
    prediction_of_conditions fun _ _ => conditions_entries_of_perm h.symm⟩

/-- A condition that a coin rises above a level. -/
def riseDraft : ConditionDraft :=
  ⟨"COIN:BINANCE:BTC-USDT > 3", none, none, some "1d", some 0.1⟩

/-- A condition on a market capitalisation. -/
def capDraft : ConditionDraft :=
  ⟨"2k >= MARKETCAP:BINANCE:BTC", none, none, some "1w", none⟩

/-- A draft of two conditions, whose names stand in the order in which they are compiled. -/
def spelledDraft : Draft where
  id := some "spelled"
  postedAt := "1970-01-01T00:00:00Z"
  reporter := ""
  postAuthor := ""
  postUrl := ""
  postText := ""
  given := .ofList [("High", riseDraft), ("mark", capDraft)]
  pre := none
  main := ⟨none, some "Mark", "not mark or HIGH", false, true⟩

/-- The same conditions under names of which the capitals come first. The last letter of one is the
sign for the kelvin, which is written as a small letter of ASCII in lower case. -/
def respelled : Keyed ConditionDraft :=
  .ofList [("high\t", riseDraft), ("MAR\u212A", capDraft)]

/-- The prediction that both are compiled to. -/
def spelled : Prediction where
  id := "spelled"
  createdAt := ⟨0, 0⟩
  postedAt := ⟨0, 0⟩
  reporter := ""
  postAuthor := ""
  postUrl := ""
  postText := ""
  given :=
    [.fresh "high" .above [.market (.coin "BINANCE" "BTC" "USDT"), .number 3] 0 86400 0.1,
      .fresh "mark" .atLeast [.number (2 * 1e3), .market (.marketcap "BINANCE" "BTC")] 0 604800 0]
  pre := .none
  main := ⟨none, some (.literal 1), .disj [.neg (.literal 1), .literal 0], ⟨false, true⟩⟩
  state := .initial
  shape := .unsupported

theorem named_spelledDraft : named spelledDraft.given = [("high", riseDraft), ("mark", capDraft)] := by
  with_unfolding_all rfl

theorem named_respelled : named respelled = [("mark", capDraft), ("high", riseDraft)] := by
  with_unfolding_all rfl

/-- Two names in another spelling and order, and the prediction that comes of both drafts. -/
theorem prediction_spelled :
    (named spelledDraft.given).Perm (named respelled) ∧
      prediction spelledDraft ⟨0, 0⟩ = .ok spelled ∧
      prediction { spelledDraft with given := respelled } ⟨0, 0⟩ = .ok spelled := by
  have htime : Calendar.readTime spelledDraft.postedAt = .ok ⟨0, 0⟩ := by rfl
  have hconditions : conditions ⟨0, 0⟩ [] (spelledDraft.given.entries.map toEntry) =
      .ok spelled.given := by with_unfolding_all rfl
  have hentries : entries spelledDraft.given = spelledDraft.given.entries.map toEntry :=
    entries_of_sorted (by decide +kernel)
  have hcompiled : prediction spelledDraft ⟨0, 0⟩ = .ok spelled := by
    simp only [prediction, hentries, htime, Except.mapError, bind, Except.bind, hconditions]
    with_unfolding_all rfl
  have hperm : (named spelledDraft.given).Perm (named respelled) := by
    rw [named_spelledDraft, named_respelled]
    exact List.Perm.swap _ _ _
  exact ⟨hperm, hcompiled, (prediction_eq_ok_iff_of_perm hperm spelledDraft ⟨0, 0⟩ spelled).1 hcompiled⟩

end Forecast.Compile
