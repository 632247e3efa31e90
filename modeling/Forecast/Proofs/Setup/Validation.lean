import Mathlib.Tactic.MkIffOfInductiveProp
import Forecast.Execution
import Forecast.Proofs.Failure.Steps
import Forecast.Proofs.Text.Variants

/-!
# What Is Validated Is Used

Validation and use look at the same settings in different ways. Validation drops the blanks around a
whole number and refuses what is no number; the length of a candle is then read as it stands, with a
default for what is no number. The path of the database is validated without the blanks around it,
and used with them. So the two agree only if there are no blanks around values, which is how a
configuration is read (`isTrimmed_read`): every line keeps this, and so do all lines together.

What passes validation is listed in `Ini.IsValid` (`validate_eq_ok_iff`). In a configuration without
blanks around values, that is all that a setup needs.

## Main results

* `load_of_validate`: a configuration that passes validation has a setup of the values that were
  looked at, and only its database may then fail.
* `Command.opened_of_validate`: a command with such a configuration, if it does not crash, works in the
  context of this setup or fails for the sake of the database.
-/

namespace Forecast

namespace Ini

variable {ini ini' : Ini} {group key : String}

/-! ### Blanks around values -/

/-- The values of a group have no blanks around them. -/
def AreTrimmed (settings : Keyed (Option String)) : Prop :=
  ∀ key v, settings.get? key = some (some v) → Text.trim v = v

/-- The values of a configuration have no blanks around them. -/
def IsTrimmed (ini : Ini) : Prop :=
  ∀ group settings, ini.groups.get? group = some settings → AreTrimmed settings

theorem areTrimmed_empty : AreTrimmed .empty := by
  intro key v hv
  cases hv

theorem AreTrimmed.insert {settings : Keyed (Option String)} (h : AreTrimmed settings) (key : String)
    {value : Option String} (hvalue : ∀ v, value = some v → Text.trim v = v) :
    AreTrimmed (settings.insert key value) := by
  intro other v hv
  rw [Keyed.get?_insert] at hv
  split at hv
  · exact hvalue v (Option.some.inj hv)
  · exact h other v hv

theorem isTrimmed_empty : Ini.empty.IsTrimmed := by
  intro group settings hsettings
  cases hsettings

/-- What is there of a group has no blanks around its values. -/
theorem IsTrimmed.areTrimmed (h : ini.IsTrimmed) (group : String) :
    AreTrimmed ((ini.groups.get? group).getD .empty) := by
  cases hsettings : ini.groups.get? group with
  | none => exact areTrimmed_empty
  | some settings => exact h group settings hsettings

/-- One group may change for another without blanks around values. -/
theorem IsTrimmed.put (h : ini.IsTrimmed) (group : String) {settings : Keyed (Option String)}
    (hsettings : AreTrimmed settings) : IsTrimmed ⟨ini.groups.insert group settings⟩ := by
  intro other settings' hother
  dsimp only at hother
  rw [Keyed.get?_insert] at hother
  split at hother
  · exact Option.some.inj hother ▸ hsettings
  · exact h other settings' hother

theorem IsTrimmed.insert (h : ini.IsTrimmed) (group key : String) {value : Option String}
    (hvalue : ∀ v, value = some v → Text.trim v = v) : (ini.insert group key value).IsTrimmed :=
  h.put group ((h.areTrimmed group).insert key hvalue)

theorem IsTrimmed.withGroup (h : ini.IsTrimmed) (group : String) : (ini.withGroup group).IsTrimmed :=
  h.put group (h.areTrimmed group)

/-- A line gives a value without blanks around it. -/
theorem trim_of_readContent {cs : List Char} {key v : String}
    (h : readContent cs = .ok (.setting key (some v))) : Text.trim v = v := by
  rw [readContent.eq_def] at h
  split at h
  · cases h
  · split at h <;> cases h
  · dsimp only at h
    split at h
    · obtain ⟨-, hnone⟩ := Line.setting.inj (Except.ok.inj h)
      cases hnone
    · split at h
      · cases h
      · obtain ⟨-, hv⟩ := Line.setting.inj (Except.ok.inj h)
        rw [← Option.some.inj hv, Text.trim, String.toList_ofList, Text.trimChars_trimChars]

/-- Lines leave no blanks around values where there were none. -/
theorem IsTrimmed.readLines {n : Nat} {lines : List (List Char)} (h : ini.IsTrimmed)
    (hread : Ini.readLines n group ini lines = .ok ini') : ini'.IsTrimmed := by
  induction lines generalizing n group ini with
  | nil =>
      cases hread
      exact h
  | cons cs rest ih =>
      rw [Ini.readLines.eq_def] at hread
      dsimp only at hread
      split at hread
      · cases hread
      · exact ih h hread
      · next name _ => exact ih (h.withGroup name) hread
      · next key value hline =>
          refine ih (h.insert group key ?_) hread
          rintro v rfl
          exact trim_of_readContent hline

/-- **A configuration is read without the blanks around values.** -/
theorem isTrimmed_read {text : String} (hread : Ini.read text = .ok ini) : ini.IsTrimmed :=
  isTrimmed_empty.readLines hread

theorem IsTrimmed.trim_eq (h : ini.IsTrimmed) {v : String} (hv : ini.get? group key = some v) :
    Text.trim v = v := by
  rw [get?, Option.join_eq_some_iff, Option.bind_eq_some_iff] at hv
  obtain ⟨settings, hsettings, hv⟩ := hv
  exact h _ settings hsettings _ v hv

theorem IsTrimmed.map_trim (h : ini.IsTrimmed) :
    (ini.get? group key).map Text.trim = ini.get? group key := by
  cases hv : ini.get? group key with
  | none => rfl
  | some v => rw [Option.map_some, h.trim_eq hv]

/-! ### Single settings -/

theorem positive_eq_ok_iff {default n : Int} : ini.positive group key default = .ok n ↔
    ((ini.get? group key).map Text.trim).elim (some default) Decimal.readWord = some n ∧ 0 < n := by
  have hcheck {m : Int} {e : Failure} : (if m ≤ 0 then Except.error e else pure m) = .ok n ↔
      m = n ∧ 0 < n := by
    rw [ite_error_eq_ok_iff, Int.not_le]
    constructor
    · rintro ⟨hpos, hm⟩
      cases hm
      exact ⟨rfl, hpos⟩
    · rintro ⟨rfl, hpos⟩
      exact ⟨hpos, rfl⟩
  rw [positive]
  cases (ini.get? group key).map Text.trim with
  | none => simpa [pure_bind] using hcheck
  | some v =>
      cases hv : Decimal.readWord v with
      | none => simp [hv, error_bind]
      | some m => simpa [hv] using hcheck

/-- What is validated as a positive number is read as the same number with a default. -/
theorem IsTrimmed.numberOr_eq (h : ini.IsTrimmed) {default n : Int}
    (hn : ini.positive group key default = .ok n) : ini.numberOr group key default = n := by
  have hvalue := (positive_eq_ok_iff.1 hn).1
  rw [h.map_trim] at hvalue
  rw [numberOr]
  cases hv : ini.get? group key with
  | none =>
      rw [hv] at hvalue
      exact Option.some.inj hvalue
  | some v =>
      rw [hv, Option.elim_some] at hvalue
      rw [Option.bind_some, hvalue, Option.getD_some]

/-- A text that must be there is as it stands in the configuration, and is not blank. -/
theorem IsTrimmed.required_eq_ok_iff (h : ini.IsTrimmed) {v : String} :
    ini.required group key = .ok v ↔
      ini.get? group key = some v ∧ Text.isBlankText v = false := by
  rw [required, h.map_trim]
  cases hw : ini.get? group key with
  | none => simp
  | some w =>
      dsimp only
      have hblank : w = "" ↔ Text.isBlankText w = true := by
        rw [← Text.trim_eq_empty_iff, h.trim_eq hw]
      rw [ite_error_eq_ok_iff, hblank, Bool.not_eq_true, Except.ok.injEq, Option.some.injEq]
      constructor
      · rintro ⟨hfalse, rfl⟩
        exact ⟨rfl, hfalse⟩
      · rintro ⟨rfl, hfalse⟩
        exact ⟨hfalse, rfl⟩

end Ini

/-! ### Sources of candles -/

/-- Where the candles of a source come from. -/
def CandleSource.origin : CandleSource → CandleOrigin
  | .directory _ => .files
  | .database => .database

theorem CandleSource.ofIni_eq_ok_iff {ini : Ini} {source : CandleSource} :
    ofIni ini = .ok source ↔ CandleOrigin.ofIni ini = .ok source.origin ∧
      ∀ path, source = .directory path → ini.required "csv" "path" = .ok path := by
  rw [ofIni, bind_eq_ok_iff]
  constructor
  · rintro ⟨origin, horigin, hsource⟩
    cases origin with
    | files =>
        obtain ⟨path, hpath, hsource⟩ := bind_eq_ok_iff.1 hsource
        cases hsource
        refine ⟨horigin, fun other hother => ?_⟩
        cases hother
        exact hpath
    | database =>
        cases hsource
        exact ⟨horigin, fun path hpath => by cases hpath⟩
  · rintro ⟨horigin, hpath⟩
    refine ⟨source.origin, horigin, ?_⟩
    cases source with
    | directory path => exact bind_eq_ok_iff.2 ⟨path, hpath path rfl, rfl⟩
    | database => rfl

/-- There is a source of candles if it is known where they come from, and files have a directory. -/
theorem CandleSource.exists_ofIni_iff {ini : Ini} : (∃ source, ofIni ini = .ok source) ↔
    ∃ origin, CandleOrigin.ofIni ini = .ok origin ∧
      (origin = .files → ∃ path, ini.required "csv" "path" = .ok path) := by
  constructor
  · rintro ⟨source, hsource⟩
    obtain ⟨horigin, hpath⟩ := ofIni_eq_ok_iff.1 hsource
    refine ⟨source.origin, horigin, fun hfiles => ?_⟩
    cases source with
    | directory path => exact ⟨path, hpath path rfl⟩
    | database => cases hfiles
  · rintro ⟨origin, horigin, hpath⟩
    cases origin with
    | files =>
        obtain ⟨path, hpath⟩ := hpath rfl
        refine ⟨.directory path, ofIni_eq_ok_iff.2 ⟨horigin, fun other hother => ?_⟩⟩
        cases hother
        exact hpath
    | database => exact ⟨.database, ofIni_eq_ok_iff.2 ⟨horigin, fun path hpath => by cases hpath⟩⟩

/-! ### Validation -/

/-- What a configuration must have to be used. -/
@[mk_iff]
structure Ini.IsValid (ini : Ini) : Prop where
  providers : ini.list "market" "providers" ≠ []
  interval : ∃ n, ini.positive "market" "candle_interval_secs" defaultInterval = .ok n ∧
    minInterval ≤ n
  candles : ∃ source, CandleSource.ofIni ini = .ok source
  databasePath : ∃ path, ini.required "sqlite" "path" = .ok path
  poolSize : ∃ n, ini.positive "sqlite" "pool_size" defaultPoolSize = .ok n
  pollSeconds : ∃ n, ini.positive "runner" "poll_interval_secs" defaultPollSeconds = .ok n
  limit : ∃ n, ini.positive "runner" "max_passes" Batch.defaultLimit = .ok n

/-- **Validation passes what is valid, and nothing else.** -/
theorem Ini.validate_eq_ok_iff {ini : Ini} : ini.validate = .ok () ↔ ini.IsValid := by
  rw [isValid_iff, CandleSource.exists_ofIni_iff, validate]
  simp only [error_bind, ite_error_eq_ok_iff, bind_eq_ok_iff, Int.not_lt]
  constructor
  · rintro ⟨hproviders, n, hn, hle, origin, horigin, hrest⟩
    cases origin with
    | files =>
        simp only [bind_eq_ok_iff, discard_eq_ok_iff] at hrest
        obtain ⟨-, hpath, -, hdatabase, -, hpool, -, hpoll, hlimit⟩ := hrest
        exact ⟨hproviders, ⟨n, hn, hle⟩, ⟨.files, horigin, fun _ => hpath⟩, hdatabase, hpool,
          hpoll, hlimit⟩
    | database =>
        simp only [bind_eq_ok_iff, discard_eq_ok_iff] at hrest
        obtain ⟨-, hdatabase, -, hpool, -, hpoll, hlimit⟩ := hrest
        exact ⟨hproviders, ⟨n, hn, hle⟩, ⟨.database, horigin, by simp⟩, hdatabase, hpool, hpoll,
          hlimit⟩
  · rintro ⟨hproviders, ⟨n, hn, hle⟩, ⟨origin, horigin, hpath⟩, hdatabase, hpool, hpoll, hlimit⟩
    refine ⟨hproviders, n, hn, hle, origin, horigin, ?_⟩
    cases origin with
    | files =>
        simp only [bind_eq_ok_iff, discard_eq_ok_iff]
        exact ⟨(), hpath rfl, (), hdatabase, (), hpool, (), hpoll, hlimit⟩
    | database =>
        simp only [bind_eq_ok_iff, discard_eq_ok_iff]
        exact ⟨(), hdatabase, (), hpool, (), hpoll, hlimit⟩

/-! ### Setups -/

namespace Setup

/-- A setup of the values that validation looked at. Each is what the setting is read as in use. -/
structure IsValidated (setup : Setup) (ini : Ini) : Prop where
  market : MarketConfig.ofIni ini = .ok setup.market
  providers : setup.market.providers ≠ []
  interval : ini.positive "market" "candle_interval_secs" defaultInterval =
    .ok setup.market.interval
  minInterval_le : minInterval ≤ setup.market.interval
  candles : CandleSource.ofIni ini = .ok setup.candles
  origin : CandleOrigin.ofIni ini = .ok setup.candles.origin
  /-- Candles from files have a directory that is there in the configuration and is not blank. -/
  directory : setup.candles.origin = .files → ∃ path, setup.candles = .directory path ∧
    ini.get? "csv" "path" = some path ∧ Text.isBlankText path = false
  databasePath : ini.databasePath = .ok setup.databasePath
  databasePath_required : ini.required "sqlite" "path" = .ok setup.databasePath
  databasePath_not_blank : Text.isBlankText setup.databasePath = false
  limit : ini.positive "runner" "max_passes" Batch.defaultLimit = .ok (setup.limit : Int)
  limit_pos : 0 < setup.limit
  pollSeconds : ini.positive "runner" "poll_interval_secs" defaultPollSeconds =
    .ok (setup.pollSeconds : Int)
  pollSeconds_pos : 0 < setup.pollSeconds
  /-- The setup is what the configuration is read as. -/
  read : ofIni ini = .ok setup

/-- A context of a setup with its database opened. -/
def opened (setup : Setup) (found : String → Found) : Except Failure Context := do
  let location ← (Location.read setup.databasePath).mapError Location.unopened
  let database ← location.openTables found setup.databasePath
  return ⟨setup, location, database⟩

end Setup

/-- The settings of a market are those that were looked at. -/
theorem MarketConfig.ofIni_of_positive {ini : Ini} (htrim : ini.IsTrimmed) {interval : Int}
    (hproviders : ini.list "market" "providers" ≠ [])
    (hinterval : ini.positive "market" "candle_interval_secs" defaultInterval = .ok interval)
    (hle : minInterval ≤ interval) :
    ofIni ini = .ok ⟨(ini.list "market" "providers").map Text.upper, interval⟩ := by
  rw [ofIni, htrim.numberOr_eq hinterval]
  split
  · next hnone => exact absurd hnone hproviders
  · rw [if_neg (Int.not_lt.2 hle)]

/-- A positive number is kept without a sign. -/
theorem Ini.positive_eq_ok_toNat {ini : Ini} {group key : String} {default n : Int}
    (hn : ini.positive group key default = .ok n) :
    ini.positive group key default = .ok (n.toNat : Int) ∧ 0 < n.toNat := by
  have hpos := (positive_eq_ok_iff.1 hn).2
  rw [Int.toNat_of_nonneg (Int.le_of_lt hpos)]
  exact ⟨hn, by omega⟩

/-- A valid configuration without blanks around values has a setup. -/
theorem Ini.IsValid.exists_isValidated {ini : Ini} (hvalid : ini.IsValid) (htrim : ini.IsTrimmed) :
    ∃ setup : Setup, setup.IsValidated ini := by
  obtain ⟨interval, hinterval, hle⟩ := hvalid.interval
  obtain ⟨candles, hcandles⟩ := hvalid.candles
  obtain ⟨databasePath, hrequired⟩ := hvalid.databasePath
  obtain ⟨limit, hlimit⟩ := hvalid.limit
  obtain ⟨pollSeconds, hpoll⟩ := hvalid.pollSeconds
  have hmarket := MarketConfig.ofIni_of_positive htrim hvalid.providers hinterval hle
  obtain ⟨horigin, hpath⟩ := CandleSource.ofIni_eq_ok_iff.1 hcandles
  obtain ⟨hthere, hblank⟩ := htrim.required_eq_ok_iff.1 hrequired
  have hdatabase : ini.databasePath = .ok databasePath := by
    rw [Ini.databasePath, hthere]
  obtain ⟨hlimit', hlimit_pos⟩ := positive_eq_ok_toNat hlimit
  obtain ⟨hpoll', hpoll_pos⟩ := positive_eq_ok_toNat hpoll
  refine ⟨⟨_, candles, databasePath, limit.toNat, pollSeconds.toNat⟩, {
    market := hmarket
    providers := by simpa using hvalid.providers
    interval := hinterval
    minInterval_le := hle
    candles := hcandles
    origin := horigin
    directory := fun hfiles => ?_
    databasePath := hdatabase
    databasePath_required := hrequired
    databasePath_not_blank := hblank
    limit := hlimit'
    limit_pos := hlimit_pos
    pollSeconds := hpoll'
    pollSeconds_pos := hpoll_pos
    read := ?_ }⟩
  · cases candles with
    | directory path => exact ⟨path, rfl, htrim.required_eq_ok_iff.1 (hpath path rfl)⟩
    | database => cases hfiles
  · simp only [Setup.ofIni, bind_eq_ok_iff]
    exact ⟨(), validate_eq_ok_iff.2 hvalid, _, hmarket, _, hcandles, _, hdatabase, _, hlimit, _,
      hpoll, rfl⟩

/-! ### Contexts -/

/-- If there are no tables in the end, it is for the sake of the database. -/
theorem Location.exitCode_of_openTables {location : Location} {found : String → Found}
    {name : String} {f : Failure} (h : location.openTables found name = .error f) :
    f.exitCode = 3 := by
  rw [openTables.eq_def] at h
  split at h
  · cases h
  · split at h
    · split at h <;> cases h
      rfl
    · cases h
    · cases h
    · cases h
      rfl
    · cases h
      rfl

/-- Opening fails only for the sake of the database. -/
theorem Setup.exitCode_of_opened {setup : Setup} {found : String → Found} {f : Failure}
    (h : setup.opened found = .error f) : f.exitCode = 3 := by
  rcases bind_eq_error_iff.1 h with hlocation | ⟨location, -, hdatabase⟩
  · cases hread : Location.read setup.databasePath with
    | error reason =>
        rw [hread] at hlocation
        cases hlocation
        rfl
    | ok location => rw [hread] at hlocation; cases hlocation
  · rcases bind_eq_error_iff.1 hdatabase with htables | ⟨d, -, hdone⟩
    · exact Location.exitCode_of_openTables htables
    · cases hdone

/-- A context is the setup of its configuration with the database opened. -/
theorem Context.load_eq_opened {env : Environment} {config text : String} {ini : Ini}
    {setup : Setup} (hfile : env.files config = .ok text) (hread : Ini.read text = .ok ini)
    (hsetup : Setup.ofIni ini = .ok setup) : load env config = setup.opened env.found := by
  have hload : Setup.read config (env.files config) = .ok setup := by
    rw [hfile, Setup.read.eq_def]
    dsimp only
    rw [hread]
    exact hsetup
  rw [load, hload]
  rfl

/-- **What is validated is used.** If a configuration that was read passes validation, there is a
setup of the values that were looked at: at least one provider, the length of a candle, the source of
candles, the path of the database, and positive limits. What the configuration is read as is this
setup, and loading it is opening its database; so nothing but the database can make it fail. -/
theorem Context.load_of_validate {text : String} {ini : Ini} (hread : Ini.read text = .ok ini)
    (hvalid : ini.validate = .ok ()) :
    ∃ setup : Setup, setup.IsValidated ini ∧
      ∀ (env : Environment) (config : String), env.files config = .ok text →
        load env config = setup.opened env.found ∧
          ∀ f, load env config = .error f → f.exitCode = 3 := by
  obtain ⟨setup, hsetup⟩ :=
    (Ini.validate_eq_ok_iff.1 hvalid).exists_isValidated (Ini.isTrimmed_read hread)
  refine ⟨setup, hsetup, fun env config hfile => ?_⟩
  have hload : load env config = setup.opened env.found := load_eq_opened hfile hread hsetup.read
  exact ⟨hload, fun f hf => Setup.exitCode_of_opened (hload ▸ hf)⟩

/-- A command that cannot load its context says so, and keeps nothing. -/
theorem Command.execute_of_load_error {env : Environment} {config : String} {f : Failure}
    {c : Command} (hconfig : c.config? = some config) (hload : Context.load env config = .error f)
    (now : Calendar.Instant) : c.execute env now = .failed "" f none := by
  cases c with
  | compile input json => cases hconfig
  | add config' input => cases hconfig; rw [execute, Execution.add, hload]
  | run config' time => cases hconfig; rw [execute, Execution.run, hload]
  | watch config' => cases hconfig; rw [execute, hload]
  | list config' outcomes => cases hconfig; rw [execute, Execution.list, hload]
  | reset config' id => cases hconfig; rw [execute, Execution.reset, hload]

/-- **So it is with every command.** A command with a configuration that passes validation, if it does
not crash, works in the context of the setup of the values that were looked at. If this cannot be
opened, the command fails for the sake of the database, and keeps nothing. -/
theorem Command.opened_of_validate {text : String} {ini : Ini} (hread : Ini.read text = .ok ini)
    (hvalid : ini.validate = .ok ()) : ∃ setup : Setup, setup.IsValidated ini ∧
      ∀ (env : Environment) (now : Calendar.Instant) (c : Command) (config : String) (e : Execution),
        c.config? = some config → env.files config = .ok text → c.execute? env now = some e →
          (∃ context, Context.load env config = .ok context ∧
            setup.opened env.found = .ok context) ∨
          ∃ f, setup.opened env.found = .error f ∧ e = .failed "" f none ∧ e.exitCode = 3 := by
  obtain ⟨setup, hsetup⟩ :=
    (Ini.validate_eq_ok_iff.1 hvalid).exists_isValidated (Ini.isTrimmed_read hread)
  refine ⟨setup, hsetup, fun env now c config e hconfig hfile hexecute => ?_⟩
  have hload : Context.load env config = setup.opened env.found :=
    Context.load_eq_opened hfile hread hsetup.read
  obtain ⟨-, rfl⟩ := execute?_eq_some_iff.1 hexecute
  cases hopened : setup.opened env.found with
  | ok context => exact .inl ⟨context, hload.trans hopened, rfl⟩
  | error f =>
      rw [execute_of_load_error hconfig (hload.trans hopened)]
      exact .inr ⟨f, rfl, rfl, Setup.exitCode_of_opened hopened⟩

/-- A configuration that is written untidily: blanks around values, a provider without a name, a sign
and leading zeros before a number. -/
def Setup.untidy : String :=
  "[Market]\nProviders = binance, , Coinbase ; two of them\nCandle_Interval_Secs =   +0300  \n" ++
    "source = SQLite\n[sqlite]\npath:  store.db\t\n[runner]\nmax_passes = 7\n"

theorem Context.load_of_validate_untidy :
    ∃ (ini : Ini) (setup : Setup), Ini.read Setup.untidy = .ok ini ∧ ini.validate = .ok () ∧
      setup.IsValidated ini ∧
      (setup.market, setup.candles, setup.databasePath, setup.limit, setup.pollSeconds) =
        (⟨["BINANCE", "COINBASE"], 300⟩, .database, "store.db", 7, 60) ∧
      load ⟨fun _ => .ok Setup.untidy, fun _ => .nothing⟩ "untidy.ini" =
        setup.opened fun _ => .nothing := by
  have hvalues : ((Ini.read Setup.untidy).toOption.bind fun ini => (Setup.ofIni ini).toOption).map
      (fun setup =>
        (setup.market, setup.candles, setup.databasePath, setup.limit, setup.pollSeconds)) =
      some (⟨["BINANCE", "COINBASE"], 300⟩, .database, "store.db", 7, 60) := by
    decide +kernel
  obtain ⟨used, hused, hvalues⟩ := Option.map_eq_some_iff.1 hvalues
  obtain ⟨ini, hread, hofIni⟩ := Option.bind_eq_some_iff.1 hused
  rw [toOption_eq_some_iff] at hread hofIni
  obtain ⟨_, hvalid, -⟩ := bind_eq_ok_iff.1 hofIni
  obtain ⟨setup, hsetup, hload⟩ := Context.load_of_validate hread hvalid
  obtain rfl : setup = used := by
    have hsame := hsetup.read
    rw [hofIni] at hsame
    exact (Except.ok.inj hsame).symm
  refine ⟨ini, setup, hread, hvalid, hsetup, hvalues, ?_⟩
  exact (hload ⟨fun _ => .ok Setup.untidy, fun _ => .nothing⟩ "untidy.ini" rfl).1

end Forecast
