import Forecast.Proofs.Calendar.StoredTimes
import Forecast.Proofs.Operand.Keys
import Forecast.Proofs.Setup.Validation

/-!
# Connections to a Database

The number of connections is validated as a positive number, read again with a default, and then kept
in 32 bits. Reading again does no harm, blanks or not: what is read is the number that was validated,
or the default (`numberOr_of_positive`). Keeping it does. The number is brought to at least one before
its high bits are dropped, not afterwards, so that a multiple of `2 ^ 32` leaves no connections, and
every command with such a configuration crashes.

## Main results

* `connections_of_validate`: after validation there are connections if the number is no multiple of
  `2 ^ 32`, and a command with the configuration crashes in no other case.
* `no_connections_of_validate`: a configuration that passes validation and has no connections.
-/

namespace Forecast

/-! ### Reading a number twice -/

namespace Decimal

/-- There are no blanks in what is read as a whole number. -/
theorem not_isBlank_of_readInt {cs : List Char} {m : Int} (h : readInt cs = some m) :
    ∀ c ∈ cs, Text.isBlank c = false := by
  have hdigits {ds : List Char} {f : Nat → Int} (hds : (readNat ds).map f = some m) :
      ∀ d ∈ ds, Text.isBlank d = false := by
    obtain ⟨n, hn, -⟩ := Option.map_eq_some_iff.1 hds
    rw [readNat, Option.ite_none_right_eq_some] at hn
    exact fun d hd => Calendar.not_isBlank_of_isDigit (List.all_eq_true.1 hn.1.2 d hd)
  rw [readInt.eq_def] at h
  split at h
  · exact List.forall_mem_cons.2 ⟨by decide, hdigits h⟩
  · exact List.forall_mem_cons.2 ⟨by decide, hdigits h⟩
  · exact hdigits h

theorem trim_of_readWord {v : String} {m : Int} (h : readWord v = some m) : Text.trim v = v := by
  obtain ⟨hread, -⟩ := Option.filter_eq_some_iff.1 h
  rw [Text.trim, Text.trimChars_of_forall (not_isBlank_of_readInt hread), String.ofList_toList]

end Decimal

namespace Ini

variable {ini : Ini}

/-- **Reading again does no harm.** What is validated as a positive number is read as the same number
with a default, or there are blanks around it and it is read as the default. -/
theorem numberOr_of_positive {group key : String} {default n : Int}
    (hn : ini.positive group key default = .ok n) :
    ini.numberOr group key default = n ∨ ini.numberOr group key default = default := by
  have hvalue := (positive_eq_ok_iff.1 hn).1
  rw [numberOr]
  cases hv : ini.get? group key with
  | none => exact .inr rfl
  | some v =>
      rw [hv, Option.map_some, Option.elim_some] at hvalue
      cases hm : Decimal.readWord v with
      | none => exact .inr (by rw [Option.bind_some, hm, Option.getD_none])
      | some m =>
          rw [Decimal.trim_of_readWord hm, hm] at hvalue
          exact .inl (by rw [Option.bind_some, hm, Option.getD_some, Option.some.inj hvalue])

/-! ### Keeping it in 32 bits -/

/-- Of a positive number the low bits are kept. -/
theorem toNat_poolSize {n : Int} (hn : ini.numberOr "sqlite" "pool_size" defaultPoolSize = n)
    (hpos : 0 < n) : (poolSize ini).toNat = n.toNat % 2 ^ 32 := by
  rw [poolSize, hn, max_eq_left (by omega), UInt32.toNat_ofNat']

/-- A positive number leaves no connections if it is a multiple of `2 ^ 32`. -/
theorem toNat_poolSize_eq_zero_iff {n : Int}
    (hn : ini.numberOr "sqlite" "pool_size" defaultPoolSize = n) (hpos : 0 < n) :
    (poolSize ini).toNat = 0 ↔ (2 : Int) ^ 32 ∣ n := by
  rw [toNat_poolSize hn hpos]
  omega

theorem one_le_poolSize_iff : 1 ≤ poolSize ini ↔ (poolSize ini).toNat ≠ 0 := by
  rw [UInt32.le_iff_toNat_le, UInt32.toNat_one, Nat.one_le_iff_ne_zero]

/-- A command with a valid configuration crashes if and only if there are no connections. -/
theorem execute?_eq_none_iff {text : String} (hread : Ini.read text = .ok ini)
    (hvalid : ini.IsValid) {env : Environment} {now : Calendar.Instant} {c : Command}
    {config : String} (hconfig : c.config? = some config) (hfile : env.files config = .ok text) :
    c.execute? env now = none ↔ (poolSize ini).toNat = 0 := by
  obtain ⟨setup, hsetup⟩ := hvalid.exists_isValidated (isTrimmed_read hread)
  have hlacks : Setup.lacksConnections (.ok text) = (poolSize ini == 0) := by
    rw [Setup.lacksConnections.eq_def]
    dsimp only
    rw [hread]
    dsimp only
    rw [hsetup.read]
    rfl
  rw [Command.execute?, Command.crashes, hconfig, Option.any_some, hfile, hlacks,
    ← UInt32.toNat_zero, UInt32.toNat_inj, ← beq_iff_eq (a := poolSize ini)]
  simp only [ite_eq_left_iff, reduceCtorEq, imp_false, not_not]

/-- **Connections after validation.** For a configuration that passes validation, let `n` be the
number of connections that validation looked at. There is at least one connection if `n` is no
multiple of `2 ^ 32`, and so if it fits 32 bits. Of a configuration that was read, the low 32 bits of
`n` are the number of connections, and a command with it crashes if and only if `n` is a multiple of
`2 ^ 32`. -/
theorem connections_of_validate (hvalid : ini.validate = .ok ()) :
    ∃ n, ini.positive "sqlite" "pool_size" defaultPoolSize = .ok n ∧
      (¬ (2 : Int) ^ 32 ∣ n → 1 ≤ poolSize ini) ∧
      ∀ text, Ini.read text = .ok ini →
        (poolSize ini).toNat = n.toNat % 2 ^ 32 ∧
          ∀ (env : Environment) (now : Calendar.Instant) (c : Command) (config : String),
            c.config? = some config → env.files config = .ok text →
              (c.execute? env now = none ↔ (2 : Int) ^ 32 ∣ n) := by
  have hvalid := validate_eq_ok_iff.1 hvalid
  obtain ⟨n, hn⟩ := hvalid.poolSize
  have hpos := (positive_eq_ok_iff.1 hn).2
  refine ⟨n, hn, fun hdvd => ?_, fun text hread => ?_⟩
  · rw [one_le_poolSize_iff]
    rcases numberOr_of_positive hn with hsame | hdefault
    · exact mt (toNat_poolSize_eq_zero_iff hsame hpos).1 hdvd
    · rw [toNat_poolSize hdefault (by decide)]
      decide
  · have hsame := (isTrimmed_read hread).numberOr_eq hn
    refine ⟨toNat_poolSize hsame hpos, fun env now c config hconfig hfile => ?_⟩
    rw [execute?_eq_none_iff hread hvalid hconfig hfile, toNat_poolSize_eq_zero_iff hsame hpos]

/-- A configuration that asks for some number of connections. -/
def withPool (number : String) : String :=
  "[market]\nproviders = BINANCE\nsource = csv\n[csv]\npath = .\n[sqlite]\npath = verdict.db\n" ++
    "pool_size = " ++ number ++ "\n"

theorem connections_of_validate_beyond :
    ∃ ini, Ini.read (withPool "4294967298") = .ok ini ∧ ini.validate = .ok () ∧
      1 ≤ poolSize ini ∧ (poolSize ini).toNat = 2 ∧
      (Command.list "v.ini" []).execute?
        ⟨fun _ => .ok (withPool "4294967298"), fun _ => .nothing⟩ ⟨0, 0⟩ ≠ none := by
  have hvalues : (Ini.read (withPool "4294967298")).toOption.map
      (fun ini => (ini.validate.toOption,
        (ini.positive "sqlite" "pool_size" defaultPoolSize).toOption)) =
      some (some (), some 4294967298) := by
    decide +kernel
  obtain ⟨ini, hread, hvalues⟩ := Option.map_eq_some_iff.1 hvalues
  obtain ⟨hvalid, hn⟩ := Prod.mk.inj hvalues
  rw [toOption_eq_some_iff] at hread hvalid hn
  obtain ⟨n, hpositive, hone, hkept⟩ := connections_of_validate hvalid
  obtain rfl : n = 4294967298 := Except.ok.inj (hpositive.symm.trans hn)
  obtain ⟨htwo, hcrash⟩ := hkept _ hread
  refine ⟨ini, hread, hvalid, hone (by decide), htwo, ?_⟩
  exact mt (hcrash ⟨fun _ => .ok (withPool "4294967298"), fun _ => .nothing⟩ ⟨0, 0⟩ _ _ rfl rfl).1
    (by decide)

/-- **No connections after validation.** Validation passes the number `2 ^ 32`, but no connections are
left of it, and the command crashes. -/
theorem no_connections_of_validate :
    ∃ ini, Ini.read (withPool "4294967296") = .ok ini ∧ ini.validate = .ok () ∧
      ¬ 1 ≤ poolSize ini ∧
      (Command.list "v.ini" []).execute?
        ⟨fun _ => .ok (withPool "4294967296"), fun _ => .nothing⟩ ⟨0, 0⟩ = none := by
  have hvalues : (Ini.read (withPool "4294967296")).toOption.map
      (fun ini => (ini.validate.toOption, poolSize ini)) = some (some (), 0) := by
    decide +kernel
  obtain ⟨ini, hread, hvalues⟩ := Option.map_eq_some_iff.1 hvalues
  obtain ⟨hvalid, hnone⟩ := Prod.mk.inj hvalues
  rw [toOption_eq_some_iff] at hread hvalid
  refine ⟨ini, hread, hvalid, ?_, ?_⟩
  · rw [hnone]
    decide
  · rw [execute?_eq_none_iff hread (validate_eq_ok_iff.1 hvalid) rfl rfl, hnone]
    rfl

end Ini

end Forecast
