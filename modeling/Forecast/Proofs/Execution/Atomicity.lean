import Forecast.Proofs.Database.History
import Forecast.Proofs.Execution.Effect

/-!
# Commands Are All or Nothing

A command reads its configuration, opens its database, reads the draft, loads what is stored, and then
writes once, if it writes at all. So however it fails, it fails before anything is written: the rows of
every database are as they were. If it succeeds it has had its effect (`Command.IsAtomic`).

A database in memory is worked on in the same way, and is then forgotten.

What commands write agrees with its columns again, so that every database that commands have made is one
on which they are all or nothing.

## Main results

* `Command.isAtomic_execute`: a command fails and changes nothing, or succeeds and does what it is for.
* `Command.isAtomic_of_execute?`: so does a command that may crash, unless it crashes.
-/

namespace Forecast

theorem Failure.exitCode_ne_zero (f : Failure) : f.exitCode ≠ 0 := by
  cases f <;> simp [exitCode]

theorem Execution.exitCode_failed (notes : String) (f : Failure) (kept : Option (String × Database)) :
    (failed notes f kept).exitCode ≠ 0 :=
  f.exitCode_ne_zero

/-- What has come of a command that is all or nothing: what was done is what the command is for, or
nothing. -/
structure Command.IsAtomic (env : Environment) (now : Calendar.Instant) (c : Command) (e : Execution) :
    Prop where
  failed : e.exitCode ≠ 0 → ∀ path, env.rowsAfter e path = (env.found path).rows
  done : e.exitCode = 0 → ∃ after, c.Effect env now (c.rowsBefore env) after ∧ c.Leaves env e after

section Atomic

variable {env : Environment} {now : Calendar.Instant} {config : String} {command : Command}
  {c c' : Context}

/-- A command that keeps nothing leaves everything as it was. -/
theorem Environment.rowsAfter_of_kept_none {e : Execution} (h : e.kept = none) (path : String) :
    env.rowsAfter e path = (env.found path).rows := by
  rw [rowsAfter, h]

/-- A command that leaves in its database what it found there leaves everything as it was. -/
theorem Command.Leaves.rowsAfter_eq {e : Execution} (h : command.Leaves env e (command.rowsBefore env))
    (path : String) : env.rowsAfter e path = (env.found path).rows := by
  by_cases hthere : ∃ access, command.location? env = some (.file path access)
  · obtain ⟨access, haccess⟩ := hthere
    rw [h.there path access haccess, rowsBefore, haccess]
    rfl
  · exact h.elsewhere path fun access haccess => hthere ⟨access, haccess⟩

/-- A failure without a database, or before anything was written, changes nothing. -/
theorem Command.isAtomic_failed (notes : String) (f : Failure) :
    command.IsAtomic env now (.failed notes f none) where
  failed _ := Environment.rowsAfter_of_kept_none rfl
  done h := absurd h (Execution.exitCode_failed _ f _)

theorem Command.isAtomic_failed_kept (hload : Context.load env config = .ok c)
    (hconfig : command.config? = some config) (notes : String) (f : Failure) :
    command.IsAtomic env now (.failed notes f c.kept) where
  failed _ := by
    have hleaves := Context.leaves_of_kept (e := .failed notes f c.kept) hload hconfig rfl
      (fun _ _ => rfl) rfl
    rw [(Context.load_eq_ok hload hconfig).2] at hleaves
    exact hleaves.rowsAfter_eq
  done h := absurd h (Execution.exitCode_failed _ f _)

/-- A command that does its work on its database has done what it is for. -/
theorem Command.isAtomic_done (hload : Context.load env config = .ok c)
    (hconfig : command.config? = some config) (hlocation : c'.location = c.location)
    (hreading : ∀ path, c.location = .file path .reading → c'.database.rows = c.database.rows)
    (heffect : command.Effect env now c.database.rows c'.database.rows) (output notes : String) :
    command.IsAtomic env now (.done output notes c'.kept) where
  failed h := absurd rfl h
  done _ := by
    refine ⟨c'.database.rows, ?_, Context.leaves_of_kept hload hconfig hlocation hreading rfl⟩
    rw [← (Context.load_eq_ok hload hconfig).2]
    exact heffect

/-- A command that has only looked at its database has changed nothing. -/
theorem Command.isAtomic_looked (hload : Context.load env config = .ok c)
    (hconfig : command.config? = some config)
    (heffect : command.Effect env now c.database.rows c.database.rows) (output notes : String) :
    command.IsAtomic env now (.done output notes c.kept) :=
  isAtomic_done hload hconfig rfl (fun _ _ => rfl) heffect output notes

theorem Command.isAtomic_compile (input : String) (json : Bool) :
    (Command.compile input json).IsAtomic env now (.compile env now input json) := by
  rw [Execution.compile]
  split
  · exact isAtomic_failed _ _
  · exact
      { failed := fun h => absurd rfl h
        done := fun _ => ⟨_, rfl, nofun, fun path _ => rfl⟩ }

theorem Command.isAtomic_add (config input : String) :
    (Command.add config input).IsAtomic env now (.add env now config input) := by
  rw [Execution.add]
  cases hload : Context.load env config with
  | error f => exact isAtomic_failed _ _
  | ok c =>
      dsimp only
      cases hdraft : readDraft env input now with
      | mk notes read =>
          cases read with
          | error f => exact isAtomic_failed_kept hload rfl _ _
          | ok p =>
              dsimp only
              cases hadd : Execution.addNew c p with
              | error f => exact isAtomic_failed_kept hload rfl _ _
              | ok done =>
                  obtain ⟨p', c'⟩ := done
                  obtain ⟨hsave, hfree⟩ := Execution.addNew_eq_ok hadd
                  obtain ⟨hlocation, hreading, -⟩ := Context.save_eq_ok hsave
                  obtain ⟨content, hcontent, hcompile⟩ := exists_of_readDraft hdraft
                  refine isAtomic_done hload rfl hlocation hreading ?_ _ _
                  exact ⟨content, p, hcontent, hcompile, hfree, Context.rows_save_insert hsave⟩

theorem Command.isAtomic_run (config : String) (time : Option Calendar.Instant)
    (hagree : ∀ path, RowsAgree (env.found path).rows) :
    (Command.run config time).IsAtomic env now (.run env config (time.getD now)) := by
  rw [Execution.run]
  cases hload : Context.load env config with
  | error f => exact isAtomic_failed _ _
  | ok c =>
      dsimp only
      cases hbatch : c.batch env (time.getD now) with
      | error f => exact isAtomic_failed_kept hload rfl _ _
      | ok done =>
          obtain ⟨r, c'⟩ := done
          obtain ⟨hlocation, hreading⟩ := Context.location_of_batch hbatch
          refine isAtomic_done hload rfl hlocation hreading ?_ _ _
          exact Context.advances_of_batch (Context.rowsAgree_of_load hload hagree) hbatch

theorem Command.isAtomic_watch (config : String) (hagree : ∀ path, RowsAgree (env.found path).rows) :
    (Command.watch config).IsAtomic env now ((Command.watch config).execute env now) := by
  rw [Command.execute]
  cases hload : Context.load env config with
  | error f => exact isAtomic_failed _ _
  | ok c =>
      dsimp only
      rw [Execution.watchRound]
      cases hbatch : c.batch env now with
      | error f =>
          refine isAtomic_looked hload rfl ?_ _ _
          exact fun id => Or.inl rfl
      | ok done =>
          obtain ⟨r, c'⟩ := done
          obtain ⟨hlocation, hreading⟩ := Context.location_of_batch hbatch
          refine isAtomic_done hload rfl hlocation hreading ?_ _ _
          exact Context.advances_of_batch (Context.rowsAgree_of_load hload hagree) hbatch

theorem Command.isAtomic_list (config : String) (outcomes : List Outcome) :
    (Command.list config outcomes).IsAtomic env now (.list env config outcomes) := by
  rw [Execution.list]
  cases hload : Context.load env config with
  | error f => exact isAtomic_failed _ _
  | ok c =>
      dsimp only
      cases c.database.load outcomes with
      | error f => exact isAtomic_failed_kept hload rfl _ _
      | ok ps =>
          dsimp only
          have heffect : (Command.list config outcomes).Effect env now c.database.rows
              c.database.rows := rfl
          split
          · exact isAtomic_looked hload rfl heffect _ _
          · exact isAtomic_looked hload rfl heffect _ _

theorem Command.isAtomic_reset (config id : String) (hagree : ∀ path, RowsAgree (env.found path).rows) :
    (Command.reset config id).IsAtomic env now (.reset env config id) := by
  rw [Execution.reset]
  cases hload : Context.load env config with
  | error f => exact isAtomic_failed _ _
  | ok c =>
      dsimp only
      cases hreset : Execution.resetStored c id with
      | error f => exact isAtomic_failed_kept hload rfl _ _
      | ok c' =>
          obtain ⟨r, p, hr, hbody, hsave⟩ := Execution.resetStored_eq_ok hreset
          obtain ⟨hlocation, hreading, -⟩ := Context.save_eq_ok hsave
          have hid : p.id = id := (Context.rowsAgree_of_load hload hagree id r p hr hbody).1
          rw [hid] at hsave
          refine isAtomic_done hload rfl hlocation hreading ?_ _ _
          exact ⟨r, p, hr, hbody, Context.rows_save_insert hsave⟩

/-- Each command is all or nothing. -/
theorem Command.isAtomic_of_rowsAgree (command : Command)
    (hagree : ∀ path, RowsAgree (env.found path).rows) :
    command.IsAtomic env now (command.execute env now) := by
  cases command with
  | compile input json => exact isAtomic_compile input json
  | add config input => exact isAtomic_add config input
  | run config time => exact isAtomic_run config time hagree
  | watch config => exact isAtomic_watch config hagree
  | list config outcomes => exact isAtomic_list config outcomes
  | reset config id => exact isAtomic_reset config id hagree

end Atomic

/-! ### Agreement -/

/-- The row of a prediction agrees with its text. -/
theorem RowsAgree.insert {rows : Keyed Row} (h : RowsAgree rows) (p : Prediction) :
    RowsAgree (rows.insert p.id p.row) := by
  intro id r q hr hbody
  rw [Keyed.get?_insert] at hr
  split at hr
  · next heq =>
      obtain rfl := Option.some.inj hr
      exact ⟨(Prediction.id_of_ofStored? hbody).trans heq.symm,
        congrArg Outcome.word (Prediction.outcome_of_ofStored? hbody)⟩
  · exact h id r q hr hbody

/-- Rows of what has come of predictions agree with their texts. -/
theorem Advances.rowsAgree {now : Int} {before after : Keyed Row} (h : Advances now before after)
    (hagree : RowsAgree before) : RowsAgree after := by
  intro id r q hr hbody
  rcases h id with hsame | ⟨row, p, p', hrow, -, hread, hruns, hnew⟩
  · rw [hsame] at hr
    exact hagree id r q hr hbody
  · rw [hnew] at hr
    obtain rfl := Option.some.inj hr
    have hid : p'.id = id := by
      rw [hruns.frame]
      exact (hagree id row p hrow hread).1
    exact ⟨(Prediction.id_of_ofStored? hbody).trans hid,
      congrArg Outcome.word (Prediction.outcome_of_ofStored? hbody)⟩

/-- What a command does to rows that agree leaves rows that agree. -/
theorem Command.Effect.rowsAgree {env : Environment} {now : Calendar.Instant} {command : Command}
    {before after : Keyed Row} (h : command.Effect env now before after) (hagree : RowsAgree before) :
    RowsAgree after := by
  cases command with
  | compile input json =>
      obtain rfl : after = before := h
      exact hagree
  | list config outcomes =>
      obtain rfl : after = before := h
      exact hagree
  | add config input =>
      obtain ⟨content, p, -, -, -, rfl⟩ := h
      exact hagree.insert p.evaluated
  | reset config id =>
      obtain ⟨r, p, hr, hbody, rfl⟩ := h
      rw [← (hagree id r p hr hbody).1]
      exact hagree.insert p.cleared
  | run config time => exact Advances.rowsAgree h hagree
  | watch config => exact Advances.rowsAgree h hagree

/-- Where a command is all or nothing, columns and texts stay in agreement. -/
theorem Command.IsAtomic.rowsAgree_rowsAfter {env : Environment} {now : Calendar.Instant}
    {command : Command} {e : Execution} (h : command.IsAtomic env now e)
    (hagree : ∀ path, RowsAgree (env.found path).rows) (path : String) :
    RowsAgree (env.rowsAfter e path) := by
  by_cases hexit : e.exitCode = 0
  · obtain ⟨after, heffect, hleaves⟩ := h.done hexit
    by_cases hthere : ∃ access, command.location? env = some (.file path access)
    · obtain ⟨access, haccess⟩ := hthere
      rw [hleaves.there path access haccess]
      exact heffect.rowsAgree (command.rowsAgree_rowsBefore hagree)
    · rw [hleaves.elsewhere path fun access haccess => hthere ⟨access, haccess⟩]
      exact hagree path
  · rw [h.failed hexit path]
    exact hagree path

/-! ### Every command -/

/-- So is a command that may crash. If it does, it has come to nothing that it could have kept. -/
theorem Command.isAtomic_of_execute? {env : Environment}
    (hagree : ∀ path, RowsAgree (env.found path).rows) {now : Calendar.Instant} {command : Command}
    {e : Execution} (h : command.execute? env now = some e) :
    command.IsAtomic env now e ∧ ∀ path, RowsAgree (env.rowsAfter e path) := by
  obtain ⟨-, rfl⟩ := execute?_eq_some_iff.1 h
  have hatomic : command.IsAtomic env now (command.execute env now) :=
    isAtomic_of_rowsAgree command hagree
  exact ⟨hatomic, hatomic.rowsAgree_rowsAfter hagree⟩

/-- What is held in a store. -/
def deskLedger : Ledger :=
  .ofList [("a", Database.plain "a" (Database.afterMinute .running)),
    ("b", Database.plain "b" (Database.afterMinute .correct))]

/-- The database of the store. -/
def deskDatabase : Database :=
  ⟨some ⟨deskLedger.map Prediction.row, .empty⟩⟩

/-- A configuration with its store. -/
def desk : Environment where
  files path :=
    if path = "desk.ini" then
      .ok "[market]\nproviders = BINANCE\n[csv]\npath = candles\n[sqlite]\npath = store.db\n"
    else .error .missing
  found path := if path = "store.db" then .database deskDatabase else .nothing

theorem holds_desk : deskDatabase.Holds deskLedger where
  tables := rfl
  rows id := Keyed.get?_map _ _ id
  read id p hp := by
    have hmem := Keyed.mem_of_mem_ofList ((deskLedger.mem_entries_iff id p).2 hp)
    simp only [List.mem_cons, List.not_mem_nil, or_false, Prod.mk.injEq] at hmem
    rcases hmem with ⟨-, rfl⟩ | ⟨-, rfl⟩ <;> exact Database.isReadBack_plain _ _ (by rfl)

/-- What is held under its own ids agrees. -/
theorem rowsAgree_of_holds {d : Database} {m : Ledger} (h : d.Holds m) (hkeyed : IsKeyedById m) :
    RowsAgree d.rows := by
  intro id r p hr hbody
  rw [h.rows] at hr
  obtain ⟨q, hq, rfl⟩ := Option.map_eq_some_iff.1 hr
  obtain rfl : q = p := Option.some.inj ((h.read id q hq).symm.trans hbody)
  exact ⟨(hkeyed.get?_eq_some_iff.1 hq).2, rfl⟩

/-- Resetting succeeds if what is held can be kept, cleared. -/
theorem Execution.exitCode_reset {env : Environment} {config id : String} {c c' : Context}
    (hload : Context.load env config = .ok c) (hreset : resetStored c id = .ok c') :
    (reset env config id).exitCode = 0 := by
  rw [reset, hload]
  dsimp only
  rw [hreset]
  rfl

/-- Resetting a prediction in the store succeeds. -/
theorem exitCode_desk : ((Command.reset "desk.ini" "a").execute desk ⟨0, 0⟩).exitCode = 0 := by
  obtain ⟨setup, hsetup, hpath⟩ : ∃ setup, Setup.read "desk.ini" (desk.files "desk.ini") = .ok setup ∧
      setup.databasePath = "store.db" := by
    have hread : (Setup.read "desk.ini" (desk.files "desk.ini")).toOption.map (·.databasePath) =
        some "store.db" := by
      decide +kernel
    cases hsetup : Setup.read "desk.ini" (desk.files "desk.ini") with
    | error f => rw [hsetup] at hread; cases hread
    | ok setup => rw [hsetup] at hread; exact ⟨setup, rfl, Option.some.inj hread⟩
  have hlocation : Location.read setup.databasePath = .ok (.file "store.db" .making) := by
    have hread : (Location.read "store.db").toOption = some (.file "store.db" .making) := by
      decide +kernel
    rw [hpath]
    cases hread' : Location.read "store.db" with
    | error reason => rw [hread'] at hread; cases hread
    | ok location => rw [hread'] at hread; rw [Option.some.inj hread]
  have hload : Context.load desk "desk.ini" = .ok ⟨setup, .file "store.db" .making, deskDatabase⟩ := by
    rw [Context.load, hsetup]
    simp only [bind, Except.bind, hlocation, Except.mapError]
    rfl
  obtain ⟨p, hget, hcleared⟩ : ∃ p, (deskLedger.filter fun _ p => p.state.outcome.isAmong []).get? "a" =
      some p ∧ (Prediction.ofStored? p.cleared.stored).isSome := by
    refine ⟨Database.plain "a" (Database.afterMinute .running), ?_, ?_⟩
    · rw [Keyed.get?_filter]
      rfl
    · have hstate : (Database.plain "a" (Database.afterMinute .running)).cleared =
          Database.plain "a" .initial := rfl
      rw [hstate]
      exact Option.isSome_iff_exists.2 ⟨_, Database.isReadBack_plain "a" _ (by rfl)⟩
  obtain ⟨d, hd⟩ : ∃ d, deskDatabase.save (Keyed.empty.insert p.id p.cleared) = .ok d := by
    refine Database.exists_save rfl (fun e he => ?_) fun q hq => ?_
    · obtain rfl := List.mem_singleton.1 he
      rfl
    · obtain rfl := List.mem_singleton.1 hq
      exact hcleared
  have hreset : Execution.resetStored ⟨setup, .file "store.db" .making, deskDatabase⟩ "a" =
      .ok ⟨setup, .file "store.db" .making, d⟩ := by
    refine Execution.resetStored_of_held (holds_desk.load_eq []) hget ?_
    rw [Context.save_of_making, hd]
    rfl
  have hexecute : (Command.reset "desk.ini" "a").execute desk ⟨0, 0⟩ =
      .reset desk "desk.ini" "a" := rfl
  rw [hexecute]
  exact Execution.exitCode_reset hload hreset

end Forecast
