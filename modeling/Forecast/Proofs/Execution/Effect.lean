import Forecast.Execution
import Forecast.Proofs.Batch.History
import Forecast.Proofs.Database.Rows

/-!
# What Commands Do to Stored Predictions

A command works on the database that its configuration names. A command that succeeds has done to the
rows there what it is for (`Command.Effect`): adding puts one new row, resetting replaces the row that was
asked for, running replaces rows of predictions that were ongoing, and all other rows stay.

It is needed of the rows that are there that their columns agree with their texts (`RowsAgree`), because
a command looks for a prediction by the columns and writes it under what the text says.

## Main results

* `Context.leaves_of_kept`: the rows after a command are those of its context in the end.
* `Execution.addNew_eq_ok`, `Execution.resetStored_eq_ok`, `Context.advances_of_batch`: what is written.
-/

namespace Forecast

open Database (get?_load isSome_of_load get?_rows_save)

/-! ### Rows before and after -/

/-- The rows of what is found at a path. -/
def Found.rows : Found → Keyed Row
  | .database d => d.rows
  | _ => .empty

/-- The rows at a path after a command. Only the database that it has kept is another one. -/
def Environment.rowsAfter (env : Environment) (e : Execution) (path : String) : Keyed Row :=
  match e.kept with
  | some (kept, d) => if kept = path then d.rows else (env.found path).rows
  | none => (env.found path).rows

/-- The rows of the database at a location. In memory there are none yet. -/
def Location.rows (found : String → Found) : Location → Keyed Row
  | .memory => .empty
  | .file path _ => (found path).rows

/-- Where the database of a command is, as its configuration says. -/
def Command.location? (env : Environment) (c : Command) : Option Location := do
  let config ← c.config?
  let setup ← (Setup.read config (env.files config)).toOption
  (Location.read setup.databasePath).toOption

/-- The rows that a command finds in its database. -/
def Command.rowsBefore (env : Environment) (c : Command) : Keyed Row :=
  match c.location? env with
  | some location => location.rows env.found
  | none => .empty

/-- Whether a command leaves some rows in its database, if that is kept in a file, and everything as it
was elsewhere. -/
structure Command.Leaves (c : Command) (env : Environment) (e : Execution) (after : Keyed Row) :
    Prop where
  there : ∀ path access, c.location? env = some (.file path access) → env.rowsAfter e path = after
  elsewhere : ∀ path, (∀ access, c.location? env ≠ some (.file path access)) →
    env.rowsAfter e path = (env.found path).rows

/-- Whether the id and the outcome of every row that can be read are those that its text names. -/
def RowsAgree (rows : Keyed Row) : Prop :=
  ∀ id r p, rows.get? id = some r → Prediction.ofStored? r.body = some p →
    p.id = id ∧ p.state.outcome.word = r.state

theorem rowsAgree_empty : RowsAgree .empty := by
  intro id r p hr
  cases hr

/-- What a command finds agrees, if everything does that can be found. -/
theorem Command.rowsAgree_rowsBefore {env : Environment}
    (hagree : ∀ path, RowsAgree (env.found path).rows) (c : Command) :
    RowsAgree (c.rowsBefore env) := by
  rw [rowsBefore]
  cases c.location? env with
  | none => exact rowsAgree_empty
  | some location =>
      cases location with
      | memory => exact rowsAgree_empty
      | file path access => exact hagree path

/-! ### Effects -/

/-- Whether rows differ only where a prediction was ongoing and has been run up to a second. -/
def Advances (now : Int) (before after : Keyed Row) : Prop :=
  ∀ id, after.get? id = before.get? id ∨
    ∃ r p q, before.get? id = some r ∧ Database.Row.isAmong Outcome.ongoing r = true ∧
      Prediction.ofStored? r.body = some p ∧ p.Runs now q ∧ after.get? id = some q.row

/-- What a command that succeeds does to the rows of its database. -/
def Command.Effect (env : Environment) (now : Calendar.Instant) :
    Command → (before after : Keyed Row) → Prop
  | .compile _ _, before, after => after = before
  | .add _ input, before, after => ∃ content p, env.files input = .ok content ∧
      Compile.text content now = .ok p ∧ before.get? p.id = none ∧
      after = before.insert p.id p.evaluated.row
  | .run _ time, before, after => Advances (time.getD now).seconds before after
  | .watch _, before, after => Advances now.seconds before after
  | .list _ _, before, after => after = before
  | .reset _ id, before, after => ∃ r p, before.get? id = some r ∧
      Prediction.ofStored? r.body = some p ∧ after = before.insert id p.cleared.row

/-! ### Contexts -/

section Contexts

variable {env : Environment} {now : Calendar.Instant} {config : String} {c c' : Context}

theorem Database.rows_withTables (d : Database) : d.withTables.rows = d.rows := by
  rw [Database.rows, Database.rows, Database.withTables]
  cases d.tables with
  | none => rfl
  | some t => rfl

/-- A database that is opened has the rows that were found. -/
theorem Location.rows_openTables {found : String → Found} {name : String} {location : Location}
    {d : Database} (h : location.openTables found name = .ok d) : d.rows = location.rows found := by
  cases location with
  | memory =>
      rw [openTables] at h
      cases h
      rfl
  | file path access =>
      rw [openTables.eq_def] at h
      dsimp only at h
      change d.rows = (found path).rows
      cases hfound : found path with
      | database d' =>
          rw [hfound] at h
          cases access with
          | reading =>
              dsimp only at h
              split at h
              · cases h; rfl
              · cases h
          | writing => cases h; exact d'.rows_withTables
          | making => cases h; exact d'.rows_withTables
      | nothing =>
          rw [hfound] at h
          cases access with
          | reading => cases h
          | writing => cases h
          | making => cases h; rfl
      | foreign => rw [hfound] at h; cases h
      | unreachable => rw [hfound] at h; cases access <;> cases h

/-- A context is where the configuration says, with the rows that are found there. -/
theorem Context.load_eq_ok (h : Context.load env config = .ok c) {command : Command}
    (hconfig : command.config? = some config) :
    command.location? env = some c.location ∧ c.database.rows = command.rowsBefore env := by
  rw [Context.load] at h
  cases hsetup : Setup.read config (env.files config) with
  | error f => rw [hsetup] at h; cases h
  | ok setup =>
      rw [hsetup] at h
      cases hlocation : Location.read setup.databasePath with
      | error reason =>
          simp only [bind, Except.bind, hlocation, Except.mapError] at h
          cases h
      | ok location =>
          simp only [bind, Except.bind, hlocation, Except.mapError] at h
          cases hdatabase : location.openTables env.found setup.databasePath with
          | error f => rw [hdatabase] at h; cases h
          | ok d =>
              rw [hdatabase] at h
              cases h
              have hthere : command.location? env = some location := by
                rw [Command.location?, hconfig]
                simp only [bind, Option.bind_some, hsetup, Except.toOption, hlocation]
              refine ⟨hthere, ?_⟩
              rw [Command.rowsBefore, hthere]
              exact Location.rows_openTables hdatabase

/-- What is found in a context agrees, if everything does that can be found. -/
theorem Context.rowsAgree_of_load (h : Context.load env config = .ok c)
    (hagree : ∀ path, RowsAgree (env.found path).rows) : RowsAgree c.database.rows := by
  have hrows : c.database.rows = (Command.watch config).rowsBefore env :=
    (Context.load_eq_ok h rfl).2
  rw [hrows]
  exact Command.rowsAgree_rowsBefore hagree _

/-- Predictions that are kept have their rows afterwards, and the other rows are as before. -/
theorem Context.save_eq_ok {ps : Keyed Prediction} (h : c.save ps = .ok c') :
    c'.location = c.location ∧
      (∀ path, c.location = .file path .reading → c'.database.rows = c.database.rows) ∧
      ∀ id, c'.database.rows.get? id =
        ((ps.get? id).map Prediction.row).or (c.database.rows.get? id) := by
  rw [Context.save.eq_def] at h
  split at h
  · next path hlocation =>
      split at h
      · next hempty =>
          cases h
          refine ⟨rfl, fun _ _ => rfl, fun id => ?_⟩
          rw [Keyed.get?_of_isEmpty hempty, Option.map_none, Option.none_or]
      · cases h
  · next hwriting =>
      cases hsave : c.database.save ps with
      | error f => rw [hsave] at h; cases h
      | ok d =>
          rw [hsave] at h
          cases h
          exact ⟨rfl, fun path hpath => absurd hpath (hwriting path), get?_rows_save hsave⟩

/-- A database that may be made may be written. -/
theorem Context.save_of_making (setup : Setup) (path : String) (d : Database)
    (ps : Keyed Prediction) : Context.save ⟨setup, .file path .making, d⟩ ps =
      (d.save ps).map fun d => ⟨setup, .file path .making, d⟩ :=
  rfl

/-- What a command leaves is what is in its context in the end. -/
theorem Context.leaves_of_kept (h : Context.load env config = .ok c) {command : Command}
    (hconfig : command.config? = some config) (hlocation : c'.location = c.location)
    (hreading : ∀ path, c.location = .file path .reading → c'.database.rows = c.database.rows)
    {e : Execution} (hkept : e.kept = c'.kept) : command.Leaves env e c'.database.rows := by
  obtain ⟨hthere, hrows⟩ := Context.load_eq_ok h hconfig
  rw [Command.rowsBefore, hthere] at hrows
  rw [Context.kept.eq_def, hlocation] at hkept
  cases hcase : c.location with
  | memory =>
      rw [hcase] at hkept hthere
      refine ⟨fun path access hpath => ?_, fun path _ => ?_⟩
      · rw [hthere] at hpath
        cases hpath
      · rw [Environment.rowsAfter, hkept]
  | file path access =>
      rw [hcase] at hkept hthere hrows
      have hfound : c.database.rows = (env.found path).rows := hrows
      -- a database that is only read is not kept, and is as it was found
      have hafter (other : String) : env.rowsAfter e other =
          if path = other then c'.database.rows else (env.found other).rows := by
        cases access with
        | reading =>
            dsimp only at hkept
            rw [Environment.rowsAfter, hkept, hreading path hcase, hfound]
            dsimp only
            split
            · next heq => rw [heq]
            · rfl
        | writing => rw [Environment.rowsAfter, hkept]
        | making => rw [Environment.rowsAfter, hkept]
      refine ⟨fun other access' hother => ?_, fun other hother => ?_⟩
      · rw [hthere] at hother
        cases hother
        rw [hafter, if_pos rfl]
      · rw [hafter, if_neg]
        rintro rfl
        exact hother access hthere

/-! ### What is written -/

/-- Everything is selected if no outcome is named. -/
theorem isAmong_nil (r : Row) : Database.Row.isAmong [] r = true := rfl

/-- A new prediction is written after its first evaluation, under an id that was free. -/
theorem Execution.addNew_eq_ok {p p' : Prediction} (h : addNew c p = .ok (p', c')) :
    c.save (Keyed.empty.insert p.id p.evaluated) = .ok c' ∧ c.database.rows.get? p.id = none := by
  rw [addNew] at h
  cases hload : c.database.load [] with
  | error f => rw [hload] at h; cases h
  | ok ps =>
      rw [hload] at h
      simp only [bind, Except.bind] at h
      split at h
      · cases h
      · next hfree =>
          cases hsave : c.save (Keyed.empty.insert p.evaluated.id p.evaluated) with
          | error f => rw [hsave] at h; cases h
          | ok c'' =>
              rw [hsave] at h
              cases h
              refine ⟨hsave, Option.eq_none_iff_forall_ne_some.2 fun r hr => hfree ?_⟩
              obtain ⟨q, hq⟩ := Option.isSome_iff_exists.1 (isSome_of_load hload hr (isAmong_nil r))
              rw [Keyed.contains, (get?_load hload p.id q).2 ⟨r, hr, isAmong_nil r, hq⟩]
              rfl

/-- What is written in place of a row is what it held, cleared. -/
theorem Execution.resetStored_eq_ok {id : String} (h : resetStored c id = .ok c') :
    ∃ r p, c.database.rows.get? id = some r ∧ Prediction.ofStored? r.body = some p ∧
      c.save (Keyed.empty.insert p.id p.cleared) = .ok c' := by
  rw [resetStored] at h
  cases hload : c.database.load [] with
  | error f => rw [hload] at h; cases h
  | ok ps =>
      rw [hload] at h
      simp only [bind, Except.bind] at h
      cases hget : ps.get? id with
      | none => rw [hget] at h; cases h
      | some p =>
          rw [hget] at h
          obtain ⟨r, hr, -, hbody⟩ := (get?_load hload id p).1 hget
          exact ⟨r, p, hr, hbody, h⟩

/-- What is held is reset if it can be kept, cleared. -/
theorem Execution.resetStored_of_held {id : String} {ps : Keyed Prediction} {p : Prediction}
    (hload : c.database.load [] = .ok ps) (hget : ps.get? id = some p)
    (hsave : c.save (Keyed.empty.insert p.id p.cleared) = .ok c') : resetStored c id = .ok c' := by
  rw [resetStored, hload]
  simp only [bind, Except.bind, hget]
  exact hsave

/-- One prediction that is kept is one row. -/
theorem Context.rows_save_insert {id : String} {p : Prediction}
    (h : c.save (Keyed.empty.insert id p) = .ok c') :
    c'.database.rows = c.database.rows.insert id p.row := by
  refine Keyed.ext fun name => ?_
  rw [(Context.save_eq_ok h).2.2, Keyed.get?_insert, Keyed.get?_insert]
  split
  · rfl
  · rw [Keyed.get?_empty, Option.map_none, Option.none_or]

/-- What is compiled is the draft in a file. -/
theorem exists_of_readDraft {input notes : String} {p : Prediction}
    (h : readDraft env input now = (notes, .ok p)) :
    ∃ content, env.files input = .ok content ∧ Compile.text content now = .ok p := by
  rw [readDraft] at h
  cases hfile : env.files input with
  | error e => rw [hfile] at h; cases h
  | ok content =>
      rw [hfile] at h
      dsimp only at h
      cases hcompile : Compile.text content now with
      | error e => rw [hcompile] at h; cases h
      | ok q => rw [hcompile] at h; cases h; exact ⟨content, rfl, hcompile⟩

/-- A batch works where the database is, and writes nothing where it may only read. -/
theorem Context.location_of_batch {r : Batch.Report} (h : c.batch env now = .ok (r, c')) :
    c'.location = c.location ∧
      ∀ path, c.location = .file path .reading → c'.database.rows = c.database.rows := by
  obtain ⟨ps, -, -, ⟨-, rfl⟩ | ⟨-, hsave⟩⟩ := Batch.exists_of_run_ok h
  · exact ⟨rfl, fun _ _ => rfl⟩
  · obtain ⟨hlocation, hreading, -⟩ := Context.save_eq_ok hsave
    exact ⟨hlocation, hreading⟩

/-- A batch replaces rows of ongoing predictions by those of what has come of them. -/
theorem Context.advances_of_batch (hagree : RowsAgree c.database.rows) {r : Batch.Report}
    (h : c.batch env now = .ok (r, c')) : Advances now.seconds c.database.rows c'.database.rows := by
  obtain ⟨ps, hload, rfl, hkept⟩ := Batch.exists_of_run_ok h
  change c.database.load Outcome.ongoing = .ok ps at hload
  have hkeyed : IsKeyedById ps := isKeyedById_of_get? fun id p hp => by
    obtain ⟨row, hrow, -, hbody⟩ := (get?_load hload id p).1 hp
    exact (hagree id row p hrow hbody).1
  rcases hkept with ⟨-, rfl⟩ | ⟨-, hsave⟩
  · exact fun id => Or.inl rfl
  · change c.save _ = .ok c' at hsave
    intro id
    have hafter := (Context.save_eq_ok hsave).2.2 id
    cases hchanged : (Batch.advance (c.market env) now.seconds c.setup.limit ps).changed.get? id with
    | none =>
        rw [hchanged, Option.map_none, Option.none_or] at hafter
        exact Or.inl hafter
    | some q =>
        rw [hchanged, Option.map_some, Option.some_or] at hafter
        obtain ⟨p, hp, -, rfl, -⟩ :=
          ((Batch.isOfEachAlone_advance (c.market env) now.seconds c.setup.limit hkeyed).changed
            id q).1 hchanged
        obtain ⟨row, hrow, hamong, hbody⟩ := (get?_load hload id p).1 hp
        exact Or.inr ⟨row, p, _, hrow, hamong, hbody, Batch.runs_alone _ _ _ p, hafter⟩

end Contexts

end Forecast
