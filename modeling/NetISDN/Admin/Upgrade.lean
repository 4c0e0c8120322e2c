import NetISDN.Admin.CreateDb
import NetISDN.General.Migration

/-!
# The upgrade of the database

`UpdateDb` is a script (`Migration.run`). It records the version at its end only, and gives up at
an `add column` that fails, so an attempt that has added such a column and not recorded the version
leaves a database that no later attempt upgrades.
-/

namespace NetISDN

namespace NetAdmin

open Migration

variable {s : Server} {db : Database} {sql : Statement} {ver : Int} {k : StateM Server Bool}
  {x : Step Statement} {xs : List (Step Statement)} {rejects : Statement → Bool}

/-! ## `UpdateDb` as a script -/

/-- The column `ONLINE`. `UpdateDb` does not ask whether it could add it. -/
def addOnline : Step Statement :=
  ⟨.addColumn .USERS ⟨.ONLINE, "enum('N','Y') default 'N'"⟩ .ADMIN_PRIV, false⟩

/-- The table `CALLS`, unless there is one. -/
def addCalls : Step Statement := ⟨.createTable .CALLS callsColumns3, true⟩

/-- What goes before the columns that `UpdateDb` must add, each with the version that has it. -/
def opening : List (Int × Step Statement) := [(2, addOnline), (3, addCalls)]

/-- The columns that `UpdateDb` must add, each with the version that has it. -/
def columnSteps : List (Int × Step Statement) :=
  [(4, ⟨.addColumn .USERS ⟨.CLIENT_VERSION, "char(32)"⟩ .LAST_ACCESS_ADDR, true⟩),
    (5, ⟨.addColumn .CALLS ⟨.ORIG_PORT, "int unsigned not null"⟩ .ORIG_ADDR, true⟩),
    (5, ⟨.addColumn .CALLS ⟨.DEST_PORT, "int unsigned not null"⟩ .DEST_ADDR, true⟩),
    (6, ⟨.addColumn .CALLS ⟨.DEST_FORMAT, "int unsigned"⟩ .BIT_RATE, true⟩),
    (6, ⟨.addColumn .CALLS ⟨.DEST_CHANNELS, "int unsigned"⟩ .DEST_FORMAT, true⟩),
    (6, ⟨.addColumn .CALLS ⟨.DEST_SAMPLE_RATE, "int unsigned"⟩ .DEST_CHANNELS, true⟩),
    (6, ⟨.addColumn .CALLS ⟨.DEST_BIT_RATE, "int unsigned"⟩ .DEST_SAMPLE_RATE, true⟩)]

/-- The version. `UpdateDb` does not ask whether it could record it. -/
def recordVersion : Step Statement := ⟨.updateVersion netVersionDatabase, false⟩

/-- The steps that are new since version `ver`. -/
def since (ver : Int) (steps : List (Int × Step Statement)) : List (Step Statement) :=
  (steps.filter fun x => ver < x.1).map Prod.snd

/-- The script that `UpdateDb` runs. -/
def script (ver : Int) : List (Step Statement) :=
  since ver opening ++ (since ver columnSteps ++ [recordVersion])

/-- The script of `UpdateDb` as the server runs it. -/
def Performs (k : StateM Server Bool) (xs : List (Step Statement)) : Prop :=
  ∀ s : Server, k s = ((run Database.exec s.rejects xs s.db).1,
    { s with db := (run Database.exec s.rejects xs s.db).2 })

/-- A query runs on the database of the session. -/
theorem runQuery_eq : runQuery sql s =
    ((query Database.exec s.rejects s.db sql).1,
      { s with db := (query Database.exec s.rejects s.db sql).2 }) := by
  rw [runQuery, query]
  split
  · rfl
  · cases Database.exec sql s.db <;> rfl

/-- A step with no statements performs them. -/
theorem Performs.done : Performs (pure true) [] := fun _ => rfl

/-- A statement that is checked. -/
theorem Performs.checked (h : Performs k xs) : Performs
    (runQuery sql >>= fun ok => if ok = true then k else pure false) (⟨sql, true⟩ :: xs) := by
  intro s
  rw [run_cons]
  simp only [bind, StateT.bind, runQuery_eq]
  cases (query Database.exec s.rejects s.db sql).1 with
  | false => rfl
  | true => exact h _

/-- A statement that is not checked. -/
theorem Performs.unchecked (h : Performs k xs) :
    Performs (runQuery sql >>= fun _ => k) (⟨sql, false⟩ :: xs) := by
  intro s
  rw [run_cons]
  simp only [bind, StateT.bind, runQuery_eq]
  exact h _

/-- `UpdateDb` runs its script. -/
theorem updateDb_performs (ver : Int) : Performs (updateDb ver) (script ver) := by
  have hlast : Performs (runQuery (.updateVersion netVersionDatabase) >>= fun _ => pure true)
      [recordVersion] := Performs.done.unchecked
  have hver : ver < 2 ∨ ver = 2 ∨ ver = 3 ∨ ver = 4 ∨ ver = 5 ∨ 6 ≤ ver := by omega
  rcases hver with h | rfl | rfl | rfl | rfl | h
  · have hscript : script ver = script 1 := by
      simp [script, since, opening, columnSteps, h, show ver < 3 by omega, show ver < 4 by omega,
        show ver < 5 by omega, show ver < 6 by omega]
    rw [hscript]
    simp only [updateDb, h, show ver < 3 by omega, show ver < 4 by omega, show ver < 5 by omega,
      show ver < 6 by omega, if_true]
    exact hlast.checked.checked.checked.checked.checked.checked.checked.checked.unchecked
  · exact hlast.checked.checked.checked.checked.checked.checked.checked.checked
  · exact hlast.checked.checked.checked.checked.checked.checked.checked
  · exact hlast.checked.checked.checked.checked.checked.checked
  · exact hlast.checked.checked.checked.checked
  · have hscript : script ver = script 6 := by
      simp [script, since, opening, columnSteps, show ¬ ver < 2 by omega, show ¬ ver < 3 by omega,
        show ¬ ver < 4 by omega, show ¬ ver < 5 by omega, show ¬ ver < 6 by omega]
    rw [hscript]
    simp only [updateDb, show ¬ ver < 2 by omega, show ¬ ver < 3 by omega, show ¬ ver < 4 by omega,
      show ¬ ver < 5 by omega, show ¬ ver < 6 by omega, if_false]
    exact hlast

/-! ## Versions of the database -/

/-- The names of the columns that some steps add to a table. -/
def columnsOf (table : TableName) (steps : List (Step Statement)) : List ColumnName :=
  steps.filterMap fun x => match x.statement with
    | .addColumn t c _ => if t = table then some c.name else none
    | _ => none

/-- A database of version `ver` in which the opening steps of its upgrade have been run, or not:
whether `ONLINE` is there, and whether `CALLS` is. -/
def opened (ver : Int) (online calls : Bool) (names : List QString) : Database where
  users := some (usersColumns.filter fun c =>
    c.name ∉ columnsOf .USERS (since ver columnSteps) ∧ (c.name = .ONLINE → online))
  calls := if calls then some (callsColumns.filter fun c =>
    c.name ∉ columnsOf .CALLS (since ver columnSteps)) else none
  version := some versionColumns
  userNames := names
  versions := [ver]

/-- The database as version `ver` has it. -/
def atVersion (ver : Int) (names : List QString) : Database :=
  opened ver (2 ≤ ver) (3 ≤ ver) names

/-- The database after `CreateDb` on an empty one. -/
def created : Database := (createDb ⟨{}, fun _ => false⟩).2.db

/-- The database after `CreateDb` and `InitDb`, as `OpenDb` makes it in place of a pre-historic
one. -/
def replaced : Database := (initDb (createDb ⟨{}, fun _ => false⟩).2).2.db

/-- Two databases have the same tables with the same columns. -/
def SameColumns (db db' : Database) : Prop := ∀ table, db.tables table = db'.tables table

/-! ## Attempts -/

/-- An attempt at an upgrade, while the server rejects some statements that are valid: whether
`UpdateDb` returns true, and the database after it. -/
def upgrade (rejects : Statement → Bool) (db : Database) : Bool × Database :=
  let (ok, s) := updateDb (checkVersion db) ⟨db, rejects⟩
  (ok, s.db)

/-- The database after some attempts, each with what the server rejected during it. -/
def attempted (db : Database) (attempts : List (Statement → Bool)) : Database :=
  attempts.foldl (fun db rejects => (upgrade rejects db).2) db

/-- After the attempts, one that meets no failure returns true and leaves the columns of
`CreateDb`. -/
def Converges (db : Database) (attempts : List (Statement → Bool)) : Prop :=
  (upgrade (fun _ => false) (attempted db attempts)).1 = true ∧
    SameColumns (upgrade (fun _ => false) (attempted db attempts)).2 created

/-- The attempt is cut off before it has added a column that it must add: the server rejects the
creation of `CALLS`, or the first of these columns. -/
def CutEarly (ver : Int) (rejects : Statement → Bool) : Prop :=
  (ver < 3 ∧ rejects addCalls.statement = true) ∨
    ∃ x ∈ (since ver columnSteps).head?, rejects x.statement = true

/-- The attempt meets no failure from the first column on, nor when it records the version. -/
def Unhindered (ver : Int) (rejects : Statement → Bool) : Prop :=
  ∀ x ∈ since ver columnSteps ++ [recordVersion], rejects x.statement = false

/-- The first attempt that is not cut off early is unhindered, and `ONLINE` has been added by its
end, be it by one before it: `online` says whether it is there already. -/
def Recovers (ver : Int) : Bool → List (Statement → Bool) → Prop
  | _, [] => True
  | online, rejects :: attempts =>
    let online := online || !rejects addOnline.statement
    CutEarly ver rejects ∧ Recovers ver online attempts ∨
      ¬ CutEarly ver rejects ∧ Unhindered ver rejects ∧ online = true

/-- The upgrade runs the script of the version it finds. -/
theorem upgrade_eq :
    upgrade rejects db = run Database.exec rejects (script (checkVersion db)) db := by
  rw [upgrade, updateDb_performs]

/-! ## Columns that are there already -/

/-- The table has a column of the name. -/
def HasColumn (table : TableName) (name : ColumnName) (db : Database) : Prop :=
  ∃ columns, db.tables table = some columns ∧ name ∈ columns.map Column.name

variable {db' : Database} {table : TableName} {column : Column} {after name : ColumnName}
  {names : List QString} {online calls : Bool} {attempts : List (Statement → Bool)}

/-- A table that is set, and the others. -/
theorem tables_setTable {table' : TableName} {columns : Columns} :
    (db.setTable table columns).tables table' =
      if table = table' then some columns else db.tables table' := by
  cases table <;> cases table' <;> rfl

/-- A column cannot be added twice. -/
theorem exec_addColumn_eq_none (h : HasColumn table column.name db) :
    Database.exec (.addColumn table column after) db = none := by
  obtain ⟨columns, htable, hmem⟩ := h
  simp only [Database.exec, htable, Option.bind_eq_bind, Option.bind_some]
  exact if_pos (.inl hmem)

/-- What `add column` does where it is valid. -/
theorem exec_addColumn (h : Database.exec (.addColumn table column after) db = some db') :
    ∃ columns, db.tables table = some columns ∧ after ∈ columns.map Column.name ∧
      db' = db.setTable table (columns.flatMap fun c =>
        if c.name = after then [c, column] else [c]) := by
  simp only [Database.exec, Option.bind_eq_bind, Option.bind_eq_some_iff] at h
  obtain ⟨columns, htable, h⟩ := h
  split at h
  · cases h
  · next hvalid =>
      rw [not_or, not_not] at hvalid
      exact ⟨columns, htable, hvalid.2, (Option.some.inj h).symm⟩

/-- A column that has been added is there. -/
theorem hasColumn_addColumn (h : Database.exec (.addColumn table column after) db = some db') :
    HasColumn table column.name db' := by
  obtain ⟨columns, -, hafter, rfl⟩ := exec_addColumn h
  obtain ⟨c, hc, hname⟩ := List.mem_map.1 hafter
  refine ⟨_, by rw [tables_setTable, if_pos rfl], List.mem_map.2 ⟨column, ?_, rfl⟩⟩
  refine List.mem_flatMap.2 ⟨c, hc, ?_⟩
  rw [if_pos hname]
  exact .tail _ (.head _)

/-- The statements of `UpdateDb` that change a table. -/
def alters : Statement → Bool
  | .addColumn _ _ _ | .createTable _ _ => true
  | _ => false

/-- Statements that change a table take no column away, and leave the version alone. -/
theorem exec_alters (hsql : alters sql = true) (h : Database.exec sql db = some db') :
    db'.versions = db.versions ∧ (HasColumn table name db → HasColumn table name db') := by
  cases sql with
  | addColumn table' column after =>
      obtain ⟨columns, htable', -, rfl⟩ := exec_addColumn h
      refine ⟨by cases table' <;> rfl, fun ⟨columns', htable, hname⟩ => ?_⟩
      by_cases heq : table' = table
      · subst heq
        obtain rfl := Option.some.inj (htable'.symm.trans htable)
        obtain ⟨c, hc, rfl⟩ := List.mem_map.1 hname
        refine ⟨_, by rw [tables_setTable, if_pos rfl], List.mem_map.2 ⟨c, ?_, rfl⟩⟩
        refine List.mem_flatMap.2 ⟨c, hc, ?_⟩
        split
        · exact .head _
        · exact .head _
      · exact ⟨columns', by rw [tables_setTable, if_neg heq, htable], hname⟩
  | createTable table' columns =>
      simp only [Database.exec] at h
      split at h
      · obtain rfl := Option.some.inj h
        exact ⟨rfl, id⟩
      · next hnone =>
          obtain rfl := Option.some.inj h
          refine ⟨by cases table' <;> rfl, fun ⟨columns', htable, hname⟩ => ?_⟩
          refine ⟨columns', ?_, hname⟩
          rw [tables_setTable, if_neg, htable]
          rintro rfl
          rw [htable] at hnone
          exact hnone rfl
  | insertUser | insertVersion | updateVersion => cases hsql

/-- What holds of all steps holds of those that are new. -/
theorem all_since {steps : List (Int × Step Statement)} {p : Step Statement → Bool}
    (h : steps.all (fun x => p x.2) = true) : ∀ x ∈ since ver steps, p x = true := by
  intro x hx
  obtain ⟨y, hy, rfl⟩ := List.mem_map.1 hx
  exact List.all_eq_true.1 h y (List.mem_filter.1 hy).1

/-- The columns to be added begin with one that is checked. -/
theorem since_columnSteps (h₁ : 1 ≤ ver) (h₅ : ver ≤ 5) : ∃ table column after rest,
    since ver columnSteps = ⟨.addColumn table column after, true⟩ :: rest := by
  have hver : ver = 1 ∨ ver = 2 ∨ ver = 3 ∨ ver = 4 ∨ ver = 5 := by omega
  rcases hver with rfl | rfl | rfl | rfl | rfl <;> exact ⟨_, _, _, _, rfl⟩

/-! ## Databases that cannot be upgraded any more -/

/-- The first column that is to be added is there, but the version is not recorded. -/
def Stuck (ver : Int) (db : Database) : Prop :=
  db.versions = [ver] ∧ ∃ table column after rest,
    since ver columnSteps = ⟨.addColumn table column after, true⟩ :: rest ∧
      HasColumn table column.name db

/-- **No attempt gets a database out of it.** -/
theorem Stuck.upgrade (h : Stuck ver db) :
    (upgrade rejects db).1 = false ∧ Stuck ver (upgrade rejects db).2 := by
  obtain ⟨hver, table, column, after, rest, hsteps, hhas⟩ := h
  have hcheck : checkVersion db = ver := by rw [checkVersion, hver]; rfl
  have hkeeps : ∀ y ∈ since ver opening, ∀ s s', Database.exec y.statement s = some s' →
      s.versions = [ver] ∧ HasColumn table column.name s →
      s'.versions = [ver] ∧ HasColumn table column.name s' := by
    intro y hy s s' hs hP
    obtain ⟨hversions, hcolumn⟩ :=
      exec_alters (all_since (p := fun x => alters x.statement) (by decide) y hy) hs
    exact ⟨hversions.trans hP.1, hcolumn hP.2⟩
  have hrun : run Database.exec rejects (since ver opening ++
      ⟨.addColumn table column after, true⟩ :: (rest ++ [recordVersion])) db = _ :=
    run_spent hkeeps (fun s hP => exec_addColumn_eq_none hP.2) rfl ⟨hver, hhas⟩
  rw [upgrade_eq, hcheck, script, hsteps, List.cons_append, hrun]
  obtain ⟨hver', hhas'⟩ := run_preserves rejects hkeeps ⟨hver, hhas⟩
  exact ⟨rfl, hver', table, column, after, rest, hsteps, hhas'⟩

/-- A database that is stuck does not converge. -/
theorem Stuck.not_converges (h : Stuck ver db) : ¬ Converges db attempts := by
  have hstuck : Stuck ver (attempted db attempts) := by
    induction attempts generalizing db with
    | nil => exact h
    | cons rejects attempts ih => exact ih h.upgrade.2
  rintro ⟨hok, -⟩
  exact absurd hok (by rw [hstuck.upgrade.1]; decide)

/-! ## Databases of the current version -/

variable (rejects) in
/-- An attempt does nothing to a database whose version is the current one. -/
theorem upgrade_current (h : db.versions = [6]) : (upgrade rejects db).1 = true ∧
    (upgrade rejects db).2.versions = [6] ∧ SameColumns (upgrade rejects db).2 db := by
  have hcheck : checkVersion db = 6 := by rw [checkVersion, h]; rfl
  have hscript : script 6 = [recordVersion] := rfl
  rw [upgrade_eq, hcheck, hscript, run_cons, if_neg (fun hc => absurd hc.1 (by decide))]
  have hkeeps : (query Database.exec rejects db recordVersion.statement).2.versions = [6] ∧
      SameColumns (query Database.exec rejects db recordVersion.statement).2 db := by
    refine query_preserves (P := fun db' => db'.versions = [6] ∧ SameColumns db' db)
      (fun db' hdb' => ?_) ⟨h, fun _ => rfl⟩
    simp only [recordVersion, Database.exec, Option.bind_eq_bind, Option.bind_eq_some_iff] at hdb'
    obtain ⟨_, -, hdb'⟩ := hdb'
    rw [if_neg (by rw [h]; decide)] at hdb'
    obtain rfl := Option.some.inj hdb'
    exact ⟨by rw [h]; rfl, fun table => by cases table <;> rfl⟩
  exact ⟨rfl, hkeeps⟩

/-- A database of the current version converges when its columns are right. -/
theorem converges_current (h : db.versions = [6]) :
    Converges db attempts ↔ SameColumns db created := by
  have hsame : (attempted db attempts).versions = [6] ∧
      SameColumns (attempted db attempts) db := by
    induction attempts generalizing db with
    | nil => exact ⟨h, fun _ => rfl⟩
    | cons rejects attempts ih =>
        obtain ⟨-, hversions, hcolumns⟩ := upgrade_current rejects h
        obtain ⟨hversions', hcolumns'⟩ := ih hversions
        exact ⟨hversions', fun table => (hcolumns' table).trans (hcolumns table)⟩
  obtain ⟨hok, -, hcolumns⟩ := upgrade_current (fun _ => false) hsame.1
  constructor
  · rintro ⟨-, hcreated⟩ table
    exact (hsame.2 table).symm.trans ((hcolumns table).symm.trans (hcreated table))
  · intro hcreated
    exact ⟨hok, fun table => (hcolumns table).trans ((hsame.2 table).trans (hcreated table))⟩

/-! ## Databases that can still be upgraded -/

/-- What the step for `ONLINE` does at version 1. -/
theorem query_addOnline :
    (query Database.exec rejects (opened 1 online calls names) addOnline.statement).2 =
      opened 1 (online || !rejects addOnline.statement) calls names := by
  cases hrej : rejects addOnline.statement with
  | true => rw [query_rejected hrej, Bool.not_true, Bool.or_false]
  | false =>
      cases online with
      | true => rw [query_invalid rfl, Bool.true_or]
      | false =>
          rw [query_accepted hrej rfl]
          rfl

/-- What the step for `CALLS` does below version 3. -/
theorem query_addCalls (hver : ver = 1 ∨ ver = 2) :
    query Database.exec rejects (opened ver online calls names) addCalls.statement =
      (!rejects addCalls.statement,
        opened ver online (calls || !rejects addCalls.statement) names) := by
  cases hrej : rejects addCalls.statement with
  | true => rw [query_rejected hrej, Bool.not_true, Bool.or_false]
  | false =>
      rw [Bool.not_false, Bool.or_true]
      cases calls with
      | true => exact query_accepted hrej rfl
      | false => rcases hver with rfl | rfl <;> exact query_accepted hrej rfl

/-- The opening steps of an attempt. They end where the creation of `CALLS` is rejected. -/
theorem run_opening (h₁ : 1 ≤ ver) (h₅ : ver ≤ 5) (honline : 2 ≤ ver → online = true)
    (hcalls : 3 ≤ ver → calls = true) :
    run Database.exec rejects (since ver opening) (opened ver online calls names) =
      (!(decide (ver < 3) && rejects addCalls.statement),
        opened ver (online || !rejects addOnline.statement)
          (calls || !rejects addCalls.statement) names) := by
  have hver : ver = 1 ∨ ver = 2 ∨ 3 ≤ ver := by omega
  rcases hver with rfl | rfl | h₃
  · have hsince : since 1 opening = [addOnline, addCalls] := rfl
    rw [hsince, run_cons, if_neg (fun hc => absurd hc.1 (by decide)), query_addOnline, run_cons,
      query_addCalls (.inl rfl)]
    cases rejects addCalls.statement <;> rfl
  · have hsince : since 2 opening = [addCalls] := rfl
    rw [hsince, run_cons, query_addCalls (.inr rfl), honline le_rfl, Bool.true_or]
    cases rejects addCalls.statement <;> rfl
  · have hsince : since ver opening = [] := by
      simp [since, opening, show ¬ ver < 2 by omega, show ¬ ver < 3 by omega]
    rw [hsince, honline (by omega), hcalls h₃, decide_eq_false (by omega), Bool.true_or,
      Bool.true_or]
    rfl

/-- The steps behind the opening lead to the current version, if they are all carried out. -/
theorem execAll_columnSteps (h₁ : 1 ≤ ver) (h₅ : ver ≤ 5) (honline : 2 ≤ ver → online = true) :
    execAll Database.exec (since ver columnSteps ++ [recordVersion])
      (opened ver online true names) = some (opened 6 online true names) := by
  have hver : ver = 1 ∨ ver = 2 ∨ ver = 3 ∨ ver = 4 ∨ ver = 5 := by omega
  rcases hver with rfl | rfl | rfl | rfl | rfl
  · cases online <;> rfl
  all_goals
    obtain rfl := honline (by decide)
    rfl

/-- Only with the column `ONLINE` has the database of an upgrade the right columns. -/
theorem sameColumns_opened : SameColumns (opened 6 online true names) created ↔ online = true := by
  cases online with
  | true => exact iff_of_true (fun table => by cases table <;> rfl) rfl
  | false =>
      refine iff_of_false (fun h => ?_) (by decide)
      have husers : (opened 6 false true []).users = created.users := h .USERS
      exact absurd husers (by decide)

section
variable (names) (h₁ : 1 ≤ ver) (h₅ : ver ≤ 5) (honline : 2 ≤ ver → online = true)
  (hcalls : 3 ≤ ver → calls = true)
include h₁ h₅ honline hcalls

/-- An attempt goes on behind its opening unless `CALLS` cannot be created. -/
theorem upgrade_opened : upgrade rejects (opened ver online calls names) =
    if ver < 3 ∧ rejects addCalls.statement = true then
      (false, opened ver (online || !rejects addOnline.statement) calls names)
    else run Database.exec rejects (since ver columnSteps ++ [recordVersion])
      (opened ver (online || !rejects addOnline.statement) true names) := by
  have hcheck : checkVersion (opened ver online calls names) = ver := rfl
  rw [upgrade_eq, hcheck, script, run_append, run_opening h₁ h₅ honline hcalls]
  by_cases hcut : ver < 3 ∧ rejects addCalls.statement = true
  · rw [if_pos hcut, hcut.2, decide_eq_true hcut.1, if_neg (by simp), Bool.not_true,
      Bool.or_false]
  · rw [if_neg hcut]
    cases hrej : rejects addCalls.statement with
    | false => simp
    | true =>
        have h₃ : ¬ ver < 3 := fun h => hcut ⟨h, hrej⟩
        rw [hcalls (by omega), decide_eq_false h₃]
        rfl

/-- An attempt that is cut off early can be made again. -/
theorem upgrade_cutEarly (hcut : CutEarly ver rejects) : ∃ calls', (3 ≤ ver → calls' = true) ∧
    (upgrade rejects (opened ver online calls names)).2 =
      opened ver (online || !rejects addOnline.statement) calls' names := by
  rw [upgrade_opened names h₁ h₅ honline hcalls]
  split
  · exact ⟨calls, hcalls, rfl⟩
  · next hno =>
      obtain ⟨x, hx, hrej⟩ := hcut.resolve_left hno
      obtain ⟨table, column, after, rest, hsteps⟩ := since_columnSteps h₁ h₅
      rw [hsteps] at hx
      obtain rfl := Option.some.inj hx
      rw [hsteps, List.cons_append, run_cons, query_rejected hrej, if_pos ⟨rfl, rfl⟩]
      exact ⟨true, fun _ => rfl, rfl⟩

/-- An attempt that is unhindered leads to the current version. -/
theorem upgrade_unhindered (hcut : ¬ CutEarly ver rejects) (hfree : Unhindered ver rejects) :
    upgrade rejects (opened ver online calls names) =
      (true, opened 6 (online || !rejects addOnline.statement) true names) := by
  rw [upgrade_opened names h₁ h₅ honline hcalls, if_neg (fun h => hcut (.inl h))]
  exact run_accepted hfree (execAll_columnSteps h₁ h₅ fun h => by rw [honline h, Bool.true_or])

/-- An attempt that is cut off later, or does not record the version, cannot be made again. -/
theorem upgrade_stuck (hcut : ¬ CutEarly ver rejects) (hhindered : ¬ Unhindered ver rejects) :
    Stuck ver (upgrade rejects (opened ver online calls names)).2 := by
  rw [upgrade_opened names h₁ h₅ honline hcalls, if_neg (fun h => hcut (.inl h))]
  obtain ⟨table, column, after, rest, hsteps⟩ := since_columnSteps h₁ h₅
  have hall : execAll Database.exec (since ver columnSteps ++ [recordVersion])
      (opened ver (online || !rejects addOnline.statement) true names) = some _ :=
    execAll_columnSteps h₁ h₅ fun h => by rw [honline h, Bool.true_or]
  rw [hsteps, List.cons_append, execAll] at hall
  obtain ⟨db₁, hfirst, -⟩ := Option.bind_eq_some_iff.1 hall
  have haccepted : rejects (.addColumn table column after) = false := by
    by_contra hrej
    exact hcut (.inr ⟨_, by rw [hsteps]; rfl, by simpa using hrej⟩)
  rw [hsteps, List.cons_append, run_cons, query_accepted haccepted hfirst, if_neg (by simp)]
  have hkeeps : ∀ y ∈ rest, ∀ s s', Database.exec y.statement s = some s' →
      s.versions = [ver] ∧ HasColumn table column.name s →
      s'.versions = [ver] ∧ HasColumn table column.name s' := by
    intro y hy s s' hs hP
    have halters : ∀ x ∈ since ver columnSteps, alters x.statement = true :=
      all_since (p := fun x => alters x.statement) (by decide)
    obtain ⟨hversions, hcolumn⟩ := exec_alters (halters y (by rw [hsteps]; exact .tail _ hy)) hs
    exact ⟨hversions.trans hP.1, hcolumn hP.2⟩
  obtain ⟨hversions, -⟩ : db₁.versions = _ ∧ (HasColumn table column.name _ →
      HasColumn table column.name db₁) := exec_alters rfl hfirst
  obtain ⟨hver', hhas'⟩ := run_preserves rejects hkeeps
    ⟨hversions, hasColumn_addColumn hfirst⟩
  have hstuck : Stuck ver (run Database.exec rejects rest db₁).2 :=
    ⟨hver', table, column, after, rest, hsteps, hhas'⟩
  rw [run_append]
  split
  · next hok =>
      -- all columns have been added, so it is the version that is not recorded
      have hrecord : rejects recordVersion.statement = true := by
        by_contra hrecord
        refine hhindered fun x hx => ?_
        rcases List.mem_append.1 hx with hx | hx
        · by_contra hrej
          have hx' : x ∈ rest := by
            rw [hsteps] at hx
            rcases List.mem_cons.1 hx with rfl | hx
            · exact absurd haccepted hrej
            · exact hx
          have hchecked : ∀ x ∈ since ver columnSteps, x.checked = true :=
            all_since (p := fun x => x.checked) (by decide)
          have hfail : (run Database.exec rejects rest db₁).1 = false :=
            run_rejected hx' (hchecked x hx) (by simpa using hrej)
          rw [hok] at hfail
          cases hfail
        · rw [List.mem_singleton.1 hx]
          simpa using hrecord
      rw [run_cons, query_rejected hrecord]
      exact hstuck
  · exact hstuck

end

/-- **Recovery.** -/
theorem converges_opened_iff (h₁ : 1 ≤ ver) (h₅ : ver ≤ 5) (honline : 2 ≤ ver → online = true)
    (hcalls : 3 ≤ ver → calls = true) :
    Converges (opened ver online calls names) attempts ↔ Recovers ver online attempts := by
  induction attempts generalizing online calls with
  | nil =>
      have hfree : Unhindered ver fun _ => false := fun _ _ => rfl
      have hcut : ¬ CutEarly ver fun _ => false := by
        rintro (⟨-, h⟩ | ⟨_, -, h⟩) <;> cases h
      have hnext := upgrade_unhindered names h₁ h₅ honline hcalls hcut hfree
      rw [Bool.not_false, Bool.or_true] at hnext
      refine iff_of_true ?_ trivial
      rw [Converges, attempted, List.foldl_nil, hnext]
      exact ⟨rfl, sameColumns_opened.2 rfl⟩
  | cons rejects attempts ih =>
      have honline' : 2 ≤ ver → (online || !rejects addOnline.statement) = true := fun h => by
        rw [honline h, Bool.true_or]
      show Converges (upgrade rejects (opened ver online calls names)).2 attempts ↔ _
      rw [Recovers]
      by_cases hcut : CutEarly ver rejects
      · obtain ⟨calls', hcalls', hnext⟩ :=
          upgrade_cutEarly names h₁ h₅ honline hcalls hcut
        rw [hnext, ih honline' hcalls']
        simp [hcut]
      · by_cases hfree : Unhindered ver rejects
        · rw [upgrade_unhindered names h₁ h₅ honline hcalls hcut hfree, converges_current rfl,
            sameColumns_opened]
          simp [hcut, hfree]
        · have hstuck := upgrade_stuck names h₁ h₅ honline hcalls hcut hfree
          simp [hcut, hfree, hstuck.not_converges]

/-! ## The replaced database -/

/-- `UpdateDb(0)` fails on the database that `OpenDb` has just made: `CLIENT_VERSION` is there. -/
theorem updateDb_replaced : (updateDb 0 ⟨replaced, rejects⟩).1 = false := by
  have hscript : script 0 = since 0 opening ++
      ⟨.addColumn .USERS ⟨.CLIENT_VERSION, "char(32)"⟩ .LAST_ACCESS_ADDR, true⟩ ::
        ((since 0 columnSteps).tail ++ [recordVersion]) := rfl
  have hhas : HasColumn .USERS .CLIENT_VERSION replaced := ⟨usersColumns, rfl, by decide⟩
  have hkeeps : ∀ y ∈ since 0 opening, ∀ s s', Database.exec y.statement s = some s' →
      HasColumn .USERS .CLIENT_VERSION s → HasColumn .USERS .CLIENT_VERSION s' :=
    fun y hy s s' hs hP =>
      (exec_alters (all_since (p := fun x => alters x.statement) (by decide) y hy) hs).2 hP
  rw [updateDb_performs, hscript]
  exact congrArg Prod.fst
    (run_spent hkeeps (fun s hP => exec_addColumn_eq_none hP) rfl hhas)

/-! ## Convergence -/

/-- **The upgrade.** From a version that is still to be upgraded, and whatever the server rejected
during earlier attempts, an attempt that meets no failure leads to the tables of `CreateDb` exactly
if the earlier ones allow it. The database that replaces a pre-historic one is never upgraded. -/
theorem updateDb_converges_iff (h₁ : 1 ≤ ver) (h₅ : ver ≤ 5) (names : List QString)
    (attempts : List (Statement → Bool)) (rejects : Statement → Bool) :
    (Converges (atVersion ver names) attempts ↔ Recovers ver (2 ≤ ver) attempts) ∧
      (updateDb 0 ⟨replaced, rejects⟩).1 = false :=
  ⟨converges_opened_iff h₁ h₅ decide_eq_true decide_eq_true, updateDb_replaced⟩

/-- The creation of `CALLS` fails at the first attempt. -/
theorem updateDb_converges_demo : Converges (atVersion 1 [defaultLoginName])
    [fun sql => sql = addCalls.statement] :=
  (updateDb_converges_iff (by decide) (by decide) _ _ fun _ => false).1.2
    (.inl ⟨.inl ⟨by decide, by decide⟩, trivial⟩)

/-- The first port cannot be added at the first attempt. The second fails at `CLIENT_VERSION`. -/
theorem updateDb_not_converges : ¬ ∀ ver names attempts, 1 ≤ ver → ver ≤ 5 →
    Converges (atVersion ver names) attempts := by
  intro h
  have hok := (h 3 [] [fun sql =>
    sql = .addColumn .CALLS ⟨.ORIG_PORT, "int unsigned not null"⟩ .ORIG_ADDR]
    (by decide) (by decide)).1
  exact absurd hok (by decide)

end NetAdmin

end NetISDN
