import NetISDN.Qt.QString

/-!
# `netadmin`'s database

The tables of the NetISDN database as far as `createdb.cpp` is about them: the columns of each
table in their order, the rows of `VERSION`, and the names in `USERS`. The server rejects a
statement that is not valid (a column that there is already, a table that there is not); it may
reject any other, too, when it fails. Indexes are left out.
-/

namespace NetISDN

namespace NetAdmin

/-- The tables of the database. -/
inductive TableName where
  | USERS | CALLS | VERSION
  deriving DecidableEq

/-- The columns of all tables. -/
inductive ColumnName where
  | ID | NAME | FULL_NAME | PHONE_NUMBER | EMAIL | LOCATION | PASSWORD | ADMIN_PRIV | ONLINE
  | EXPIRATION_DATE | LAST_ACCESS_DATETIME | LAST_ACCESS_ADDR | CLIENT_VERSION
  | DB
  | ORIG_UID | ORIG_ADDR | ORIG_PORT | DEST_UID | DEST_ADDR | DEST_PORT | START_DATETIME
  | END_DATETIME | FORMAT | CHANNELS | SAMPLE_RATE | BIT_RATE | DEST_FORMAT | DEST_CHANNELS
  | DEST_SAMPLE_RATE | DEST_BIT_RATE
  deriving DecidableEq

/-- A column, with the text of its definition. -/
structure Column where
  name : ColumnName
  definition : String
  deriving DecidableEq

/-- The columns of a table, in their order. -/
abbrev Columns := List Column

/-- The database. -/
structure Database where
  users : Option Columns := none
  calls : Option Columns := none
  version : Option Columns := none
  userNames : List QString := []
  versions : List Int := []

/-- The SQL statements that `createdb.cpp` executes. -/
inductive Statement where
  /-- `alter table .. add column .. after ..` -/
  | addColumn (table : TableName) (column : Column) (after : ColumnName)
  /-- `create table if not exists ..` -/
  | createTable (table : TableName) (columns : Columns)
  /-- `insert into USERS (..) values (..)`, with the value of `NAME` -/
  | insertUser (columns : List ColumnName) (name : QString)
  /-- `insert into VERSION (DB) values (..)` -/
  | insertVersion (ver : Int)
  /-- `update VERSION set DB=..` -/
  | updateVersion (ver : Int)
  deriving DecidableEq

namespace Database

/-- The columns of a table, if there is one. -/
def tables (db : Database) : TableName → Option Columns
  | .USERS => db.users
  | .CALLS => db.calls
  | .VERSION => db.version

/-- A table is created or altered. -/
def setTable (db : Database) (table : TableName) (columns : Columns) : Database :=
  match table with
  | .USERS => { db with users := some columns }
  | .CALLS => { db with calls := some columns }
  | .VERSION => { db with version := some columns }

/-- The database after a statement, if it is valid. `DB` and `NAME` are unique. -/
def exec : Statement → Database → Option Database
  | .addColumn table column after, db => do
    let columns ← db.tables table
    if column.name ∈ columns.map Column.name ∨ after ∉ columns.map Column.name then none
    else return db.setTable table (columns.flatMap fun c =>
      if c.name = after then [c, column] else [c])
  | .createTable table columns, db =>
    if (db.tables table).isSome then some db else some (db.setTable table columns)
  | .insertUser names name, db => do
    let columns ← db.tables .USERS
    if name ∈ db.userNames ∨ ¬ (∀ c ∈ names, c ∈ columns.map Column.name) then none
    else return { db with userNames := db.userNames ++ [name] }
  | .insertVersion ver, db => do
    let _ ← db.tables .VERSION
    if ver ∈ db.versions then none
    else return { db with versions := db.versions ++ [ver] }
  | .updateVersion ver, db => do
    let _ ← db.tables .VERSION
    if 1 < db.versions.length then none
    else return { db with versions := db.versions.map fun _ => ver }

end Database

/-- The database server: the database, and which statements it rejects although they are valid. -/
structure Server where
  db : Database
  rejects : Statement → Bool

/-- `RunQuery` (`createdb.cpp:33`). -/
def runQuery (sql : Statement) : StateM Server Bool := fun s =>
  if s.rejects sql then (false, s)
  else match s.db.exec sql with
    | some db => (true, { s with db := db })
    | none => (false, s)

/-- `NET_VERSION_DATABASE`. -/
def netVersionDatabase : Int := 6

/-- The columns of `USERS` in `CreateDb`. -/
def usersColumns : Columns :=
  [⟨.ID, "int not null primary key auto_increment"⟩,
    ⟨.NAME, "char(64) not null unique"⟩,
    ⟨.FULL_NAME, "char(64)"⟩,
    ⟨.PHONE_NUMBER, "char(64)"⟩,
    ⟨.EMAIL, "char(255)"⟩,
    ⟨.LOCATION, "char(255)"⟩,
    ⟨.PASSWORD, "char(64)"⟩,
    ⟨.ADMIN_PRIV, "enum('N','Y') default 'N'"⟩,
    ⟨.ONLINE, "enum('N','Y') default 'N'"⟩,
    ⟨.EXPIRATION_DATE, "date"⟩,
    ⟨.LAST_ACCESS_DATETIME, "datetime"⟩,
    ⟨.LAST_ACCESS_ADDR, "char(16)"⟩,
    ⟨.CLIENT_VERSION, "char(32)"⟩]

/-- The columns of `VERSION` in `CreateDb`. -/
def versionColumns : Columns := [⟨.DB, "int not null primary key"⟩]

/-- The columns of `CALLS` in `CreateDb`. -/
def callsColumns : Columns :=
  [⟨.ID, "int not null auto_increment primary key"⟩,
    ⟨.ORIG_UID, "int not null"⟩,
    ⟨.ORIG_ADDR, "char(16) not null"⟩,
    ⟨.ORIG_PORT, "int unsigned not null"⟩,
    ⟨.DEST_UID, "int not null"⟩,
    ⟨.DEST_ADDR, "char(16) not null"⟩,
    ⟨.DEST_PORT, "int unsigned not null"⟩,
    ⟨.START_DATETIME, "datetime"⟩,
    ⟨.END_DATETIME, "datetime"⟩,
    ⟨.FORMAT, "int unsigned"⟩,
    ⟨.CHANNELS, "int unsigned"⟩,
    ⟨.SAMPLE_RATE, "int unsigned"⟩,
    ⟨.BIT_RATE, "int unsigned"⟩,
    ⟨.DEST_FORMAT, "int unsigned"⟩,
    ⟨.DEST_CHANNELS, "int unsigned"⟩,
    ⟨.DEST_SAMPLE_RATE, "int unsigned"⟩,
    ⟨.DEST_BIT_RATE, "int unsigned"⟩]

/-- `CreateDb` (`createdb.cpp:47`). -/
def createDb : StateM Server Bool := do
  unless ← runQuery (.createTable .USERS usersColumns) do return false
  unless ← runQuery (.createTable .VERSION versionColumns) do return false
  unless ← runQuery (.createTable .CALLS callsColumns) do return false
  return true

/-- `DEFAULT_LOGIN_NAME`. -/
def defaultLoginName : QString := "admin"

/-- `InitDb` (`createdb.cpp:112`). -/
def initDb : StateM Server Bool := do
  unless ← runQuery (.insertUser [.NAME, .PASSWORD, .FULL_NAME, .ADMIN_PRIV, .EXPIRATION_DATE]
    defaultLoginName) do return false
  unless ← runQuery (.insertVersion netVersionDatabase) do return false
  return true

/-- The columns of `CALLS` in `UpdateDb`, as version 3 had them. -/
def callsColumns3 : Columns :=
  [⟨.ID, "int not null auto_increment primary key"⟩,
    ⟨.ORIG_UID, "int not null"⟩,
    ⟨.ORIG_ADDR, "char(16) not null"⟩,
    ⟨.DEST_UID, "int not null"⟩,
    ⟨.DEST_ADDR, "char(16) not null"⟩,
    ⟨.START_DATETIME, "datetime"⟩,
    ⟨.END_DATETIME, "datetime"⟩,
    ⟨.FORMAT, "int unsigned"⟩,
    ⟨.CHANNELS, "int unsigned"⟩,
    ⟨.SAMPLE_RATE, "int unsigned"⟩,
    ⟨.BIT_RATE, "int unsigned"⟩]

/-- `UpdateDb` (`createdb.cpp:142`). What becomes of the first and of the last statement is not
asked for. -/
def updateDb (ver : Int) : StateM Server Bool := do
  if ver < 2 then
    let _ ← runQuery (.addColumn .USERS ⟨.ONLINE, "enum('N','Y') default 'N'"⟩ .ADMIN_PRIV)
  if ver < 3 then
    unless ← runQuery (.createTable .CALLS callsColumns3) do return false
  if ver < 4 then
    unless ← runQuery (.addColumn .USERS ⟨.CLIENT_VERSION, "char(32)"⟩ .LAST_ACCESS_ADDR) do
      return false
  if ver < 5 then
    unless ← runQuery (.addColumn .CALLS ⟨.ORIG_PORT, "int unsigned not null"⟩ .ORIG_ADDR) do
      return false
    unless ← runQuery (.addColumn .CALLS ⟨.DEST_PORT, "int unsigned not null"⟩ .DEST_ADDR) do
      return false
  if ver < 6 then
    unless ← runQuery (.addColumn .CALLS ⟨.DEST_FORMAT, "int unsigned"⟩ .BIT_RATE) do
      return false
    unless ← runQuery (.addColumn .CALLS ⟨.DEST_CHANNELS, "int unsigned"⟩ .DEST_FORMAT) do
      return false
    unless ← runQuery (.addColumn .CALLS ⟨.DEST_SAMPLE_RATE, "int unsigned"⟩ .DEST_CHANNELS) do
      return false
    unless ← runQuery (.addColumn .CALLS ⟨.DEST_BIT_RATE, "int unsigned"⟩ .DEST_SAMPLE_RATE) do
      return false
  let _ ← runQuery (.updateVersion netVersionDatabase)
  return true

/-- `CheckVersion` (`check_version.cpp:29`): the version recorded first, or 0. -/
def checkVersion (db : Database) : Int := db.versions.headD 0

end NetAdmin

end NetISDN
