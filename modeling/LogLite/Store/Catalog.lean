import LogLite.Base.Sqlite
import LogLite.Store.ColumnDict

/-!
# The catalog and the tables

`DatabaseCatalog` is what the writer and the readers share: the columns of the
log table, which of them are compressed, and the column dictionary.  The columns
and the compressed set do not change while the server runs, so the dictionary is
kept with the writer and the rest is a parameter.

What only SQLite knows of the log table, its constraints, is a parameter too: a
predicate `accepts` on the rows already there and the new cells.

## Main definitions

* `ColumnInfo`, `DatabaseCatalog` — the schema of the log table.
* `LogRow`, `DictRow`, `Tables` — the contents of the database.
* `getMaxLogId`, `getMinLogId` — `SELECT MAX(id)` and `MIN(id)`, `0` for an empty
  table.
* `estimateLogRowCount` — a guess at the number of rows, from the ids.
* `nextRowId` — the id SQLite gives to a new row.
* `Connection`, `beginTransaction`, `commit`, `rollback` — transactions.

## Main results

* `lt_nextRowId` — a new row gets an id above every id in the table.
-/

namespace LogLite

/-- A column of a table, as `PRAGMA table_info` describes it.  The name was read
through a `char*`, so it has no `NUL`. -/
structure ColumnInfo where
  name : ColumnName
  type : Bytes
  notNull : Bool
  isPk : Bool
  name_noNul : 0 ∉ name

/-- The affinity of a column. -/
def ColumnInfo.affinity (ci : ColumnInfo) : Affinity := declaredAffinity ci.type

/-- A row of the log table.  `source` is the log the row was made from; no code
reads it. -/
structure LogRow where
  id : ℤ
  cells : List (ColumnName × SqlValue)
  source : Json

/-- The value of a column that `Insert` writes. -/
def LogRow.cell (r : LogRow) (col : ColumnName) : SqlValue :=
  ((r.cells.find? fun c => c.1 == col).map Prod.snd).getD .null

/-- The column is another name of the row id. -/
def ColumnInfo.isRowId (ci : ColumnInfo) : Bool :=
  ci.isPk && ci.type.map lowerByte == lit "integer"

theorem isRowId_of_not_isPk {ci : ColumnInfo} (h : ci.isPk = false) : ci.isRowId = false := by
  rw [ColumnInfo.isRowId, h]
  rfl

/-- The value of a column. -/
def LogRow.value (r : LogRow) (ci : ColumnInfo) : SqlValue :=
  if ci.isRowId then .integer r.id else r.cell ci.name

/-- A row of `column_dictionary`; its integer column only ever gets integers. -/
structure DictRow where
  column : SqlValue
  value : SqlValue
  valueId : ℤ

/-- The part of the catalog that is fixed while the server runs, with the
constraints of the log table and the libraries' number conversions. -/
structure DatabaseCatalog where
  compressedColumns : List ColumnName
  logColumnInfo : List ColumnInfo
  accepts : List LogRow → List (ColumnName × SqlValue) → Bool
  platform : Platform
  names_nodup : (logColumnInfo.map (·.name)).Nodup

/-- The columns `Insert` writes: all but the primary key. -/
def DatabaseCatalog.insertColumns (cat : DatabaseCatalog) : List ColumnInfo :=
  cat.logColumnInfo.filter fun ci => !ci.isPk

/-- The column with this name. -/
def DatabaseCatalog.column (cat : DatabaseCatalog) (name : ColumnName) : Option ColumnInfo :=
  cat.logColumnInfo.find? fun ci => ci.name == name

theorem column_mem {cat : DatabaseCatalog} {field : ColumnName} {ci : ColumnInfo}
    (h : cat.column field = some ci) : ci ∈ cat.logColumnInfo ∧ ci.name = field :=
  ⟨List.mem_of_find?_eq_some h, by simpa using List.find?_some h⟩

theorem DatabaseCatalog.insertColumns_nodup (cat : DatabaseCatalog) :
    (cat.insertColumns.map (·.name)).Nodup :=
  cat.names_nodup.sublist (List.filter_sublist.map _)

/-- The name of a primary key column is not the name of a column `Insert` writes. -/
theorem DatabaseCatalog.name_ne_of_isPk (cat : DatabaseCatalog) {ci ci' : ColumnInfo}
    (hci : ci ∈ cat.logColumnInfo) (hpk : ci.isPk = true) (hci' : ci' ∈ cat.insertColumns) :
    ci.name ≠ ci'.name := by
  intro heq
  rw [insertColumns, List.mem_filter] at hci'
  have hsame := List.inj_on_of_nodup_map cat.names_nodup hci hci'.1 heq
  rw [hsame] at hpk
  simp [hpk] at hci'

/-- The tables of the database. -/
structure Tables where
  log : List LogRow
  columnDictionary : List DictRow

/-- The columns of a small log table: the key and a `level` of this type. -/
def levelColumns (type : Bytes) : List ColumnInfo :=
  [⟨lit "id", lit "INTEGER", false, true, by decide⟩, ⟨lit "level", type, false, false, by decide⟩]

theorem levelColumns_nodup (type : Bytes) : ((levelColumns type).map (·.name)).Nodup := by
  show [lit "id", lit "level"].Nodup
  decide

/-- A catalog to try things on: `level` is compressed, there are no constraints,
and all doubles print alike. -/
def levelCatalog : DatabaseCatalog where
  compressedColumns := [lit "level"]
  logColumnInfo := levelColumns (lit "INTEGER")
  accepts := fun _ _ => true
  platform := ⟨fun _ => lit "0.0", fun _ => .finite 0, fun _ => lit "0.0"⟩
  names_nodup := levelColumns_nodup _

/-- The same table without compression. -/
def textCatalog : DatabaseCatalog where
  compressedColumns := []
  logColumnInfo := levelColumns (lit "TEXT")
  accepts := fun _ _ => true
  platform := levelCatalog.platform
  names_nodup := levelColumns_nodup _

/-- The log with this `level`. -/
def levelLog (s : String) : Json := .object [(lit "level", .string (lit s))]

theorem id_noNul : 0 ∉ lit "id" := by decide

theorem level_noNul : 0 ∉ lit "level" := by decide

theorem timestamp_noNul : 0 ∉ lit "timestamp" := by decide

/-- The columns of a small log table: the key and a `timestamp`. -/
def stampColumns : List ColumnInfo :=
  [⟨lit "id", lit "INTEGER", false, true, id_noNul⟩,
    ⟨lit "timestamp", lit "TEXT", true, false, timestamp_noNul⟩]

theorem stampColumns_nodup : (stampColumns.map (·.name)).Nodup := by
  show [lit "id", lit "timestamp"].Nodup
  decide

/-- A log table to try things on. -/
def stampCatalog : DatabaseCatalog where
  compressedColumns := []
  logColumnInfo := stampColumns
  accepts := fun _ _ => true
  platform := levelCatalog.platform
  names_nodup := stampColumns_nodup

/-- The log of this time. -/
def stampLog (time : String) : Json := .object [(lit "timestamp", .string (lit time))]

/-- The row of this log. -/
def stampRow (id : ℤ) (time : String) : LogRow :=
  ⟨id, [(lit "timestamp", .text (lit time))], stampLog time⟩

/-! ### Row ids -/

/-- `GetMaxLogId`. -/
def getMaxLogId (rows : List LogRow) : ℤ := ((rows.map (·.id)).max?).getD 0

/-- `GetMinLogId`. -/
def getMinLogId (rows : List LogRow) : ℤ := ((rows.map (·.id)).min?).getD 0

/-- `EstimateLogRowCount`: `COALESCE(MAX(id) - MIN(id) + 1, 0)`, which SQLite makes a
`REAL` if it overflows; `sqlite3_column_int64` then reads the largest integer. -/
def estimateLogRowCount (rows : List LogRow) : ℤ :=
  match (rows.map (·.id)).max?, (rows.map (·.id)).min? with
  | some last, some first => min (last - first + 1) (2 ^ 63 - 1)
  | _, _ => 0

/-- The id of a new row of a table whose `id` is `INTEGER PRIMARY KEY`: one more
than the largest, or one. -/
def nextRowId (rows : List LogRow) : ℤ := getMaxLogId rows + 1

@[simp] theorem getMaxLogId_nil : getMaxLogId [] = 0 := rfl

theorem le_getMaxLogId {rows : List LogRow} {r : LogRow} (h : r ∈ rows) :
    r.id ≤ getMaxLogId rows := by
  unfold getMaxLogId
  have hmem : r.id ∈ rows.map (·.id) := List.mem_map_of_mem h
  cases hmax : (rows.map (·.id)).max? with
  | none =>
    rw [List.max?_eq_none_iff] at hmax
    rw [hmax] at hmem
    cases hmem
  | some m => exact (List.max?_eq_some_iff.mp hmax).2 _ hmem

/-- The largest id is the id of a row, if there is a row. -/
theorem exists_eq_getMaxLogId {rows : List LogRow} (h : rows ≠ []) :
    ∃ r ∈ rows, r.id = getMaxLogId rows := by
  unfold getMaxLogId
  cases hmax : (rows.map (·.id)).max? with
  | none =>
    rw [List.max?_eq_none_iff, List.map_eq_nil_iff] at hmax
    exact absurd hmax h
  | some m =>
    obtain ⟨r, hr, hid⟩ := List.mem_map.mp (List.max?_eq_some_iff.mp hmax).1
    exact ⟨r, hr, hid⟩

theorem lt_nextRowId {rows : List LogRow} {r : LogRow} (h : r ∈ rows) :
    r.id < nextRowId rows := by
  have := le_getMaxLogId h
  unfold nextRowId
  omega

/-! ### Transactions -/

/-- What the writer's connection sees, and the tables `ROLLBACK` goes back to
while a transaction is open. -/
structure Connection where
  db : Tables
  begun : Option Tables

/-- A failing call carries SQLite's message. -/
abbrev Fault := Option Bytes

/-- The message of a failed `exec_sql`. -/
def execFailed (msg : Bytes) : Bytes := lit "sqlite3_exec: " ++ msg

/-- `exec_sql("BEGIN")`. -/
def beginTransaction (fault : Fault) (c : Connection) : Outcome Connection Bytes Unit :=
  match fault, c.begun with
  | some msg, _ => .throw c (execFailed msg)
  | none, some _ =>
    .throw c (execFailed (lit "cannot start a transaction within a transaction"))
  | none, none => .ret { c with begun := some c.db } ()

/-- `exec_sql("COMMIT")`. -/
def commit (fault : Fault) (c : Connection) : Outcome Connection Bytes Unit :=
  match fault, c.begun with
  | some msg, _ => .throw c (execFailed msg)
  | none, none => .throw c (execFailed (lit "cannot commit - no transaction is active"))
  | none, some _ => .ret { c with begun := none } ()

/-- `sqlite3_exec(db_, "ROLLBACK", …)`: undoes everything since `BEGIN`. -/
def rollback (c : Connection) : Connection :=
  match c.begun with
  | some db => { db := db, begun := none }
  | none => c

end LogLite
