import LogLite.Store.Catalog

/-!
# The writer

`WriterDatabase::Insert` writes a batch of logs in one transaction.  For each log
it goes through the columns, replaces the values of compressed columns by their
ids (creating and persisting new ids on the way), and steps the prepared
statement; a log that lacks a required column is skipped, a row whose step fails
is reported and left out.  Any exception rolls the transaction back.

Which SQLite calls fail is decided by `Faults`, indexed by the position of the log
in the batch and of the column in the row.

## Main definitions

* `WriterDatabase` — the connection and the dictionary held in memory.
* `serializeValue`, `bindParam` — from a JSON value to a bound value.
* `insertColumnDictValue` — the persist callback.
* `encodeRow`, `insertRow`, `insertRows` — the two nested loops of `Insert`.
* `insertReport` — `Insert`, with what became of each log; `insertedCount` is the
  number it returns.
-/

namespace LogLite

/-- The writer's state. -/
structure WriterDatabase where
  conn : Connection
  colDict : LookupTable

/-- The rows of the log table. -/
abbrev WriterDatabase.log (w : WriterDatabase) : List LogRow := w.conn.db.log

/-- A database without rows, just initialised. -/
def WriterDatabase.fresh : WriterDatabase := ⟨⟨⟨[], []⟩, none⟩, ∅⟩

/-! ### Values -/

section
variable (P : Platform)

/-- `Database::serialize_value`. -/
def serializeValue : Json → Json
  | .null => .null
  | .bool b => .integer (if b then 1 else 0)
  | .integer n => .integer n
  | .float x => .float x
  | .string s => .string s
  | v => .string (v.dump P)

/-- `Database::bind_param`: the value that is bound. -/
def bindParam : Json → SqlValue
  | .null => .null
  | .bool b => .integer (if b then 1 else 0)
  | .integer n => .integer (toInt64 n)
  | .float x => .real x
  | .string s => .text s
  | v => .text (v.dump P)

/-- The string of a value in a compressed column. -/
def dictText : Json → Bytes
  | .string s => s
  | v => v.dump P

@[simp] theorem serializeValue_isNull (v : Json) : (serializeValue P v).isNull = v.isNull := by
  cases v <;> rfl

@[simp] theorem serializeValue_string (s : Bytes) :
    serializeValue P (.string s) = .string s := rfl

end

/-! ### The persist callback -/

/-- How the insertion of a dictionary entry fails: the statement cannot be
prepared, or its step fails. -/
inductive DictFault where
  | prepare (msg : Bytes)
  | step

/-- The message of a statement that cannot be prepared. -/
def prepareFailed (msg : Bytes) : Bytes := lit "sqlite3_prepare_v2: " ++ msg

/-- The row written for a dictionary entry: both strings are bound up to their
first `NUL`, and `value` is declared `JSON`. -/
def persistedRow (P : Platform) (col : ColumnName) (value : Bytes) (id : ValueId) : DictRow where
  column := Affinity.apply P (declaredAffinity (lit "TEXT")) (.text (cstr col))
  value := Affinity.apply P (declaredAffinity (lit "JSON")) (.text (cstr value))
  valueId := id

/-- `WriterDatabase::InsertColumnDictValue`. -/
def insertColumnDictValue (P : Platform) (fault : Option DictFault) : PersistFn Connection :=
  fun col value id c =>
    match fault with
    | some (.prepare msg) => .throw c (prepareFailed msg)
    | some .step => .ret c false
    | none =>
      .ret { c with db.columnDictionary := c.db.columnDictionary ++ [persistedRow P col value id] }
        true

/-! ### Insert -/

/-- Which calls of one `Insert` fail, in any combination; not all of them can happen.  A row step
that is busy leaves its statement open until the next turn of the loop resets it, so after a
last step of this kind `commit` fails too. -/
structure Faults where
  prepare : Fault
  begin : Fault
  dict : ℕ → ℕ → Option DictFault
  row : ℕ → Bool
  commit : Fault

/-- No call fails. -/
def Faults.none : Faults := ⟨.none, .none, fun _ _ => .none, fun _ => false, .none⟩

/-- What became of a log: its row was inserted, it was skipped for a missing
column, its row violates a constraint, or the step failed for another reason. -/
inductive RowResult where
  | inserted
  | skipped (col : ColumnName)
  | rejected
  | failed
  deriving DecidableEq, Repr

/-- The number of inserted rows. -/
def insertedCount (rs : List RowResult) : ℕ := rs.count .inserted

section
variable (cat : DatabaseCatalog)

/-- The value bound for one column: the id, in a compressed column. -/
def encodeValue (fault : Option DictFault) (col : ColumnName) (v : Json) (w : WriterDatabase) :
    Outcome WriterDatabase Bytes Json :=
  if cat.compressedColumns.contains col && !v.isNull then
    ((getOrCreate (some (insertColumnDictValue cat.platform fault)) w.colDict w.conn col
        (dictText cat.platform v)).mapState fun s => ⟨s.2, s.1⟩).bind
      fun w id => .ret w (.integer id)
  else .ret w v

/-- The value SQLite stores for a bound value. -/
def storedCell (ci : ColumnInfo) (v : Json) : SqlValue :=
  Affinity.apply cat.platform ci.affinity (bindParam cat.platform v)

/-- The loop over the columns: the cells of the row, or the required column that
is missing. -/
def encodeRow (faults : ℕ → Option DictFault) (log : Json) :
    ℕ → List ColumnInfo → WriterDatabase →
      Outcome WriterDatabase Bytes (Except ColumnName (List (ColumnName × SqlValue)))
  | _, [], w => .ret w (.ok [])
  | j, ci :: cols, w =>
    let raw := log.find ci.name
    if ci.notNull && raw.isNull then .ret w (.error ci.name)
    else
      (encodeValue cat (faults j) ci.name (serializeValue cat.platform raw) w).bind fun w v =>
        (encodeRow faults log (j + 1) cols w).bind fun w cells =>
          .ret w (cells.map fun cs => (ci.name, storedCell cat ci v) :: cs)

/-- A new row, with the id SQLite gives it. -/
def newRow (rows : List LogRow) (cells : List (ColumnName × SqlValue)) (log : Json) : LogRow :=
  ⟨nextRowId rows, cells, log⟩

/-- The table with one more row. -/
def WriterDatabase.appendRow (w : WriterDatabase) (cells : List (ColumnName × SqlValue))
    (log : Json) : WriterDatabase :=
  { w with conn.db.log := w.log ++ [newRow w.log cells log] }

/-- `sqlite3_step(stmt)`. -/
def stepRow (fault : Bool) (cells : List (ColumnName × SqlValue)) (log : Json)
    (w : WriterDatabase) : WriterDatabase × RowResult :=
  if fault then (w, .failed)
  else if cat.accepts w.log cells then (w.appendRow cells log, .inserted)
  else (w, .rejected)

/-- The body of the loop over the logs. -/
def insertRow (f : Faults) (i : ℕ) (log : Json) (w : WriterDatabase) :
    Outcome WriterDatabase Bytes RowResult :=
  (encodeRow cat (f.dict i) log 0 cat.insertColumns w).bind fun w cells =>
    match cells with
    | .error col => .ret w (.skipped col)
    | .ok cells =>
      let r := stepRow cat (f.row i) cells log w
      .ret r.1 r.2

/-- The loop over the logs. -/
def insertRows (f : Faults) : ℕ → List Json → WriterDatabase →
    Outcome WriterDatabase Bytes (List RowResult)
  | _, [], w => .ret w []
  | i, log :: logs, w =>
    (insertRow cat f i log w).bind fun w r =>
      (insertRows f (i + 1) logs w).bind fun w rs => .ret w (r :: rs)

/-- A call on the connection. -/
def WriterDatabase.onConn {α : Type} (w : WriterDatabase)
    (call : Connection → Outcome Connection Bytes α) : Outcome WriterDatabase Bytes α :=
  (call w.conn).mapState fun c => { w with conn := c }

/-- `WriterDatabase::Insert`, with what became of each log. -/
def insertReport (f : Faults) (logs : List Json) (w : WriterDatabase) :
    Outcome WriterDatabase Bytes (List RowResult) :=
  if cat.insertColumns.isEmpty || logs.isEmpty then .ret w []
  else
    match f.prepare with
    | some msg => .throw w (prepareFailed msg)
    | none =>
      (w.onConn (beginTransaction f.begin)).bind fun w _ =>
        ((insertRows cat f 0 logs w).bind fun w rs =>
          (w.onConn (commit f.commit)).bind fun w _ => .ret w rs).onThrow
            fun w => { w with conn := rollback w.conn }

/-- `WriterDatabase::Insert`: the number of inserted rows. -/
def insert (f : Faults) (logs : List Json) (w : WriterDatabase) :
    Outcome WriterDatabase Bytes ℕ :=
  (insertReport cat f logs w).bind fun w rs => .ret w (insertedCount rs)

end

end LogLite
