import LogLite.Http.Url
import LogLite.Query.Decode
import LogLite.Time.Iso

/-!
# Statistics

`GET /stats` reads the rows of two tables whose times are in a window.  The handler parses
both ends of the window and checks them as times; the statement compares the texts as they
came.

## Main definitions

* `StatsTable` — `activity_stats` or `database_stats`.
* `statsRows`, `queryStats` — `QueryActivityStats` and `QueryDatabaseStats`.
* `statsWindow`, `handleStats` — `HandleStats`.

## Main results

* `handleStats_ok` — what a request that is accepted is answered with.
-/

namespace LogLite

/-- A row of a table of statistics. -/
abbrev StatsRow := List (ColumnName × SqlValue)

/-- The value of a column. -/
def StatsRow.value (r : StatsRow) (col : ColumnName) : SqlValue := (r.lookup col).getD .null

/-- A table of statistics, with the column that holds the time of a row.  That column is
declared `DATETIME`. -/
structure StatsTable where
  name : Bytes
  columns : List ColumnName
  timeColumn : ColumnName
  rows : List StatsRow

/-- `activity_stats`. -/
def activityStats (rows : List StatsRow) : StatsTable where
  name := lit "activity_stats"
  columns := [lit "id", lit "since", lit "until", lit "query_count", lit "query_min",
    lit "query_max", lit "query_avg", lit "ingest_count", lit "ingest_size_min",
    lit "ingest_size_max", lit "ingest_size_avg", lit "ingest_drop_count",
    lit "insert_batch_count", lit "insert_total_count", lit "insert_total_cost",
    lit "sse_session_count", lit "http_conn_count"]
  timeColumn := lit "until"
  rows := rows

/-- `database_stats`. -/
def databaseStats (rows : List StatsRow) : StatsTable where
  name := lit "database_stats"
  columns := [lit "id", lit "timestamp", lit "rows_count", lit "db_size"]
  timeColumn := lit "timestamp"
  rows := rows

/-- The value stored for a time that `format_utc` wrote. -/
def storedTime (P : Platform) (tp : ℤ) : SqlValue :=
  Affinity.apply P (declaredAffinity (lit "DATETIME")) (.text (formatUtc tp))

/-! ### The statement -/

section
variable (P : Platform)

/-- `time >= ? AND time <= ?`. -/
def inWindow (sinceStr untilStr : Bytes) (time : SqlValue) : Bool :=
  let a := declaredAffinity (lit "DATETIME")
  SqlValue.comparison P a .ge time (.text sinceStr) &&
    SqlValue.comparison P a .le time (.text untilStr)

/-- `ORDER BY time`, ascending or descending. -/
def StatsTable.before (t : StatsTable) (ordering : Bytes) (a b : StatsRow) : Bool :=
  let o := SqlValue.compareWith (a.value t.timeColumn) (b.value t.timeColumn)
  if ordering = lit "asc" then o.isLE else o.isGE

/-- The rows the statement returns. -/
def statsRows (t : StatsTable) (sinceStr untilStr ordering : Bytes) : List StatsRow :=
  (t.rows.filter fun r => inWindow P sinceStr untilStr (r.value t.timeColumn)).mergeSort
    (t.before ordering)

/-- `StatsQueryResult`. -/
structure StatsQueryResult where
  fields : List ColumnName
  data : List (List Json)

/-- The fields of a query: none or `*` stand for all columns. -/
def StatsTable.resolved (t : StatsTable) (fields : List ColumnName) : List ColumnName :=
  if fields = [] ∨ fields = [lit "*"] then t.columns else fields

/-- The message of an unknown field. -/
def StatsTable.unknownField (t : StatsTable) (field : ColumnName) : Bytes :=
  lit "Unknown " ++ t.name ++ lit " field: '" ++ field ++ lit "'"

/-- `QueryActivityStats` and `QueryDatabaseStats`, with what they throw. -/
def queryStats (t : StatsTable) (sinceStr untilStr : Bytes) (fields : List ColumnName)
    (ordering : Bytes) : Except Bytes StatsQueryResult :=
  let resolved := t.resolved fields
  match resolved.find? fun f => !t.columns.contains f with
  | some f => .error (t.unknownField f)
  | none => .ok ⟨resolved, (statsRows P t sinceStr untilStr ordering).map fun r =>
      resolved.map fun f => columnToJson (r.value f)⟩

/-! ### The handler -/

variable (lib : DateLib)

/-- The ends of the window, parsed and checked: the `until` of a window is after its `since`
and at most a day later. -/
def statsWindow (sinceStr untilStr : Bytes) : Except Bytes (ℤ × ℤ) :=
  match parseIso8601 lib sinceStr, parseIso8601 lib untilStr with
  | some s, some u =>
    if u ≤ s then .error (lit "'until' must be after 'since'")
    else if 86400000000000 < toInt64 (u - s) then .error (lit "Time window must not exceed 1 day")
    else .ok (s, u)
  | _, _ => .error (lit "'since' and 'until' must be ISO-8601 timestamps")

/-- `split_fields`. -/
def splitFields (s : Bytes) : List ColumnName :=
  if s = lit "*" then [lit "*"]
  else ((s.splitOn 44).map stripSpaces).filter fun piece => !piece.isEmpty

/-- `HandleStats`: the rows of both tables, or the status and the message of the failure.
The uptime in the answer is left out. -/
def handleStats (activity database : StatsTable) (params : List (Bytes × Bytes)) :
    Except (ℕ × Bytes) (StatsQueryResult × StatsQueryResult) :=
  let required := [lit "since", lit "until", lit "activity_stats_fields",
    lit "database_stats_fields"]
  match required.find? fun p => (params.lookup p).isNone with
  | some p => .error (400, missingParam p)
  | none =>
    let param := fun p => (params.lookup p).getD []
    let ordering := (params.lookup (lit "ordering")).getD (lit "desc")
    if ordering ≠ lit "asc" ∧ ordering ≠ lit "desc" then
      .error (400, lit "Parameter 'ordering' must be 'asc' or 'desc'")
    else
      match statsWindow lib (param (lit "since")) (param (lit "until")) with
      | .error what => .error (400, what)
      | .ok _ =>
        let query := fun t fields => queryStats P t (param (lit "since")) (param (lit "until"))
          (splitFields (param fields)) ordering
        match query activity (lit "activity_stats_fields"),
          query database (lit "database_stats_fields") with
        | .ok activities, .ok databases => .ok (activities, databases)
        | .error what, _ => .error (500, what)
        | _, .error what => .error (500, what)

end

/-! ### What is answered -/

section
variable {P : Platform} {lib : DateLib}

theorem queryStats_ok {t : StatsTable} {sinceStr untilStr ordering : Bytes}
    {fields : List ColumnName} {result : StatsQueryResult}
    (h : queryStats P t sinceStr untilStr fields ordering = .ok result) :
    result.data = (statsRows P t sinceStr untilStr ordering).map fun r =>
      result.fields.map fun f => columnToJson (r.value f) := by
  unfold queryStats at h
  dsimp only at h
  split at h
  · cases h
  · cases h
    rfl

/-- **A request that is accepted** has a window that was checked, and is answered with the
rows that the statement selects. -/
theorem handleStats_ok {activity database : StatsTable} {params : List (Bytes × Bytes)}
    {activities databases : StatsQueryResult}
    (h : handleStats P lib activity database params = .ok (activities, databases)) :
    ∃ sinceStr untilStr ordering window, params.lookup (lit "since") = some sinceStr ∧
      params.lookup (lit "until") = some untilStr ∧ statsWindow lib sinceStr untilStr = .ok window ∧
      (activities.data = (statsRows P activity sinceStr untilStr ordering).map fun r =>
        activities.fields.map fun f => columnToJson (r.value f)) ∧
      databases.data = (statsRows P database sinceStr untilStr ordering).map fun r =>
        databases.fields.map fun f => columnToJson (r.value f) := by
  unfold handleStats at h
  dsimp only at h
  split at h
  · cases h
  · next hrequired =>
    rw [List.find?_eq_none] at hrequired
    have hsince := hrequired (lit "since") (by simp)
    have huntil := hrequired (lit "until") (by simp)
    rw [Bool.not_eq_true, Option.isNone_eq_false_iff, Option.isSome_iff_exists] at hsince huntil
    obtain ⟨sinceStr, hsince⟩ := hsince
    obtain ⟨untilStr, huntil⟩ := huntil
    rw [hsince, huntil] at h
    split at h
    · cases h
    · split at h
      · cases h
      · next window hwindow =>
        split at h
        · next hactivities hdatabases =>
          cases h
          exact ⟨sinceStr, untilStr, _, window, hsince, huntil, hwindow, queryStats_ok hactivities,
            queryStats_ok hdatabases⟩
        · cases h
        · cases h

end

end LogLite
