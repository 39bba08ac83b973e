import LogLite.Query.Page
import LogLite.Stats.Window

/-!
# Pruning the statistics

Each pass of `DiagnosticsTask` adds a row to both tables of statistics and deletes the rows
whose time sorts before `format_utc(window_until - stats_retention_hours * 1h)`.  What
`format_utc` writes sorts as the milliseconds do; but the product of the hours and the
difference are 64-bit numbers of nanoseconds, which wrap around from about 292 years on.

## Main definitions

* `deleteStatsBefore` — `DeleteStatsBefore`; `diagnosticsPass` — one pass of the task.
* `EarlierThan` — the row was recorded in an earlier millisecond.
* `PrunesExactly` — a pass deletes the rows that are earlier than the cutoff, and no others,
  and returns their number.
* `CutoffSound` — the cutoff, as it is computed, has the same rows before it as the one that
  is meant, and these are fewer than `2 ^ 31`.
* `AllPasses` — something holds of each pass of a run.

## Main results

* `isDeleted_iff` — the statements delete by instant.
* `prunesExactly_iff` — one pass.
* `stats_pruning_exact` — **texts sort as milliseconds, and every pass of a run prunes exactly
  if and only if its cutoff is sound.**
* `cutoffSound_of_fits` — which it is if nothing wraps around.
-/

namespace LogLite

/-! ### The statements -/

/-- `ActivityStatsRow`. -/
structure ActivityStatsRow where
  since : Bytes
  until_ : Bytes
  queryCount : ℤ
  queryMin : ℤ
  queryMax : ℤ
  queryAvg : ℤ
  ingestCount : ℤ
  ingestSizeMin : ℤ
  ingestSizeMax : ℤ
  ingestSizeAvg : ℤ
  ingestDropCount : ℤ
  insertBatchCount : ℤ
  insertTotalCount : ℤ
  insertTotalCost : ℤ
  sseSessionCount : ℤ
  httpConnCount : ℤ

/-- `DatabaseStatsRow`. -/
structure DatabaseStatsRow where
  timestamp : Bytes
  rowsCount : ℤ
  dbSize : ℤ

/-- The rows of both tables.  Their ids, which nothing here reads, are left out. -/
structure StatsTables where
  activity : List StatsRow
  database : List StatsRow

section
variable (P : Platform)

/-- A text in a column that is declared `DATETIME`. -/
def datetimeColumn (s : Bytes) : SqlValue :=
  Affinity.apply P (declaredAffinity (lit "DATETIME")) (.text s)

/-- The row `InsertActivityStats` appends. -/
def ActivityStatsRow.stored (row : ActivityStatsRow) : StatsRow :=
  [(lit "since", datetimeColumn P row.since), (lit "until", datetimeColumn P row.until_),
    (lit "query_count", .integer row.queryCount), (lit "query_min", .integer row.queryMin),
    (lit "query_max", .integer row.queryMax), (lit "query_avg", .integer row.queryAvg),
    (lit "ingest_count", .integer row.ingestCount),
    (lit "ingest_size_min", .integer row.ingestSizeMin),
    (lit "ingest_size_max", .integer row.ingestSizeMax),
    (lit "ingest_size_avg", .integer row.ingestSizeAvg),
    (lit "ingest_drop_count", .integer row.ingestDropCount),
    (lit "insert_batch_count", .integer row.insertBatchCount),
    (lit "insert_total_count", .integer row.insertTotalCount),
    (lit "insert_total_cost", .integer row.insertTotalCost),
    (lit "sse_session_count", .integer row.sseSessionCount),
    (lit "http_conn_count", .integer row.httpConnCount)]

/-- The row `InsertDatabaseStats` appends. -/
def DatabaseStatsRow.stored (row : DatabaseStatsRow) : StatsRow :=
  [(lit "timestamp", datetimeColumn P row.timestamp), (lit "rows_count", .integer row.rowsCount),
    (lit "db_size", .integer row.dbSize)]

/-- `time < ?`. -/
def isDeleted (col : ColumnName) (cutoff : Bytes) (r : StatsRow) : Bool :=
  SqlValue.comparison P (declaredAffinity (lit "DATETIME")) .lt (r.value col) (.text cutoff)

/-- `sqlite3_changes`, after `DELETE FROM … WHERE time < ?`. -/
def deletedCount (col : ColumnName) (cutoff : Bytes) (rows : List StatsRow) : ℤ :=
  toInt32 (rows.countP (isDeleted P col cutoff))

/-- `WriterDatabase::DeleteStatsBefore`, where no statement fails. -/
def deleteStatsBefore (cutoff : Bytes) (t : StatsTables) : StatsTables × ℤ :=
  (⟨t.activity.filter fun r => !isDeleted P (lit "until") cutoff r,
    t.database.filter fun r => !isDeleted P (lit "timestamp") cutoff r⟩,
    toInt32 (deletedCount P (lit "until") cutoff t.activity +
      deletedCount P (lit "timestamp") cutoff t.database))

/-! ### Recorded rows -/

/-- The time of the row was written by `format_utc`. -/
def Recorded (col : ColumnName) (r : StatsRow) : Prop :=
  ∃ tp, fitsInt64 tp = true ∧ r.value col = storedTime P tp

/-- The rows of both tables have times that `format_utc` wrote. -/
structure StatsTables.Recorded (t : StatsTables) : Prop where
  activity : ∀ r ∈ t.activity, LogLite.Recorded P (lit "until") r
  database : ∀ r ∈ t.database, LogLite.Recorded P (lit "timestamp") r

/-- The row was recorded in a millisecond before that of `cutoff`. -/
def EarlierThan (col : ColumnName) (cutoff : ℤ) (r : StatsRow) : Prop :=
  ∃ tp, fitsInt64 tp = true ∧ r.value col = storedTime P tp ∧ tp / 1000000 < cutoff / 1000000

variable {P} {col : ColumnName} {cutoff : ℤ} {r : StatsRow}

@[simp] theorem datetimeColumn_formatUtc (tp : ℤ) :
    datetimeColumn P (formatUtc tp) = storedTime P tp := rfl

@[simp] theorem ActivityStatsRow.value_until (row : ActivityStatsRow) :
    (row.stored P).value (lit "until") = datetimeColumn P row.until_ := rfl

@[simp] theorem DatabaseStatsRow.value_timestamp (row : DatabaseStatsRow) :
    (row.stored P).value (lit "timestamp") = datetimeColumn P row.timestamp := rfl

/-- A stored time tells the millisecond. -/
theorem storedTime_inj {tp tp' : ℤ} (htp : fitsInt64 tp = true) (htp' : fitsInt64 tp' = true)
    (h : storedTime P tp = storedTime P tp') : tp / 1000000 = tp' / 1000000 := by
  rw [fitsInt64_iff] at htp htp'
  rw [storedTime_eq, storedTime_eq, SqlValue.text.injEq] at h
  rw [← compare_eq_iff_eq, ← compare_msText (by unfold firstMs lastMs; omega)
    (by unfold firstMs lastMs; omega), h]
  exact Std.ReflOrd.compare_self

/-- **The statements delete by instant.** -/
theorem isDeleted_iff (hr : Recorded P col r) (hcutoff : fitsInt64 cutoff = true) :
    isDeleted P col (formatUtc cutoff) r = true ↔ EarlierThan P col cutoff r := by
  obtain ⟨tp, htp, hvalue⟩ := hr
  have hdeleted : isDeleted P col (formatUtc cutoff) r = true ↔
      tp / 1000000 < cutoff / 1000000 := by
    unfold isDeleted
    rw [hvalue, formatUtc_eq_msText cutoff, comparison_storedTime (mem_msText _)]
    rw [fitsInt64_iff] at htp hcutoff
    rw [compare_msText (by unfold firstMs lastMs; omega) (by unfold firstMs lastMs; omega)]
    show (compare _ _ == Ordering.lt) = true ↔ _
    rw [beq_iff_eq, compare_lt_iff_lt]
  rw [hdeleted]
  constructor
  · intro hlt
    exact ⟨tp, htp, hvalue, hlt⟩
  · rintro ⟨tp', htp', hvalue', hlt⟩
    rwa [storedTime_inj htp htp' (hvalue.symm.trans hvalue')]

/-! ### One pass -/

/-- What one pass reads: the clock, and the numbers it records. -/
structure DiagnosticsInput where
  windowUntil : ℤ
  fits : fitsInt64 windowUntil = true
  activity : ActivityStatsRow
  rowsCount : ℤ
  dbSize : ℤ

variable (P) in
/-- `DiagnosticsTask` between two passes. -/
structure DiagnosticsState where
  windowSince : ℤ
  tables : StatsTables
  recorded : tables.Recorded P

/-- `window_until - cfg.stats_retention_hours * 1h`, in nanoseconds. -/
def statsCutoff (hours windowUntil : ℤ) : ℤ :=
  toInt64 (windowUntil - toInt64 (hours * 3600000000000))

theorem fitsInt64_statsCutoff (hours windowUntil : ℤ) :
    fitsInt64 (statsCutoff hours windowUntil) = true := fitsInt64_toInt64 _

/-- The cutoff that is meant. -/
def intendedCutoff (hours windowUntil : ℤ) : ℤ := windowUntil - hours * 3600000000000

variable (P) in
/-- The tables after both rows of a pass are inserted. -/
def insertStats (windowSince : ℤ) (input : DiagnosticsInput) (t : StatsTables) : StatsTables :=
  let row := { input.activity with
    since := formatUtc windowSince
    until_ := formatUtc input.windowUntil }
  ⟨t.activity ++ [row.stored P],
    t.database ++ [DatabaseStatsRow.stored P ⟨row.until_, input.rowsCount, input.dbSize⟩]⟩

/-- The new rows are recorded at the end of the window. -/
theorem insertStats_recorded {t : StatsTables} (h : t.Recorded P) (windowSince : ℤ)
    (input : DiagnosticsInput) : (insertStats P windowSince input t).Recorded P where
  activity := by
    refine List.forall_mem_append.mpr ⟨h.activity, ?_⟩
    simp only [List.forall_mem_singleton]
    exact ⟨input.windowUntil, input.fits, by simp⟩
  database := by
    refine List.forall_mem_append.mpr ⟨h.database, ?_⟩
    simp only [List.forall_mem_singleton]
    exact ⟨input.windowUntil, input.fits, by simp⟩

theorem deleteStatsBefore_recorded {t : StatsTables} (h : t.Recorded P) (cutoff : Bytes) :
    (deleteStatsBefore P cutoff t).1.Recorded P where
  activity r hr := h.activity r (List.mem_of_mem_filter hr)
  database r hr := h.database r (List.mem_of_mem_filter hr)

/-- The tables of a pass before it deletes. -/
def DiagnosticsState.inserted (s : DiagnosticsState P) (input : DiagnosticsInput) : StatsTables :=
  insertStats P s.windowSince input s.tables

/-- One pass of `DiagnosticsTask`, with the number of rows it has pruned. -/
def diagnosticsPass (hours : ℤ) (s : DiagnosticsState P) (input : DiagnosticsInput) :
    DiagnosticsState P × ℤ :=
  let cutoff := formatUtc (statsCutoff hours input.windowUntil)
  let pruned := deleteStatsBefore P cutoff (s.inserted input)
  (⟨input.windowUntil, pruned.1,
    deleteStatsBefore_recorded (insertStats_recorded s.recorded s.windowSince input) cutoff⟩,
    pruned.2)

/-! ### What a pass should do -/

open Classical in
variable (P) in
/-- The rows that are not earlier than a cutoff. -/
noncomputable def notEarlier (col : ColumnName) (cutoff : ℤ) (rows : List StatsRow) :
    List StatsRow :=
  rows.filter fun r => decide (¬ EarlierThan P col cutoff r)

open Classical in
variable (P) in
/-- The number of rows of both tables that are earlier than a cutoff. -/
noncomputable def earlierCount (cutoff : ℤ) (t : StatsTables) : ℕ :=
  (t.activity.countP fun r => decide (EarlierThan P (lit "until") cutoff r)) +
    t.database.countP fun r => decide (EarlierThan P (lit "timestamp") cutoff r)

/-- A pass leaves the rows that are not earlier than the cutoff that is meant, in both
tables, and returns the number of the others. -/
def PrunesExactly (hours : ℤ) (s : DiagnosticsState P) (input : DiagnosticsInput) : Prop :=
  let cutoff := intendedCutoff hours input.windowUntil
  let after := diagnosticsPass hours s input
  after.1.tables.activity = notEarlier P (lit "until") cutoff (s.inserted input).activity ∧
    after.1.tables.database =
      notEarlier P (lit "timestamp") cutoff (s.inserted input).database ∧
    after.2 = earlierCount P cutoff (s.inserted input)

/-- No row was recorded between the cutoff that is meant and the one that is computed. -/
def SameSide (col : ColumnName) (hours windowUntil : ℤ) (rows : List StatsRow) : Prop :=
  ∀ r ∈ rows, EarlierThan P col (statsCutoff hours windowUntil) r ↔
    EarlierThan P col (intendedCutoff hours windowUntil) r

/-- The cutoff of a pass is sound. -/
def CutoffSound (hours : ℤ) (s : DiagnosticsState P) (input : DiagnosticsInput) : Prop :=
  SameSide (P := P) (lit "until") hours input.windowUntil (s.inserted input).activity ∧
    SameSide (P := P) (lit "timestamp") hours input.windowUntil (s.inserted input).database ∧
    earlierCount P (intendedCutoff hours input.windowUntil) (s.inserted input) < 2 ^ 31

/-- Something holds of each pass of a run. -/
def AllPasses (Q : DiagnosticsState P → DiagnosticsInput → Prop) (hours : ℤ) :
    DiagnosticsState P → List DiagnosticsInput → Prop
  | _, [] => True
  | s, input :: inputs => Q s input ∧ AllPasses Q hours (diagnosticsPass hours s input).1 inputs

/-! ### The passes prune exactly -/

theorem DiagnosticsState.inserted_recorded (s : DiagnosticsState P) (input : DiagnosticsInput) :
    (s.inserted input).Recorded P := insertStats_recorded s.recorded s.windowSince input

open Classical in
theorem filter_isDeleted {rows : List StatsRow} (hrows : ∀ r ∈ rows, Recorded P col r)
    (hcutoff : fitsInt64 cutoff = true) :
    rows.filter (fun r => !isDeleted P col (formatUtc cutoff) r) =
      notEarlier P col cutoff rows := by
  refine List.filter_congr fun r hr => ?_
  rw [decide_not, Bool.eq_iff_iff, Bool.not_eq_true', Bool.not_eq_true',
    ← Bool.not_eq_true, ← Bool.not_eq_true, isDeleted_iff (hrows r hr) hcutoff, decide_eq_true_iff]

open Classical in
theorem countP_isDeleted {rows : List StatsRow} (hrows : ∀ r ∈ rows, Recorded P col r)
    (hcutoff : fitsInt64 cutoff = true) :
    rows.countP (isDeleted P col (formatUtc cutoff)) =
      rows.countP fun r => decide (EarlierThan P col cutoff r) := by
  refine List.countP_congr fun r hr => ?_
  rw [isDeleted_iff (hrows r hr) hcutoff, decide_eq_true_iff]

/-- Two cutoffs leave the same rows exactly if they have the same rows before them. -/
theorem notEarlier_eq_iff {cutoff' : ℤ} {rows : List StatsRow} :
    notEarlier P col cutoff rows = notEarlier P col cutoff' rows ↔
      ∀ r ∈ rows, EarlierThan P col cutoff r ↔ EarlierThan P col cutoff' r := by
  classical
  constructor
  · intro h r hr
    have hmem : r ∈ notEarlier P col cutoff rows ↔ r ∈ notEarlier P col cutoff' rows := by rw [h]
    unfold notEarlier at hmem
    rw [List.mem_filter, List.mem_filter, decide_eq_true_iff, decide_eq_true_iff,
      and_iff_right hr, and_iff_right hr] at hmem
    exact not_iff_not.mp hmem
  · intro h
    refine List.filter_congr fun r hr => ?_
    rw [h r hr]

/-- Counts that agree up to multiples of `2 ^ 32`. -/
theorem toInt32_add (m n : ℤ) : toInt32 (toInt32 m + toInt32 n) = toInt32 (m + n) := by
  unfold toInt32
  simp

/-- What a pass leaves. -/
theorem diagnosticsPass_tables (hours : ℤ) (s : DiagnosticsState P) (input : DiagnosticsInput) :
    (diagnosticsPass hours s input).1.tables.activity =
        notEarlier P (lit "until") (statsCutoff hours input.windowUntil)
          (s.inserted input).activity ∧
      (diagnosticsPass hours s input).1.tables.database =
        notEarlier P (lit "timestamp") (statsCutoff hours input.windowUntil)
          (s.inserted input).database :=
  ⟨filter_isDeleted (s.inserted_recorded input).activity (fitsInt64_statsCutoff _ _),
    filter_isDeleted (s.inserted_recorded input).database (fitsInt64_statsCutoff _ _)⟩

/-- What a pass returns. -/
theorem diagnosticsPass_pruned (hours : ℤ) (s : DiagnosticsState P) (input : DiagnosticsInput) :
    (diagnosticsPass hours s input).2 =
      toInt32 (earlierCount P (statsCutoff hours input.windowUntil) (s.inserted input)) := by
  have hrecorded := s.inserted_recorded input
  have hcutoff := fitsInt64_statsCutoff hours input.windowUntil
  unfold diagnosticsPass deleteStatsBefore deletedCount
  dsimp only
  rw [toInt32_add, countP_isDeleted hrecorded.activity hcutoff,
    countP_isDeleted hrecorded.database hcutoff, earlierCount, Int.natCast_add]

theorem earlierCount_congr {hours : ℤ} {s : DiagnosticsState P} {input : DiagnosticsInput}
    (hactivity : SameSide (P := P) (lit "until") hours input.windowUntil
      (s.inserted input).activity)
    (hdatabase : SameSide (P := P) (lit "timestamp") hours input.windowUntil
      (s.inserted input).database) :
    earlierCount P (statsCutoff hours input.windowUntil) (s.inserted input) =
      earlierCount P (intendedCutoff hours input.windowUntil) (s.inserted input) := by
  classical
  unfold earlierCount
  congr 1
  · exact List.countP_congr fun r hr => by simp only [decide_eq_true_iff, hactivity r hr]
  · exact List.countP_congr fun r hr => by simp only [decide_eq_true_iff, hdatabase r hr]

/-- **A pass prunes exactly if and only if its cutoff is sound.** -/
theorem prunesExactly_iff (hours : ℤ) (s : DiagnosticsState P) (input : DiagnosticsInput) :
    PrunesExactly hours s input ↔ CutoffSound hours s input := by
  obtain ⟨hactivity, hdatabase⟩ := diagnosticsPass_tables hours s input
  unfold PrunesExactly CutoffSound
  dsimp only
  rw [hactivity, hdatabase, diagnosticsPass_pruned, notEarlier_eq_iff, notEarlier_eq_iff]
  refine and_congr_right fun hsame => and_congr_right fun hsame' => ?_
  rw [earlierCount_congr hsame hsame', toInt32_eq_iff]
  constructor
  · rintro ⟨-, -, hlt⟩
    exact_mod_cast hlt
  · intro hlt
    exact ⟨⟨0, by omega⟩, by omega, by exact_mod_cast hlt⟩

/-- The cutoff is sound if nothing wraps around and there is not too much to delete. -/
theorem cutoffSound_of_fits {hours : ℤ} {s : DiagnosticsState P} {input : DiagnosticsInput}
    (hhours : fitsInt64 (hours * 3600000000000) = true)
    (hcutoff : fitsInt64 (intendedCutoff hours input.windowUntil) = true)
    (hcount : earlierCount P (intendedCutoff hours input.windowUntil) (s.inserted input) < 2 ^ 31) :
    CutoffSound hours s input := by
  have heq : statsCutoff hours input.windowUntil = intendedCutoff hours input.windowUntil := by
    rw [statsCutoff, toInt64_eq_self_iff.mpr hhours]
    exact toInt64_eq_self_iff.mpr hcutoff
  refine ⟨?_, ?_, hcount⟩ <;>
    · intro r _
      rw [heq]

theorem allPasses_congr {Q Q' : DiagnosticsState P → DiagnosticsInput → Prop} {hours : ℤ}
    (h : ∀ s input, Q s input ↔ Q' s input) (s : DiagnosticsState P)
    (inputs : List DiagnosticsInput) :
    AllPasses Q hours s inputs ↔ AllPasses Q' hours s inputs := by
  induction inputs generalizing s with
  | nil => exact Iff.rfl
  | cons input inputs ih => exact and_congr (h s input) (ih _)

end

/-- A time of the years 1970 to 9999. -/
def From1970To9999 (tp : ℤ) : Prop := 0 ≤ tp ∧ tp < 253402300800000000000

/-- **Texts sort as milliseconds, and every pass of a run prunes exactly if and only if its
cutoff is sound.** -/
theorem stats_pruning_exact (P : Platform) (hours : ℤ) (s : DiagnosticsState P)
    (inputs : List DiagnosticsInput) :
    (∀ tp tp', From1970To9999 tp → From1970To9999 tp' →
      compare (formatUtc tp) (formatUtc tp') = compare (tp / 1000000) (tp' / 1000000)) ∧
    (AllPasses (PrunesExactly hours) hours s inputs ↔
      AllPasses (CutoffSound hours) hours s inputs) := by
  refine ⟨fun tp tp' htp htp' => ?_, allPasses_congr (prunesExactly_iff hours) s inputs⟩
  unfold From1970To9999 at htp htp'
  exact compare_formatUtc (by unfold FourDigits; omega) (by unfold FourDigits; omega)

/-! ### Four million hours -/

/-- Empty tables. -/
def noStats (P : Platform) : DiagnosticsState P where
  windowSince := 1704067200000000000
  tables := ⟨[], []⟩
  recorded := ⟨by simp, by simp⟩

/-- A pass at New Year's Day of 2024. -/
def newYearPass : DiagnosticsInput where
  windowUntil := 1704067260000000000
  fits := rfl
  activity := ⟨[], [], 0, 0, 0, 0, 0, 0, 0, 0, 0, 0, 0, 0, 0, 0⟩
  rowsCount := 0
  dbSize := 4096

/-- With a retention of 456 years a pass deletes the row that it has just inserted. -/
theorem stats_pruning_wraps : ¬ ∀ (P : Platform) (hours : ℤ) (s : DiagnosticsState P)
    (inputs : List DiagnosticsInput), AllPasses (PrunesExactly hours) hours s inputs := by
  intro h
  have hpass := (h levelCatalog.platform 4000000 (noStats _) [newYearPass]).1
  obtain ⟨hsame, -⟩ := (prunesExactly_iff _ _ _).mp hpass
  have hmem : (ActivityStatsRow.stored levelCatalog.platform
      { newYearPass.activity with
        since := formatUtc 1704067200000000000
        until_ := formatUtc 1704067260000000000 }) ∈
        ((noStats levelCatalog.platform).inserted newYearPass).activity :=
    List.mem_singleton.mpr rfl
  have hcomputed := (hsame _ hmem).mp ⟨1704067260000000000, by decide, by simp, by decide⟩
  obtain ⟨tp, htp, -, hlt⟩ := hcomputed
  have hcutoff : intendedCutoff 4000000 newYearPass.windowUntil = -12695932740000000000 := by decide
  rw [hcutoff] at hlt
  rw [fitsInt64_iff] at htp
  omega

end LogLite
