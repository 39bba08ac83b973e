import LogLite.Base.SqlOrder
import LogLite.Query.Delete
import LogLite.Query.Page
import LogLite.Lib.Run

/-!
# Deleting old logs

A pass of the vacuum task deletes the logs up to a cutoff, in the order of their
timestamps as texts.  If it has a budget, only rows whose ids are in a window are
deleted: the window begins at the smallest id and is as wide as the budget divided by
the average size of a row.

## Main definitions

* `getMinTimestamp`, `estimateAvgRowBytes`, `removeMaxId` — what a pass reads first.
* `removeStaleLogs` — `remove_stale_logs`.
* `timestampText`, `Stale` — the timestamp of a row, and the rows that should go.
* `Overdue`, `UpTo`, `InWindow` — what decides which rows go.
* `ReachesFixpoint` — a pass that deletes nothing leaves no stale row.
* `StalePass` — a pass, as a step of the database.

## Main results

* `removeStaleLogs_of_overdue` — what a pass deletes.
* `remove_stale_fixpoint_iff` — **a pass that deletes nothing leaves no stale row,
  exactly if there is none or it can see one.**
* `remove_stale_fixpoint_text_iff` — the same for timestamps that are texts, where only
  the window matters.
* `passes_end` — passes that delete something come to an end.
-/

namespace LogLite

/-! ### `MIN` -/

/-- One step of `MIN`, which passes over NULL and keeps the first of equal values. -/
def minStep (least v : SqlValue) : SqlValue :=
  if v = .null then least
  else if least = .null ∨ v.compareWith least = .lt then v
  else least

/-- `MIN` of the values of a column. -/
def minValue (vs : List SqlValue) : SqlValue := vs.foldl minStep .null

/-- A value is the least one so far: it comes from the list, unless all are NULL, and no
value that is not NULL comes before it. -/
structure IsMin (least : SqlValue) (vs : List SqlValue) : Prop where
  mem : least ≠ .null → least ∈ vs
  le : ∀ v ∈ vs, v ≠ .null → least ≠ .null ∧ (least.compareWith v).isLE = true

theorem IsMin.step {least v : SqlValue} {vs : List SqlValue} (h : IsMin least vs) :
    IsMin (minStep least v) (vs ++ [v]) := by
  unfold minStep
  by_cases hv : v = .null
  · -- `MIN` passes over NULL
    rw [if_pos hv]
    refine ⟨fun hne => List.mem_append_left _ (h.mem hne), fun u hu hne => ?_⟩
    rcases List.mem_append.mp hu with hu | hu
    · exact h.le u hu hne
    · rw [List.mem_singleton] at hu
      exact absurd (hu.trans hv) hne
  · rw [if_neg hv]
    -- the new value is the least one if it is the first, or before the least one so far
    by_cases hlt : least = .null ∨ v.compareWith least = .lt
    · rw [if_pos hlt]
      refine ⟨fun _ => by simp, fun u hu hne => ⟨hv, ?_⟩⟩
      rcases List.mem_append.mp hu with hu | hu
      · obtain ⟨hleast, hle⟩ := h.le u hu hne
        have hvleast : (v.compareWith least).isLE = true := by
          rw [hlt.resolve_left hleast]
          rfl
        exact Std.TransCmp.isLE_trans hvleast hle
      · have hself : v.compareWith v = .eq := Std.ReflCmp.compare_self
        rw [List.mem_singleton.mp hu, hself]
        rfl
    · rw [if_neg hlt]
      rw [not_or] at hlt
      refine ⟨fun hne => List.mem_append_left _ (h.mem hne), fun u hu hne => ?_⟩
      rcases List.mem_append.mp hu with hu | hu
      · exact h.le u hu hne
      · refine ⟨hlt.1, ?_⟩
        rw [List.mem_singleton.mp hu, SqlValue.compareWith_swap, Ordering.isLE_swap]
        cases hcompare : v.compareWith least with
        | lt => exact absurd hcompare hlt.2
        | eq => rfl
        | gt => rfl

theorem isMin_minValue (vs : List SqlValue) : IsMin (minValue vs) vs := by
  unfold minValue
  induction vs using List.reverseRecOn with
  | nil => exact ⟨fun h => absurd rfl h, fun v hv => by cases hv⟩
  | append_singleton vs v ih =>
    rw [List.foldl_append]
    exact ih.step

/-! ### The pass -/

section
variable (cat : DatabaseCatalog) (field : ColumnName)

/-- `GetMinTimestamp`. -/
def getMinTimestamp (rows : List LogRow) : Bytes :=
  match cat.column field with
  | some ci => columnText cat.platform (minValue (rows.map fun r => r.value ci))
  | none => []

/-- `EstimateAvgRowBytes`, of a database whose pages in use have this size. -/
def estimateAvgRowBytes (dbSize : ℕ) (rows : List LogRow) : ℤ :=
  let avgRowBytes := (dbSize : ℤ).tdiv (max 1 (estimateLogRowCount rows))
  if avgRowBytes = 0 then 1 else avgRowBytes

/-- The last id a pass with a budget may delete. -/
def removeMaxId (dbSize : ℕ) (limitMb : ℤ) (rows : List LogRow) : ℤ :=
  let maxRows := (limitMb * 1024 * 1024).tdiv (estimateAvgRowBytes dbSize rows)
  min (getMaxLogId rows) (toInt64 (getMinLogId rows + maxRows - 1))

/-- The filters of the `DELETE`. -/
def staleFilters (dbSize : ℕ) (cutoffStr : Bytes) (limitMb : ℤ) (rows : List LogRow) :
    List QueryFilter :=
  ⟨field, lit "<=", .string cutoffStr⟩ ::
    if 0 < limitMb then [⟨lit "id", lit "<=", .integer (removeMaxId dbSize limitMb rows)⟩] else []

/-- `remove_stale_logs` with the cutoff it has read off the clock: the number of deleted
rows. -/
def removeStaleLogs (fault : Option DeleteFault) (dbSize : ℕ) (cutoffStr : Bytes) (limitMb : ℤ)
    (w : WriterDatabase) : Outcome WriterDatabase Bytes ℕ :=
  let minTs := getMinTimestamp cat field w.log
  -- the pass ends early if there is no row, or the oldest one is not old enough
  if minTs.isEmpty then .ret w 0
  else if compare minTs cutoffStr != .lt then .ret w 0
  else deleteLogs cat fault (staleFilters field dbSize cutoffStr limitMb w.log) w

/-! ### Timestamps -/

/-- The timestamp of a row as text: in a compressed column, the string of its id. -/
def timestampText (d : LookupTable) (r : LogRow) : Option Bytes :=
  (cat.column field).bind fun ci =>
    match r.value ci with
    | .null => none
    | .integer n =>
      if cat.compressedColumns.contains field then (getValue d field n).toOption
      else some (decimal n)
    | v => some (textOf cat.platform v)

/-- The timestamp is before the cutoff. -/
def Stale (d : LookupTable) (cutoffStr : Bytes) (r : LogRow) : Prop :=
  ∃ t, timestampText cat field d r = some t ∧ compare t cutoffStr = .lt

/-- The smallest timestamp is before the cutoff, as a text that is not empty. -/
def Overdue (cutoffStr : Bytes) (rows : List LogRow) : Prop :=
  getMinTimestamp cat field rows ≠ [] ∧ compare (getMinTimestamp cat field rows) cutoffStr = .lt

instance (cutoffStr : Bytes) (rows : List LogRow) : Decidable (Overdue cat field cutoffStr rows) :=
  inferInstanceAs (Decidable (_ ∧ _))

/-- The filter `timestamp <= cutoff` selects the row. -/
def UpTo (d : LookupTable) (cutoffStr : Bytes) (r : LogRow) : Prop :=
  (conditionOf cat d ⟨field, lit "<=", .string cutoffStr⟩).holds cat r = true

instance (d : LookupTable) (cutoffStr : Bytes) (r : LogRow) :
    Decidable (UpTo cat field d cutoffStr r) :=
  inferInstanceAs (Decidable (_ = true))

/-- The row is in the window of a pass, if that has a budget. -/
def InWindow (dbSize : ℕ) (limitMb : ℤ) (rows : List LogRow) (r : LogRow) : Prop :=
  0 < limitMb → r.id ≤ removeMaxId dbSize limitMb rows

/-- A pass that returns `0` leaves no stale row. -/
def ReachesFixpoint (fault : Option DeleteFault) (dbSize : ℕ) (cutoffStr : Bytes) (limitMb : ℤ)
    (w : WriterDatabase) : Prop :=
  ∀ w', removeStaleLogs cat field fault dbSize cutoffStr limitMb w = .ret w' 0 →
    ∀ r ∈ w'.log, ¬ Stale cat field w'.colDict cutoffStr r

/-- The `DELETE` of a pass selects the row. -/
def doomed (dbSize : ℕ) (cutoffStr : Bytes) (limitMb : ℤ) (w : WriterDatabase) (r : LogRow) :
    Bool :=
  selects cat w.colDict (staleFilters field dbSize cutoffStr limitMb w.log) r

end

/-! ### What a pass deletes -/

section
variable {cat : DatabaseCatalog} {field : ColumnName} {fault : Option DeleteFault} {dbSize : ℕ}
  {cutoffStr : Bytes} {limitMb : ℤ} {w : WriterDatabase}

theorem deleteLogs_valid {filters : List QueryFilter} (hvalid : ∀ ft ∈ filters, ft.Valid cat) :
    deleteLogs cat none filters w =
      .ret { w with conn.db.log := w.log.filter fun r => !selects cat w.colDict filters r }
        (w.log.filter fun r => selects cat w.colDict filters r).length := by
  obtain ⟨cs, hcs, -⟩ := conditionsOf_holds (d := w.colDict) (r := ⟨0, [], .null⟩) filters hvalid
  unfold deleteLogs selects buildWhereClause
  rw [hcs]
  rfl

theorem deleteLogs_fault {fault : DeleteFault} {filters : List QueryFilter}
    (hvalid : ∀ ft ∈ filters, ft.Valid cat) :
    ∃ what, deleteLogs cat (some fault) filters w = .throw w what := by
  obtain ⟨cs, hcs, -⟩ := conditionsOf_holds (d := w.colDict) (r := ⟨0, [], .null⟩) filters hvalid
  unfold deleteLogs buildWhereClause
  rw [hcs]
  cases fault with
  | prepare msg => exact ⟨_, rfl⟩
  | step msg => exact ⟨_, rfl⟩

theorem removeStaleLogs_of_not_overdue (h : ¬ Overdue cat field cutoffStr w.log) :
    removeStaleLogs cat field fault dbSize cutoffStr limitMb w = .ret w 0 := by
  unfold removeStaleLogs
  by_cases hempty : getMinTimestamp cat field w.log = []
  · simp [hempty]
  · have hcompare : compare (getMinTimestamp cat field w.log) cutoffStr ≠ .lt :=
      fun hlt => h ⟨hempty, hlt⟩
    simp [hempty, hcompare]

theorem removeStaleLogs_eq_deleteLogs (h : Overdue cat field cutoffStr w.log) :
    removeStaleLogs cat field fault dbSize cutoffStr limitMb w =
      deleteLogs cat fault (staleFilters field dbSize cutoffStr limitMb w.log) w := by
  unfold removeStaleLogs
  simp [h.1, h.2]

theorem staleFilters_valid (hid : cat.HasRowId) (hfield : cat.knows field = true)
    {rows : List LogRow} :
    ∀ ft ∈ staleFilters field dbSize cutoffStr limitMb rows, ft.Valid cat := by
  have hop : allowedOps.contains (lit "<=") = true := by decide
  intro ft hft
  rcases List.mem_cons.mp hft with rfl | hft
  · exact ⟨hfield, hop⟩
  · split at hft
    · rw [List.mem_singleton] at hft
      subst hft
      exact ⟨hid.knows, hop⟩
    · cases hft

/-- The ids of a table are 64-bit integers, and so is the end of the window. -/
theorem fits_removeMaxId {rows : List LogRow} (hids : ∀ r ∈ rows, fitsInt64 r.id = true) :
    fitsInt64 (removeMaxId dbSize limitMb rows) = true := by
  have hmax : -2 ^ 63 ≤ getMaxLogId rows := by
    by_cases hrows : rows = []
    · rw [hrows]
      decide
    · obtain ⟨r, hr, heq⟩ := exists_eq_getMaxLogId hrows
      exact heq ▸ (fitsInt64_iff.mp (hids r hr)).1
  have hend := fitsInt64_iff.mp (fitsInt64_toInt64 (getMinLogId rows +
    (limitMb * 1024 * 1024).tdiv (estimateAvgRowBytes dbSize rows) - 1))
  rw [fitsInt64_iff, removeMaxId]
  omega

/-- **The rows the `DELETE` selects.** -/
theorem doomed_iff (hid : cat.HasRowId) (hfield : cat.knows field = true)
    (hids : ∀ r ∈ w.log, fitsInt64 r.id = true) {r : LogRow} :
    doomed cat field dbSize cutoffStr limitMb w r = true ↔
      UpTo cat field w.colDict cutoffStr r ∧ InWindow dbSize limitMb w.log r := by
  rw [doomed, selects_iff (staleFilters_valid hid hfield), staleFilters, List.forall_mem_cons]
  refine and_congr_right fun _ => ?_
  unfold InWindow
  by_cases hlimit : 0 < limitMb
  · have hfits : fitsInt64 (removeMaxId dbSize limitMb w.log) = true := fits_removeMaxId hids
    rw [if_pos hlimit, List.forall_mem_singleton, holds_id_iff hid rfl (by decide) hfits]
    simp only [Cmp.holds, bne_iff_ne, ne_eq, compare_gt_iff_gt, not_lt, hlimit, true_implies]
  · simp [hlimit]

/-- **What a pass deletes**, unless it fails. -/
theorem removeStaleLogs_of_overdue (hid : cat.HasRowId) (hfield : cat.knows field = true)
    (h : Overdue cat field cutoffStr w.log) :
    removeStaleLogs cat field none dbSize cutoffStr limitMb w =
      .ret { w with conn.db.log := w.log.filter (!doomed cat field dbSize cutoffStr limitMb w ·) }
        (w.log.filter (doomed cat field dbSize cutoffStr limitMb w)).length := by
  rw [removeStaleLogs_eq_deleteLogs h, deleteLogs_valid (staleFilters_valid hid hfield)]
  rfl

theorem removeStaleLogs_of_fault (fault : DeleteFault) (hid : cat.HasRowId)
    (hfield : cat.knows field = true) (h : Overdue cat field cutoffStr w.log) :
    ∃ what, removeStaleLogs cat field (some fault) dbSize cutoffStr limitMb w = .throw w what := by
  rw [removeStaleLogs_eq_deleteLogs h]
  exact deleteLogs_fault (staleFilters_valid hid hfield)

/-- When a pass that returns has deleted nothing: it ended early, or found no row. -/
theorem removeStaleLogs_zero_iff (hid : cat.HasRowId) (hfield : cat.knows field = true)
    (hids : ∀ r ∈ w.log, fitsInt64 r.id = true) {w' : WriterDatabase} :
    removeStaleLogs cat field fault dbSize cutoffStr limitMb w = .ret w' 0 ↔
      w' = w ∧ (Overdue cat field cutoffStr w.log → fault = none ∧
        ∀ r ∈ w.log,
          ¬ (UpTo cat field w.colDict cutoffStr r ∧ InWindow dbSize limitMb w.log r)) := by
  by_cases hoverdue : Overdue cat field cutoffStr w.log
  · cases fault with
    | some fault =>
      obtain ⟨what, hthrow⟩ := removeStaleLogs_of_fault fault hid hfield hoverdue
      rw [hthrow]
      simp [hoverdue]
    | none =>
      rw [removeStaleLogs_of_overdue hid hfield hoverdue]
      -- no row is deleted exactly if the filters select none
      constructor
      · intro hret
        injection hret with hlog hlength
        rw [List.length_eq_zero_iff, List.filter_eq_nil_iff] at hlength
        refine ⟨?_, fun _ => ⟨rfl, fun r hr hselects => ?_⟩⟩
        · rw [← hlog, List.filter_eq_self.mpr fun r hr => by simpa using hlength r hr]
        · exact hlength r hr ((doomed_iff hid hfield hids).mpr hselects)
      · rintro ⟨rfl, hnone⟩
        have hkept : ∀ r ∈ w'.log, doomed cat field dbSize cutoffStr limitMb w' r = false := by
          intro r hr
          have hr' := (hnone hoverdue).2 r hr
          rw [← doomed_iff hid hfield hids] at hr'
          simpa using hr'
        rw [List.filter_eq_self.mpr fun r hr => by simp [hkept r hr],
          List.filter_eq_nil_iff.mpr fun r hr => by simp [hkept r hr]]
        rfl
  · rw [removeStaleLogs_of_not_overdue hoverdue]
    simp [hoverdue, eq_comm]

/-- **A pass that deletes nothing leaves no stale row**, exactly if there is none, or the
smallest timestamp is before the cutoff and the `DELETE` fails or finds a row. -/
theorem remove_stale_fixpoint_iff (hid : cat.HasRowId) (hfield : cat.knows field = true)
    (hids : ∀ r ∈ w.log, fitsInt64 r.id = true) :
    ReachesFixpoint cat field fault dbSize cutoffStr limitMb w ↔
      (∀ r ∈ w.log, ¬ Stale cat field w.colDict cutoffStr r) ∨
        Overdue cat field cutoffStr w.log ∧ (fault.isSome = true ∨
          ∃ r ∈ w.log, UpTo cat field w.colDict cutoffStr r ∧
            InWindow dbSize limitMb w.log r) := by
  constructor
  · intro h
    by_cases hoverdue : Overdue cat field cutoffStr w.log
    · by_cases hfault : fault = none
      · by_cases hfound : ∃ r ∈ w.log,
            UpTo cat field w.colDict cutoffStr r ∧ InWindow dbSize limitMb w.log r
        · exact .inr ⟨hoverdue, .inr hfound⟩
        · refine .inl (h w ((removeStaleLogs_zero_iff hid hfield hids).mpr ⟨rfl, fun _ => ?_⟩))
          exact ⟨hfault, fun r hr hselects => hfound ⟨r, hr, hselects⟩⟩
      · exact .inr ⟨hoverdue, .inl (Option.isSome_iff_ne_none.mpr hfault)⟩
    · exact .inl (h w (removeStaleLogs_of_not_overdue hoverdue))
  · intro h w' hret
    obtain ⟨rfl, hnone⟩ := (removeStaleLogs_zero_iff hid hfield hids).mp hret
    obtain hfresh | ⟨hoverdue, hfound⟩ := h
    · exact hfresh
    · obtain ⟨rfl, hkept⟩ := hnone hoverdue
      obtain ⟨r, hr, hselects⟩ := hfound.resolve_left Bool.false_ne_true
      exact absurd hselects (hkept r hr)

/-- A table with two logs, the newer one first. -/
def backfilled : WriterDatabase :=
  ⟨⟨⟨[stampRow 1 "2026-01-01T00:00:00Z", stampRow 2 "2020-01-01T00:00:00Z"], []⟩, none⟩, ∅⟩

/-- With a budget of two megabytes, and rows of a megabyte, both ids are in the window, and
the old log is found. -/
theorem remove_stale_fixpoint_backfilled :
    ReachesFixpoint stampCatalog (lit "timestamp") none 2097152 (lit "2025-01-01T00:00:00") 2
      backfilled := by
  refine (remove_stale_fixpoint_iff stampCatalog_hasRowId (by decide) (by decide)).mpr
    (.inr ⟨by decide, .inr ⟨stampRow 2 "2020-01-01T00:00:00Z", ?_, ?_, ?_⟩⟩)
  · exact List.mem_cons_of_mem _ List.mem_cons_self
  · decide
  · intro _
    decide

/-- With a budget of a megabyte, and rows of a megabyte, only the first id is in the window,
and the pass stays at the new log. -/
theorem remove_stale_fixpoint_window :
    ¬ ReachesFixpoint stampCatalog (lit "timestamp") none 2097152 (lit "2025-01-01T00:00:00") 1
      backfilled := by
  intro h
  exact h backfilled rfl (stampRow 2 "2020-01-01T00:00:00Z")
    (List.mem_cons_of_mem _ List.mem_cons_self)
    ⟨lit "2020-01-01T00:00:00Z", rfl, by decide⟩

/-! ### Timestamps that are texts -/

/-- Timestamps as logs usually have them: texts in a column that is not compressed. -/
structure TextTimestamps (cat : DatabaseCatalog) (field : ColumnName) (rows : List LogRow) :
    Prop where
  column : ∃ ci, cat.column field = some ci ∧
    ∀ r ∈ rows, ∃ t, r.value ci = .text t ∧ t ≠ [] ∧ 0 ∉ t
  plain : cat.compressedColumns.contains field = false

section
variable {ci : ColumnInfo} {d : LookupTable} {r : LogRow} {t : Bytes}

theorem timestampText_of_text (hci : cat.column field = some ci) (hr : r.value ci = .text t) :
    timestampText cat field d r = some t := by
  simp [timestampText, hci, hr, textOf]

theorem stale_text_iff (hci : cat.column field = some ci) (hr : r.value ci = .text t) :
    Stale cat field d cutoffStr r ↔ compare t cutoffStr = .lt := by
  simp [Stale, timestampText_of_text hci hr]

/-- A cutoff that is no number is compared with a timestamp as a text. -/
theorem upTo_text_iff (hci : cat.column field = some ci)
    (hplain : cat.compressedColumns.contains field = false) (hr : r.value ci = .text t)
    (hcutoff : isNumeric cutoffStr = false) :
    UpTo cat field d cutoffStr r ↔ compare t cutoffStr ≠ .gt := by
  have hparam : ci.affinity.applyToParam cat.platform (.text cutoffStr) = .text cutoffStr := by
    have hnumeric := (numericText_text_iff cat.platform (t := cutoffStr)).mpr ⟨hcutoff, rfl⟩
    unfold Affinity.applyToParam
    split
    · rfl
    · rfl
    · exact hnumeric
  have hcond : conditionOf cat d ⟨field, lit "<=", .string cutoffStr⟩ =
      .compare field (lit "<=") (.string cutoffStr) := by
    have hne : lit "<=" ≠ lit "~=" := by decide
    unfold conditionOf
    rw [hplain, if_neg Bool.false_ne_true, if_neg hne]
  have hop : comparisonOf (lit "<=") = some .le := rfl
  unfold UpTo
  rw [hcond]
  simp only [Condition.holds, hci, hop]
  unfold SqlValue.comparison
  rw [hr, bindParam, hparam]
  exact bne_iff_ne

end

/-- If there is a stale row, the smallest timestamp is before the cutoff. -/
theorem TextTimestamps.overdue {rows : List LogRow} (h : TextTimestamps cat field rows)
    {d : LookupTable} {r : LogRow} (hr : r ∈ rows) (hstale : Stale cat field d cutoffStr r) :
    Overdue cat field cutoffStr rows := by
  obtain ⟨ci, hci, htexts⟩ := h.column
  obtain ⟨t, ht, -, -⟩ := htexts r hr
  rw [stale_text_iff hci ht] at hstale
  -- the least value is the timestamp of a row, and its text is read back whole
  have hmin := isMin_minValue (rows.map fun r => r.value ci)
  obtain ⟨hne, hle⟩ := hmin.le _ (List.mem_map_of_mem hr) (by rw [ht]; exact SqlValue.noConfusion)
  obtain ⟨r₀, hr₀, heq⟩ := List.mem_map.mp (hmin.mem hne)
  obtain ⟨t₀, ht₀, hne₀, hnul⟩ := htexts r₀ hr₀
  have hminTs : getMinTimestamp cat field rows = t₀ := by
    simp only [getMinTimestamp, hci]
    rw [← heq, ht₀]
    exact cstr_eq_self_iff.mpr hnul
  rw [← heq, ht₀, ht] at hle
  rw [Overdue, hminTs]
  exact ⟨hne₀, Std.TransCmp.lt_of_isLE_of_lt hle hstale⟩

/-- **For timestamps that are texts only the window can hide the stale rows.** -/
theorem remove_stale_fixpoint_text_iff (hid : cat.HasRowId) (hfield : cat.knows field = true)
    (hids : ∀ r ∈ w.log, fitsInt64 r.id = true) (htexts : TextTimestamps cat field w.log) :
    ReachesFixpoint cat field none dbSize cutoffStr limitMb w ↔
      (∀ r ∈ w.log, ¬ Stale cat field w.colDict cutoffStr r) ∨
        ∃ r ∈ w.log, UpTo cat field w.colDict cutoffStr r ∧ InWindow dbSize limitMb w.log r := by
  rw [remove_stale_fixpoint_iff hid hfield hids]
  constructor
  · rintro (hfresh | ⟨-, hfound⟩)
    · exact .inl hfresh
    · exact .inr (hfound.resolve_left Bool.false_ne_true)
  · intro h
    by_cases hstale : ∀ r ∈ w.log, ¬ Stale cat field w.colDict cutoffStr r
    · exact .inl hstale
    · obtain ⟨r, hr, hr'⟩ : ∃ r ∈ w.log, Stale cat field w.colDict cutoffStr r := by
        simpa using hstale
      exact .inr ⟨htexts.overdue hr hr', .inr (h.resolve_left hstale)⟩

/-! ### Pass after pass -/

/-- A pass that returns, with the size of the database it sees and the number of rows it
deletes. -/
def StalePass (cat : DatabaseCatalog) (field : ColumnName) (cutoffStr : Bytes) (limitMb : ℤ)
    (w : WriterDatabase) (pass : ℕ × ℕ) (w' : WriterDatabase) : Prop :=
  removeStaleLogs cat field none pass.1 cutoffStr limitMb w = .ret w' pass.2

theorem StalePass.length {pass : ℕ × ℕ} {w' : WriterDatabase} (hid : cat.HasRowId)
    (hfield : cat.knows field = true) (h : StalePass cat field cutoffStr limitMb w pass w') :
    w'.log.length + pass.2 = w.log.length := by
  unfold StalePass at h
  by_cases hoverdue : Overdue cat field cutoffStr w.log
  · rw [removeStaleLogs_of_overdue hid hfield hoverdue] at h
    injection h with hlog hcount
    rw [← hlog, ← hcount, add_comm]
    exact List.length_eq_length_filter_add _ |>.symm
  · rw [removeStaleLogs_of_not_overdue hoverdue] at h
    injection h with hlog hcount
    rw [← hlog, ← hcount, Nat.add_zero]

theorem passes_length {passes : List (ℕ × ℕ)} {w' : WriterDatabase} (hid : cat.HasRowId)
    (hfield : cat.knows field = true)
    (h : Transition.Run (StalePass cat field cutoffStr limitMb) w passes w') :
    w'.log.length + (passes.map Prod.snd).sum = w.log.length := by
  induction h with
  | nil w => rfl
  | cons hpass _ ih =>
    rw [List.map_cons, List.sum_cons, ← hpass.length hid hfield, ← ih]
    omega

/-- **Repeating the pass ends**: after at most one pass for each row, one deletes nothing. -/
theorem passes_end {passes : List (ℕ × ℕ)} {w' : WriterDatabase} (hid : cat.HasRowId)
    (hfield : cat.knows field = true)
    (h : Transition.Run (StalePass cat field cutoffStr limitMb) w passes w')
    (hpos : ∀ pass ∈ passes, 0 < pass.2) : passes.length ≤ w.log.length := by
  -- each pass deletes one row at least
  have hsum : passes.length ≤ (passes.map Prod.snd).sum := by
    clear h
    induction passes with
    | nil => exact Nat.le_refl 0
    | cons pass passes ih =>
      have hpass := hpos pass List.mem_cons_self
      have hrest := ih fun p hp => hpos p (List.mem_cons_of_mem _ hp)
      rw [List.length_cons, List.map_cons, List.sum_cons]
      omega
  have hlength := passes_length hid hfield h
  omega

end

end LogLite
