import LogLite.Query.Estimate
import LogLite.Store.Appended
import LogLite.Store.Moments
import LogLite.Vacuum.Excess
import LogLite.Vacuum.Fresh

/-!
# The vacuum task

Every pass of `VacuumTask` first gives free pages back to the file system, if the
database is in the incremental mode, and does nothing else as long as pages are left.
Then it deletes old logs, and after that logs of a database that is too large; in the
full mode it ends with a `VACUUM`.

Between two passes other calls of the writer come in: they insert logs, take pages from
the freelist and put pages on it.

## Main definitions

* `incrementalVacuumPass` — `incremental_vacuum_pass`.
* `vacuumPass` — what `VacuumTask` does on the write strand.
* `VacuumStep` — the passes and the calls of `Insert`, in any order.
* `DeletedFor` — why a pass deletes a row.
* `Postponed` — a pass that leaves the logs alone, for there are free pages left.

## Main results

* `vacuum_run_deletes` — **a row is only ever lost to a pass that found it too old, or
  found the database too large and the row among the oldest.**
* `vacuumPass_writer` — a pass is a run of deletions of the writer.
* `vacuum_pass_within_budget` — **in the incremental mode a pass deletes no more rows than
  its budget is good for, twice.**
* `postponed_passes_bounded` — **the deletions cannot be put off for ever.**
-/

namespace LogLite

open Transition

/-! ### The pass -/

/-- `PRAGMA auto_vacuum`. -/
inductive AutoVacuum where
  | none
  | full
  | incremental
  deriving DecidableEq

/-- The settings of the task. -/
structure VacuumConfig where
  logTimestampField : ColumnName
  vacuumMaxDays : ℤ
  vacuumMaxSizeBytes : ℤ
  vacuumTargetSizeBytes : ℤ
  taskVacuumMaxSize : ℤ

/-- What a pass reads besides the tables: the mode, the size of a page, the clock, and the
size of the pages in use before each deletion; which calls fail; and how many pages the
deletions set free. -/
structure PassReads where
  autoVacuum : AutoVacuum
  pageSize : ℕ
  now : ℤ
  staleSize : ℕ
  excessSize : ℕ
  staleFault : Option DeleteFault
  excessFault : Option DeleteFault
  vacuumFault : Fault
  staleFrees : ℕ
  excessFrees : ℕ

/-- The writer's database and the number of its free pages. -/
structure VacuumState where
  db : WriterDatabase
  freelist : ℕ

/-- `PRAGMA incremental_vacuum(N)`: frees `N` pages, or all of them if `N` is less than one. -/
def pragmaIncrementalVacuum (n : ℤ) (freelist : ℕ) : ℕ :=
  if n < 1 then 0 else freelist - n.toNat

/-- The pages that the budget of a pass is good for. -/
def pageBudget (pageSize : ℕ) (maxSizeMb : ℤ) : ℤ := (maxSizeMb * 1024 * 1024).tdiv pageSize

/-- `incremental_vacuum_pass`: the pages that are left, and the number it returns. -/
def incrementalVacuumPass (pageSize : ℕ) (maxSizeMb : ℤ) (freelist : ℕ) : ℕ × ℤ :=
  if freelist = 0 then (0, 0)
  else
    let pages := min (pageBudget pageSize maxSizeMb) freelist
    let left := pragmaIncrementalVacuum (toInt32 pages) freelist
    (left, toInt32 left)

section
variable (cat : DatabaseCatalog) (cfg : VacuumConfig) (reads : PassReads)

/-- The cutoff of a pass. -/
def PassReads.cutoff : Bytes := cutoffText reads.now cfg.vacuumMaxDays

/-- The first deletion, if the table has the timestamp column. -/
def staleDeletion (limitMb : ℤ) (s : VacuumState) : Outcome VacuumState Bytes ℕ :=
  if cat.knows cfg.logTimestampField then
    (removeStaleLogs cat cfg.logTimestampField reads.staleFault reads.staleSize (reads.cutoff cfg)
      limitMb s.db).mapState fun db => ⟨db, s.freelist + reads.staleFrees⟩
  else .ret s 0

/-- The second deletion. -/
def excessDeletion (limitMb : ℤ) (s : VacuumState) : Outcome VacuumState Bytes ℕ :=
  (removeExcessiveLogs toBinary64 cat reads.excessFault reads.excessSize cfg.vacuumMaxSizeBytes
    cfg.vacuumTargetSizeBytes limitMb s.db).mapState fun db => ⟨db, s.freelist + reads.excessFrees⟩

/-- Both deletions. -/
def deletions (limitMb : ℤ) (s : VacuumState) : Outcome VacuumState Bytes Unit :=
  (staleDeletion cat cfg reads limitMb s).bind fun s _ =>
    (excessDeletion cat cfg reads limitMb s).bind fun s _ => .ret s ()

/-- What `VacuumTask` does on the write strand. -/
def vacuumPass (s : VacuumState) : Outcome VacuumState Bytes Unit :=
  match reads.autoVacuum with
  | .none => deletions cat cfg reads 0 s
  | .full =>
    (deletions cat cfg reads 0 s).bind fun s _ =>
      match reads.vacuumFault with
      | some msg => .throw s (execFailed msg)
      | none => .ret { s with freelist := 0 } ()
  | .incremental =>
    let pass := incrementalVacuumPass reads.pageSize cfg.taskVacuumMaxSize s.freelist
    if 0 < pass.2 then .ret { s with freelist := pass.1 } ()
    else deletions cat cfg reads cfg.taskVacuumMaxSize { s with freelist := pass.1 }

/-- A step of the writer: a call of `Insert`, with the pages it puts on the freelist and
takes from it, or a pass of the task. -/
inductive VacuumCall where
  | insert (f : Faults) (logs : List Json) (frees takes : ℕ)
  | pass (reads : PassReads)

/-- The writer takes a step. -/
def VacuumStep (s : VacuumState) : VacuumCall → VacuumState → Prop
  | .insert f logs frees takes, s' =>
    InsertEnds cat s.db (f, logs) s'.db ∧ s'.freelist = s.freelist + frees - takes
  | .pass reads, s' => (vacuumPass cat cfg reads s).Ends s'

/-! ### What a pass deletes -/

/-- The row is up to the cutoff, and the smallest timestamp of the table is before it. -/
def TooOld (w : WriterDatabase) (r : LogRow) : Prop :=
  cat.knows cfg.logTimestampField = true ∧
    Overdue cat cfg.logTimestampField (reads.cutoff cfg) w.log ∧
      UpTo cat cfg.logTimestampField w.colDict (reads.cutoff cfg) r

/-- The database is too large, and the row is among the oldest of these rows. -/
def AmongOldest (limitMb : ℤ) (rows : List LogRow) (r : LogRow) : Prop :=
  cfg.vacuumMaxSizeBytes < reads.excessSize ∧
    NoOverflow toBinary64 reads.excessSize cfg.vacuumTargetSizeBytes limitMb rows ∧
      r.id ≤ lastId toBinary64 reads.excessSize cfg.vacuumTargetSizeBytes limitMb rows

/-- The limit of the deletions of a pass. -/
def PassReads.limitMb : ℤ :=
  match reads.autoVacuum with
  | .incremental => cfg.taskVacuumMaxSize
  | _ => 0

/-- `mid` is what the first deletion of a pass leaves of `w`. -/
def Between (limitMb : ℤ) (w mid : WriterDatabase) : Prop :=
  ∃ s s' n, staleDeletion cat cfg reads limitMb s = .ret s' n ∧ s.db = w ∧ s'.db = mid

/-- Why a pass deletes a row: for its age, or after the first deletion, for the size. -/
def DeletedFor (w : WriterDatabase) (r : LogRow) : Prop :=
  TooOld cat cfg reads w r ∨
    ∃ mid, Between cat cfg reads (reads.limitMb cfg) w mid ∧ r ∈ mid.log ∧
      AmongOldest cfg reads (reads.limitMb cfg) mid.log r

end

section
variable {cat : DatabaseCatalog} {cfg : VacuumConfig} {reads : PassReads} {limitMb : ℤ}

/-- A deletion filters the rows, and drops those for which there is a reason. -/
def Deletes (why : LogRow → Prop) (w w' : WriterDatabase) : Prop :=
  ∃ keep : LogRow → Bool, w' = w.keepRows keep ∧ ∀ r ∈ w.log, keep r = false → why r

theorem Deletes.refl (why : LogRow → Prop) (w : WriterDatabase) : Deletes why w w :=
  ⟨fun _ => true, w.keepRows_true.symm, fun _ _ h => by cases h⟩

theorem Deletes.trans {why why' : LogRow → Prop} {w w' w'' : WriterDatabase}
    (h : Deletes why w w') (h' : Deletes why' w' w'') :
    Deletes (fun r => why r ∨ r ∈ w'.log ∧ why' r) w w'' := by
  obtain ⟨keep, rfl, hwhy⟩ := h
  obtain ⟨keep', rfl, hwhy'⟩ := h'
  refine ⟨_, w.keepRows_keepRows keep keep', fun r hr hdrop => ?_⟩
  cases hkeep : keep r with
  | false => exact .inl (hwhy r hr hkeep)
  | true =>
    have hr' : r ∈ (w.keepRows keep).log := List.mem_filter.mpr ⟨hr, hkeep⟩
    exact .inr ⟨hr', hwhy' r hr' (by simpa [hkeep] using hdrop)⟩

theorem Deletes.mono {why why' : LogRow → Prop} {w w' : WriterDatabase} (h : Deletes why w w')
    (hmono : ∀ r ∈ w.log, why r → why' r) : Deletes why' w w' := by
  obtain ⟨keep, rfl, hwhy⟩ := h
  exact ⟨keep, rfl, fun r hr hdrop => hmono r hr (hwhy r hr hdrop)⟩

theorem Deletes.sublist {why : LogRow → Prop} {w w' : WriterDatabase} (h : Deletes why w w') :
    w'.log.Sublist w.log := by
  obtain ⟨keep, rfl, -⟩ := h
  exact List.filter_sublist

/-- The first deletion, in terms of its filters. -/
theorem staleDeletion_doomed (hid : cat.HasRowId) {s s' : VacuumState}
    (h : (staleDeletion cat cfg reads limitMb s).Ends s') :
    Deletes (fun r => cat.knows cfg.logTimestampField = true ∧
      Overdue cat cfg.logTimestampField (reads.cutoff cfg) s.db.log ∧
        ∀ ft ∈ staleFilters cfg.logTimestampField reads.staleSize (reads.cutoff cfg) limitMb
          s.db.log, (conditionOf cat s.db.colDict ft).holds cat r = true) s.db s'.db := by
  unfold staleDeletion at h
  split at h
  · next hfield =>
    obtain ⟨db, hdb, rfl⟩ := Outcome.ends_mapState.mp h
    by_cases hoverdue : Overdue cat cfg.logTimestampField (reads.cutoff cfg) s.db.log
    · cases hfault : reads.staleFault with
      | some fault =>
        rw [hfault] at hdb
        obtain ⟨what, hthrow⟩ := removeStaleLogs_of_fault fault hid hfield hoverdue
        rw [hthrow] at hdb
        obtain rfl := Outcome.ends_throw.mp hdb
        exact .refl _ _
      | none =>
        rw [hfault, removeStaleLogs_of_overdue hid hfield hoverdue] at hdb
        obtain rfl := Outcome.ends_ret.mp hdb
        refine ⟨_, rfl, fun r _ hdrop => ⟨hfield, hoverdue, ?_⟩⟩
        rwa [Bool.not_eq_false', doomed, selects_iff (staleFilters_valid hid hfield)] at hdrop
    · rw [removeStaleLogs_of_not_overdue hoverdue] at hdb
      obtain rfl := Outcome.ends_ret.mp hdb
      exact .refl _ _
  · obtain rfl := Outcome.ends_ret.mp h
    exact .refl _ _

theorem staleDeletion_deletes (hid : cat.HasRowId) {s s' : VacuumState}
    (h : (staleDeletion cat cfg reads limitMb s).Ends s') :
    Deletes (TooOld cat cfg reads s.db) s.db s'.db :=
  (staleDeletion_doomed hid h).mono fun _ _ hwhy =>
    ⟨hwhy.1, hwhy.2.1, hwhy.2.2 _ List.mem_cons_self⟩

theorem excessDeletion_deletes (hid : cat.HasRowId) {s s' : VacuumState}
    (h : (excessDeletion cat cfg reads limitMb s).Ends s') :
    Deletes (AmongOldest cfg reads limitMb s.db.log) s.db s'.db := by
  obtain ⟨db, hdb, rfl⟩ := Outcome.ends_mapState.mp h
  rcases le_or_gt (bytesToMb toBinary64 reads.excessSize)
    (bytesToMb toBinary64 cfg.vacuumMaxSizeBytes) with hle | hlt
  · rw [removeExcessiveLogs_of_le hle] at hdb
    obtain rfl := Outcome.ends_ret.mp hdb
    exact .refl _ _
  · have hmax : cfg.vacuumMaxSizeBytes < reads.excessSize := by
      by_contra hle
      exact absurd (bytesToMb_mono (not_lt.mp hle)) (not_le.mpr hlt)
    by_cases hover :
        NoOverflow toBinary64 reads.excessSize cfg.vacuumTargetSizeBytes limitMb s.db.log
    · cases hfault : reads.excessFault with
      | some fault =>
        rw [hfault] at hdb
        obtain ⟨what, hthrow⟩ := removeExcessiveLogs_of_fault hid hlt hover fault
        rw [hthrow] at hdb
        obtain rfl := Outcome.ends_throw.mp hdb
        exact .refl _ _
      | none =>
        rw [hfault, removeExcessiveLogs_of_some hid hlt hover] at hdb
        obtain rfl := Outcome.ends_ret.mp hdb
        refine ⟨_, rfl, fun r _ hdrop => ⟨hmax, hover, ?_⟩⟩
        rw [decide_eq_false_iff_not, not_lt] at hdrop
        exact hdrop
    · rw [removeExcessiveLogs_of_overflow hlt hover] at hdb
      exact hdb.elim

/-- Both deletions, one after the other, however they end. -/
theorem deletions_split {s s' : VacuumState} (h : (deletions cat cfg reads limitMb s).Ends s') :
    (staleDeletion cat cfg reads limitMb s).Ends s' ∨
      ∃ mid n, staleDeletion cat cfg reads limitMb s = .ret mid n ∧
        (excessDeletion cat cfg reads limitMb mid).Ends s' := by
  rcases Outcome.ends_bind.mp h with ⟨e, hthrow⟩ | ⟨mid, n, hret, hrest⟩
  · exact .inl (by rw [hthrow]; rfl)
  · refine .inr ⟨mid, n, hret, ?_⟩
    rcases Outcome.ends_bind.mp hrest with ⟨e, hthrow⟩ | ⟨s₂, m, hret₂, hend⟩
    · rw [hthrow]
      rfl
    · obtain rfl := Outcome.ends_ret.mp hend
      rw [hret₂]
      rfl

/-- What both deletions delete. -/
theorem deletions_deletes (hid : cat.HasRowId) {s s' : VacuumState}
    (h : (deletions cat cfg reads limitMb s).Ends s') :
    Deletes (fun r => TooOld cat cfg reads s.db r ∨
      ∃ mid, Between cat cfg reads limitMb s.db mid ∧ r ∈ mid.log ∧
        AmongOldest cfg reads limitMb mid.log r) s.db s'.db := by
  rcases deletions_split h with hstale | ⟨mid, n, hstale, hexcess⟩
  · exact (staleDeletion_deletes hid hstale).mono fun r _ hold => .inl hold
  · have hfirst := staleDeletion_deletes hid (Outcome.ends_of_ret hstale)
    refine (hfirst.trans (excessDeletion_deletes hid hexcess)).mono fun r _ hwhy => ?_
    rcases hwhy with hold | ⟨hr, holdest⟩
    · exact .inl hold
    · exact .inr ⟨mid.db, ⟨s, mid, n, hstale, rfl, rfl⟩, hr, holdest⟩

/-- In the incremental mode nothing comes after the deletions. -/
theorem incrementalPass_split (hmode : reads.autoVacuum = .incremental) {s s' : VacuumState}
    (h : (vacuumPass cat cfg reads s).Ends s') :
    s'.db = s.db ∨ ∃ t, t.db = s.db ∧
      (deletions cat cfg reads cfg.taskVacuumMaxSize t).Ends s' := by
  simp only [vacuumPass, hmode] at h
  split at h
  · obtain rfl := Outcome.ends_ret.mp h
    exact .inl rfl
  · exact .inr ⟨⟨s.db, (incrementalVacuumPass reads.pageSize cfg.taskVacuumMaxSize s.freelist).1⟩,
      rfl, h⟩

/-- A pass does nothing to the tables, or it makes its deletions. -/
theorem vacuumPass_split {s s' : VacuumState} (h : (vacuumPass cat cfg reads s).Ends s') :
    s'.db = s.db ∨ ∃ t t', t.db = s.db ∧ t'.db = s'.db ∧
      (deletions cat cfg reads (reads.limitMb cfg) t).Ends t' := by
  unfold vacuumPass at h
  unfold PassReads.limitMb
  cases hmode : reads.autoVacuum with
  | none =>
    rw [hmode] at h
    exact .inr ⟨s, s', rfl, rfl, h⟩
  | full =>
    rw [hmode] at h
    rcases Outcome.ends_bind.mp h with ⟨e, hthrow⟩ | ⟨s₁, n, hret, hrest⟩
    · exact .inr ⟨s, s', rfl, rfl, by rw [hthrow]; rfl⟩
    · refine .inr ⟨s, s₁, rfl, ?_, by rw [hret]; rfl⟩
      cases hfault : reads.vacuumFault with
      | some msg =>
        simp only [hfault, Outcome.ends_throw] at hrest
        rw [hrest]
      | none =>
        simp only [hfault, Outcome.ends_ret] at hrest
        rw [← hrest]
  | incremental =>
    rcases incrementalPass_split hmode h with hsame | ⟨t, ht, hdel⟩
    · exact .inl hsame
    · exact .inr ⟨t, s', ht, rfl, hdel⟩

/-- **What a pass deletes.** -/
theorem vacuumPass_deletes (hid : cat.HasRowId) {s s' : VacuumState}
    (h : (vacuumPass cat cfg reads s).Ends s') :
    Deletes (DeletedFor cat cfg reads s.db) s.db s'.db := by
  rcases vacuumPass_split h with hsame | ⟨t, t', ht, ht', hdel⟩
  · rw [hsame]
    exact .refl _ _
  · rw [← ht, ← ht']
    exact deletions_deletes hid hdel

/-- A pass leaves the dictionary and the transaction as they are. -/
theorem Deletes.begun {why : LogRow → Prop} {w w' : WriterDatabase} (h : Deletes why w w') :
    w'.conn.begun = w.conn.begun := by
  obtain ⟨keep, rfl, -⟩ := h
  rfl

theorem VacuumStep.begun (hid : cat.HasRowId) {s s' : VacuumState} {call : VacuumCall}
    (h : VacuumStep cat cfg s call s') (hb : s.db.conn.begun = none) :
    s'.db.conn.begun = none := by
  cases call with
  | insert f logs frees takes => exact h.1.begun hb
  | pass reads => exact (vacuumPass_deletes hid h).begun.trans hb

/-- A call of `Insert` loses no row. -/
theorem InsertEnds.keeps_rows {w w' : WriterDatabase} {call : Faults × List Json}
    (h : InsertEnds cat w call w') (hb : w.conn.begun = none) {r : LogRow} (hr : r ∈ w.log) :
    r ∈ w'.log := by
  rcases h with hret | ⟨e, hthrow⟩
  · obtain ⟨new, hlog, -, -⟩ := hret.appends hb
    rw [hlog]
    exact List.mem_append_left new hr
  · rw [WriterDatabase.log, (insertReport_throw hthrow).1]
    exact hr

/-- **A row is only ever lost to a pass**, and to one that had a reason to delete it: at that
pass the row was not newer than the cutoff, or the database was larger than its maximal size
and the row among the oldest ids. -/
theorem vacuum_run_deletes (hid : cat.HasRowId) {s s' : VacuumState} {calls : List VacuumCall}
    (hb : s.db.conn.begun = none) (h : Run (VacuumStep cat cfg) s calls s') {r : LogRow}
    (hr : r ∈ s.db.log) (hlost : r ∉ s'.db.log) :
    ∃ before reads after v v', calls = before ++ .pass reads :: after ∧
      Run (VacuumStep cat cfg) s before v ∧ VacuumStep cat cfg v (.pass reads) v' ∧
      Run (VacuumStep cat cfg) v' after s' ∧ r ∈ v.db.log ∧ r ∉ v'.db.log ∧
      DeletedFor cat cfg reads v.db r := by
  obtain ⟨before, call, after, v, v', rfl, hbefore, hstep, hafter, hmem, hgone⟩ :=
    h.exists_break (P := fun s => r ∈ s.db.log) hr hlost
  have hbv : v.db.conn.begun = none :=
    hbefore.invariant (I := fun s => s.db.conn.begun = none)
      (fun a c b ha hab => hab.begun hid ha) hb
  cases call with
  | insert f logs frees takes => exact absurd (hstep.1.keeps_rows hbv hmem) hgone
  | pass reads =>
    refine ⟨before, reads, after, v, v', rfl, hbefore, hstep, hafter, hmem, hgone, ?_⟩
    obtain ⟨keep, heq, hwhy⟩ := vacuumPass_deletes hid hstep
    refine hwhy r hmem ?_
    rw [heq, WriterDatabase.keepRows_log, List.mem_filter, not_and, Bool.not_eq_true] at hgone
    exact hgone hmem

/-- Settings to try things on: no log may be older than now, and a byte is too much. -/
def vacuumNow : VacuumConfig := ⟨lit "timestamp", 0, 1, 1, 1⟩

/-- A pass on New Year's Day of 2025, over a database of two bytes. -/
def newYearReads : PassReads :=
  ⟨.none, 4096, 1735689600000000000, 2, 2, none, none, none, 0, 0⟩

/-- Three logs, as `Insert` writes them. -/
def yearsApart : WriterDatabase :=
  ⟨⟨⟨[stampRow 1 "2026-01-01T00:00:00Z", stampRow 2 "2020-01-01T00:00:00Z",
    stampRow 3 "2026-01-01T00:00:00Z"], []⟩, none⟩, ∅⟩

/-- Without the old log. -/
def newerOnly : WriterDatabase :=
  ⟨⟨⟨[stampRow 1 "2026-01-01T00:00:00Z", stampRow 3 "2026-01-01T00:00:00Z"], []⟩, none⟩, ∅⟩

/-- Without the first one of the new logs too. -/
def lastOnly : WriterDatabase := ⟨⟨⟨[stampRow 3 "2026-01-01T00:00:00Z"], []⟩, none⟩, ∅⟩

theorem newYearReads_stale (limitMb : ℤ) (h : limitMb = 0 ∨ limitMb = 1) :
    staleDeletion stampCatalog vacuumNow newYearReads limitMb ⟨yearsApart, 0⟩ =
      .ret ⟨newerOnly, 0⟩ 1 := by
  rcases h with rfl | rfl
  · rfl
  · rfl

/-- Half of the span of the ids 1 and 3 goes. -/
theorem newYearReads_excess (limitMb : ℤ) (h : limitMb = 0 ∨ limitMb = 1) :
    excessDeletion stampCatalog vacuumNow newYearReads limitMb ⟨newerOnly, 0⟩ =
      .ret ⟨lastOnly, 0⟩ 1 := by
  have hmin : getMinLogId newerOnly.log = 1 := by decide
  have hspan : idSpan newerOnly.log = 3 := by decide
  have hcut : cutRows toBinary64 2 1 newerOnly.log = 1 := by
    unfold cutRows
    rw [hspan]
    decide +kernel
  have hbudget : budgetRows 2 1 newerOnly.log = 1048576 := by decide
  have hover : NoOverflow toBinary64 2 1 limitMb newerOnly.log := by
    refine ⟨by decide, by decide, by rw [hspan]; decide, by rw [hcut]; decide,
      by rw [hmin, hcut]; decide, by rw [hmin, hcut]; decide, fun hlimit => ?_⟩
    obtain rfl := h.resolve_left hlimit.ne'
    rw [hmin, hbudget]
    decide
  have hlast : lastId toBinary64 2 1 limitMb newerOnly.log = 1 := by
    unfold lastId
    rw [hmin, hcut]
    rcases h with rfl | rfl
    · rfl
    · rw [hbudget]
      rfl
  have hlt : bytesToMb toBinary64 1 < bytesToMb toBinary64 (2 : ℕ) := by decide +kernel
  unfold excessDeletion
  show (removeExcessiveLogs toBinary64 stampCatalog none 2 1 1 limitMb newerOnly).mapState _ = _
  rw [removeExcessiveLogs_of_some stampCatalog_hasRowId hlt hover, hlast]
  rfl

theorem newYearPass_ends (limitMb : ℤ) (h : limitMb = 0 ∨ limitMb = 1) :
    (deletions stampCatalog vacuumNow newYearReads limitMb ⟨yearsApart, 0⟩).Ends
      ⟨lastOnly, 0⟩ := by
  unfold deletions
  rw [newYearReads_stale limitMb h, Outcome.bind_ret, newYearReads_excess limitMb h]
  rfl

/-- In a run of a single pass, that pass is the one that starts from the first state. -/
theorem single_pass {given : PassReads} {before after : List VacuumCall} {s v : VacuumState}
    (heq : [VacuumCall.pass given] = before ++ .pass reads :: after)
    (hrun : Run (VacuumStep cat cfg) s before v) : reads = given ∧ v = s := by
  cases before with
  | nil =>
    cases hrun
    cases heq
    exact ⟨rfl, rfl⟩
  | cons call before => cases before <;> cases heq

/-- The old log is lost to the pass, and so is the log with the smallest id. -/
theorem vacuum_run_deletes_two :
    DeletedFor stampCatalog vacuumNow newYearReads yearsApart
        (stampRow 2 "2020-01-01T00:00:00Z") ∧
      DeletedFor stampCatalog vacuumNow newYearReads yearsApart
        (stampRow 1 "2026-01-01T00:00:00Z") := by
  have hrun : Run (VacuumStep stampCatalog vacuumNow) ⟨yearsApart, 0⟩ [.pass newYearReads]
      ⟨lastOnly, 0⟩ := .single (newYearPass_ends 0 (.inl rfl))
  have hgone : ∀ r : LogRow, r.id ≠ 3 → r ∉ lastOnly.log := fun r hid hlast =>
    hid (congrArg LogRow.id (List.mem_singleton.mp hlast))
  constructor
  · obtain ⟨before, reads, after, v, v', heq, hbefore, -, -, -, -, hdel⟩ :=
      vacuum_run_deletes stampCatalog_hasRowId rfl hrun
        (List.mem_cons_of_mem _ List.mem_cons_self) (hgone _ (by decide))
    obtain ⟨rfl, rfl⟩ := single_pass heq hbefore
    exact hdel
  · obtain ⟨before, reads, after, v, v', heq, hbefore, -, -, -, -, hdel⟩ :=
      vacuum_run_deletes stampCatalog_hasRowId rfl hrun List.mem_cons_self
        (hgone _ (by decide))
    obtain ⟨rfl, rfl⟩ := single_pass heq hbefore
    exact hdel

/-! ### Passes are calls of the writer -/

theorem deletions_nil : Deletions [] := nofun

theorem deletions_singleton (fault : Option DeleteFault) (filters : List QueryFilter) :
    Deletions [.delete fault filters] := by
  intro call hcall
  exact ⟨fault, filters, List.mem_singleton.mp hcall⟩

theorem Deletions.append {calls calls' : List WriterCall} (h : Deletions calls)
    (h' : Deletions calls') : Deletions (calls ++ calls') := by
  intro call hcall
  rcases List.mem_append.mp hcall with hcall | hcall
  · exact h call hcall
  · exact h' call hcall

theorem staleDeletion_writer {s s' : VacuumState}
    (h : (staleDeletion cat cfg reads limitMb s).Ends s') :
    ∃ calls, Deletions calls ∧ Run (WriterStep cat) s.db calls s'.db := by
  unfold staleDeletion at h
  split at h
  · obtain ⟨db, hdb, rfl⟩ := Outcome.ends_mapState.mp h
    by_cases hoverdue : Overdue cat cfg.logTimestampField (reads.cutoff cfg) s.db.log
    · rw [removeStaleLogs_eq_deleteLogs hoverdue] at hdb
      exact ⟨_, deletions_singleton _ _, .single (WriterStep.of_delete hdb)⟩
    · rw [removeStaleLogs_of_not_overdue hoverdue] at hdb
      obtain rfl := Outcome.ends_ret.mp hdb
      exact ⟨[], deletions_nil, .nil _⟩
  · obtain rfl := Outcome.ends_ret.mp h
    exact ⟨[], deletions_nil, .nil _⟩

theorem excessDeletion_writer {s s' : VacuumState}
    (h : (excessDeletion cat cfg reads limitMb s).Ends s') :
    ∃ calls, Deletions calls ∧ Run (WriterStep cat) s.db calls s'.db := by
  obtain ⟨db, hdb, rfl⟩ := Outcome.ends_mapState.mp h
  rcases le_or_gt (bytesToMb toBinary64 reads.excessSize)
    (bytesToMb toBinary64 cfg.vacuumMaxSizeBytes) with hle | hlt
  · rw [removeExcessiveLogs_of_le hle] at hdb
    obtain rfl := Outcome.ends_ret.mp hdb
    exact ⟨[], deletions_nil, .nil _⟩
  · rw [removeExcessiveLogs_of_lt hlt] at hdb
    split at hdb
    · exact hdb.elim
    · exact ⟨_, deletions_singleton _ _, .single (WriterStep.of_delete hdb)⟩

/-- **A pass of the task is a run of deletions.** -/
theorem vacuumPass_writer {s s' : VacuumState} (h : (vacuumPass cat cfg reads s).Ends s') :
    ∃ calls, Deletions calls ∧ Run (WriterStep cat) s.db calls s'.db := by
  rcases vacuumPass_split h with hsame | ⟨t, t', ht, ht', hdel⟩
  · rw [hsame]
    exact ⟨[], deletions_nil, .nil _⟩
  · rw [← ht, ← ht']
    rcases deletions_split hdel with hstale | ⟨mid, n, hstale, hexcess⟩
    · exact staleDeletion_writer hstale
    · obtain ⟨calls, hdels, hcalls⟩ := staleDeletion_writer (Outcome.ends_of_ret hstale)
      obtain ⟨calls', hdels', hcalls'⟩ := excessDeletion_writer hexcess
      exact ⟨calls ++ calls', hdels.append hdels', hcalls.append hcalls'⟩

/-! ### How much a pass deletes -/

/-- The ids of a table are distinct and positive. -/
structure IdsCount (rows : List LogRow) : Prop where
  nodup : (rows.map (·.id)).Nodup
  pos : ∀ r ∈ rows, 0 < r.id

theorem IdsCount.sublist {rows rows' : List LogRow} (h : IdsCount rows)
    (hsub : rows'.Sublist rows) : IdsCount rows' :=
  ⟨h.nodup.sublist (hsub.map _), fun r hr => h.pos r (hsub.subset hr)⟩

theorem idsCount_nil : IdsCount [] := ⟨.nil, by simp⟩

theorem IdsCount.getMaxLogId_nonneg {rows : List LogRow} (h : IdsCount rows) :
    0 ≤ getMaxLogId rows := by
  by_cases hrows : rows = []
  · rw [hrows, getMaxLogId_nil]
  · obtain ⟨r, hr, heq⟩ := exists_eq_getMaxLogId hrows
    exact heq ▸ (h.pos r hr).le

theorem IdsCount.appends {rows rows' : List LogRow} (h : IdsCount rows)
    (hnew : Appends rows rows') : IdsCount rows' := by
  refine ⟨hnew.nodup h.nodup, ?_⟩
  obtain ⟨new, rfl, habove, -⟩ := hnew
  intro r hr
  rcases List.mem_append.mp hr with hr | hr
  · exact h.pos r hr
  · exact h.getMaxLogId_nonneg.trans_lt (habove r hr)

/-- The ids of a database the server can have are distinct and positive. -/
theorem Reachable.idsCount {w : WriterDatabase} (h : Reachable cat w) : IdsCount w.log := by
  obtain ⟨calls, h⟩ := h
  have hinv := h.invariant (I := fun w => IdsCount w.log ∧ w.conn.begun = none) ?_
    ⟨idsCount_nil, rfl⟩
  · exact hinv.1
  rintro v call v' ⟨hids, hb⟩ hstep
  cases call with
  | insert f logs =>
    refine ⟨?_, InsertEnds.begun hstep hb⟩
    rcases hstep with hret | ⟨e, hthrow⟩
    · exact hids.appends (hret.appends hb)
    · rw [WriterDatabase.log, (insertReport_throw hthrow).1]
      exact hids
  | delete fault filters =>
    obtain ⟨keep, rfl⟩ := hstep.delete_eq
    exact ⟨hids.sublist List.filter_sublist, hb⟩

theorem toInt64_le {n : ℤ} (h : -2 ^ 63 ≤ n) : toInt64 n ≤ n := by
  unfold toInt64
  rw [Int.bmod_def]
  split <;> omega

theorem IdsCount.getMinLogId_nonneg {rows : List LogRow} (h : IdsCount rows) :
    0 ≤ getMinLogId rows := by
  by_cases hrows : rows = []
  · rw [hrows]
    rfl
  · obtain ⟨r, hr, heq⟩ := exists_eq_getMinLogId hrows
    exact heq ▸ (h.pos r hr).le

theorem budgetRows_nonneg {dbSize : ℕ} {rows : List LogRow} (hlimit : 0 < limitMb) :
    0 ≤ budgetRows dbSize limitMb rows :=
  Int.tdiv_nonneg (by omega) estimateAvgRowBytes_pos.le

/-- The rows the budget is good for fit into it. -/
theorem budgetRows_mul_le {dbSize : ℕ} {rows : List LogRow} (hlimit : 0 < limitMb) :
    budgetRows dbSize limitMb rows * estimateAvgRowBytes dbSize rows ≤ limitMb * 1024 * 1024 := by
  unfold budgetRows
  rw [Int.tdiv_eq_ediv_of_nonneg (by omega)]
  exact Int.ediv_mul_le _ estimateAvgRowBytes_pos.ne'

/-- Deleting rows up to an id that is the budget from the smallest one away. -/
theorem deleted_le_budget {dbSize : ℕ} {w w' : WriterDatabase} (hlimit : 0 < limitMb)
    (hids : IdsCount w.log) {last : ℤ}
    (hlast : last ≤ getMinLogId w.log + budgetRows dbSize limitMb w.log - 1)
    (h : Deletes (fun r => r.id ≤ last) w w') :
    ((w.log.length : ℤ) - w'.log.length) * estimateAvgRowBytes dbSize w.log ≤
      limitMb * 1024 * 1024 := by
  obtain ⟨keep, rfl, hwhy⟩ := h
  -- the ids of the deleted rows lie in an interval as long as the budget
  have hbetween : ∀ i ∈ (w.log.filter fun r => !keep r).map (·.id),
      getMinLogId w.log ≤ i ∧ i ≤ getMinLogId w.log + budgetRows dbSize limitMb w.log - 1 := by
    intro i hi
    obtain ⟨r, hr, rfl⟩ := List.mem_map.mp hi
    obtain ⟨hr, hdrop⟩ := List.mem_filter.mp hr
    exact ⟨getMinLogId_le hr, (hwhy r hr (by simpa using hdrop)).trans hlast⟩
  have hnonneg : 0 ≤ budgetRows dbSize limitMb w.log := budgetRows_nonneg hlimit
  have hcount := length_le_of_between (hids.nodup.sublist (List.filter_sublist.map _)) hbetween
    (by omega)
  have hsplit := List.length_eq_length_filter_add (l := w.log) keep
  rw [List.length_map] at hcount
  rw [WriterDatabase.keepRows_log]
  have hdeleted : (w.log.length : ℤ) - (w.log.filter keep).length ≤
      budgetRows dbSize limitMb w.log := by omega
  exact (mul_le_mul_of_nonneg_right hdeleted estimateAvgRowBytes_pos.le).trans
    (budgetRows_mul_le hlimit)

theorem removeMaxId_le {dbSize : ℕ} {rows : List LogRow} (hlimit : 0 < limitMb)
    (hids : IdsCount rows) : removeMaxId dbSize limitMb rows ≤
      getMinLogId rows + budgetRows dbSize limitMb rows - 1 := by
  have hmin := hids.getMinLogId_nonneg
  have hbudget : 0 ≤ budgetRows dbSize limitMb rows := budgetRows_nonneg hlimit
  exact (min_le_right _ _).trans (toInt64_le (by unfold budgetRows at hbudget; omega))

/-- The first deletion stays in its window. -/
theorem staleDeletion_window (hid : cat.HasRowId) (hlimit : 0 < limitMb) {s s' : VacuumState}
    (hids : IdsCount s.db.log) (h : (staleDeletion cat cfg reads limitMb s).Ends s') :
    Deletes (fun r => r.id ≤ removeMaxId reads.staleSize limitMb s.db.log) s.db s'.db := by
  have hfits : fitsInt64 (removeMaxId reads.staleSize limitMb s.db.log) = true := by
    have hmax := hids.getMaxLogId_nonneg
    have hend := fitsInt64_iff.mp (fitsInt64_toInt64 (getMinLogId s.db.log +
      (limitMb * 1024 * 1024).tdiv (estimateAvgRowBytes reads.staleSize s.db.log) - 1))
    rw [fitsInt64_iff, removeMaxId]
    omega
  refine (staleDeletion_doomed hid h).mono fun r _ hwhy => ?_
  have hwindow := hwhy.2.2 ⟨lit "id", lit "<=",
    .integer (removeMaxId reads.staleSize limitMb s.db.log)⟩
      (by rw [staleFilters, if_pos hlimit]; simp)
  rw [holds_id_iff hid rfl (by decide) hfits] at hwindow
  simpa only [Cmp.holds, bne_iff_ne, ne_eq, compare_gt_iff_gt, not_lt] using hwindow

theorem lastId_le_budget {dbSize : ℕ} {target : ℤ} {rows : List LogRow} (hlimit : 0 < limitMb) :
    lastId toBinary64 dbSize target limitMb rows ≤
      getMinLogId rows + budgetRows dbSize limitMb rows - 1 := by
  unfold lastId
  rw [if_pos hlimit]
  exact min_le_right _ _

/-- **In the incremental mode each deletion of a pass is within the budget**: the rows it
deletes, times the average size of a row as the pass estimates it, are no more than that.
The first deletion ends with the table `mid`, and the second one starts from there. -/
theorem vacuum_pass_within_budget (hid : cat.HasRowId) {s s' : VacuumState}
    (hreach : Reachable cat s.db) (hmode : reads.autoVacuum = .incremental)
    (hlimit : 0 < cfg.taskVacuumMaxSize) (h : (vacuumPass cat cfg reads s).Ends s') :
    s'.db = s.db ∨ ∃ t mid, t.db = s.db ∧
      (staleDeletion cat cfg reads cfg.taskVacuumMaxSize t).Ends mid ∧
      ((s.db.log.length : ℤ) - mid.db.log.length) *
          estimateAvgRowBytes reads.staleSize s.db.log ≤ cfg.taskVacuumMaxSize * 1024 * 1024 ∧
      (s' = mid ∨ (excessDeletion cat cfg reads cfg.taskVacuumMaxSize mid).Ends s' ∧
        ((mid.db.log.length : ℤ) - s'.db.log.length) *
          estimateAvgRowBytes reads.excessSize mid.db.log ≤
            cfg.taskVacuumMaxSize * 1024 * 1024) := by
  have hids := hreach.idsCount
  rcases incrementalPass_split hmode h with hsame | ⟨t, ht, hdel⟩
  · exact .inl hsame
  right
  rw [← ht] at hids ⊢
  rcases deletions_split hdel with hstale | ⟨mid, n, hret, hexcess⟩
  · have hwindow := staleDeletion_window hid hlimit hids hstale
    exact ⟨t, s', rfl, hstale, deleted_le_budget hlimit hids (removeMaxId_le hlimit hids) hwindow,
      .inl rfl⟩
  · have hstale := Outcome.ends_of_ret hret
    have hwindow := staleDeletion_window hid hlimit hids hstale
    have holdest := excessDeletion_deletes hid hexcess
    refine ⟨t, mid, rfl, hstale,
      deleted_le_budget hlimit hids (removeMaxId_le hlimit hids) hwindow, .inr ⟨hexcess, ?_⟩⟩
    exact deleted_le_budget hlimit (hids.sublist hwindow.sublist) (lastId_le_budget hlimit)
      (holdest.mono fun r _ hwhy => hwhy.2.2)

theorem yearsApart_reachable : Reachable stampCatalog yearsApart :=
  ⟨[.insert .none [stampLog "2026-01-01T00:00:00Z", stampLog "2020-01-01T00:00:00Z",
    stampLog "2026-01-01T00:00:00Z"]], .single (.inl ⟨_, rfl⟩)⟩

/-- A pass in the incremental mode, with a budget of a megabyte. -/
def budgetReads : PassReads := { newYearReads with autoVacuum := .incremental }

/-- Each deletion deletes one log, within the budget. -/
theorem vacuum_pass_within_megabyte : lastOnly = yearsApart ∨
    ∃ t mid, t.db = yearsApart ∧ (staleDeletion stampCatalog vacuumNow budgetReads 1 t).Ends mid ∧
      ((yearsApart.log.length : ℤ) - mid.db.log.length) *
          estimateAvgRowBytes 2 yearsApart.log ≤ 1 * 1024 * 1024 ∧
      (⟨lastOnly, 0⟩ = mid ∨
        (excessDeletion stampCatalog vacuumNow budgetReads 1 mid).Ends ⟨lastOnly, 0⟩ ∧
          ((mid.db.log.length : ℤ) - lastOnly.log.length) * estimateAvgRowBytes 2 mid.db.log ≤
            1 * 1024 * 1024) :=
  have hends : (vacuumPass stampCatalog vacuumNow budgetReads ⟨yearsApart, 0⟩).Ends
      ⟨lastOnly, 0⟩ := newYearPass_ends 1 (.inr rfl)
  vacuum_pass_within_budget stampCatalog_hasRowId yearsApart_reachable
    (show budgetReads.autoVacuum = .incremental from rfl)
    (show 0 < vacuumNow.taskVacuumMaxSize by decide) hends

/-! ### Passes that are put off -/

variable (cfg) in
/-- A pass that leaves the logs alone: it is in the incremental mode, and pages are left.
SQLite has fewer than `2 ^ 32` pages. -/
def Postponed (s : VacuumState) : VacuumCall → Prop
  | .insert _ _ _ _ => True
  | .pass reads => reads.autoVacuum = .incremental ∧ s.freelist < 2 ^ 32 ∧
      0 < (incrementalVacuumPass reads.pageSize cfg.taskVacuumMaxSize s.freelist).2

variable (cfg) in
/-- The pages that a step gives back, if it is a pass that leaves the logs alone. -/
def VacuumCall.givesBack : VacuumCall → List ℤ
  | .insert _ _ _ _ => []
  | .pass reads => [pageBudget reads.pageSize cfg.taskVacuumMaxSize]

/-- The pages that the other calls put on the freelist. -/
def VacuumCall.frees : VacuumCall → ℕ
  | .insert _ _ frees _ => frees
  | .pass _ => 0

/-- The low 32 bits of a number of pages, as an `int`. -/
theorem toInt32_pages {n : ℤ} (h : 0 ≤ n) (hlt : n < 2 ^ 32) :
    toInt32 n = n ∨ toInt32 n < 0 := by
  unfold toInt32
  rw [Int.bmod_def]
  split <;> omega

/-- A pass after which pages are left has given back its budget, which is a page at least. -/
theorem incrementalVacuumPass_left {pageSize freelist : ℕ} {maxSizeMb : ℤ} (hlimit : 0 < maxSizeMb)
    (hpages : freelist < 2 ^ 32)
    (h : 0 < (incrementalVacuumPass pageSize maxSizeMb freelist).2) :
    1 ≤ pageBudget pageSize maxSizeMb ∧
      ((incrementalVacuumPass pageSize maxSizeMb freelist).1 : ℤ) +
        pageBudget pageSize maxSizeMb = freelist := by
  unfold incrementalVacuumPass at h ⊢
  split at h
  · exact absurd h (by decide)
  · next hne =>
    rw [if_neg hne]
    have hbudget : 0 ≤ pageBudget pageSize maxSizeMb :=
      Int.tdiv_nonneg (by omega) (Int.natCast_nonneg _)
    unfold pragmaIncrementalVacuum at h ⊢
    -- a number of pages that is no `int` would have cleared the whole list
    rcases toInt32_pages (n := min (pageBudget pageSize maxSizeMb) freelist) (by omega) (by omega)
      with hint | hneg
    · simp only [hint] at h ⊢
      split at h
      · exact absurd h (by decide)
      · next hone =>
        rw [if_neg hone]
        have hleft : 0 < freelist - (min (pageBudget pageSize maxSizeMb) (freelist : ℤ)).toNat := by
          refine Nat.pos_of_ne_zero fun hzero => ?_
          rw [hzero] at h
          exact absurd h (by decide)
        omega
    · simp only [if_pos (show toInt32 (min (pageBudget pageSize maxSizeMb) freelist) < 1 by omega)]
        at h
      exact absurd h (by decide)

/-- A postponed pass, in pages. -/
theorem Postponed.pages {s s' : VacuumState} {call : VacuumCall}
    (hlimit : 0 < cfg.taskVacuumMaxSize)
    (h : Guarded (VacuumStep cat cfg) (Postponed cfg) s call s') :
    (∀ n ∈ call.givesBack cfg, 1 ≤ n) ∧
      (call.givesBack cfg).sum + s'.freelist ≤ s.freelist + call.frees := by
  obtain ⟨hstep, hpost⟩ := h
  cases call with
  | insert f logs frees takes =>
    refine ⟨by simp [VacuumCall.givesBack], ?_⟩
    rw [hstep.2]
    simp only [VacuumCall.givesBack, VacuumCall.frees, List.sum_nil]
    omega
  | pass reads =>
    obtain ⟨hmode, hpages, hleft⟩ := hpost
    obtain ⟨hone, hsum⟩ := incrementalVacuumPass_left hlimit hpages hleft
    simp only [VacuumStep, vacuumPass, hmode, if_pos hleft] at hstep
    obtain rfl := Outcome.ends_ret.mp hstep
    simp only [VacuumCall.givesBack, VacuumCall.frees, List.forall_mem_singleton,
      List.sum_singleton]
    exact ⟨hone, by omega⟩

/-- **The deletions cannot be put off for ever**: while passes leave the logs alone, each
gives back its whole budget of pages, one page at least, and together they give back no
more than there were on the freelist and were put on it by other calls. -/
theorem postponed_passes_bounded {s s' : VacuumState} {calls : List VacuumCall}
    (hlimit : 0 < cfg.taskVacuumMaxSize)
    (h : Run (Guarded (VacuumStep cat cfg) (Postponed cfg)) s calls s') :
    (∀ n ∈ calls.flatMap (·.givesBack cfg), 1 ≤ n) ∧
      (calls.flatMap (·.givesBack cfg)).sum + s'.freelist ≤
        s.freelist + (calls.map (·.frees)).sum := by
  induction h with
  | nil s => simp
  | @cons s t u call calls hstep hrest ih =>
    obtain ⟨hone, hsum⟩ := Postponed.pages hlimit hstep
    obtain ⟨hones, hsums⟩ := ih
    rw [List.flatMap_cons, List.sum_append, List.map_cons, List.sum_cons]
    refine ⟨fun n hn => ?_, ?_⟩
    · rcases List.mem_append.mp hn with hn | hn
      · exact hone n hn
      · exact hones n hn
    · rw [Nat.cast_add]
      omega

/-- A pass in the incremental mode, over three free pages. -/
def freePages : PassReads := { newYearReads with autoVacuum := .incremental, pageSize := 1048576 }

/-- Two such passes give back two pages of three. -/
theorem postponed_passes_two :
    (∀ n ∈ [VacuumCall.pass freePages, .pass freePages].flatMap (·.givesBack vacuumNow), 1 ≤ n) ∧
      ([VacuumCall.pass freePages, .pass freePages].flatMap (·.givesBack vacuumNow)).sum +
          ((1 : ℕ) : ℤ) ≤
        ((3 : ℕ) : ℤ) + ([VacuumCall.pass freePages, .pass freePages].map (·.frees)).sum :=
  have hrun : Run (Guarded (VacuumStep stampCatalog vacuumNow) (Postponed vacuumNow))
      ⟨backfilled, 3⟩ [.pass freePages, .pass freePages] ⟨backfilled, 1⟩ :=
    .cons ⟨rfl, rfl, by decide, by decide⟩ (.single ⟨rfl, rfl, by decide, by decide⟩)
  postponed_passes_bounded (by decide) hrun

end

end LogLite
