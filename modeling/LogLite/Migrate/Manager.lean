import LogLite.Store.Writer
import Mathlib.Data.List.Sort

/-!
# Migrations

A migration has a version and two scripts.  `ApplyPendingMigrations` runs the rollout
script of the first configured migration that is not recorded in the table `versions`,
and records it; `RollbackMigration` runs the rollback script of a version and deletes
its record.  Either is one transaction.

What a statement of a script does to the database is up to SQLite: it is a parameter,
`SqlEngine`.  It may change any table, also `versions`, and make triggers that later
keep a row out of it.  Scripts that leave `versions` alone need less, a `PlainEngine`.
Which other calls fail is decided by `MigrationFaults`.

## Main definitions

* `Migration`, `MigrationManager` — the configured migrations, sorted by version.
* `MigrationWriter` — the part of the writer that migrations change.
* `runMigration` — the transaction; `applyMigration`, `rollbackMigration` — the
  methods of the writer.
* `MigrationManager.applyPendingMigrations`, `MigrationManager.rollbackMigration` —
  the methods of the manager.

## Main results

* `runMigration_ok`, `runMigration_error` — what the transaction does if the script
  leaves `versions` alone and only a statement of it can fail.
-/

namespace LogLite

/-- `Migration`. -/
structure Migration (Statement : Type) where
  version : ℤ
  rollout : List Statement
  rollback : List Statement

/-- The columns the catalog keeps: of the log table and of the two tables of statistics. -/
structure CatalogColumns where
  log : List ColumnInfo
  activityStats : List ColumnInfo
  dbStats : List ColumnInfo

/-- The database: the rows of `versions`, and everything else. -/
structure MigrationDb (Schema : Type) where
  schema : Schema
  versions : List ℤ

/-- What SQLite makes of the statements of scripts, and what the `INSERT` into `versions`
and the `DELETE` leave once they are stepped, whether or not their step fails: a
trigger may stop them. -/
structure SqlEngine (Statement Schema : Type) where
  exec : Statement → MigrationDb Schema → Except Bytes (MigrationDb Schema)
  insertVersion : ℤ → MigrationDb Schema → MigrationDb Schema
  deleteVersion : ℤ → MigrationDb Schema → MigrationDb Schema
  tableColumns : Schema → CatalogColumns

/-- The writer, as far as migrations change it: the database, what `ROLLBACK` goes back
to while a transaction is open, and the columns in the catalog. -/
structure MigrationWriter (Schema : Type) where
  db : MigrationDb Schema
  begun : Option (MigrationDb Schema)
  columns : CatalogColumns

/-- Which calls of one migration fail. -/
structure MigrationFaults where
  begin : Fault
  statement : ℕ → Fault
  prepare : Fault
  step : Bool
  commit : Fault
  fetchColumns : ℕ → Fault
  rollback : Fault

/-- No call fails. -/
def MigrationFaults.none : MigrationFaults :=
  ⟨.none, fun _ => .none, .none, false, .none, fun _ => .none, .none⟩

/-! ### The transaction -/

section
variable {Statement Schema : Type}

/-- `exec_sql("BEGIN")`. -/
def MigrationWriter.begin (fault : Fault) (w : MigrationWriter Schema) :
    Outcome (MigrationWriter Schema) Bytes Unit :=
  match fault, w.begun with
  | some msg, _ => .throw w (execFailed msg)
  | none, some _ =>
    .throw w (execFailed (lit "cannot start a transaction within a transaction"))
  | none, none => .ret { w with begun := some w.db } ()

/-- `exec_sql("COMMIT")`. -/
def MigrationWriter.commit (fault : Fault) (w : MigrationWriter Schema) :
    Outcome (MigrationWriter Schema) Bytes Unit :=
  match fault, w.begun with
  | some msg, _ => .throw w (execFailed msg)
  | none, none => .throw w (execFailed (lit "cannot commit - no transaction is active"))
  | none, some _ => .ret { w with begun := none } ()

/-- `exec_sql("ROLLBACK")`, which may throw. -/
def MigrationWriter.rollback (fault : Fault) (w : MigrationWriter Schema) :
    Outcome (MigrationWriter Schema) Bytes Unit :=
  match fault, w.begun with
  | some msg, _ => .throw w (execFailed msg)
  | none, none => .throw w (execFailed (lit "cannot rollback - no transaction is active"))
  | none, some db => .ret { w with db := db, begun := none } ()

/-- `GetAppliedVersions`: the versions in ascending order. -/
def MigrationWriter.getAppliedVersions (w : MigrationWriter Schema) : List ℤ :=
  w.db.versions.insertionSort (· ≤ ·)

theorem mem_getAppliedVersions {w : MigrationWriter Schema} {v : ℤ} :
    v ∈ w.getAppliedVersions ↔ v ∈ w.db.versions :=
  List.mem_insertionSort _

/-- What the step of the statement on `versions` leaves. -/
def MigrationFaults.stepped (f : MigrationFaults) (edit : MigrationDb Schema → MigrationDb Schema)
    (db : MigrationDb Schema) : MigrationDb Schema :=
  if f.step then db else edit db

/-- The statement on `versions`.  The result of its step is not looked at. -/
def MigrationWriter.editVersions (f : MigrationFaults)
    (edit : MigrationDb Schema → MigrationDb Schema) (w : MigrationWriter Schema) :
    Outcome (MigrationWriter Schema) Bytes Unit :=
  match f.prepare with
  | some msg => .throw w (prepareFailed msg)
  | none => .ret { w with db := f.stepped edit w.db } ()

variable (e : SqlEngine Statement Schema)

/-- The loop over the statements of a script. -/
def execScript (faults : ℕ → Fault) : ℕ → List Statement → MigrationWriter Schema →
    Outcome (MigrationWriter Schema) Bytes Unit
  | _, [], w => .ret w ()
  | i, sql :: script, w =>
    match faults i, e.exec sql w.db with
    | some msg, _ => .throw w (execFailed msg)
    | none, .error msg => .throw w (execFailed msg)
    | none, .ok db => execScript faults (i + 1) script { w with db := db }

/-- `RefreshColumnInfo`: three tables, one after the other. -/
def MigrationWriter.refreshColumnInfo (faults : ℕ → Fault) (w : MigrationWriter Schema) :
    Outcome (MigrationWriter Schema) Bytes Unit :=
  let fetched := e.tableColumns w.db.schema
  match faults 0 with
  | some msg => .throw w (prepareFailed msg)
  | none =>
    let w := { w with columns.log := fetched.log }
    match faults 1 with
    | some msg => .throw w (prepareFailed msg)
    | none =>
      let w := { w with columns.activityStats := fetched.activityStats }
      match faults 2 with
      | some msg => .throw w (prepareFailed msg)
      | none => .ret { w with columns.dbStats := fetched.dbStats } ()

/-- The body `ApplyMigration` and `RollbackMigration` share: the script and the statement
on `versions` in one transaction.  The refresh of the columns, after the transaction,
is inside the `try` too. -/
def runMigration (f : MigrationFaults) (edit : MigrationDb Schema → MigrationDb Schema)
    (script : List Statement) (w : MigrationWriter Schema) :
    Outcome (MigrationWriter Schema) Bytes Bool :=
  (w.begin f.begin).bind fun w _ =>
    ((execScript e f.statement 0 script w).bind fun w _ =>
      (w.editVersions f edit).bind fun w _ =>
        (w.commit f.commit).bind fun w _ =>
          (w.refreshColumnInfo e f.fetchColumns).bind fun w _ => .ret w true).handle
      fun w _ => (w.rollback f.rollback).bind fun w _ => .ret w false

/-- `WriterDatabase::ApplyMigration`. -/
def applyMigration (f : MigrationFaults) (version : ℤ) (statements : List Statement)
    (w : MigrationWriter Schema) : Outcome (MigrationWriter Schema) Bytes Bool :=
  if w.getAppliedVersions.contains version then .ret w true
  else runMigration e f (e.insertVersion version) statements w

/-- `WriterDatabase::RollbackMigration`. -/
def rollbackMigration (f : MigrationFaults) (version : ℤ) (statements : List Statement)
    (w : MigrationWriter Schema) : Outcome (MigrationWriter Schema) Bytes Bool :=
  runMigration e f (e.deleteVersion version) statements w

end

/-! ### Scripts that leave `versions` alone -/

/-- What SQLite makes of statements that touch neither the table `versions`, nor what its
statements do, nor the transaction.  A `Schema` is all of the database but this table. -/
structure PlainEngine (Statement Schema : Type) where
  exec : Statement → Schema → Except Bytes Schema
  tableColumns : Schema → CatalogColumns

/-- The row `INSERT INTO versions` adds; `version` is the primary key. -/
def insertVersion (version : ℤ) (versions : List ℤ) : List ℤ :=
  if versions.contains version then versions else versions ++ [version]

theorem insertVersion_of_notMem {version : ℤ} {versions : List ℤ} (h : version ∉ versions) :
    insertVersion version versions = versions ++ [version] :=
  if_neg (by rwa [List.contains_iff_mem])

/-- `DELETE FROM versions WHERE version = ?`. -/
def deleteVersion (version : ℤ) (versions : List ℤ) : List ℤ :=
  versions.filter (· != version)

section
variable {Statement Schema : Type} (e : PlainEngine Statement Schema)

/-- The database runs the statements beside the table `versions`. -/
def PlainEngine.engine : SqlEngine Statement Schema where
  exec sql db := (e.exec sql db.schema).map fun schema => { db with schema := schema }
  insertVersion version db := { db with versions := insertVersion version db.versions }
  deleteVersion version db := { db with versions := deleteVersion version db.versions }
  tableColumns := e.tableColumns

/-- A script, up to its first statement that fails. -/
def runScript : List Statement → Schema → Except Bytes Schema
  | [], s => .ok s
  | sql :: script, s => (e.exec sql s).bind fun s => runScript script s

variable {e}

theorem PlainEngine.exec_ok {sql : Statement} {db : MigrationDb Schema} {s : Schema}
    (h : e.exec sql db.schema = .ok s) : e.engine.exec sql db = .ok ⟨s, db.versions⟩ := by
  show (e.exec sql db.schema).map _ = _
  rw [h]
  rfl

theorem PlainEngine.exec_error {sql : Statement} {db : MigrationDb Schema} {msg : Bytes}
    (h : e.exec sql db.schema = .error msg) : e.engine.exec sql db = .error msg := by
  show (e.exec sql db.schema).map _ = _
  rw [h]
  rfl

theorem execScript_ok {script : List Statement} {s : Schema} {i : ℕ} {w : MigrationWriter Schema}
    (h : runScript e script w.db.schema = .ok s) :
    execScript e.engine (fun _ => none) i script w = .ret { w with db.schema := s } () := by
  induction script generalizing i w with
  | nil =>
    cases h
    rfl
  | cons sql script ih =>
    unfold runScript at h
    unfold execScript
    cases hexec : e.exec sql w.db.schema with
    | error msg =>
      rw [hexec] at h
      cases h
    | ok t =>
      rw [hexec] at h
      rw [PlainEngine.exec_ok hexec]
      exact ih h

theorem execScript_error {script : List Statement} {msg : Bytes} {i : ℕ}
    {w : MigrationWriter Schema} (h : runScript e script w.db.schema = .error msg) :
    ∃ s, execScript e.engine (fun _ => none) i script w =
      .throw { w with db.schema := s } (execFailed msg) := by
  induction script generalizing i w with
  | nil => cases h
  | cons sql script ih =>
    unfold runScript at h
    unfold execScript
    cases hexec : e.exec sql w.db.schema with
    | error msg' =>
      rw [hexec] at h
      cases h
      rw [PlainEngine.exec_error hexec]
      exact ⟨w.db.schema, rfl⟩
    | ok t =>
      rw [hexec] at h
      rw [PlainEngine.exec_ok hexec]
      exact ih h

theorem begin_idle {w : MigrationWriter Schema} (hw : w.begun = none) :
    w.begin none = .ret { w with begun := some w.db } () := by
  unfold MigrationWriter.begin
  rw [hw]

/-- The script is run and the edit is made. -/
theorem runMigration_ok {edit : MigrationDb Schema → MigrationDb Schema} {script : List Statement}
    {s : Schema} {w : MigrationWriter Schema} (hw : w.begun = none)
    (h : runScript e script w.db.schema = .ok s) :
    runMigration e.engine .none edit script w =
      .ret ⟨edit ⟨s, w.db.versions⟩, none, e.tableColumns (edit ⟨s, w.db.versions⟩).schema⟩
        true := by
  have hscript := execScript_ok (i := 0) (w := { w with begun := some w.db }) h
  unfold runMigration
  simp only [MigrationFaults.none, begin_idle hw, Outcome.bind_ret, hscript]
  rfl

/-- The script is run and the version is recorded. -/
theorem runMigration_insert {version : ℤ} {script : List Statement} {s : Schema}
    {w : MigrationWriter Schema} (hw : w.begun = none)
    (h : runScript e script w.db.schema = .ok s) (hnew : version ∉ w.db.versions) :
    runMigration e.engine .none (e.engine.insertVersion version) script w =
      .ret ⟨⟨s, w.db.versions ++ [version]⟩, none, e.tableColumns s⟩ true := by
  rw [runMigration_ok hw h, ← insertVersion_of_notMem hnew]
  rfl

/-- The script is run and the record is deleted. -/
theorem runMigration_delete {version : ℤ} {script : List Statement} {s : Schema}
    {w : MigrationWriter Schema} (hw : w.begun = none)
    (h : runScript e script w.db.schema = .ok s) :
    runMigration e.engine .none (e.engine.deleteVersion version) script w =
      .ret ⟨⟨s, deleteVersion version w.db.versions⟩, none, e.tableColumns s⟩ true :=
  runMigration_ok hw h

/-- A script that fails leaves no trace. -/
theorem runMigration_error {edit : MigrationDb Schema → MigrationDb Schema}
    {script : List Statement} {msg : Bytes} {w : MigrationWriter Schema} (hw : w.begun = none)
    (h : runScript e script w.db.schema = .error msg) :
    runMigration e.engine .none edit script w = .ret w false := by
  obtain ⟨s, hscript⟩ := execScript_error (i := 0) (w := { w with begun := some w.db }) h
  unfold runMigration
  simp only [MigrationFaults.none, begin_idle hw, Outcome.bind_ret, hscript, Outcome.bind_throw,
    Outcome.handle_throw]
  unfold MigrationWriter.rollback
  rw [← hw]
  rfl

end

/-! ### The manager -/

/-- `MigrationManager`: the configured migrations, sorted by version.  Migrations of one
version may come in any order. -/
structure MigrationManager {Statement : Type} (configured : List (Migration Statement)) where
  migrations : List (Migration Statement)
  perm : migrations.Perm configured
  sorted : migrations.Pairwise fun mg mg' => mg.version ≤ mg'.version

/-- The message of a version that is not configured. -/
def migrationNotFound (version : ℤ) : Bytes :=
  lit "Migration v" ++ decimal version ++ lit " not found in config"

/-- The rollback is not cancelled at the prompt. -/
def confirmed (force : Bool) (answer : Bytes) : Bool :=
  force || answer == lit "y" || answer == lit "Y"

section
variable {Statement Schema : Type} {configured : List (Migration Statement)}
variable (mgr : MigrationManager configured) (e : SqlEngine Statement Schema)

/-- The first migration above `start` that is not applied. -/
def MigrationManager.pending (start : ℤ) (applied : List ℤ) : Option (Migration Statement) :=
  mgr.migrations.find? fun mg => !decide (mg.version ≤ start) && !applied.contains mg.version

/-- `ApplyPendingMigrations(start_version)`: one migration per call. -/
def MigrationManager.applyPendingMigrations (f : MigrationFaults) (start : ℤ)
    (w : MigrationWriter Schema) : Outcome (MigrationWriter Schema) Bytes Bool :=
  match mgr.pending start w.getAppliedVersions with
  | some mg => applyMigration e f mg.version mg.rollout w
  | none => .ret w false

/-- `RollbackMigration(version, force)`; `answer` is the line read at the prompt. -/
def MigrationManager.rollbackMigration (f : MigrationFaults) (version : ℤ) (force : Bool)
    (answer : Bytes) (w : MigrationWriter Schema) :
    Outcome (MigrationWriter Schema) Bytes Bool :=
  match mgr.migrations.find? fun mg => mg.version == version with
  | none => .throw w (migrationNotFound version)
  | some mg =>
    if confirmed force answer then LogLite.rollbackMigration e f version mg.rollback w
    else .ret w false

variable {mgr e}

theorem MigrationManager.pending_spec {start : ℤ} {applied : List ℤ} {mg : Migration Statement}
    (h : mgr.pending start applied = some mg) :
    mg ∈ mgr.migrations ∧ start < mg.version ∧ mg.version ∉ applied := by
  have hmem := List.mem_of_find?_eq_some h
  have hmg := List.find?_some h
  simp only [Bool.and_eq_true, Bool.not_eq_true', decide_eq_false_iff_not, Int.not_le,
    List.contains_eq_mem] at hmg
  exact ⟨hmem, hmg⟩

theorem MigrationManager.applyPendingMigrations_some {f : MigrationFaults} {start : ℤ}
    {w : MigrationWriter Schema} {mg : Migration Statement}
    (h : mgr.pending start w.getAppliedVersions = some mg) :
    mgr.applyPendingMigrations e f start w =
      runMigration e f (e.insertVersion mg.version) mg.rollout w := by
  obtain ⟨-, -, hnew⟩ := pending_spec h
  unfold MigrationManager.applyPendingMigrations
  simp only [h]
  rw [applyMigration, if_neg (by rwa [List.contains_iff_mem])]

theorem MigrationManager.rollbackMigration_some {f : MigrationFaults} {version : ℤ} {force : Bool}
    {answer : Bytes} {w : MigrationWriter Schema} {mg : Migration Statement}
    (h : mgr.migrations.find? (fun mg => mg.version == version) = some mg)
    (hconf : confirmed force answer = true) :
    mgr.rollbackMigration e f version force answer w =
      runMigration e f (e.deleteVersion version) mg.rollback w := by
  unfold MigrationManager.rollbackMigration
  simp only [h]
  rw [if_pos hconf]
  rfl

end

end LogLite
