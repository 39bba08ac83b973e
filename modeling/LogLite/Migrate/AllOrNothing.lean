import LogLite.Lib.Run
import LogLite.Migrate.Manager

/-!
# Migrations are not quite all-or-nothing

`ApplyMigration` runs the script and records the version in one transaction.  Three of
its calls are not guarded as the rest: the result of the `INSERT` into `versions` is
not looked at, so a migration can be committed without its record; the columns are
read again after `COMMIT` but inside the `try`, so a failure there leads to a `ROLLBACK`
without a transaction; and `BEGIN` and `ROLLBACK` may throw.  A script may itself change
the table `versions`, and make a trigger on it that keeps later rows out.

## Main definitions

* `tryScript` — how a script ends.
* `AllOrNothing` — all of the migration is done, or nothing and the result is `false`.
* `Aborts`, `Tolerable` — a call before the end of `COMMIT` fails; the faults that do no
  harm.
* `KeepsVersions` — the transaction takes no version out of the table.
* `RolloutTurn` — a turn of the loop in `Initialize`.

## Main results

* `runMigration_aborts`, `runMigration_commits` — what the transaction does.
* `allOrNothing_iff` — a migration is all-or-nothing exactly if its faults are tolerable.
* `RolloutTurn.pendingCount_lt` — a turn leaves fewer pending migrations.
* `migrations_all_or_nothing` — **both, and the loop ends.**
-/

namespace LogLite

open Transition

section
variable {Statement Schema : Type} {e : SqlEngine Statement Schema}

/-! ### How a script ends -/

variable (e) in
/-- A script, up to the first statement that fails, of itself or by a fault. -/
def tryScript (faults : ℕ → Fault) :
    ℕ → List Statement → MigrationDb Schema → Except Bytes (MigrationDb Schema)
  | _, [], db => .ok db
  | i, sql :: script, db =>
    match faults i, e.exec sql db with
    | some msg, _ => .error msg
    | none, .error msg => .error msg
    | none, .ok db => tryScript faults (i + 1) script db

variable (e) in
/-- All statements of a script, one after the other. -/
def SqlEngine.Runs : List Statement → MigrationDb Schema → MigrationDb Schema → Prop
  | [], db, db' => db' = db
  | sql :: script, db, db' => ∃ mid, e.exec sql db = .ok mid ∧ SqlEngine.Runs script mid db'

/-- A script that ends well has run all its statements. -/
theorem runs_of_tryScript {faults : ℕ → Fault} {script : List Statement} {i : ℕ}
    {s t : MigrationDb Schema} (h : tryScript e faults i script s = .ok t) :
    e.Runs script s t := by
  induction script generalizing i s with
  | nil => exact (Except.ok.inj h).symm
  | cons sql script ih =>
    unfold tryScript at h
    cases hf : faults i with
    | some msg =>
      rw [hf] at h
      cases h
    | none =>
      rw [hf] at h
      cases hexec : e.exec sql s with
      | error msg =>
        rw [hexec] at h
        cases h
      | ok s' =>
        rw [hexec] at h
        exact ⟨s', hexec, ih h⟩

/-- The loop over the statements returns if the script ends well, and else throws. -/
theorem execScript_eq (faults : ℕ → Fault) (script : List Statement) (i : ℕ)
    (w : MigrationWriter Schema) :
    (∃ db, tryScript e faults i script w.db = .ok db ∧
      execScript e faults i script w = .ret { w with db := db } ()) ∨
    ∃ msg db what, tryScript e faults i script w.db = .error msg ∧
      execScript e faults i script w = .throw { w with db := db } what := by
  induction script generalizing i w with
  | nil => exact .inl ⟨_, rfl, rfl⟩
  | cons sql script ih =>
    unfold tryScript execScript
    cases hf : faults i with
    | some msg => exact .inr ⟨msg, w.db, _, rfl, rfl⟩
    | none =>
      cases hexec : e.exec sql w.db with
      | error msg => exact .inr ⟨msg, w.db, _, rfl, rfl⟩
      | ok db => exact ih (i + 1) { w with db := db }

/-! ### How the transaction ends -/

variable (e) in
/-- A call before the end of `COMMIT` fails. -/
def Aborts (f : MigrationFaults) (script : List Statement) (w : MigrationWriter Schema) : Prop :=
  (∃ msg, tryScript e f.statement 0 script w.db = .error msg) ∨ f.prepare ≠ none ∨
    f.commit ≠ none

/-- The columns can be read after `COMMIT`. -/
def Refreshes (f : MigrationFaults) : Prop :=
  f.fetchColumns 0 = none ∧ f.fetchColumns 1 = none ∧ f.fetchColumns 2 = none

theorem begin_of_idle {f : MigrationFaults} {w : MigrationWriter Schema} (hw : w.begun = none)
    (hbegin : f.begin = none) : w.begin f.begin = .ret { w with begun := some w.db } () := by
  unfold MigrationWriter.begin
  rw [hw, hbegin]

/-- The statement on `versions`, once it is prepared. -/
theorem editVersions_prepared {f : MigrationFaults} (hprepare : f.prepare = none)
    (edit : MigrationDb Schema → MigrationDb Schema) (w : MigrationWriter Schema) :
    w.editVersions f edit = .ret { w with db := f.stepped edit w.db } () := by
  unfold MigrationWriter.editVersions
  rw [hprepare]

/-- A call without its `BEGIN` throws. -/
theorem runMigration_not_begun {f : MigrationFaults} {w : MigrationWriter Schema}
    (h : ¬ (w.begun = none ∧ f.begin = none)) (edit : MigrationDb Schema → MigrationDb Schema)
    (script : List Statement) :
    ∃ what, runMigration e f edit script w = .throw w what := by
  have hbegin : ∃ what, w.begin f.begin = .throw w what := by
    unfold MigrationWriter.begin
    cases hf : f.begin with
    | some msg => exact ⟨_, rfl⟩
    | none =>
      cases hw : w.begun with
      | some db => exact ⟨_, rfl⟩
      | none => exact absurd ⟨hw, hf⟩ h
  obtain ⟨what, hbegin⟩ := hbegin
  refine ⟨what, ?_⟩
  unfold runMigration
  rw [hbegin]
  rfl

/-- The handler: everything since `BEGIN` is undone, if `ROLLBACK` does not fail. -/
theorem rollback_begun {f : MigrationFaults} {w w' : MigrationWriter Schema}
    (hw : w.begun = none) (hbegun : w'.begun = some w.db) (hcolumns : w'.columns = w.columns) :
    (f.rollback = none → (w'.rollback f.rollback).bind (fun w _ => .ret w false) =
      (.ret w false : Outcome (MigrationWriter Schema) Bytes Bool)) ∧
    (f.rollback ≠ none → ∃ what, (w'.rollback f.rollback).bind (fun w _ => .ret w false) =
      (.throw w' what : Outcome (MigrationWriter Schema) Bytes Bool)) := by
  unfold MigrationWriter.rollback
  constructor
  · intro hf
    rw [hf, hbegun, Outcome.bind_ret, hcolumns, ← hw]
  · intro hf
    cases hmsg : f.rollback with
    | none => exact absurd hmsg hf
    | some msg => exact ⟨_, rfl⟩

/-- **A transaction that aborts** leaves no trace, if `ROLLBACK` does not fail. -/
theorem runMigration_aborts {f : MigrationFaults} {script : List Statement}
    {w : MigrationWriter Schema} (hw : w.begun = none) (hbegin : f.begin = none)
    (h : Aborts e f script w) (edit : MigrationDb Schema → MigrationDb Schema) :
    (f.rollback = none → runMigration e f edit script w = .ret w false) ∧
    (f.rollback ≠ none → ∃ w' what, runMigration e f edit script w = .throw w' what) := by
  suffices hthrow : ∃ w' : MigrationWriter Schema, w'.begun = some w.db ∧
      w'.columns = w.columns ∧ runMigration e f edit script w =
        (w'.rollback f.rollback).bind fun w _ => .ret w false by
    obtain ⟨w', hbegun, hcolumns, hrun⟩ := hthrow
    rw [hrun]
    obtain ⟨hnone, hsome⟩ := rollback_begun hw hbegun hcolumns
    exact ⟨hnone, fun hf => ⟨w', hsome hf⟩⟩
  unfold runMigration
  rw [begin_of_idle hw hbegin, Outcome.bind_ret]
  rcases execScript_eq (e := e) f.statement script 0 { w with begun := some w.db } with
    ⟨db, htry, hexec⟩ | ⟨msg, db, what, -, hexec⟩
  · rw [hexec, Outcome.bind_ret]
    cases hprepare : f.prepare with
    | some msg =>
      unfold MigrationWriter.editVersions
      rw [hprepare]
      refine ⟨_, ?_, ?_, rfl⟩ <;> rfl
    | none =>
      -- the script and the statement are fine, so it is `COMMIT` that fails
      have hcommit : f.commit ≠ none := by
        rcases h with ⟨msg, hmsg⟩ | hp | hc
        · exact absurd (htry.symm.trans hmsg) (by simp)
        · exact absurd hprepare hp
        · exact hc
      rw [editVersions_prepared hprepare, Outcome.bind_ret]
      unfold MigrationWriter.commit
      cases hmsg : f.commit with
      | none => exact absurd hmsg hcommit
      | some msg => refine ⟨_, ?_, ?_, rfl⟩ <;> rfl
  · rw [hexec]
    refine ⟨_, ?_, ?_, rfl⟩ <;> rfl

/-- The state after `COMMIT`; `db` is what the script has left. -/
def committed (f : MigrationFaults) (edit : MigrationDb Schema → MigrationDb Schema)
    (db : MigrationDb Schema) (w : MigrationWriter Schema) : MigrationWriter Schema :=
  ⟨f.stepped edit db, none, w.columns⟩

/-- Whichever table cannot be read, the call throws, and begins no transaction. -/
theorem refreshColumnInfo_throws {f : MigrationFaults} (h : ¬ Refreshes f)
    (w : MigrationWriter Schema) : ∃ (w' : MigrationWriter Schema) (what : Bytes),
      w'.begun = w.begun ∧ w.refreshColumnInfo e f.fetchColumns = .throw w' what := by
  unfold MigrationWriter.refreshColumnInfo
  cases h0 : f.fetchColumns 0 with
  | some msg =>
    refine ⟨_, _, ?_, rfl⟩
    rfl
  | none =>
    cases h1 : f.fetchColumns 1 with
    | some msg =>
      refine ⟨_, _, ?_, rfl⟩
      rfl
    | none =>
      cases h2 : f.fetchColumns 2 with
      | some msg =>
        refine ⟨_, _, ?_, rfl⟩
        rfl
      | none => exact absurd ⟨h0, h1, h2⟩ h

/-- **A transaction that commits** returns `true`, with what its statement on `versions` has
left, unless the columns cannot be read again. -/
theorem runMigration_commits {f : MigrationFaults} {script : List Statement}
    {w : MigrationWriter Schema} (hw : w.begun = none) (hbegin : f.begin = none)
    (h : ¬ Aborts e f script w) (edit : MigrationDb Schema → MigrationDb Schema) :
    ∃ db, tryScript e f.statement 0 script w.db = .ok db ∧
      (Refreshes f → runMigration e f edit script w =
        .ret { committed f edit db w with
          columns := e.tableColumns (f.stepped edit db).schema } true) ∧
      (¬ Refreshes f → ∃ w' what, runMigration e f edit script w = .throw w' what) := by
  unfold Aborts at h
  simp only [not_or, not_exists, ne_eq, not_not] at h
  obtain ⟨hscript, hprepare, hcommit⟩ := h
  rcases execScript_eq (e := e) f.statement script 0 { w with begun := some w.db } with
    ⟨db, htry, hexec⟩ | ⟨msg, db, what, htry, hexec⟩
  · have hrun : runMigration e f edit script w =
        (((committed f edit db w).refreshColumnInfo e f.fetchColumns).bind
          fun w _ => .ret w true).handle
            fun w _ => (w.rollback f.rollback).bind fun w _ => .ret w false := by
      unfold runMigration
      rw [begin_of_idle hw hbegin, Outcome.bind_ret, hexec, Outcome.bind_ret,
        editVersions_prepared hprepare, Outcome.bind_ret]
      unfold MigrationWriter.commit
      rw [hcommit]
      rfl
    refine ⟨db, htry, ?_, ?_⟩
    · rintro ⟨h0, h1, h2⟩
      rw [hrun]
      unfold MigrationWriter.refreshColumnInfo
      simp only [h0, h1, h2]
      rfl
    · intro hnot
      obtain ⟨w', what, hbegun, hrefresh⟩ :=
        refreshColumnInfo_throws (e := e) hnot (committed f edit db w)
      rw [hrun, hrefresh, Outcome.bind_throw, Outcome.handle_throw]
      -- there is no transaction left to roll back
      unfold MigrationWriter.rollback
      rw [hbegun]
      cases f.rollback with
      | none => exact ⟨_, _, rfl⟩
      | some msg => exact ⟨_, _, rfl⟩
  · exact absurd htry (hscript msg)

/-! ### All or nothing -/

variable (e) in
/-- A migration is applied with its version recorded, now or before, or it leaves
everything as it was and returns `false`.  When it is applied, all its statements have
been run, and after them at most the `INSERT` into `versions`. -/
def AllOrNothing (f : MigrationFaults) (version : ℤ) (script : List Statement)
    (w : MigrationWriter Schema) : Prop :=
  (∃ w', applyMigration e f version script w = .ret w' true ∧ version ∈ w'.db.versions ∧
    (version ∈ w.db.versions ∧ w' = w ∨
      ∃ db, e.Runs script w.db db ∧ (w'.db = db ∨ w'.db = e.insertVersion version db))) ∨
  applyMigration e f version script w = .ret w false

variable (e) in
/-- What the script and the step of the `INSERT` leave. -/
def Leaves (f : MigrationFaults) (version : ℤ) (script : List Statement)
    (w : MigrationWriter Schema) (db : MigrationDb Schema) : Prop :=
  ∃ mid, tryScript e f.statement 0 script w.db = .ok mid ∧
    db = f.stepped (e.insertVersion version) mid

variable (e) in
/-- The row gets into the table: the step of the `INSERT` does not fail and no trigger
keeps the row out, or the script has put it there. -/
def Records (f : MigrationFaults) (version : ℤ) (script : List Statement)
    (w : MigrationWriter Schema) : Prop :=
  ∀ db, Leaves e f version script w db → version ∈ db.versions

variable (e) in
/-- Neither the script nor a trigger of the `INSERT` takes a version out of the table. -/
def KeepsVersions (f : MigrationFaults) (version : ℤ) (script : List Statement)
    (w : MigrationWriter Schema) : Prop :=
  ∀ db, Leaves e f version script w db → w.db.versions ⊆ db.versions

variable (e) in
/-- The faults do no harm: a transaction that aborts can be rolled back, and one that
commits has its version recorded and the columns read again. -/
def Tolerable (f : MigrationFaults) (version : ℤ) (script : List Statement)
    (w : MigrationWriter Schema) : Prop :=
  version ∈ w.db.versions ∨
    (w.begun = none ∧ f.begin = none) ∧
      ((Aborts e f script w ∧ f.rollback = none) ∨
        (¬ Aborts e f script w ∧ Records e f version script w ∧ Refreshes f))

theorem applyMigration_of_mem {f : MigrationFaults} {version : ℤ} {script : List Statement}
    {w : MigrationWriter Schema} (h : version ∈ w.db.versions) :
    applyMigration e f version script w = .ret w true := by
  unfold applyMigration
  rw [if_pos (by rwa [List.contains_iff_mem, mem_getAppliedVersions])]

theorem applyMigration_of_notMem {f : MigrationFaults} {version : ℤ} {script : List Statement}
    {w : MigrationWriter Schema} (h : version ∉ w.db.versions) :
    applyMigration e f version script w =
      runMigration e f (e.insertVersion version) script w := by
  unfold applyMigration
  rw [if_neg (by rwa [List.contains_iff_mem, mem_getAppliedVersions])]

theorem not_allOrNothing_of_throw {f : MigrationFaults} {version : ℤ} {script : List Statement}
    {w : MigrationWriter Schema} (hnew : version ∉ w.db.versions)
    (h : ∃ w' what, runMigration e f (e.insertVersion version) script w = .throw w' what) :
    ¬ AllOrNothing e f version script w := by
  obtain ⟨w', what, hrun⟩ := h
  unfold AllOrNothing
  rw [applyMigration_of_notMem hnew, hrun]
  rintro (⟨w'', h, -⟩ | h) <;> cases h

/-- A transaction that aborts is rolled back, or the call throws. -/
theorem allOrNothing_iff_of_aborts {f : MigrationFaults} {version : ℤ} {script : List Statement}
    {w : MigrationWriter Schema} (hnew : version ∉ w.db.versions) (hw : w.begun = none)
    (hbegin : f.begin = none) (h : Aborts e f script w) :
    AllOrNothing e f version script w ↔ f.rollback = none := by
  obtain ⟨hback, hstuck⟩ := runMigration_aborts hw hbegin h (e.insertVersion version)
  constructor
  · intro hall
    by_contra hrollback
    exact not_allOrNothing_of_throw hnew (hstuck hrollback) hall
  · exact fun hrollback => .inr ((applyMigration_of_notMem hnew).trans (hback hrollback))

/-- What is left is determined by the script and the faults. -/
theorem leaves_iff {f : MigrationFaults} {version : ℤ} {script : List Statement}
    {w : MigrationWriter Schema} {mid : MigrationDb Schema}
    (htry : tryScript e f.statement 0 script w.db = .ok mid) {db : MigrationDb Schema} :
    Leaves e f version script w db ↔ db = f.stepped (e.insertVersion version) mid := by
  constructor
  · rintro ⟨mid', htry', rfl⟩
    rw [Except.ok.inj (htry.symm.trans htry')]
  · rintro rfl
    exact ⟨mid, htry, rfl⟩

theorem stepped_cases (f : MigrationFaults) (edit : MigrationDb Schema → MigrationDb Schema)
    (db : MigrationDb Schema) : f.stepped edit db = db ∨ f.stepped edit db = edit db := by
  unfold MigrationFaults.stepped
  split
  · exact .inl rfl
  · exact .inr rfl

/-- A transaction that commits may lack the version, and nobody notices; or the call
throws after all. -/
theorem allOrNothing_iff_of_commits {f : MigrationFaults} {version : ℤ}
    {script : List Statement} {w : MigrationWriter Schema} (hnew : version ∉ w.db.versions)
    (hw : w.begun = none) (hbegin : f.begin = none) (h : ¬ Aborts e f script w) :
    AllOrNothing e f version script w ↔ Records e f version script w ∧ Refreshes f := by
  obtain ⟨db, htry, hret, hthrow⟩ := runMigration_commits hw hbegin h (e.insertVersion version)
  by_cases hfresh : Refreshes f
  · have hrun := (applyMigration_of_notMem hnew).trans (hret hfresh)
    rw [and_iff_left hfresh]
    constructor
    · rintro (⟨w', h, hmem, -⟩ | h)
      · rw [hrun] at h
        cases h
        intro db' hleaves
        rw [(leaves_iff htry).mp hleaves]
        exact hmem
      · rw [hrun] at h
        exact absurd (Outcome.ret.inj h).2 (by decide)
    · intro hrecords
      exact .inl ⟨_, hrun, hrecords _ ((leaves_iff htry).mpr rfl),
        .inr ⟨db, runs_of_tryScript htry, stepped_cases f _ db⟩⟩
  · exact iff_of_false (not_allOrNothing_of_throw hnew (hthrow hfresh)) fun h => hfresh h.2

/-- **A migration is all-or-nothing exactly if its faults are tolerable.** -/
theorem allOrNothing_iff {f : MigrationFaults} {version : ℤ} {script : List Statement}
    {w : MigrationWriter Schema} :
    AllOrNothing e f version script w ↔ Tolerable e f version script w := by
  by_cases hnew : version ∈ w.db.versions
  · exact iff_of_true (.inl ⟨w, applyMigration_of_mem hnew, hnew, .inl ⟨hnew, rfl⟩⟩) (.inl hnew)
  unfold Tolerable
  rw [or_iff_right hnew]
  by_cases hbegin : w.begun = none ∧ f.begin = none
  · rw [and_iff_right hbegin]
    by_cases haborts : Aborts e f script w
    · rw [allOrNothing_iff_of_aborts hnew hbegin.1 hbegin.2 haborts, and_iff_right haborts]
      exact (or_iff_left fun h => h.1 haborts).symm
    · rw [allOrNothing_iff_of_commits hnew hbegin.1 hbegin.2 haborts, and_iff_right haborts]
      exact (or_iff_right fun h => haborts h.1).symm
  · have hthrow : ∃ what, runMigration e f (e.insertVersion version) script w = .throw w what :=
      runMigration_not_begun hbegin _ _
    exact iff_of_false (not_allOrNothing_of_throw hnew ⟨w, hthrow⟩) fun h => hbegin h.1

/-! ### The loop in `Initialize` -/

variable {configured : List (Migration Statement)} {mgr : MigrationManager configured}

variable (mgr) in
/-- The number of migrations above `start` that are not recorded. -/
def MigrationManager.pendingCount (start : ℤ) (w : MigrationWriter Schema) : ℕ :=
  (mgr.migrations.filter fun mg =>
    !decide (mg.version ≤ start) && !w.db.versions.contains mg.version).length

/-- What a call that returns `true` leaves, if its faults are tolerable. -/
theorem applyPendingMigrations_true {f : MigrationFaults} {start : ℤ}
    {w w' : MigrationWriter Schema} {mg : Migration Statement}
    (hpending : mgr.pending start w.getAppliedVersions = some mg)
    (htol : Tolerable e f mg.version mg.rollout w)
    (h : mgr.applyPendingMigrations e f start w = .ret w' true) :
    Leaves e f mg.version mg.rollout w w'.db ∧ mg.version ∈ w'.db.versions := by
  obtain ⟨-, -, hnew⟩ := MigrationManager.pending_spec hpending
  rw [mem_getAppliedVersions] at hnew
  rw [MigrationManager.applyPendingMigrations_some hpending] at h
  rcases htol with hmem | ⟨hbegin, ⟨haborts, hrollback⟩ | ⟨haborts, hrecords, hfresh⟩⟩
  · exact absurd hmem hnew
  · rw [(runMigration_aborts hbegin.1 hbegin.2 haborts _).1 hrollback] at h
    cases h
  · obtain ⟨db, htry, hret, -⟩ := runMigration_commits hbegin.1 hbegin.2 haborts
      (e.insertVersion mg.version)
    rw [hret hfresh] at h
    cases h
    have hleaves : Leaves e f mg.version mg.rollout w _ := (leaves_iff htry).mpr rfl
    exact ⟨hleaves, hrecords _ hleaves⟩

/-- **A call that returns `true` leaves fewer pending migrations**, if no version is taken
out of the table. -/
theorem pendingCount_lt {f : MigrationFaults} {start : ℤ} {w w' : MigrationWriter Schema}
    {mg : Migration Statement} (hpending : mgr.pending start w.getAppliedVersions = some mg)
    (htol : Tolerable e f mg.version mg.rollout w)
    (hkeeps : KeepsVersions e f mg.version mg.rollout w)
    (h : mgr.applyPendingMigrations e f start w = .ret w' true) :
    mgr.pendingCount start w' < mgr.pendingCount start w := by
  obtain ⟨hleaves, hrecorded⟩ := applyPendingMigrations_true hpending htol h
  obtain ⟨hmem, hstart, hnew⟩ := MigrationManager.pending_spec hpending
  rw [mem_getAppliedVersions] at hnew
  have hsub := hkeeps _ hleaves
  unfold MigrationManager.pendingCount
  -- what is pending afterwards was pending before, and lacks `mg`
  have hfilter : (mgr.migrations.filter fun m => !decide (m.version ≤ start) &&
      !w'.db.versions.contains m.version) =
      (mgr.migrations.filter fun m => !decide (m.version ≤ start) &&
        !w.db.versions.contains m.version).filter fun m => !w'.db.versions.contains m.version := by
    rw [List.filter_filter]
    refine List.filter_congr fun m _ => ?_
    by_cases hold : m.version ∈ w.db.versions
    · simp [hold, hsub hold]
    · simp [hold, Bool.and_comm]
  rw [hfilter, List.length_filter_lt_length_iff_exists]
  refine ⟨mg, List.mem_filter.mpr ⟨hmem, ?_⟩, by simp [hrecorded]⟩
  simp [hstart, hnew]

variable (mgr e) in
/-- A turn of the loop in `Initialize`: with these faults, this migration is applied and
`true` is returned. -/
def RolloutTurn (w : MigrationWriter Schema) (turn : MigrationFaults × Migration Statement)
    (w' : MigrationWriter Schema) : Prop :=
  mgr.pending (-1) w.getAppliedVersions = some turn.2 ∧
    mgr.applyPendingMigrations e turn.1 (-1) w = .ret w' true

variable (e) in
/-- The faults of a turn are tolerable, and it takes no version out of the table. -/
def TolerableTurn (w : MigrationWriter Schema)
    (turn : MigrationFaults × Migration Statement) : Prop :=
  Tolerable e turn.1 turn.2.version turn.2.rollout w ∧
    KeepsVersions e turn.1 turn.2.version turn.2.rollout w

/-- The loop takes at most one turn for each pending migration. -/
theorem length_add_pendingCount_le {w w' : MigrationWriter Schema}
    {turns : List (MigrationFaults × Migration Statement)}
    (h : Run (Guarded (RolloutTurn e mgr) (TolerableTurn e)) w turns w') :
    turns.length + mgr.pendingCount (-1) w' ≤ mgr.pendingCount (-1) w := by
  induction h with
  | nil w => exact (Nat.zero_add _).le
  | cons hs _ ih =>
    obtain ⟨⟨hpending, hret⟩, htol, hkeeps⟩ := hs
    have hlt := pendingCount_lt hpending htol hkeeps hret
    rw [List.length_cons]
    omega

variable (e) in
/-- **Migrations under faults**: one is all-or-nothing exactly if its faults are
tolerable; then, if it takes no version out of the table, a `true` result leaves fewer
pending migrations, and the loop takes at most one turn for each. -/
theorem migrations_all_or_nothing :
    (∀ f version script w, AllOrNothing e f version script w ↔
      Tolerable e f version script w) ∧
    ∀ (configured : List (Migration Statement)) (mgr : MigrationManager configured),
      (∀ f start w w' mg, mgr.pending start w.getAppliedVersions = some mg →
        Tolerable e f mg.version mg.rollout w → KeepsVersions e f mg.version mg.rollout w →
          mgr.applyPendingMigrations e f start w = .ret w' true →
            mgr.pendingCount start w' < mgr.pendingCount start w) ∧
      ∀ w turns w', Run (Guarded (RolloutTurn e mgr) (TolerableTurn e)) w turns w' →
        turns.length + mgr.pendingCount (-1) w' ≤ mgr.pendingCount (-1) w := by
  refine ⟨fun f version script w => allOrNothing_iff, fun configured mgr => ⟨?_, ?_⟩⟩
  · intro f start w w' mg hpending htol hkeeps hret
    exact pendingCount_lt hpending htol hkeeps hret
  · intro w turns w' hrun
    exact length_add_pendingCount_le hrun

end

/-! ### Two scripts -/

/-- A statement of `tallyEngine`. -/
inductive Tally where
  /-- It counts. -/
  | count
  /-- `CREATE TRIGGER IF NOT EXISTS` before an `INSERT` into `versions`, which aborts it. -/
  | keepOut

/-- What the statements leave: how many of them were run, and whether there is a trigger
that keeps rows out of `versions`. -/
def tallyEngine : SqlEngine Tally (ℕ × Bool) where
  exec
    | .count, ⟨⟨n, trigger⟩, versions⟩ => .ok ⟨⟨n + 1, trigger⟩, versions⟩
    | .keepOut, ⟨⟨n, _⟩, versions⟩ => .ok ⟨⟨n + 1, true⟩, versions⟩
  insertVersion version db :=
    if db.schema.2 then db else { db with versions := insertVersion version db.versions }
  deleteVersion version db := { db with versions := deleteVersion version db.versions }
  tableColumns := fun _ => ⟨[], [], []⟩

/-- The database after `n` statements. -/
def tallied (n : ℕ) (trigger : Bool) (versions : List ℤ) : MigrationWriter (ℕ × Bool) :=
  ⟨⟨⟨n, trigger⟩, versions⟩, none, ⟨[], [], []⟩⟩

/-- Two migrations that count. -/
def countingMigrations :
    MigrationManager [(⟨1, [.count], []⟩ : Migration Tally), ⟨2, [.count, .count], []⟩] where
  migrations := [⟨1, [.count], []⟩, ⟨2, [.count, .count], []⟩]
  perm := List.Perm.refl _
  sorted := by simp

/-- A migration that counts, with nothing failing, does no harm. -/
theorem tolerableTurn_count {n : ℕ} {versions : List ℤ} {version : ℤ} {script : List Tally}
    {db : MigrationDb (ℕ × Bool)} (hnew : version ∉ versions)
    (htry : tryScript tallyEngine (fun _ => none) 0 script (tallied n false versions).db = .ok db)
    (hversions : db.versions = versions) (htrigger : db.schema.2 = false) :
    TolerableTurn tallyEngine (tallied n false versions) (.none, ⟨version, script, []⟩) := by
  have hleft : ∀ db', Leaves tallyEngine .none version script (tallied n false versions) db' →
      db'.versions = versions ++ [version] := by
    intro db' hleaves
    rw [(leaves_iff htry).mp hleaves, MigrationFaults.stepped, if_neg (by decide)]
    show (if db.schema.2 then db else
      { db with versions := insertVersion version db.versions }).versions = _
    rw [if_neg (by rw [htrigger]; decide), hversions]
    exact insertVersion_of_notMem hnew
  refine ⟨.inr ⟨⟨rfl, rfl⟩, .inr ⟨?_, ?_, rfl, rfl, rfl⟩⟩, ?_⟩
  · rintro (⟨msg, hmsg⟩ | h | h)
    · exact absurd (htry.symm.trans hmsg) (by simp)
    · exact h rfl
    · exact h rfl
  · intro db' hleaves
    rw [hleft db' hleaves]
    exact List.mem_append_right _ List.mem_cons_self
  · intro db' hleaves
    rw [hleft db' hleaves]
    exact List.subset_append_left _ _

/-- Both migrations are applied, in two turns. -/
theorem migrations_all_or_nothing_two :
    AllOrNothing tallyEngine .none 1 [.count] (tallied 0 false []) ∧
      2 + countingMigrations.pendingCount (-1) (tallied 3 false [1, 2]) ≤
        countingMigrations.pendingCount (-1) (tallied 0 false []) := by
  have hfirst : TolerableTurn tallyEngine (tallied 0 false []) (.none, ⟨1, [.count], []⟩) :=
    tolerableTurn_count List.not_mem_nil rfl rfl rfl
  have hsecond : TolerableTurn tallyEngine (tallied 1 false [1])
      (.none, ⟨2, [.count, .count], []⟩) :=
    tolerableTurn_count (by decide) rfl rfl rfl
  obtain ⟨hall, hrest⟩ := migrations_all_or_nothing tallyEngine
  refine ⟨(hall _ _ _ _).mpr hfirst.1, ?_⟩
  exact (hrest _ countingMigrations).2 (tallied 0 false [])
    [(.none, ⟨1, [.count], []⟩), (.none, ⟨2, [.count, .count], []⟩)] (tallied 3 false [1, 2])
    (.cons ⟨⟨rfl, rfl⟩, hfirst⟩ (.single ⟨⟨rfl, rfl⟩, hsecond⟩))

/-! ### A record that is lost -/

/-- One migration, whose script makes the trigger. -/
def triggerMigration : MigrationManager [(⟨1, [.keepOut], []⟩ : Migration Tally)] where
  migrations := [⟨1, [.keepOut], []⟩]
  perm := List.Perm.refl _
  sorted := List.pairwise_singleton _ _

/-- The trigger keeps the record out, the result of the step is not looked at, and the
migration is applied again in every turn of the loop, which never ends. -/
theorem rollout_repeats :
    ¬ AllOrNothing tallyEngine .none 1 [.keepOut] (tallied 0 false []) ∧
      ∀ n, ∃ trigger, Run (RolloutTurn tallyEngine triggerMigration) (tallied 0 false [])
        (List.replicate n (.none, ⟨1, [.keepOut], []⟩)) (tallied n trigger []) := by
  refine ⟨?_, ?_⟩
  · rintro (⟨w', h, hmem, -⟩ | h)
    · cases h
      cases hmem
    · cases h
  · suffices h : ∀ n k trigger, ∃ trigger',
        Run (RolloutTurn tallyEngine triggerMigration) (tallied k trigger [])
          (List.replicate n (.none, ⟨1, [.keepOut], []⟩)) (tallied (k + n) trigger' []) by
      intro n
      simpa using h n 0 false
    intro n
    induction n with
    | zero => exact fun k trigger => ⟨trigger, .nil _⟩
    | succ n ih =>
      intro k trigger
      obtain ⟨trigger', hrest⟩ := ih (k + 1) true
      rw [Nat.add_assoc, Nat.add_comm 1 n] at hrest
      exact ⟨trigger', .cons ⟨rfl, rfl⟩ hrest⟩

end LogLite
