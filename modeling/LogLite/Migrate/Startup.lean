import LogLite.Migrate.AllOrNothing
import LogLite.Migrate.Recorded

/-!
# Rollout at startup

`Initialize` calls `ApplyPendingMigrations` until it returns `false`.  A call passes over the
versions up to its `start_version`, which is `-1` unless it is given, and over every
version that is recorded.  The configuration may have any versions: one below zero is
never applied, and of several migrations of one version only one is.  Scripts leave the
table `versions` and the transaction alone here.

## Main definitions

* `Startup` — the loop, with the migrations it applies.
* `RunsEachOnce` — every configured migration is applied once, in ascending order, and
  no other run of `Initialize` applies one.

## Main results

* `RolloutTurn.run_rest` — the loop goes through the migrations in their order.
* `startup_iff` — **it applies each of them once, exactly if the versions are distinct
  and not negative.**
-/

namespace LogLite

open Transition

section
variable {Statement Schema : Type} {configured : List (Migration Statement)}
variable (e : PlainEngine Statement Schema) (mgr : MigrationManager configured)

/-- The loop in `Initialize`, with no call failing: it applies these migrations, and then
a call returns `false`. -/
def Startup (w : MigrationWriter Schema) (applied : List (Migration Statement))
    (w' : MigrationWriter Schema) : Prop :=
  Run (RolloutTurn e.engine mgr) w (applied.map fun mg => (.none, mg)) w' ∧
    mgr.applyPendingMigrations e.engine .none (-1) w' = .ret w' false

/-- The loop ends; it has run the rollout script of every configured migration once, in
ascending order; and if it is run again, for whatever order of equal versions, it runs
none. -/
def RunsEachOnce (w : MigrationWriter Schema) : Prop :=
  ∃ applied w', Startup e mgr w applied w' ∧ applied.Perm configured ∧
    applied.Pairwise (fun mg mg' => mg.version ≤ mg'.version) ∧
    runRollouts e applied w.db.schema = .ok w'.db.schema ∧
    ∀ mgr' : MigrationManager configured, Startup e mgr' w' [] w'

variable {e mgr}

theorem applyPendingMigrations_none {w : MigrationWriter Schema} {f : MigrationFaults} {start : ℤ}
    (h : mgr.pending start w.getAppliedVersions = none) :
    mgr.applyPendingMigrations e.engine f start w = .ret w false := by
  unfold MigrationManager.applyPendingMigrations
  rw [h]

/-- Nothing is pending where every version is recorded. -/
theorem pending_eq_none {w : MigrationWriter Schema} {start : ℤ}
    (h : ∀ mg ∈ configured, mg.version ∈ w.db.versions) :
    mgr.pending start w.getAppliedVersions = none := by
  refine List.find?_eq_none.mpr fun mg hmg => ?_
  have hrec := mem_getAppliedVersions.mpr (h mg (mgr.perm.mem_iff.mp hmg))
  simp [hrec]

/-- The first migration that is not recorded is pending. -/
theorem pending_eq_some {w : MigrationWriter Schema} {done rest : List (Migration Statement)}
    {mg : Migration Statement} (hsplit : mgr.migrations = done ++ mg :: rest)
    (hdone : ∀ m ∈ done, m.version ∈ w.db.versions) (hnew : mg.version ∉ w.db.versions)
    (hstart : 0 ≤ mg.version) : mgr.pending (-1) w.getAppliedVersions = some mg := by
  unfold MigrationManager.pending
  rw [hsplit, List.find?_append]
  have hnone : done.find? (fun m => !decide (m.version ≤ -1) &&
      !w.getAppliedVersions.contains m.version) = none := by
    refine List.find?_eq_none.mpr fun m hm => ?_
    have hrec := mem_getAppliedVersions.mpr (hdone m hm)
    simp [hrec]
  rw [hnone, Option.none_or, List.find?_cons_of_pos]
  have hrec : mg.version ∉ w.getAppliedVersions := fun h => hnew (mem_getAppliedVersions.mp h)
  have hle : ¬ mg.version ≤ -1 := by omega
  simp [hrec, hle]

/-- A turn with nothing failing. -/
theorem RolloutTurn.of_ok {w : MigrationWriter Schema} {mg : Migration Statement} {s : Schema}
    (hw : w.begun = none) (hpending : mgr.pending (-1) w.getAppliedVersions = some mg)
    (hscript : runScript e mg.rollout w.db.schema = .ok s) :
    RolloutTurn e.engine mgr w (.none, mg)
      ⟨⟨s, w.db.versions ++ [mg.version]⟩, none, e.tableColumns s⟩ := by
  refine ⟨hpending, ?_⟩
  obtain ⟨-, -, hnew⟩ := MigrationManager.pending_spec hpending
  rw [mem_getAppliedVersions] at hnew
  rw [MigrationManager.applyPendingMigrations_some hpending, runMigration_insert hw hscript hnew]

/-- **The loop goes through the migrations in their order**: with the first ones
recorded, it applies the rest. -/
theorem RolloutTurn.run_rest (hstart : ∀ mg ∈ mgr.migrations, 0 ≤ mg.version)
    (hdistinct : (mgr.migrations.map (·.version)).Nodup) {t : Schema}
    (rest : List (Migration Statement)) :
    ∀ (done : List (Migration Statement)) (w : MigrationWriter Schema),
      mgr.migrations = done ++ rest → w.begun = none →
      w.db.versions = done.map (·.version) → runRollouts e rest w.db.schema = .ok t →
        ∃ w', Run (RolloutTurn e.engine mgr) w (rest.map fun mg => (.none, mg)) w' ∧
          w'.begun = none ∧ w'.db.versions = mgr.migrations.map (·.version) ∧
          w'.db.schema = t := by
  induction rest with
  | nil =>
    intro done w hsplit hw hversions hrun
    rw [List.append_nil] at hsplit
    cases hrun
    exact ⟨w, .nil w, hw, by rw [hversions, hsplit], rfl⟩
  | cons mg rest ih =>
    intro done w hsplit hw hversions hrun
    have hnew : mg.version ∉ w.db.versions := by
      rw [hsplit, List.map_append, List.map_cons] at hdistinct
      rw [hversions]
      intro hmem
      exact (List.nodup_append.mp hdistinct).2.2 _ hmem _ List.mem_cons_self rfl
    have hdone : ∀ m ∈ done, m.version ∈ w.db.versions := by
      intro m hm
      rw [hversions]
      exact List.mem_map_of_mem hm
    have hpending := pending_eq_some hsplit hdone hnew (hstart mg (by simp [hsplit]))
    unfold runRollouts at hrun
    cases hscript : runScript e mg.rollout w.db.schema with
    | error msg =>
      rw [hscript] at hrun
      cases hrun
    | ok s =>
      rw [hscript] at hrun
      have hturn := RolloutTurn.of_ok hw hpending hscript
      obtain ⟨w', hrest, hdone'⟩ := ih (done ++ [mg])
        ⟨⟨s, w.db.versions ++ [mg.version]⟩, none, e.tableColumns s⟩
        (by rw [hsplit, List.append_assoc]; rfl) rfl (by rw [hversions, List.map_append]; rfl) hrun
      exact ⟨w', .cons hturn hrest, hdone'⟩

/-- A migration the loop applies is not negative, and its version is not recorded before. -/
theorem versions_of_run {w w' : MigrationWriter Schema} {applied : List (Migration Statement)}
    (hw : w.begun = none)
    (h : Run (RolloutTurn e.engine mgr) w (applied.map fun mg => (.none, mg)) w') :
    (∀ mg ∈ applied, 0 ≤ mg.version ∧ mg.version ∉ w.db.versions) ∧
      (applied.map (·.version)).Nodup := by
  induction applied generalizing w with
  | nil => exact ⟨by simp, List.nodup_nil⟩
  | cons mg applied ih =>
    cases h with
    | cons hturn hrest =>
      obtain ⟨-, hstart, hnew⟩ := MigrationManager.pending_spec hturn.1
      rw [mem_getAppliedVersions] at hnew
      replace hstart : -1 < mg.version := hstart
      have hret := hturn.2
      rw [MigrationManager.applyPendingMigrations_some hturn.1] at hret
      cases hscript : runScript e mg.rollout w.db.schema with
      | error msg =>
        rw [runMigration_error hw hscript] at hret
        cases hret
      | ok s =>
        rw [runMigration_insert hw hscript hnew] at hret
        obtain ⟨rfl, -⟩ := Outcome.ret.inj hret
        obtain ⟨hall, hnodup⟩ := ih rfl hrest
        refine ⟨List.forall_mem_cons.mpr ⟨⟨by omega, hnew⟩, ?_⟩, ?_⟩
        · intro m hm
          obtain ⟨hm0, hmnew⟩ := hall m hm
          exact ⟨hm0, fun h => hmnew (List.mem_append_left _ h)⟩
        · rw [List.map_cons, List.nodup_cons]
          refine ⟨?_, hnodup⟩
          intro hmem
          obtain ⟨m, hm, heq⟩ := List.mem_map.mp hmem
          exact (hall m hm).2 (List.mem_append_right _ (by simp [heq]))

/-- **When startup applies each migration once**, for scripts that run through in
ascending order and leave the table `versions` and the transaction alone. -/
theorem startup_iff (init : Schema) (columns : CatalogColumns)
    (hscripts : ∃ s, runRollouts e mgr.migrations init = .ok s) :
    RunsEachOnce e mgr (.fresh init columns) ↔
      (∀ mg ∈ configured, 0 ≤ mg.version) ∧ (configured.map (·.version)).Nodup := by
  constructor
  · rintro ⟨applied, w', ⟨hrun, -⟩, hperm, -⟩
    obtain ⟨hall, hnodup⟩ := versions_of_run rfl hrun
    exact ⟨fun mg hmg => (hall mg (hperm.mem_iff.mpr hmg)).1,
      (hperm.map (·.version)).nodup_iff.mp hnodup⟩
  · rintro ⟨hstart, hdistinct⟩
    obtain ⟨s, hs⟩ := hscripts
    obtain ⟨w', hrun, -, hversions, hschema⟩ := RolloutTurn.run_rest (e := e)
      (fun mg hmg => hstart mg (mgr.perm.mem_iff.mp hmg))
      ((mgr.perm.map (·.version)).nodup_iff.mpr hdistinct) mgr.migrations []
      (.fresh init columns) rfl rfl rfl hs
    have hrec : ∀ mg ∈ configured, mg.version ∈ w'.db.versions := by
      intro mg hmg
      rw [hversions]
      exact List.mem_map_of_mem (mgr.perm.mem_iff.mpr hmg)
    refine ⟨mgr.migrations, w', ⟨hrun, applyPendingMigrations_none (pending_eq_none hrec)⟩,
      mgr.perm, mgr.sorted, by rw [hschema]; exact hs, fun mgr' => ⟨.nil w', ?_⟩⟩
    exact applyPendingMigrations_none (pending_eq_none hrec)

end

/-- Two migrations, configured in descending order. -/
theorem startup_two : RunsEachOnce stackEngine twoMigrations emptyStack :=
  (startup_iff [] ⟨[], [], []⟩ ⟨_, rfl⟩).mpr
    ⟨by decide, by decide⟩

/-- A migration below zero. -/
def negativeMigration : MigrationManager [stackMigration (-1)] where
  migrations := [stackMigration (-1)]
  perm := List.Perm.refl _
  sorted := List.pairwise_singleton _ _

theorem twin_sorted : [stackMigration 1, stackMigration 1].Pairwise
    fun mg mg' => mg.version ≤ mg'.version := by decide

/-- Two migrations of one version. -/
def twinMigrations : MigrationManager [stackMigration 1, stackMigration 1] where
  migrations := [stackMigration 1, stackMigration 1]
  perm := List.Perm.refl _
  sorted := twin_sorted

/-- A migration below zero is not applied, nor is the second one of a version. -/
theorem startup_leaves_out :
    ¬ RunsEachOnce stackEngine negativeMigration emptyStack ∧
      ¬ RunsEachOnce stackEngine twinMigrations emptyStack := by
  refine ⟨?_, ?_⟩
  · rintro ⟨applied, w', ⟨hrun, -⟩, hperm, -⟩
    have hall := (versions_of_run rfl hrun).1 (stackMigration (-1)) (hperm.mem_iff.mpr (by simp))
    exact absurd hall.1 (by decide)
  · rintro ⟨applied, w', ⟨hrun, -⟩, hperm, -⟩
    have hnodup := (hperm.map (·.version)).nodup_iff.mp (versions_of_run rfl hrun).2
    exact absurd hnodup (by decide)

end LogLite
