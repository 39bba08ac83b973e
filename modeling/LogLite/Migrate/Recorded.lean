import LogLite.Lib.Run
import LogLite.Migrate.Manager

/-!
# What the recorded versions say about the schema

If scripts leave the table `versions` and the transaction alone, and migrations are
applied in ascending order and rolled back in descending order, the table `versions`
tells the schema: it is what the rollout scripts of the recorded
versions, run in ascending order, make of the first schema.  Nothing keeps calls to that order:
`start_version` passes over versions that are applied later, and any configured
version can be rolled back.

## Main definitions

* `MigrationCall`, `MigrationStep` — calls of the manager.
* `Described` — the recorded versions tell the schema.
* `InOrder` — a call applies a version above all recorded ones, or rolls back the
  largest one.
* `stackEngine` — scripts that leave a record of the order they were run in.

## Main results

* `recorded_versions_describe` — **runs of calls that are in order leave a schema that
  the recorded versions tell.**
* `inOrder_of_described` — for other calls there are scripts for which they do not.
-/

namespace LogLite

open Transition

/-- A call of the manager; `answer` is what is read at the prompt. -/
inductive MigrationCall where
  | applyPending (start : ℤ)
  | rollback (version : ℤ) (force : Bool) (answer : Bytes)

section
variable {Statement Schema : Type} {configured : List (Migration Statement)}
variable (mgr : MigrationManager configured) (e : PlainEngine Statement Schema)

/-- How the call ends, if no call of SQLite fails but a statement of a script. -/
def MigrationCall.outcome (w : MigrationWriter Schema) :
    MigrationCall → Outcome (MigrationWriter Schema) Bytes Bool
  | .applyPending start => mgr.applyPendingMigrations e.engine .none start w
  | .rollback version force answer => mgr.rollbackMigration e.engine .none version force answer w

/-- A call that returns or throws. -/
def MigrationStep (w : MigrationWriter Schema) (call : MigrationCall)
    (w' : MigrationWriter Schema) : Prop :=
  (call.outcome mgr e w).Ends w'

/-- A database without recorded versions. -/
def MigrationWriter.fresh (init : Schema) (columns : CatalogColumns) : MigrationWriter Schema :=
  ⟨⟨init, []⟩, none, columns⟩

/-- The rollout scripts of some migrations, one after the other. -/
def runRollouts : List (Migration Statement) → Schema → Except Bytes Schema
  | [], s => .ok s
  | mg :: mgs, s => (runScript e mg.rollout s).bind fun s => runRollouts mgs s

/-- The migrations with a recorded version, in ascending order. -/
def MigrationManager.recorded (versions : List ℤ) : List (Migration Statement) :=
  mgr.migrations.filter fun mg => versions.contains mg.version

/-- The recorded versions are configured, and their rollout scripts in ascending order
lead from the first schema to the present one. -/
structure Described (init : Schema) (w : MigrationWriter Schema) : Prop where
  configured : ∀ v ∈ w.db.versions, ∃ mg ∈ mgr.migrations, mg.version = v
  schema : runRollouts e (mgr.recorded w.db.versions) init = .ok w.db.schema

/-- Each rollback script undoes the rollout script of its migration. -/
def RollbackUndoes (configured : List (Migration Statement)) : Prop :=
  ∀ mg ∈ configured, ∀ s s', runScript e mg.rollout s = .ok s' → runScript e mg.rollback s' = .ok s

/-- The call applies a version above all recorded ones, or rolls back the largest
recorded one, if it applies or rolls back anything. -/
def InOrder (w : MigrationWriter Schema) : MigrationCall → Prop
  | .applyPending start => ∀ mg, mgr.pending start w.getAppliedVersions = some mg →
      ∀ v ∈ w.db.versions, v < mg.version
  | .rollback version force answer => (∃ mg ∈ mgr.migrations, mg.version = version) →
      confirmed force answer = true → version ∈ w.db.versions ∧ ∀ v ∈ w.db.versions, v ≤ version

variable {mgr e}

/-! ### What a call does -/

/-- A call applies a pending migration, or rolls back a configured one, or changes
nothing. -/
theorem MigrationStep.cases {w w' : MigrationWriter Schema} {call : MigrationCall}
    (hb : w.begun = none) (h : MigrationStep mgr e w call w') :
    w' = w ∨
    (∃ start mg s, call = .applyPending start ∧
      mgr.pending start w.getAppliedVersions = some mg ∧
      runScript e mg.rollout w.db.schema = .ok s ∧
      w' = ⟨⟨s, w.db.versions ++ [mg.version]⟩, none, e.tableColumns s⟩) ∨
    ∃ force answer mg s, call = .rollback mg.version force answer ∧ mg ∈ mgr.migrations ∧
      confirmed force answer = true ∧ runScript e mg.rollback w.db.schema = .ok s ∧
      w' = ⟨⟨s, deleteVersion mg.version w.db.versions⟩, none, e.tableColumns s⟩ := by
  cases call with
  | applyPending start =>
    unfold MigrationStep MigrationCall.outcome at h
    cases hpending : mgr.pending start w.getAppliedVersions with
    | none =>
      simp only [MigrationManager.applyPendingMigrations, hpending, Outcome.ends_ret] at h
      exact .inl h.symm
    | some mg =>
      obtain ⟨-, -, hnew⟩ := MigrationManager.pending_spec hpending
      rw [mem_getAppliedVersions] at hnew
      simp only [MigrationManager.applyPendingMigrations_some hpending] at h
      cases hscript : runScript e mg.rollout w.db.schema with
      | error msg =>
        -- the script failed and left no trace
        rw [runMigration_error hb hscript, Outcome.ends_ret] at h
        exact .inl h.symm
      | ok s =>
        rw [runMigration_insert hb hscript hnew, Outcome.ends_ret] at h
        exact .inr (.inl ⟨start, mg, s, rfl, hpending, hscript, h.symm⟩)
  | rollback version force answer =>
    unfold MigrationStep MigrationCall.outcome at h
    cases hfind : mgr.migrations.find? fun mg => mg.version == version with
    | none =>
      simp only [MigrationManager.rollbackMigration, hfind, Outcome.ends_throw] at h
      exact .inl h.symm
    | some mg =>
      obtain rfl : mg.version = version := by simpa using List.find?_some hfind
      by_cases hconf : confirmed force answer = true
      · simp only [MigrationManager.rollbackMigration_some hfind hconf] at h
        cases hscript : runScript e mg.rollback w.db.schema with
        | error msg =>
          rw [runMigration_error hb hscript, Outcome.ends_ret] at h
          exact .inl h.symm
        | ok s =>
          rw [runMigration_delete hb hscript, Outcome.ends_ret] at h
          exact .inr (.inr ⟨force, answer, mg, s, rfl, List.mem_of_find?_eq_some hfind, hconf,
            hscript, h.symm⟩)
      · simp only [MigrationManager.rollbackMigration, hfind, hconf] at h
        exact .inl (Eq.symm h)

/-! ### Calls in order -/

theorem MigrationManager.mem_recorded {versions : List ℤ} {mg : Migration Statement} :
    mg ∈ mgr.recorded versions ↔ mg ∈ mgr.migrations ∧ mg.version ∈ versions := by
  rw [MigrationManager.recorded, List.mem_filter, List.contains_iff_mem]

theorem runRollouts_append (mgs mgs' : List (Migration Statement)) (s : Schema) :
    runRollouts e (mgs ++ mgs') s = (runRollouts e mgs s).bind (runRollouts e mgs') := by
  induction mgs generalizing s with
  | nil => rfl
  | cons mg mgs ih =>
    simp only [List.cons_append, runRollouts]
    cases runScript e mg.rollout s with
    | error msg => rfl
    | ok t => exact ih t

/-- The last one of the recorded migrations is split off. -/
theorem MigrationManager.recorded_eq_append (hdistinct : (configured.map (·.version)).Nodup)
    {versions versions' : List ℤ} {mg : Migration Statement} (hmg : mg ∈ mgr.migrations)
    (hlt : ∀ v ∈ versions, v < mg.version)
    (hmem : ∀ v, v ∈ versions' ↔ v ∈ versions ∨ v = mg.version) :
    mgr.recorded versions' = mgr.recorded versions ++ [mg] := by
  have hnodup : (mgr.migrations.map (·.version)).Nodup :=
    (mgr.perm.map (·.version)).nodup_iff.mpr hdistinct
  obtain ⟨before, after, hsplit⟩ := List.append_of_mem hmg
  have hsorted := mgr.sorted
  unfold MigrationManager.recorded
  rw [hsplit] at hnodup hsorted ⊢
  simp only [List.map_append, List.map_cons, List.nodup_append, List.nodup_cons, List.mem_map,
    List.pairwise_append, List.pairwise_cons] at hnodup hsorted
  have hbefore : ∀ x ∈ before, versions'.contains x.version = versions.contains x.version := by
    intro x hx
    have hne : x.version ≠ mg.version :=
      hnodup.2.2 _ ⟨x, hx, rfl⟩ _ List.mem_cons_self
    rw [Bool.eq_iff_iff, List.contains_iff_mem, List.contains_iff_mem, hmem]
    exact or_iff_left hne
  -- the migrations are sorted, so what comes after `mg` is above all recorded versions
  have hafter : ∀ x ∈ after, x.version ∉ versions' := by
    intro x hx hrec
    have hle := hsorted.2.1.1 x hx
    rcases (hmem _).mp hrec with hold | hsame
    · exact absurd (hlt _ hold) (by omega)
    · exact hnodup.2.1.1 ⟨x, hx, hsame⟩
  have hnil : ∀ l : List ℤ, (∀ v ∈ l, v ∈ versions') →
      after.filter (fun x => l.contains x.version) = [] := by
    intro l hl
    refine List.filter_eq_nil_iff.mpr fun x hx hrec => hafter x hx (hl _ ?_)
    rwa [List.contains_iff_mem] at hrec
  have hself : (mg :: after).filter (fun x => versions'.contains x.version) = [mg] := by
    rw [List.filter_cons, if_pos (List.contains_iff_mem.mpr ((hmem _).mpr (.inr rfl))),
      hnil versions' fun _ h => h]
  have hself' : (mg :: after).filter (fun x => versions.contains x.version) = [] := by
    have hnot : mg.version ∉ versions := fun h => absurd (hlt _ h) (by omega)
    rw [List.filter_cons, if_neg (by rwa [List.contains_iff_mem]),
      hnil versions fun v h => (hmem v).mpr (.inl h)]
  rw [List.filter_append, List.filter_append, hself, hself', List.filter_congr hbefore,
    List.append_nil]

/-- The rollouts of the recorded versions end with the one of the largest. -/
theorem runRollouts_recorded (hdistinct : (configured.map (·.version)).Nodup)
    {versions versions' : List ℤ} {mg : Migration Statement} (hmg : mg ∈ mgr.migrations)
    (hlt : ∀ v ∈ versions, v < mg.version)
    (hmem : ∀ v, v ∈ versions' ↔ v ∈ versions ∨ v = mg.version) (init : Schema) :
    runRollouts e (mgr.recorded versions') init =
      (runRollouts e (mgr.recorded versions) init).bind (runScript e mg.rollout) := by
  rw [MigrationManager.recorded_eq_append hdistinct hmg hlt hmem, runRollouts_append]
  cases runRollouts e (mgr.recorded versions) init with
  | error msg => rfl
  | ok s =>
    show (runScript e mg.rollout s).bind .ok = runScript e mg.rollout s
    cases runScript e mg.rollout s <;> rfl

theorem lt_of_mem_deleteVersion {version v : ℤ} {versions : List ℤ}
    (hle : ∀ v ∈ versions, v ≤ version) (hv : v ∈ deleteVersion version versions) :
    v < version := by
  have hne : v ≠ version := by simpa using List.of_mem_filter hv
  have hv' := hle v (List.mem_of_mem_filter hv)
  omega

theorem mem_iff_deleteVersion {version : ℤ} {versions : List ℤ} (hrecorded : version ∈ versions)
    (v : ℤ) : v ∈ versions ↔ v ∈ deleteVersion version versions ∨ v = version := by
  rw [deleteVersion, List.mem_filter]
  by_cases hv : v = version
  · simp [hv, hrecorded]
  · simp [hv]

/-- A call in order keeps the description. -/
theorem Described.step (hdistinct : (configured.map (·.version)).Nodup)
    (hundo : RollbackUndoes e configured) {init : Schema} {w w' : MigrationWriter Schema}
    {call : MigrationCall} (hb : w.begun = none) (hw : Described mgr e init w)
    (hstep : MigrationStep mgr e w call w') (horder : InOrder mgr w call) :
    w'.begun = none ∧ Described mgr e init w' := by
  obtain rfl | ⟨start, mg, s, rfl, hpending, hscript, rfl⟩ |
    ⟨force, answer, mg, s, rfl, hmg, hconf, hscript, rfl⟩ := hstep.cases hb
  · exact ⟨hb, hw⟩
  · obtain ⟨hmg, -, -⟩ := MigrationManager.pending_spec hpending
    refine ⟨rfl, ?_, ?_⟩
    · intro v hv
      rcases List.mem_append.mp hv with hv | hv
      · exact hw.configured v hv
      · exact ⟨mg, hmg, (List.mem_singleton.mp hv).symm⟩
    · have hmem : ∀ v, v ∈ w.db.versions ++ [mg.version] ↔
          v ∈ w.db.versions ∨ v = mg.version := by simp
      have hlast := runRollouts_recorded (e := e) hdistinct hmg (horder mg hpending) hmem init
      rw [hw.schema] at hlast
      exact hlast.trans hscript
  · obtain ⟨hrecorded, hle⟩ := horder ⟨mg, hmg, rfl⟩ hconf
    refine ⟨rfl, fun v hv => hw.configured v (List.mem_of_mem_filter hv), ?_⟩
    have hlast := runRollouts_recorded (e := e) hdistinct hmg
      (fun v hv => lt_of_mem_deleteVersion hle hv) (mem_iff_deleteVersion hrecorded) init
    rw [hw.schema] at hlast
    show runRollouts e (mgr.recorded (deleteVersion mg.version w.db.versions)) init = .ok s
    cases hbefore : runRollouts e (mgr.recorded (deleteVersion mg.version w.db.versions)) init with
    | error msg =>
      rw [hbefore] at hlast
      cases hlast
    | ok s₀ =>
      -- the last rollout led from `s₀` to the present schema
      rw [hbefore] at hlast
      have hback := hundo mg (mgr.perm.mem_iff.mp hmg) s₀ _ hlast.symm
      rw [hscript] at hback
      exact hback.symm

theorem described_fresh (init : Schema) (columns : CatalogColumns) :
    Described mgr e init (.fresh init columns) where
  configured := fun _ hv => absurd hv List.not_mem_nil
  schema := by
    have hnil : mgr.recorded [] = [] := List.filter_eq_nil_iff.mpr fun _ _ => by simp
    show runRollouts e (mgr.recorded []) init = .ok init
    rw [hnil]
    rfl

/-- **The recorded versions describe the schema**, as long as migrations are applied in
ascending and rolled back in descending order, and scripts leave the table `versions`
and the transaction alone. -/
theorem recorded_versions_describe (hdistinct : (configured.map (·.version)).Nodup)
    (hundo : RollbackUndoes e configured) {init : Schema} {columns : CatalogColumns}
    {calls : List MigrationCall} {w : MigrationWriter Schema}
    (hrun : Run (Guarded (MigrationStep mgr e) (InOrder mgr)) (.fresh init columns) calls w) :
    Described mgr e init w := by
  refine (hrun.invariant (I := fun w => w.begun = none ∧ Described mgr e init w) ?_
    ⟨rfl, described_fresh init columns⟩).2
  rintro w call w' ⟨hb, hw⟩ ⟨hstep, horder⟩
  exact hw.step hdistinct hundo hb hstep horder

end

/-! ### Scripts that tell the order they were run in -/

/-- The rollout script of a version puts it on a stack; the rollback script takes it off,
and leaves a mark if it is not on top. -/
def stackExec : Bool × ℤ → List (Bool × ℤ) → List (Bool × ℤ)
  | (true, v), s => (true, v) :: s
  | (false, v), s => if s.head? = some (true, v) then s.tail else (false, v) :: s

/-- Statements and schemas of this kind. -/
def stackEngine : PlainEngine (Bool × ℤ) (List (Bool × ℤ)) where
  exec sql s := .ok (stackExec sql s)
  tableColumns _ := ⟨[], [], []⟩

/-- The migration of a version. -/
def stackMigration (v : ℤ) : Migration (Bool × ℤ) := ⟨v, [(true, v)], [(false, v)]⟩

theorem rollbackUndoes_stack (versions : List ℤ) :
    RollbackUndoes stackEngine (versions.map stackMigration) := by
  intro mg hmg s s' h
  obtain ⟨v, -, rfl⟩ := List.mem_map.mp hmg
  cases h
  show Except.ok (stackExec (false, v) ((true, v) :: s)) = .ok s
  rw [stackExec, List.head?_cons, if_pos rfl, List.tail_cons]

section
variable {versions : List ℤ} {mgr : MigrationManager (versions.map stackMigration)}

theorem runRollouts_stack {mgs : List (Migration (Bool × ℤ))} (h : ∀ mg ∈ mgs, ∃ v ∈ versions,
    mg = stackMigration v) (s : List (Bool × ℤ)) :
    runRollouts stackEngine mgs s = .ok ((mgs.map fun mg => (true, mg.version)).reverse ++ s) := by
  induction mgs generalizing s with
  | nil => rfl
  | cons mg mgs ih =>
    obtain ⟨v, -, rfl⟩ := h mg List.mem_cons_self
    rw [List.map_cons, List.reverse_cons, List.append_assoc]
    exact ih (fun mg' hmg' => h mg' (List.mem_cons_of_mem _ hmg')) _

theorem Described.stack_eq {w : MigrationWriter (List (Bool × ℤ))}
    (hw : Described mgr stackEngine [] w) :
    w.db.schema = ((mgr.recorded w.db.versions).map fun mg => (true, mg.version)).reverse := by
  have hstack : ∀ mg ∈ mgr.recorded w.db.versions, ∃ v ∈ versions, mg = stackMigration v := by
    intro mg hmg
    have hconf := mgr.perm.mem_iff.mp (MigrationManager.mem_recorded.mp hmg).1
    obtain ⟨v, hv, rfl⟩ := List.mem_map.mp hconf
    exact ⟨v, hv, rfl⟩
  have hschema := hw.schema
  rw [runRollouts_stack hstack, List.append_nil] at hschema
  exact (Except.ok.inj hschema).symm

/-- The version on top of the stack is the largest recorded one. -/
theorem Described.top {w : MigrationWriter (List (Bool × ℤ))} {v : ℤ} {t : List (Bool × ℤ)}
    (hw : Described mgr stackEngine [] w) (htop : w.db.schema = (true, v) :: t) :
    v ∈ w.db.versions ∧ ∀ u ∈ w.db.versions, u ≤ v := by
  have hmap := hw.stack_eq.symm.trans htop
  rw [List.reverse_eq_cons_iff, List.map_eq_append_iff] at hmap
  obtain ⟨before, last, hsplit, -, hlast⟩ := hmap
  obtain ⟨mg, rfl, hmg⟩ := List.map_eq_singleton_iff.mp hlast
  obtain rfl : mg.version = v := congrArg Prod.snd hmg
  have hmem : mg ∈ mgr.recorded w.db.versions := by simp [hsplit]
  refine ⟨(MigrationManager.mem_recorded.mp hmem).2, fun u hu => ?_⟩
  obtain ⟨mg', hmg', rfl⟩ := hw.configured u hu
  have hmem' : mg' ∈ mgr.recorded w.db.versions :=
    MigrationManager.mem_recorded.mpr ⟨hmg', hu⟩
  have hsorted : (mgr.recorded w.db.versions).Pairwise fun a b => a.version ≤ b.version :=
    mgr.sorted.sublist List.filter_sublist
  rw [hsplit, List.pairwise_append] at hsorted
  rw [hsplit, List.mem_append, List.mem_singleton] at hmem'
  rcases hmem' with hbefore | rfl
  · exact hsorted.2.2 mg' hbefore mg List.mem_cons_self
  · exact le_refl _

theorem runScript_rollout {mg : Migration (Bool × ℤ)} (hmg : mg ∈ mgr.migrations)
    (s : List (Bool × ℤ)) : runScript stackEngine mg.rollout s = .ok ((true, mg.version) :: s) := by
  obtain ⟨v, -, rfl⟩ := List.mem_map.mp (mgr.perm.mem_iff.mp hmg)
  rfl

theorem runScript_rollback {mg : Migration (Bool × ℤ)} (hmg : mg ∈ mgr.migrations)
    (s : List (Bool × ℤ)) :
    runScript stackEngine mg.rollback s = .ok (stackExec (false, mg.version) s) := by
  obtain ⟨v, -, rfl⟩ := List.mem_map.mp (mgr.perm.mem_iff.mp hmg)
  rfl

/-- **For other calls there are scripts for which the recorded versions do not describe
the schema**: for these, a call that keeps the description is in order. -/
theorem inOrder_of_described {w w' : MigrationWriter (List (Bool × ℤ))} {call : MigrationCall}
    (hb : w.begun = none) (hstep : MigrationStep mgr stackEngine w call w')
    (hw : Described mgr stackEngine [] w) (hw' : Described mgr stackEngine [] w') :
    InOrder mgr w call := by
  cases call with
  | applyPending start =>
    intro mg hpending v hv
    obtain ⟨hmg, -, hnew⟩ := MigrationManager.pending_spec hpending
    rw [mem_getAppliedVersions] at hnew
    unfold MigrationStep MigrationCall.outcome at hstep
    simp only [MigrationManager.applyPendingMigrations_some hpending,
      runMigration_insert hb (runScript_rollout hmg _) hnew] at hstep
    obtain rfl := hstep
    have hle := (hw'.top rfl).2 v (List.mem_append_left _ hv)
    have hne : v ≠ mg.version := fun heq => hnew (heq ▸ hv)
    omega
  | rollback version force answer =>
    rintro ⟨mg, hmg, rfl⟩ hconf
    obtain ⟨mg', hfind⟩ :
        ∃ mg', mgr.migrations.find? (fun x => x.version == mg.version) = some mg' :=
      Option.isSome_iff_exists.mp (List.find?_isSome.mpr ⟨mg, hmg, by simp⟩)
    have hversion : mg'.version = mg.version := by simpa using List.find?_some hfind
    have hmg' := List.mem_of_find?_eq_some hfind
    unfold MigrationStep MigrationCall.outcome at hstep
    simp only [MigrationManager.rollbackMigration_some hfind hconf,
      runMigration_delete hb (runScript_rollback hmg' _)] at hstep
    obtain rfl := hstep
    by_cases htop : w.db.schema.head? = some (true, mg.version)
    · obtain ⟨t, ht⟩ := List.head?_eq_some_iff.mp htop
      exact hw.top ht
    · -- the mark is on the stack, and no rollout script leaves one
      have hmark := hw'.stack_eq
      rw [hversion] at hmark
      simp only [stackExec, if_neg htop] at hmark
      have hmem : (false, mg.version) ∈ (false, mg.version) :: w.db.schema := List.mem_cons_self
      rw [hmark] at hmem
      simp at hmem

end

/-! ### Two migrations -/

/-- Versions 1 and 2, configured in the other order. -/
def twoMigrations : MigrationManager ([2, 1].map stackMigration) where
  migrations := [stackMigration 1, stackMigration 2]
  perm := List.Perm.swap _ _ _
  sorted := by simp [stackMigration]

/-- A database before the first migration. -/
def emptyStack : MigrationWriter (List (Bool × ℤ)) := .fresh [] ⟨[], [], []⟩

/-- The database after these versions were recorded. -/
def stackAfter (schema : List (Bool × ℤ)) (versions : List ℤ) : MigrationWriter (List (Bool × ℤ)) :=
  ⟨⟨schema, versions⟩, none, ⟨[], [], []⟩⟩

theorem twoMigrations_distinct : (([2, 1].map stackMigration).map (·.version)).Nodup := by decide

/-- Both are applied, and the second one is rolled back. -/
theorem recorded_versions_describe_two :
    Described twoMigrations stackEngine [] (stackAfter [(true, 1)] [1]) := by
  have h₁ : MigrationStep twoMigrations stackEngine emptyStack (.applyPending (-1))
      (stackAfter [(true, 1)] [1]) := rfl
  have h₂ : MigrationStep twoMigrations stackEngine (stackAfter [(true, 1)] [1])
      (.applyPending (-1)) (stackAfter [(true, 2), (true, 1)] [1, 2]) := rfl
  have h₃ : MigrationStep twoMigrations stackEngine (stackAfter [(true, 2), (true, 1)] [1, 2])
      (.rollback 2 false (lit "y")) (stackAfter [(true, 1)] [1]) := rfl
  have ho₁ : InOrder twoMigrations emptyStack (.applyPending (-1)) := by
    intro mg _ v hv
    cases hv
  have ho₂ : InOrder twoMigrations (stackAfter [(true, 1)] [1]) (.applyPending (-1)) := by
    intro mg hmg v hv
    obtain rfl : stackMigration 2 = mg := Option.some.inj hmg
    obtain rfl := List.mem_singleton.mp hv
    decide
  have ho₃ : InOrder twoMigrations (stackAfter [(true, 2), (true, 1)] [1, 2])
      (.rollback 2 false (lit "y")) := fun _ _ => ⟨by decide, by decide⟩
  exact recorded_versions_describe twoMigrations_distinct (rollbackUndoes_stack _)
    (.cons ⟨h₁, ho₁⟩ (.cons ⟨h₂, ho₂⟩ (.cons ⟨h₃, ho₃⟩ (.nil _))))

/-- Version 1 is passed over and applied after version 2; or it is rolled back while
version 2 stays. -/
theorem recorded_versions_out_of_order :
    (∃ w, Run (MigrationStep twoMigrations stackEngine) emptyStack
        [.applyPending 1, .applyPending (-1)] w ∧
      ¬ Described twoMigrations stackEngine [] w) ∧
    ∃ w, Run (MigrationStep twoMigrations stackEngine) emptyStack
        [.applyPending (-1), .applyPending (-1), .rollback 1 true []] w ∧
      ¬ Described twoMigrations stackEngine [] w := by
  constructor
  · have h₁ : MigrationStep twoMigrations stackEngine emptyStack (.applyPending 1)
        (stackAfter [(true, 2)] [2]) := rfl
    have h₂ : MigrationStep twoMigrations stackEngine (stackAfter [(true, 2)] [2])
        (.applyPending (-1)) (stackAfter [(true, 1), (true, 2)] [2, 1]) := rfl
    refine ⟨_, .cons h₁ (.cons h₂ (.nil _)), fun h => ?_⟩
    exact absurd h.stack_eq (by decide)
  · have h₁ : MigrationStep twoMigrations stackEngine emptyStack (.applyPending (-1))
        (stackAfter [(true, 1)] [1]) := rfl
    have h₂ : MigrationStep twoMigrations stackEngine (stackAfter [(true, 1)] [1])
        (.applyPending (-1)) (stackAfter [(true, 2), (true, 1)] [1, 2]) := rfl
    have h₃ : MigrationStep twoMigrations stackEngine (stackAfter [(true, 2), (true, 1)] [1, 2])
        (.rollback 1 true []) (stackAfter [(false, 1), (true, 2), (true, 1)] [2]) := rfl
    refine ⟨_, .cons h₁ (.cons h₂ (.cons h₃ (.nil _))), fun h => ?_⟩
    exact absurd h.stack_eq (by decide)

end LogLite
