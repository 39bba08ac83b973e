import LogLite.Server.Failures

/-!
# Shutdown

When the flush task sees the stop request it ends, without another flush; what is
in the backlog then, and what is added later, stays there.  When the server's pool
is stopped the task does not even get that far, and when the pool of the write
strand is stopped a batch it has not begun is dropped.

## Main definitions

* `Settled` — every entry is committed, dropped and counted, or refused.
* `Graceful` — no step leaves an entry where it is not looked at any more.
* `Doomed` — an entry is left behind.

## Main results

* `graceful_shutdown_iff` — **when `RunServer` has returned, every entry is settled
  if and only if every step was graceful.**
-/

namespace LogLite

open Transition

/-- Every entry that was added is in the log table, or was dropped and counted, or
refused. -/
def Settled (tables : Tables) (s : ServerState) : Prop :=
  s.backlogDrops = s.book.dropped.length ∧ ∃ committed, Committed tables s committed ∧
    (s.book.added : Multiset Json) = committed + s.book.dropped + s.book.refused

/-- No call of an insertion fails. -/
def NoFailure (act : ServerAction) : Prop := ∀ f, act = .insert f → f = .none

/-- The step leaves no entry behind: the task ends and the server's pool stops with
an empty backlog, nothing is added afterwards, the write strand's pool stops with
no batch waiting, and an inserted batch has a column to be written to. -/
def Graceful (cat : DatabaseCatalog) (s : ServerState) : ServerAction → Prop
  | .add _ => s.phase = .serving ∧ s.task ≠ .ended
  | .check => s.stopping = true → s.backlog.queue = []
  | .insert _ => cat.insertColumns ≠ []
  | .stopPool => s.backlog.queue = []
  | .stopWritePool => s.task.batch = []
  | _ => True

/-- The coroutine of the flush task is not over. -/
def FlushTask.running : FlushTask → Bool
  | .crashed => false
  | .ended => false
  | _ => true

/-- The backlog is not flushed any more. -/
def Stuck (s : ServerState) : Prop := s.task.running = false ∨ s.phase ≠ .serving

/-- The write strand does not begin anything any more. -/
def Phase.strandDone : Phase → Bool
  | .writePoolStopped => true
  | .returned => true
  | _ => false

/-- An entry is lost, or will be. -/
inductive Doomed (s : ServerState) : Prop
  | lost : s.book.lost ≠ [] → Doomed s
  | backlog : Stuck s → s.backlog.queue ≠ [] → Doomed s
  | batch : s.phase.strandDone = true → s.task.batch ≠ [] → Doomed s

/-- A batch that is handed to the write strand has entries. -/
def BatchNonempty (s : ServerState) : Prop := ∀ batch, s.task = .dispatched batch → batch ≠ []

section
variable {cat : DatabaseCatalog} {tables : Tables} {s t : ServerState} {act : ServerAction}

/-- What is settled is neither lost nor held. -/
theorem settled_iff (h : Balanced tables s) : Settled tables s ↔
    s.book.lost = [] ∧ s.task.batch = [] ∧ s.backlog.queue = [] := by
  constructor
  · rintro ⟨-, committed, hcomm, hentries⟩
    have hzero := h.rest_eq_zero hcomm (hentries.trans (add_zero _).symm) (zero_add _).symm
    rw [Multiset.coe_add, Multiset.coe_add, Multiset.coe_eq_zero, List.append_eq_nil_iff,
      List.append_eq_nil_iff] at hzero
    exact ⟨hzero.1.1, hzero.1.2, hzero.2⟩
  · rintro ⟨hlost, hbatch, hqueue⟩
    obtain ⟨committed, hcomm, hentries⟩ := h.entries
    refine ⟨h.drops, committed, hcomm, ?_⟩
    rw [hentries, hlost, hbatch, hqueue]
    simp

theorem BatchNonempty.step (h : BatchNonempty s) (hstep : ServerStep cat s act t) :
    BatchNonempty t := by
  cases hstep with
  | flush hphase htask hqueue =>
    intro batch hbatch
    obtain rfl := FlushTask.dispatched.inj hbatch
    exact hqueue
  | add => exact h
  | requestStop => exact h
  | stopPool => exact h
  | stopHarvesters => exact h
  | stopWritePool => exact h
  | join => exact h
  | _ => exact nofun

/-! ### What is left behind stays behind -/

theorem Stuck.of_phase {p : Phase} (h : s.phase = p) (hp : p ≠ .serving) : Stuck s := by
  right
  rw [h]
  exact hp

/-- While the server's pool runs, a task that is stuck is over. -/
theorem Stuck.running_eq_false (h : Stuck s) (hphase : s.phase = .serving) :
    s.task.running = false :=
  h.resolve_right fun hne => hne hphase

theorem Stuck.not_running (h : Stuck s) (hphase : s.phase = .serving) {task : FlushTask}
    (htask : s.task = task) (hrunning : task.running = true) : False := by
  have hover := h.running_eq_false hphase
  rw [htask, hrunning] at hover
  cases hover

/-- A task that is stuck stays so, and its backlog does not get empty. -/
theorem Stuck.step (h : Stuck s) (hstep : ServerStep cat s act t) :
    Stuck t ∧ (s.backlog.queue ≠ [] → t.backlog.queue ≠ []) := by
  cases hstep with
  | add hphase hadd => exact ⟨h, fun _ => Backlog.add_queue_ne_nil hadd⟩
  | checkStop hphase htask hstop => exact (h.not_running hphase htask rfl).elim
  | check hphase htask hstop => exact (h.not_running hphase htask rfl).elim
  | flushNone hphase htask hqueue => exact (h.not_running hphase htask rfl).elim
  | flush hphase htask hqueue => exact (h.not_running hphase htask rfl).elim
  | resume hphase htask => exact (h.not_running hphase htask rfl).elim
  | taskError hphase htask => exact ⟨.inl rfl, id⟩
  | insert _ _ htask hret =>
    exact ⟨.inr fun hphase => h.not_running hphase htask rfl, id⟩
  | insertThrows _ _ htask hthrow =>
    exact ⟨.inr fun hphase => h.not_running hphase htask rfl, id⟩
  | requestStop hphase => exact ⟨h, id⟩
  | stopPool hphase hstop => exact ⟨.of_phase (p := .poolStopped) rfl (by decide), id⟩
  | stopHarvesters hphase => exact ⟨.of_phase (p := .harvestersStopped) rfl (by decide), id⟩
  | stopWritePool hphase => exact ⟨.of_phase (p := .writePoolStopped) rfl (by decide), id⟩
  | join hphase => exact ⟨.of_phase (p := .returned) rfl (by decide), id⟩

theorem not_strandDone (hpool : s.phase ≠ .writePoolStopped) (hreturned : s.phase ≠ .returned) :
    ¬ s.phase.strandDone = true := by
  intro hdone
  unfold Phase.strandDone at hdone
  split at hdone
  · next hphase => exact hpool hphase
  · next hphase => exact hreturned hphase
  · cases hdone

/-- After the write strand's pool is stopped, a waiting batch keeps waiting. -/
theorem strandDone_step (h : s.phase.strandDone = true) (hstep : ServerStep cat s act t) :
    t.phase.strandDone = true ∧ t.task.batch = s.task.batch := by
  cases hstep with
  | add hphase hadd => exact ⟨h, rfl⟩
  | checkStop hphase htask hstop => simp [hphase, Phase.strandDone] at h
  | check hphase htask hstop => simp [hphase, Phase.strandDone] at h
  | flushNone hphase htask hqueue => simp [hphase, Phase.strandDone] at h
  | flush hphase htask hqueue => simp [hphase, Phase.strandDone] at h
  | resume hphase htask => simp [hphase, Phase.strandDone] at h
  | taskError hphase htask => simp [hphase, Phase.strandDone] at h
  | insert hpool hreturned htask hret => exact (not_strandDone hpool hreturned h).elim
  | insertThrows hpool hreturned htask hthrow => exact (not_strandDone hpool hreturned h).elim
  | requestStop hphase => exact ⟨h, rfl⟩
  | stopPool hphase hstop => simp [hphase, Phase.strandDone] at h
  | stopHarvesters hphase => simp [hphase, Phase.strandDone] at h
  | stopWritePool hphase => simp [hphase, Phase.strandDone] at h
  | join hphase => exact ⟨rfl, rfl⟩

theorem Doomed.step (h : Doomed s) (hstep : ServerStep cat s act t) : Doomed t := by
  cases h with
  | lost hlost => exact .lost fun hnil => hlost (List.subset_nil.mp (hnil ▸ hstep.lost_subset))
  | backlog hstuck hqueue =>
    obtain ⟨hstuck', hkeep⟩ := hstuck.step hstep
    exact .backlog hstuck' (hkeep hqueue)
  | batch hdone hbatch =>
    obtain ⟨hdone', hsame⟩ := strandDone_step hdone hstep
    exact .batch hdone' (hsame ▸ hbatch)

/-- **A step that is not graceful leaves an entry behind.** -/
theorem Doomed.of_not_graceful (hstep : ServerStep cat s act t) (hbatch : BatchNonempty s)
    (hgraceful : ¬ Graceful cat s act) : Doomed t := by
  cases hstep with
  | add hphase hadd =>
    refine .backlog ?_ (Backlog.add_queue_ne_nil hadd)
    by_cases hserving : s.phase = .serving
    · by_cases hended : s.task = .ended
      · exact .inl (by rw [ServerState.added, hended]; rfl)
      · exact absurd ⟨hserving, hended⟩ hgraceful
    · exact .inr hserving
  | checkStop hphase htask hstop =>
    exact .backlog (.inl rfl) fun hnil => hgraceful fun _ => hnil
  | check hphase htask hstop =>
    refine absurd (fun htrue => ?_) hgraceful
    rw [hstop] at htrue
    cases htrue
  | @insert batch f db rs hpool hreturned htask hret =>
    -- a table without a column to write has no results, so the whole batch is lost
    have hcols : cat.insertColumns = [] := not_not.mp hgraceful
    rw [insertReport_of_insertColumns_eq_nil hcols] at hret
    cases hret
    refine .lost ?_
    show s.book.lost ++ failedLogs s.task.batch [] ≠ []
    rw [htask]
    simp [failedLogs, FlushTask.batch, hbatch batch htask]
  | @insertThrows batch f db what hpool hreturned htask hthrow =>
    refine .lost ?_
    show s.book.lost ++ s.task.batch ≠ []
    rw [htask]
    simp [FlushTask.batch, hbatch batch htask]
  | stopPool hphase hstop =>
    exact .backlog (.of_phase (p := .poolStopped) rfl (by decide)) hgraceful
  | stopWritePool hphase => exact .batch rfl hgraceful
  | _ => exact absurd trivial hgraceful

theorem Doomed.not_settled (h : Doomed s) (hb : Balanced tables s) : ¬ Settled tables s := by
  intro hsettled
  obtain ⟨hlost, hbatch, hqueue⟩ := (settled_iff hb).mp hsettled
  cases h with
  | lost hne => exact hne hlost
  | backlog _ hne => exact hne hqueue
  | batch _ hne => exact hne hbatch

/-! ### Graceful runs -/

/-- Nothing is lost, a task that is stuck has left nothing in the backlog, and
neither has the write strand left a batch. -/
structure Tidy (s : ServerState) : Prop where
  lost : s.book.lost = []
  running : s.task ≠ .crashed
  backlog : Stuck s → s.backlog.queue = []
  batch : s.phase.strandDone = true → s.task.batch = []

theorem tidy_start (tables : Tables) (d : LookupTable) (maxSize : ℕ) :
    Tidy (.start tables d maxSize) where
  lost := rfl
  running := nofun
  backlog := fun _ => rfl
  batch := nofun

/-- **Graceful steps leave nothing behind.** -/
theorem Tidy.step (h : Tidy s) (hb : s.db.conn.begun = none) (hstep : ServerStep cat s act t)
    (hfail : NoFailure act) (hgraceful : Graceful cat s act) : Tidy t := by
  cases hstep with
  | add hphase hadd =>
    refine ⟨h.lost, h.running, fun hstuck => ?_, h.batch⟩
    have hover : s.task.running = false := hstuck.running_eq_false hgraceful.1
    unfold FlushTask.running at hover
    split at hover
    · next hcrashed => exact absurd hcrashed h.running
    · next hended => exact absurd hended hgraceful.2
    · cases hover
  | checkStop hphase htask hstop =>
    exact ⟨h.lost, fun hcrash => (by cases hcrash), fun _ => hgraceful hstop, fun _ => rfl⟩
  | check hphase htask hstop =>
    exact ⟨h.lost, fun hcrash => (by cases hcrash),
      fun hstuck => (hstuck.not_running hphase rfl rfl).elim, fun _ => rfl⟩
  | flushNone hphase htask hqueue =>
    exact ⟨h.lost, fun hcrash => (by cases hcrash), fun _ => rfl, fun _ => rfl⟩
  | flush hphase htask hqueue =>
    refine ⟨h.lost, fun hcrash => (by cases hcrash), fun _ => rfl, fun hdone => ?_⟩
    have hdone : s.phase.strandDone = true := hdone
    rw [hphase] at hdone
    cases hdone
  | resume hphase htask =>
    exact ⟨h.lost, fun hcrash => (by cases hcrash),
      fun hstuck => (hstuck.not_running hphase rfl rfl).elim, fun _ => rfl⟩
  | taskError hphase htask => exact absurd htask h.running
  | @insert batch f db rs hpool hreturned htask hret =>
    obtain rfl := hfail f rfl
    refine ⟨?_, fun hcrash => (by cases hcrash), fun hstuck => ?_, fun _ => rfl⟩
    · show s.book.lost ++ failedLogs s.task.batch rs = []
      rw [h.lost, htask, FlushTask.batch,
        failedLogs_eq_nil (Faults.none_quiet _) hgraceful hb hret, List.append_nil]
    · refine h.backlog (.inr fun hphase => ?_)
      exact hstuck.not_running hphase rfl rfl
  | @insertThrows batch f db what hpool hreturned htask hthrow =>
    obtain rfl := hfail f rfl
    exact absurd hthrow (insertReport_ne_throw (Faults.none_quiet _) hb)
  | requestStop hphase => exact ⟨h.lost, h.running, h.backlog, h.batch⟩
  | stopPool hphase hstop =>
    exact ⟨h.lost, h.running, fun _ => hgraceful, fun hdone => by cases hdone⟩
  | stopHarvesters hphase =>
    exact ⟨h.lost, h.running, fun _ => h.backlog (.of_phase hphase (by decide)),
      fun hdone => by cases hdone⟩
  | stopWritePool hphase =>
    exact ⟨h.lost, h.running, fun _ => h.backlog (.of_phase hphase (by decide)),
      fun _ => hgraceful⟩
  | join hphase =>
    refine ⟨h.lost, h.running, fun _ => h.backlog (.of_phase hphase (by decide)),
      fun _ => h.batch ?_⟩
    rw [hphase]
    rfl

/-! ### The theorem -/

/-- The steps of a server none of whose insertions has a failing call. -/
abbrev FaultlessStep (cat : DatabaseCatalog) : ServerState → ServerAction → ServerState → Prop :=
  Guarded (ServerStep cat) fun _ act => NoFailure act

/-- **When `RunServer` has returned, every entry that was added is committed,
dropped and counted, or refused, if and only if every step was graceful.** -/
theorem graceful_shutdown_iff {d : LookupTable} {maxSize : ℕ} {acts : List ServerAction}
    (hrun : Run (FaultlessStep cat) (.start tables d maxSize) acts s)
    (hreturned : s.phase = .returned) :
    Settled tables s ↔
      Run (Guarded (FaultlessStep cat) (Graceful cat)) (.start tables d maxSize) acts s := by
  constructor
  · intro hsettled
    rcases hrun.guarded_or_break (Graceful cat) with hguarded | ⟨ls, act, ls', a, b, -, hpre, hstep,
      hbreak, hpost⟩
    · exact hguarded
    · -- the step that breaks the condition leaves an entry behind for good
      exfalso
      have ha := hpre.invariant (I := fun s => Balanced tables s ∧ BatchNonempty s)
        (fun _ _ _ h hstep => ⟨h.1.step hstep.1.1, h.2.step hstep.1.1⟩)
        ⟨balanced_start tables d maxSize, nofun⟩
      have hdoom := Doomed.of_not_graceful hstep.1 ha.2 hbreak
      have hend := hpost.invariant (I := fun s => Balanced tables s ∧ Doomed s)
        (fun _ _ _ h hstep => ⟨h.1.step hstep.1, h.2.step hstep.1⟩)
        ⟨ha.1.step hstep.1, hdoom⟩
      exact hend.2.not_settled hend.1 hsettled
  · intro hguarded
    have hinv := hguarded.invariant (I := fun s => Balanced tables s ∧ Tidy s)
      (fun _ _ _ h hstep => ⟨h.1.step hstep.1.1, h.2.step h.1.begun hstep.1.1 hstep.1.2 hstep.2⟩)
      ⟨balanced_start tables d maxSize, tidy_start tables d maxSize⟩
    refine (settled_iff hinv.1).mpr ⟨hinv.2.lost, hinv.2.batch ?_,
      hinv.2.backlog (.of_phase hreturned (by decide))⟩
    rw [hreturned]
    rfl

end

/-- A stop request after the only entry was inserted. -/
theorem graceful_shutdown_after_flush : ∃ s,
    Run (ServerStep textCatalog) (.start ⟨[], []⟩ ∅ 10)
        [.add (levelLog "INFO"), .check, .flush, .insert .none, .resume, .requestStop, .check,
          .stopPool, .stopHarvesters, .stopWritePool, .join] s ∧ Settled ⟨[], []⟩ s := by
  have hcols : textCatalog.insertColumns ≠ [] := by decide
  have hrun : Run (Guarded (FaultlessStep textCatalog) (Graceful textCatalog))
      (.start ⟨[], []⟩ ∅ 10) [.add (levelLog "INFO"), .check, .flush, .insert .none, .resume,
        .requestStop, .check, .stopPool, .stopHarvesters, .stopWritePool, .join] _ :=
    .cons ⟨⟨.add (.inl rfl) rfl, nofun⟩, rfl, nofun⟩ <|
    .cons ⟨⟨.check rfl rfl rfl, nofun⟩, nofun⟩ <|
    .cons ⟨⟨.flush rfl rfl nofun, nofun⟩, trivial⟩ <|
    .cons ⟨⟨.insert nofun nofun rfl rfl, fun f hact => by cases hact; rfl⟩, hcols⟩ <|
    .cons ⟨⟨.resume rfl rfl, nofun⟩, trivial⟩ <|
    .cons ⟨⟨.requestStop rfl, nofun⟩, trivial⟩ <|
    .cons ⟨⟨.checkStop rfl rfl rfl, nofun⟩, fun _ => rfl⟩ <|
    .cons ⟨⟨.stopPool rfl rfl, nofun⟩, rfl⟩ <|
    .cons ⟨⟨.stopHarvesters rfl, nofun⟩, trivial⟩ <|
    .cons ⟨⟨.stopWritePool rfl, nofun⟩, rfl⟩ <|
    .single ⟨⟨.join rfl, nofun⟩, trivial⟩
  exact ⟨_, hrun.of_guarded.of_guarded, (graceful_shutdown_iff hrun.of_guarded rfl).mpr hrun⟩

/-- A stop request comes before the first flush; the entry stays in the backlog. -/
theorem stop_leaves_entry_in_backlog : ¬ ∀ (cat : DatabaseCatalog) (tables : Tables)
    (d : LookupTable) (maxSize : ℕ) (acts : List ServerAction) (s : ServerState),
      cat.insertColumns ≠ [] → Run (FaultlessStep cat) (.start tables d maxSize) acts s →
        s.phase = .returned → Settled tables s := by
  intro h
  obtain ⟨-, committed, hcomm, hentries⟩ := h textCatalog ⟨[], []⟩ ∅ 10
    [.add (levelLog "INFO"), .requestStop, .check, .stopPool, .stopHarvesters, .stopWritePool,
      .join] _ (by decide) (.cons ⟨.add (.inl rfl) rfl, nofun⟩ <|
        .cons ⟨.requestStop rfl, nofun⟩ <| .cons ⟨.checkStop rfl rfl rfl, nofun⟩ <|
        .cons ⟨.stopPool rfl rfl, nofun⟩ <| .cons ⟨.stopHarvesters rfl, nofun⟩ <|
        .cons ⟨.stopWritePool rfl, nofun⟩ <| .single ⟨.join rfl, nofun⟩) rfl
  -- nothing was written to the log table
  have hnil : committed = [] := hcomm.symm
  subst hnil
  have hperm : ([levelLog "INFO"] : List Json).Perm [] := Multiset.coe_eq_coe.mp hentries
  exact absurd hperm.length_eq (by decide)

end LogLite
