import LogLite.Server.FlushTask

/-!
# Failing calls of the flush task

`Flush` moves the batch out of the backlog before its insertion is attempted, and
nothing moves it back.  A call that throws takes the whole batch with it; a row
whose step fails is only logged.

## Main definitions

* `NoneLost` — every entry is committed, dropped and counted, refused, or held.
* `CallsSucceed` — no call of an insertion fails, and there is a column to write.
* `CallFails` — the insertion throws, or the step of a row fails.

## Main results

* `failures_lose_entries` — **no entry is lost while the calls succeed, and the
  batch's entries are lost for good when one fails.**
-/

namespace LogLite

open Transition

/-- Every entry that was added is in the log table, or was dropped and counted, or
refused, or is held for a later step. -/
def NoneLost (tables : Tables) (s : ServerState) : Prop :=
  s.backlogDrops = s.book.dropped.length ∧ ∃ committed, Committed tables s committed ∧
    (s.book.added : Multiset Json) =
      committed + s.book.dropped + s.book.refused + s.task.batch + s.backlog.queue

/-- An insertion of this step has a column to write, and none of its calls fails. -/
def CallsSucceed (cat : DatabaseCatalog) (s : ServerState) (act : ServerAction) : Prop :=
  ∀ f batch, act = .insert f → s.task = .dispatched batch →
    cat.insertColumns ≠ [] ∧ f.Quiet batch.length

/-- The insertion throws, or the step of a row fails. -/
def CallFails (cat : DatabaseCatalog) (f : Faults) (batch : List Json)
    (w : WriterDatabase) : Prop :=
  (∃ w' what, insertReport cat f batch w = .throw w' what) ∨
    ∃ w' rs, insertReport cat f batch w = .ret w' rs ∧ .failed ∈ rs

section
variable {cat : DatabaseCatalog} {tables : Tables} {s t : ServerState} {act : ServerAction}

theorem noneLost_iff (h : Balanced tables s) : NoneLost tables s ↔ s.book.lost = [] := by
  constructor
  · rintro ⟨-, committed, hcomm, hentries⟩
    rw [add_assoc _ (s.task.batch : Multiset Json)] at hentries
    have hzero : (s.book.lost : Multiset Json) = 0 := by
      refine h.rest_eq_zero hcomm hentries ?_
      abel
    exact (Multiset.coe_eq_zero _).mp hzero
  · intro hlost
    obtain ⟨committed, hcomm, hentries⟩ := h.entries
    refine ⟨h.drops, committed, hcomm, ?_⟩
    rw [hentries, hlost, Multiset.coe_nil, add_zero]

/-- What is lost stays lost. -/
theorem ServerStep.lost_subset (hstep : ServerStep cat s act t) : s.book.lost ⊆ t.book.lost := by
  cases hstep with
  | insert => exact List.subset_append_left _ _
  | insertThrows => exact List.subset_append_left _ _
  | _ => exact List.Subset.refl _

/-- Nothing is lost while the calls succeed. -/
theorem ServerStep.lost_eq (hstep : ServerStep cat s act t) (hb : s.db.conn.begun = none)
    (hcalls : CallsSucceed cat s act) : t.book.lost = s.book.lost := by
  cases hstep with
  | @insert batch f db rs _ _ htask hret =>
    obtain ⟨hcols, hquiet⟩ := hcalls f batch rfl htask
    show s.book.lost ++ failedLogs s.task.batch rs = _
    rw [htask, FlushTask.batch, failedLogs_eq_nil hquiet hcols hb hret, List.append_nil]
  | @insertThrows batch f db what _ _ htask hthrow =>
    exact absurd hthrow (insertReport_ne_throw (hcalls f batch rfl htask).2 hb)
  | _ => rfl

theorem mem_logsWith_failed : ∀ {logs : List Json} {rs : List RowResult},
    rs.length ≤ logs.length → .failed ∈ rs → logsWith RowResult.isFailed logs rs ≠ []
  | [], [], _, h => nomatch h
  | [], _ :: _, hlen, _ => nomatch hlen
  | _ :: _, [], _, h => nomatch h
  | log :: logs, r :: rs, hlen, h => by
    rw [logsWith]
    cases hr : r.isFailed with
    | true => exact List.cons_ne_nil _ _
    | false =>
      have hne : RowResult.failed ≠ r := by
        rintro rfl
        cases hr
      exact mem_logsWith_failed (Nat.le_of_succ_le_succ hlen)
          ((List.mem_cons.mp h).resolve_left hne)

/-- An insertion with a failing call loses an entry. -/
theorem lost_of_callFails {f : Faults} {batch : List Json} (htask : s.task = .dispatched batch)
    (hb : s.db.conn.begun = none) (hstep : ServerStep cat s (.insert f) t)
    (hfails : CallFails cat f batch s.db) : t.book.lost ≠ [] := by
  cases hstep with
  | @insert batch' _ db rs _ _ htask' hret =>
    obtain rfl := FlushTask.dispatched.inj (htask.symm.trans htask')
    rcases hfails with ⟨w', what, hthrow⟩ | ⟨w', rs', hret', hfailed⟩
    · rw [hret] at hthrow
      cases hthrow
    · rw [hret] at hret'
      cases hret'
      have hlen : rs.length ≤ batch.length := by
        rcases insertReport_ret hb hret with ⟨-, -, rfl⟩ | ⟨hcols, -⟩
        · exact Nat.zero_le _
        · exact ((insertReport_sources hb hret).1 hcols).le
      show s.book.lost ++ failedLogs s.task.batch rs ≠ []
      rw [htask, FlushTask.batch, failedLogs]
      simp [mem_logsWith_failed hlen hfailed]
  | @insertThrows batch' _ db what _ _ htask' hthrow =>
    obtain rfl := FlushTask.dispatched.inj (htask.symm.trans htask')
    have hne : batch ≠ [] := by
      rintro rfl
      unfold insertReport at hthrow
      rw [if_pos (by simp)] at hthrow
      cases hthrow
    show s.book.lost ++ s.task.batch ≠ []
    rw [htask, FlushTask.batch]
    simp [hne]

/-- **While the calls succeed, every entry is committed, dropped and counted,
refused, or held; after a failing call some entry is none of these, in every state
from then on.** -/
theorem failures_lose_entries {d : LookupTable} {maxSize : ℕ} :
    (∀ acts s, Run (Guarded (ServerStep cat) fun s act => act ≠ .requestStop ∧
      CallsSucceed cat s act) (.start tables d maxSize) acts s → NoneLost tables s) ∧
    (∀ acts s batch f t acts' u, Run (ServerStep cat) (.start tables d maxSize) acts s →
      s.task = .dispatched batch → CallFails cat f batch s.db → ServerStep cat s (.insert f) t →
        Run (ServerStep cat) t acts' u → ¬ NoneLost tables u) := by
  constructor
  · intro acts s hrun
    have hinv := hrun.invariant (I := fun s => Balanced tables s ∧ s.book.lost = []) ?_
      ⟨balanced_start tables d maxSize, rfl⟩
    · exact (noneLost_iff hinv.1).mpr hinv.2
    · intro s act t ⟨hb, hlost⟩ ⟨hstep, hguard⟩
      exact ⟨hb.step hstep, (hstep.lost_eq hb.begun hguard.2).trans hlost⟩
  · intro acts s batch f t acts' u hrun htask hfails hstep hrun'
    have hs := balanced_of_run hrun
    have ht : t.book.lost ≠ [] := lost_of_callFails htask hs.begun hstep hfails
    have hinv := hrun'.invariant (I := fun u => Balanced tables u ∧ u.book.lost ≠ []) ?_
      ⟨hs.step hstep, ht⟩
    · exact fun hnone => hinv.2 ((noneLost_iff hinv.1).mp hnone)
    · intro u act v ⟨hb, hlost⟩ hstep
      exact ⟨hb.step hstep, fun hnil => hlost (List.subset_nil.mp (hnil ▸ hstep.lost_subset))⟩

end

/-- A flush of one entry. -/
theorem failures_lose_entries_none : ∃ s,
    Run (ServerStep textCatalog) (.start ⟨[], []⟩ ∅ 10)
        [.add (levelLog "INFO"), .check, .flush, .insert .none, .resume] s ∧
      NoneLost ⟨[], []⟩ s := by
  have hquiet : ∀ s act, act ≠ .requestStop → (∀ f, act ≠ .insert f) →
      act ≠ .requestStop ∧ CallsSucceed textCatalog s act :=
    fun s act hstop hins => ⟨hstop, fun f batch hact => absurd hact (hins f)⟩
  have hrun : Run (Guarded (ServerStep textCatalog) fun s act => act ≠ .requestStop ∧
      CallsSucceed textCatalog s act) (.start ⟨[], []⟩ ∅ 10)
        [.add (levelLog "INFO"), .check, .flush, .insert .none, .resume] _ :=
    .cons ⟨.add (.inl rfl) rfl, hquiet _ _ nofun nofun⟩ <|
    .cons ⟨.check rfl rfl rfl, hquiet _ _ nofun nofun⟩ <|
    .cons ⟨.flush rfl rfl nofun, hquiet _ _ nofun nofun⟩ <|
    .cons ⟨.insert nofun nofun rfl rfl, nofun, fun f batch hact _ => by
      cases hact
      exact ⟨by decide, Faults.none_quiet _⟩⟩ <|
    .single ⟨.resume rfl rfl, hquiet _ _ nofun nofun⟩
  exact ⟨_, hrun.of_guarded, failures_lose_entries.1 _ _ hrun⟩

/-- The step of the first row fails.  A statement that was busy is reset before the next row is
bound; after a last row that was busy, `COMMIT` would fail too. -/
def busyFirst : Faults := { Faults.none with row := fun i => i == 0 }

/-- The first of two rows is not written because the database is locked; the second one is
committed, and the first entry is gone. -/
theorem busy_step_loses_entry : ¬ ∀ (cat : DatabaseCatalog) (tables : Tables) (d : LookupTable)
    (maxSize : ℕ) (acts : List ServerAction) (s : ServerState), cat.insertColumns ≠ [] →
      Run (Guarded (ServerStep cat) fun _ act => act ≠ .requestStop)
        (.start tables d maxSize) acts s → NoneLost tables s := by
  intro h
  obtain ⟨-, committed, hcomm, hentries⟩ := h textCatalog ⟨[], []⟩ ∅ 10
    [.add (levelLog "INFO"), .add (levelLog "WARN"), .check, .flush, .insert busyFirst] _
    (by decide) <|
    .cons ⟨.add (.inl rfl) rfl, nofun⟩ <| .cons ⟨.add (.inl rfl) rfl, nofun⟩ <|
    .cons ⟨.check rfl rfl rfl, nofun⟩ <| .cons ⟨.flush rfl rfl nofun, nofun⟩ <|
    .single ⟨.insert nofun nofun rfl rfl, nofun⟩
  -- the log table has the second entry, and nothing is held
  have hone : committed = [levelLog "WARN"] := hcomm.symm
  subst hone
  have hperm : ([levelLog "INFO", levelLog "WARN"] : List Json).Perm [levelLog "WARN"] :=
    Multiset.coe_eq_coe.mp hentries
  exact absurd hperm.length_eq (by decide)

end LogLite
