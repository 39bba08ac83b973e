import LogLite.Server.FlushTask
import LogLite.Vacuum.Pass

/-!
# The order of the entries

Entries pass through the backlog, the batch of the flush task and the log table, while
requests and harvesters add more, the backlog drops its oldest ones, calls on the
database fail, and the vacuum deletes rows.  Whatever happens, no entry overtakes another
one: what is still there of the old rows comes first in the log table, the rows made since
then, the batch and the backlog together are a subsequence of the entries in the order in
which they were added, and row ids follow that order.

## Main definitions

* `StoreStep` — a step of the server, or a deletion by the vacuum.
* `Follows s l` — the entries `l`, then the batch and the backlog, are in the order of
  arrival.
* `AddedInOrder` — what the table, the backlog and the book hold is in the order of arrival.

## Main results

* `vacuumPass_store` — a pass of the vacuum is a run of such deletions.
* `AddedInOrder.step` — every step keeps the order.
* `server_keeps_order` — **entries are never reordered, and row ids follow their order.**
-/

namespace LogLite

open Transition

/-- A step of the server, or a deletion. -/
inductive StoreAction where
  | server (act : ServerAction)
  | vacuum (fault : Option DeleteFault) (filters : List QueryFilter)

/-- One step of the server and of its vacuum, which deletes rows in calls on the write
strand. -/
inductive StoreStep (cat : DatabaseCatalog) : ServerState → StoreAction → ServerState → Prop
  | server {s t : ServerState} {act : ServerAction} :
      ServerStep cat s act t → StoreStep cat s (.server act) t
  | vacuum {s : ServerState} {fault : Option DeleteFault} {filters : List QueryFilter}
      {db : WriterDatabase} : s.phase ≠ .writePoolStopped → s.phase ≠ .returned →
      WriterStep cat s.db (.delete fault filters) db →
        StoreStep cat s (.vacuum fault filters) { s with db := db }

/-- The entries `l`, then those of the batch and of the backlog, are in the order of
arrival. -/
def Follows (s : ServerState) (l : List Json) : Prop :=
  (l ++ s.task.batch ++ s.backlog.queue).Sublist s.book.added

/-- The entries in each place are in the order of arrival, and so are the row ids. -/
structure AddedInOrder (tables : Tables) (s : ServerState) : Prop where
  /-- What is left of the rows from before comes first, then rows of entries. -/
  rows : ∃ old new, s.db.log = old ++ new ∧ old.Sublist tables.log ∧
    Follows s (new.map LogRow.source)
  refused : Follows s s.book.refused
  lost : Follows s s.book.lost
  /-- Entries are dropped before those that the backlog still holds. -/
  dropped : (s.book.dropped ++ s.backlog.queue).Sublist s.book.added
  ids : s.db.log.Pairwise fun a b => a.id < b.id

section
variable {cat : DatabaseCatalog} {tables : Tables} {s t : ServerState} {act : ServerAction}
  {l : List Json}

/-- **A pass of `VacuumTask`** is a run of its deletions. -/
theorem vacuumPass_store {cfg : VacuumConfig} {reads : PassReads} {db : WriterDatabase}
    {free free' : ℕ} (hphase : s.phase ≠ .writePoolStopped) (hreturned : s.phase ≠ .returned)
    (h : (vacuumPass cat cfg reads ⟨s.db, free⟩).Ends ⟨db, free'⟩) :
    ∃ acts, Run (StoreStep cat) s acts { s with db := db } := by
  obtain ⟨calls, hdels, hrun⟩ := vacuumPass_writer h
  suffices hall : ∀ (calls : List WriterCall) (w : WriterDatabase), Deletions calls →
      Run (WriterStep cat) w calls db →
        ∃ acts, Run (StoreStep cat) { s with db := w } acts { s with db := db } from
    hall calls s.db hdels hrun
  intro calls
  induction calls with
  | nil =>
    intro w _ hrun
    cases hrun
    exact ⟨[], .nil _⟩
  | cons call calls ih =>
    intro w hdels hrun
    obtain ⟨fault, filters, rfl⟩ := hdels call List.mem_cons_self
    obtain _ | ⟨hstep, hrest⟩ := hrun
    obtain ⟨acts, hacts⟩ := ih _ (fun c hc => hdels c (List.mem_cons_of_mem _ hc)) hrest
    have hvacuum : StoreStep cat { s with db := w } (.vacuum fault filters) _ :=
      .vacuum hphase hreturned hstep
    exact ⟨_, .cons hvacuum hacts⟩

/-- The batch and the backlog stay as they are. -/
theorem Follows.still (h : Follows s l) (hadded : t.book.added = s.book.added)
    (hbatch : t.task.batch = s.task.batch) (hqueue : t.backlog.queue = s.backlog.queue) :
    Follows t l := by
  unfold Follows
  rw [hadded, hbatch, hqueue]
  exact h

/-- A new entry comes last; the one that is dropped for it was first in the backlog. -/
theorem Follows.add (h : Follows s l) {log : Json} {backlog : Backlog} {dropped : Option Json}
    (hadd : s.backlog.add log = some (backlog, dropped)) :
    Follows (s.added backlog log dropped) l := by
  obtain ⟨rest, hold, hnew⟩ := Backlog.add_eq_some hadd
  unfold Follows at h ⊢
  rw [hold] at h
  show (l ++ s.task.batch ++ backlog.queue).Sublist (s.book.added ++ [log])
  rw [hnew, ← List.append_assoc]
  refine List.Sublist.append ?_ (.refl _)
  exact ((List.Sublist.refl _).append (List.sublist_append_right _ rest)).trans h

/-- The backlog becomes the batch. -/
theorem Follows.flush (h : Follows s l) (hbatch : s.task.batch = []) :
    Follows { s with backlog := s.backlog.flush.1, task := .dispatched s.backlog.flush.2 } l := by
  unfold Follows at h ⊢
  rw [hbatch, List.append_nil] at h
  show (l ++ s.backlog.queue ++ []).Sublist s.book.added
  rw [List.append_nil]
  exact h

/-- Some entries of the batch follow, and the others leave it. -/
theorem Follows.take (h : Follows s l) {m : List Json} (hm : m.Sublist s.task.batch)
    (hadded : t.book.added = s.book.added) (hbatch : t.task.batch = [])
    (hqueue : t.backlog.queue = s.backlog.queue) : Follows t (l ++ m) := by
  unfold Follows
  rw [hadded, hbatch, hqueue, List.append_nil]
  exact (((List.Sublist.refl l).append hm).append (.refl _)).trans h

/-- The logs with some result are in the order of the batch. -/
theorem logsWith_sublist (p : RowResult → Bool) : ∀ (logs : List Json) (rs : List RowResult),
    (logsWith p logs rs).Sublist (logs.take rs.length)
  | [], rs => by
    cases rs <;> exact List.Sublist.refl _
  | log :: logs, [] => by simp
  | log :: logs, r :: rs => by
    rw [logsWith, List.length_cons, List.take_succ_cons]
    split
    · exact (logsWith_sublist p logs rs).cons_cons log
    · exact (logsWith_sublist p logs rs).cons log

theorem failedLogs_sublist (logs : List Json) (rs : List RowResult) :
    (failedLogs logs rs).Sublist logs := by
  unfold failedLogs
  have happend := (logsWith_sublist RowResult.isFailed logs rs).append
    (List.Sublist.refl (logs.drop rs.length))
  rw [List.take_append_drop] at happend
  exact happend

/-- New rows get ids above all others. -/
theorem Appends.pairwise {rows rows' : List LogRow} (h : Appends rows rows')
    (hrows : rows.Pairwise fun a b => a.id < b.id) : rows'.Pairwise fun a b => a.id < b.id := by
  obtain ⟨new, rfl, hnew, hpair⟩ := h
  refine List.pairwise_append.mpr ⟨hrows, hpair, fun a ha b hb => ?_⟩
  have hle := le_getMaxLogId ha
  have hlt := hnew b hb
  omega

/-- No transaction stays open between the calls. -/
theorem StoreStep.begun {act : StoreAction} (h : StoreStep cat s act t)
    (hb : s.db.conn.begun = none) : t.db.conn.begun = none := by
  cases h with
  | server hstep =>
    cases hstep with
    | insert _ _ _ hret =>
      have hcall : InsertReturns cat s.db (_, _) _ := ⟨_, hret⟩
      exact hcall.begun hb
    | @insertThrows batch f db what _ _ _ hthrow =>
      show db.conn.begun = none
      rw [(insertReport_throw hthrow).1]
      exact hb
    | _ => exact hb
  | vacuum _ _ hdel =>
    obtain ⟨keep, rfl⟩ := hdel.delete_eq
    exact hb

/-- A step of the server that moves no entry. -/
theorem AddedInOrder.still (h : AddedInOrder tables s) (hdb : t.db = s.db) (hbook : t.book = s.book)
    (hbatch : t.task.batch = s.task.batch) (hqueue : t.backlog.queue = s.backlog.queue) :
    AddedInOrder tables t := by
  obtain ⟨old, new, hlog, hold, hfollows⟩ := h.rows
  refine ⟨⟨old, new, ?_, hold, hfollows.still (by rw [hbook]) hbatch hqueue⟩, ?_, ?_, ?_, ?_⟩
  · rw [hdb]
    exact hlog
  · rw [hbook]
    exact h.refused.still (by rw [hbook]) hbatch hqueue
  · rw [hbook]
    exact h.lost.still (by rw [hbook]) hbatch hqueue
  · rw [hbook, hqueue]
    exact h.dropped
  · rw [hdb]
    exact h.ids

/-- A step of the server keeps the order. -/
theorem AddedInOrder.server (h : AddedInOrder tables s) (hb : s.db.conn.begun = none)
    (hstep : ServerStep cat s act t) : AddedInOrder tables t := by
  obtain ⟨old, new, hlog, hold, hfollows⟩ := h.rows
  cases hstep with
  | @add log backlog dropped hphase hadd =>
    refine ⟨⟨old, new, hlog, hold, hfollows.add hadd⟩, h.refused.add hadd, h.lost.add hadd, ?_,
      h.ids⟩
    obtain ⟨rest, hqueue, hnew⟩ := Backlog.add_eq_some hadd
    have hdropped := h.dropped
    rw [hqueue] at hdropped
    show (s.book.dropped ++ dropped.toList ++ backlog.queue).Sublist (s.book.added ++ [log])
    rw [hnew, ← List.append_assoc, List.append_assoc s.book.dropped]
    exact hdropped.append (.refl _)
  | checkStop hphase htask hstop => exact h.still rfl rfl (by rw [htask]; rfl) rfl
  | check hphase htask hstop => exact h.still rfl rfl (by rw [htask]; rfl) rfl
  | flushNone hphase htask hqueue =>
    exact h.still rfl rfl (by rw [htask]; rfl) (by rw [hqueue]; rfl)
  | flush hphase htask hqueue =>
    have hbatch : s.task.batch = [] := by rw [htask]; rfl
    refine ⟨⟨old, new, hlog, hold, hfollows.flush hbatch⟩, h.refused.flush hbatch,
      h.lost.flush hbatch, ?_, h.ids⟩
    show (s.book.dropped ++ []).Sublist s.book.added
    exact ((List.Sublist.refl _).append (List.nil_sublist _)).trans h.dropped
  | resume hphase htask => exact h.still rfl rfl (by rw [htask]; rfl) rfl
  | taskError hphase htask => exact h.still rfl rfl (by rw [htask]; rfl) rfl
  | @insert batch f db rs _ _ htask hret =>
    have hcall : InsertReturns cat s.db (f, batch) db := ⟨rs, hret⟩
    have hbatch : s.task.batch = batch := by rw [htask]; rfl
    have hwith : ∀ p, (logsWith p batch rs).Sublist s.task.batch := fun p => by
      rw [hbatch]
      exact (logsWith_sublist p batch rs).trans (List.take_sublist _ _)
    -- the rows of this call come last, and they are made from the logs it reports
    obtain ⟨rows, hrows, -⟩ := hcall.appends hb
    have hsources : rows.map LogRow.source = logsWith RowResult.isInserted batch rs := by
      have hall := (insertReport_sources hb hret).2
      rw [hrows, List.map_append] at hall
      exact List.append_cancel_left hall
    have htaken := hfollows.take (t := s.insertDone db rs) (hwith RowResult.isInserted) rfl rfl rfl
    rw [← hsources, ← List.map_append] at htaken
    refine ⟨⟨old, new ++ rows, ?_, hold, htaken⟩, ?_, ?_, h.dropped,
      (hcall.appends hb).pairwise h.ids⟩
    · show db.log = _
      rw [hrows, hlog, List.append_assoc]
    · have htake := h.refused.take (t := s.insertDone db rs) (hwith RowResult.isRefused) rfl rfl rfl
      rw [← hbatch] at htake
      exact htake
    · exact h.lost.take (hbatch ▸ failedLogs_sublist batch rs) rfl rfl rfl
  | @insertThrows batch f db what _ _ htask hthrow =>
    have hconn := (insertReport_throw hthrow).1
    refine ⟨⟨old, new, ?_, hold, ?_⟩, ?_, h.lost.take (.refl _) rfl rfl rfl, h.dropped, ?_⟩
    · show db.conn.db.log = _
      rw [hconn]
      exact hlog
    · have htake := hfollows.take (t := s.insertThrown db) (List.nil_sublist _) rfl rfl rfl
      rwa [List.append_nil] at htake
    · have htake := h.refused.take (t := s.insertThrown db) (List.nil_sublist _) rfl rfl rfl
      rwa [List.append_nil] at htake
    · show db.conn.db.log.Pairwise _
      rw [hconn]
      exact h.ids
  | requestStop hphase => exact h.still rfl rfl rfl rfl
  | stopPool hphase hstop => exact h.still rfl rfl rfl rfl
  | stopHarvesters hphase => exact h.still rfl rfl rfl rfl
  | stopWritePool hphase => exact h.still rfl rfl rfl rfl
  | join hphase => exact h.still rfl rfl rfl rfl

/-- A deletion takes rows away, and moves none. -/
theorem AddedInOrder.vacuum (h : AddedInOrder tables s) (keep : LogRow → Bool) :
    AddedInOrder tables { s with db.conn.db.log := s.db.log.filter keep } := by
  obtain ⟨old, new, hlog, hold, hfollows⟩ := h.rows
  refine ⟨⟨old.filter keep, new.filter keep, ?_, ?_, ?_⟩, h.refused, h.lost, h.dropped, ?_⟩
  · show s.db.log.filter keep = _
    rw [hlog, List.filter_append]
  · exact List.filter_sublist.trans hold
  · have hless : ((new.filter keep).map LogRow.source).Sublist (new.map LogRow.source) :=
      List.filter_sublist.map _
    exact ((hless.append (.refl _)).append (.refl _)).trans hfollows
  · exact h.ids.sublist List.filter_sublist

/-- **Every step keeps the order.** -/
theorem AddedInOrder.step (h : AddedInOrder tables s) (hb : s.db.conn.begun = none)
    {act : StoreAction} (hstep : StoreStep cat s act t) : AddedInOrder tables t := by
  cases hstep with
  | server hstep => exact h.server hb hstep
  | vacuum _ _ hdel =>
    obtain ⟨keep, rfl⟩ := hdel.delete_eq
    exact h.vacuum keep

theorem inOrder_start (d : LookupTable) (maxSize : ℕ)
    (hids : tables.log.Pairwise fun a b => a.id < b.id) :
    AddedInOrder tables (.start tables d maxSize) where
  rows := ⟨tables.log, [], (List.append_nil _).symm, .refl _, .refl _⟩
  refused := .refl _
  lost := .refl _
  dropped := .refl _
  ids := hids

/-- **Entries are never reordered**: in every run of the server and its vacuum, with any
failing calls, the log table is what is left of the rows from before and then rows made
since; the entries of these rows, then those of the batch, then those of the backlog are a
subsequence of the entries in the order in which they were added, and the ids of the rows
increase in that order. -/
theorem server_keeps_order {d : LookupTable} {maxSize : ℕ} {acts : List StoreAction}
    (hids : tables.log.Pairwise fun a b => a.id < b.id)
    (h : Run (StoreStep cat) (.start tables d maxSize) acts s) : AddedInOrder tables s := by
  have hinv := h.invariant (I := fun s => s.db.conn.begun = none ∧ AddedInOrder tables s)
    (fun _ _ _ hs hstep => ⟨hstep.begun hs.1, hs.2.step hs.1 hstep⟩)
    ⟨rfl, inOrder_start d maxSize hids⟩
  exact hinv.2

end

/-- The vacuum deletes the row of the first of three entries while the second one is in the
batch and the third one in the backlog. -/
theorem server_keeps_order_three : ∃ s,
    Run (StoreStep textCatalog) (.start ⟨[], []⟩ ∅ 10)
        [.server (.add (levelLog "INFO")), .server .check, .server .flush,
          .server (.insert .none), .server .resume, .server (.add (levelLog "WARN")),
          .server .check, .server .flush, .server (.add (levelLog "DEBUG")),
          .vacuum none [⟨lit "id", lit "<=", .integer 1⟩], .server (.insert .none)] s ∧
      s.db.log.map LogRow.source = [levelLog "WARN"] ∧ s.backlog.queue = [levelLog "DEBUG"] ∧
      AddedInOrder ⟨[], []⟩ s := by
  have hrun : Run (StoreStep textCatalog) (.start ⟨[], []⟩ ∅ 10)
      [.server (.add (levelLog "INFO")), .server .check, .server .flush,
        .server (.insert .none), .server .resume, .server (.add (levelLog "WARN")),
        .server .check, .server .flush, .server (.add (levelLog "DEBUG")),
        .vacuum none [⟨lit "id", lit "<=", .integer 1⟩], .server (.insert .none)] _ :=
    .cons (.server (.add (.inl rfl) rfl)) <| .cons (.server (.check rfl rfl rfl)) <|
    .cons (.server (.flush rfl rfl nofun)) <| .cons (.server (.insert nofun nofun rfl rfl)) <|
    .cons (.server (.resume rfl rfl)) <| .cons (.server (.add (.inl rfl) rfl)) <|
    .cons (.server (.check rfl rfl rfl)) <| .cons (.server (.flush rfl rfl nofun)) <|
    .cons (.server (.add (.inl rfl) rfl)) <|
    .cons (.vacuum nofun nofun (.inl ⟨1, rfl⟩)) <|
    .single (.server (.insert nofun nofun rfl rfl))
  exact ⟨_, hrun, rfl, rfl, server_keeps_order .nil hrun⟩

end LogLite
