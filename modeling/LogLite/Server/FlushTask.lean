import LogLite.Lib.Run
import LogLite.Server.Backlog
import LogLite.Store.Report
import Mathlib.Tactic.Abel

/-!
# The flush task and the life of the server

`FlushBacklogTask` polls until its deadline, the watermark or a stop request; it
then ends, if a stop was requested, or moves the backlog into a batch, hands it to
the write strand, and notifies when the insertion is done.  An exception ends the
task and stops the server.

`RunServer` returns in steps.  After a stop request the accept loop ends and stops
the server's pool, so no coroutine runs any more; then the harvesters are stopped,
which can add entries until then; then the pool of the write strand is stopped,
which drops what it has not begun; then everything is joined.

The state records what became of every entry.

## Main definitions

* `ServerState`, `ServerAction`, `ServerStep` — the task, the strand and teardown.
* `Book` — the entries that were added, dropped, refused and lost.
* `Balanced` — every entry added is in exactly one place.

## Main results

* `Balanced.step` — **no step makes or unmakes an entry.**
-/

namespace LogLite

open Transition

/-- Where the coroutine of the flush task is. -/
inductive FlushTask where
  /-- At its timer. -/
  | polling
  /-- After the stop request was looked at. -/
  | checked
  /-- The batch is handed to the write strand. -/
  | dispatched (batch : List Json)
  /-- The call on the strand is done. -/
  | inserted (count : ℕ) (maxId : ℤ)
  /-- The call on the strand has thrown. -/
  | crashed
  /-- The coroutine is over. -/
  | ended

/-- The entries outside the backlog that are not in the log table yet. -/
def FlushTask.batch : FlushTask → List Json
  | .dispatched batch => batch
  | _ => []

/-- How far `RunServer` is. -/
inductive Phase where
  /-- In `Server::Run`. -/
  | serving
  /-- The server's pool is stopped. -/
  | poolStopped
  /-- The harvesters are stopped. -/
  | harvestersStopped
  /-- The pool of the write strand is stopped. -/
  | writePoolStopped
  /-- `RunServer` has returned. -/
  | returned
  deriving DecidableEq

/-- What became of the entries; no code reads it. -/
structure Book where
  added : List Json
  dropped : List Json
  refused : List Json
  lost : List Json

/-- The state of the server; `backlogDrops` counts the observations of
`backlog_drop`. -/
structure ServerState where
  db : WriterDatabase
  backlog : Backlog
  task : FlushTask
  stopping : Bool
  phase : Phase
  lastId : ℤ
  backlogDrops : ℕ
  book : Book

/-- The steps: an entry added by a request or a harvester, the flush task, the
call on the write strand, and the steps of `RunServer`. -/
inductive ServerAction where
  | add (log : Json)
  | check
  | flush
  | insert (f : Faults)
  | resume
  | taskError
  | requestStop
  | stopPool
  | stopHarvesters
  | stopWritePool
  | join

/-- The server after `RunServer` has set it up. -/
def ServerState.start (tables : Tables) (d : LookupTable) (maxSize : ℕ) : ServerState where
  db := ⟨⟨tables, none⟩, d⟩
  backlog := .fresh maxSize
  task := .polling
  stopping := false
  phase := .serving
  lastId := getMaxLogId tables.log
  backlogDrops := 0
  book := ⟨[], [], [], []⟩

/-- The entry was added to the backlog. -/
def ServerState.added (s : ServerState) (backlog : Backlog) (log : Json) (dropped : Option Json) :
    ServerState :=
  { s with
    backlog := backlog
    backlogDrops := s.backlogDrops + dropped.toList.length
    book.added := s.book.added ++ [log]
    book.dropped := s.book.dropped ++ dropped.toList }

/-- `Insert` and `GetMaxLogId` have returned. -/
def ServerState.insertDone (s : ServerState) (db : WriterDatabase) (rs : List RowResult) :
    ServerState :=
  { s with
    db := db
    task := .inserted (insertedCount rs) (getMaxLogId db.log)
    book.refused := s.book.refused ++ logsWith RowResult.isRefused s.task.batch rs
    book.lost := s.book.lost ++ failedLogs s.task.batch rs }

/-- `Insert` has thrown; the batch goes with the exception. -/
def ServerState.insertThrown (s : ServerState) (db : WriterDatabase) : ServerState :=
  { s with
    db := db
    task := .crashed
    book.lost := s.book.lost ++ s.task.batch }

/-- One step of the server. -/
inductive ServerStep (cat : DatabaseCatalog) : ServerState → ServerAction → ServerState → Prop
  -- `POST /logs` until the pool is stopped, and harvesters until they are
  | add {s : ServerState} {log : Json} {backlog : Backlog} {dropped : Option Json} :
      s.phase = .serving ∨ s.phase = .poolStopped → s.backlog.add log = some (backlog, dropped) →
        ServerStep cat s (.add log) (s.added backlog log dropped)
  -- the coroutine, on the server's pool; its deadline can have passed at any time
  | checkStop {s : ServerState} : s.phase = .serving → s.task = .polling → s.stopping = true →
      ServerStep cat s .check { s with task := .ended }
  | check {s : ServerState} : s.phase = .serving → s.task = .polling → s.stopping = false →
      ServerStep cat s .check { s with task := .checked }
  | flushNone {s : ServerState} : s.phase = .serving → s.task = .checked → s.backlog.queue = [] →
      ServerStep cat s .flush { s with backlog := s.backlog.flush.1, task := .polling }
  | flush {s : ServerState} : s.phase = .serving → s.task = .checked → s.backlog.queue ≠ [] →
      ServerStep cat s .flush
        { s with backlog := s.backlog.flush.1, task := .dispatched s.backlog.flush.2 }
  | resume {s : ServerState} {count : ℕ} {maxId : ℤ} : s.phase = .serving →
      s.task = .inserted count maxId →
        ServerStep cat s .resume { s with lastId := maxId, task := .polling }
  | taskError {s : ServerState} : s.phase = .serving → s.task = .crashed →
      ServerStep cat s .taskError { s with stopping := true, task := .ended }
  -- the call on the write strand
  | insert {s : ServerState} {batch : List Json} {f : Faults} {db : WriterDatabase}
      {rs : List RowResult} : s.phase ≠ .writePoolStopped → s.phase ≠ .returned →
      s.task = .dispatched batch → insertReport cat f batch s.db = .ret db rs →
        ServerStep cat s (.insert f) (s.insertDone db rs)
  | insertThrows {s : ServerState} {batch : List Json} {f : Faults} {db : WriterDatabase}
      {what : Bytes} : s.phase ≠ .writePoolStopped → s.phase ≠ .returned →
      s.task = .dispatched batch → insertReport cat f batch s.db = .throw db what →
        ServerStep cat s (.insert f) (s.insertThrown db)
  -- `RunServer`
  | requestStop {s : ServerState} : s.phase = .serving →
      ServerStep cat s .requestStop { s with stopping := true }
  | stopPool {s : ServerState} : s.phase = .serving → s.stopping = true →
      ServerStep cat s .stopPool { s with phase := .poolStopped }
  | stopHarvesters {s : ServerState} : s.phase = .poolStopped →
      ServerStep cat s .stopHarvesters { s with phase := .harvestersStopped }
  | stopWritePool {s : ServerState} : s.phase = .harvestersStopped →
      ServerStep cat s .stopWritePool { s with phase := .writePoolStopped }
  | join {s : ServerState} : s.phase = .writePoolStopped →
      ServerStep cat s .join { s with phase := .returned }

/-! ### Conservation -/

/-- The log table of a server that was started on `tables` has these rows, and the
rows made from `committed`. -/
def Committed (tables : Tables) (s : ServerState) (committed : List Json) : Prop :=
  s.db.log.map (·.source) = tables.log.map (·.source) ++ committed

/-- Every entry that was added is in the log table, or was dropped and counted, or
refused, or lost, or is held in the batch or the backlog. -/
structure Balanced (tables : Tables) (s : ServerState) : Prop where
  begun : s.db.conn.begun = none
  drops : s.backlogDrops = s.book.dropped.length
  entries : ∃ committed, Committed tables s committed ∧
    (s.book.added : Multiset Json) = committed + s.book.dropped + s.book.refused + s.book.lost +
      s.task.batch + s.backlog.queue

theorem balanced_start (tables : Tables) (d : LookupTable) (maxSize : ℕ) :
    Balanced tables (.start tables d maxSize) where
  begun := rfl
  drops := rfl
  entries := ⟨[], (List.append_nil _).symm, rfl⟩

section
variable {cat : DatabaseCatalog} {tables : Tables} {s t : ServerState} {act : ServerAction}

/-- A step that moves no entry. -/
theorem Balanced.still (h : Balanced tables s) (hdb : t.db = s.db)
    (hdrops : t.backlogDrops = s.backlogDrops) (hbook : t.book = s.book)
    (hbatch : t.task.batch = s.task.batch) (hqueue : t.backlog.queue = s.backlog.queue) :
    Balanced tables t := by
  obtain ⟨committed, hcomm, hentries⟩ := h.entries
  refine ⟨by rw [hdb]; exact h.begun, by rw [hdrops, hbook]; exact h.drops, committed, ?_, ?_⟩
  · rw [Committed, hdb]
    exact hcomm
  · rw [hbook, hbatch, hqueue]
    exact hentries

/-- **No step makes or unmakes an entry.** -/
theorem Balanced.step (h : Balanced tables s) (hstep : ServerStep cat s act t) :
    Balanced tables t := by
  cases hstep with
  | @add log backlog dropped hphase hadd =>
    obtain ⟨committed, hcomm, hentries⟩ := h.entries
    obtain ⟨rest, hold, hnew⟩ := Backlog.add_eq_some hadd
    refine ⟨h.begun, ?_, committed, hcomm, ?_⟩
    · show s.backlogDrops + _ = (s.book.dropped ++ _).length
      rw [List.length_append, h.drops]
    · show ((s.book.added ++ [log] : List Json) : Multiset Json) =
        committed + (s.book.dropped ++ dropped.toList : List Json) + s.book.refused + s.book.lost +
          s.task.batch + backlog.queue
      rw [hnew, ← Multiset.coe_add, hentries, hold, ← Multiset.coe_add, ← Multiset.coe_add,
        ← Multiset.coe_add]
      abel
  | checkStop hphase htask hstop => exact h.still rfl rfl rfl (by rw [htask]; rfl) rfl
  | check hphase htask hstop => exact h.still rfl rfl rfl (by rw [htask]; rfl) rfl
  | flushNone hphase htask hqueue =>
    exact h.still rfl rfl rfl (by rw [htask]; rfl) (by rw [hqueue]; rfl)
  | flush hphase htask hqueue =>
    obtain ⟨committed, hcomm, hentries⟩ := h.entries
    refine ⟨h.begun, h.drops, committed, hcomm, ?_⟩
    show (s.book.added : Multiset Json) = committed + s.book.dropped + s.book.refused +
      s.book.lost + s.backlog.queue + ([] : List Json)
    rw [hentries, htask]
    simp [FlushTask.batch]
  | resume hphase htask => exact h.still rfl rfl rfl (by rw [htask]; rfl) rfl
  | taskError hphase htask => exact h.still rfl rfl rfl (by rw [htask]; rfl) rfl
  | @insert batch f db rs _ _ htask hret =>
    obtain ⟨committed, hcomm, hentries⟩ := h.entries
    have hsources := (insertReport_sources h.begun hret).2
    have hcall : InsertReturns cat s.db (f, batch) db := ⟨rs, hret⟩
    have hbatch : s.task.batch = batch := by rw [htask]; rfl
    refine ⟨hcall.begun h.begun, h.drops,
      committed ++ logsWith RowResult.isInserted batch rs, ?_, ?_⟩
    · show db.log.map (·.source) = _
      rw [hsources, hcomm, List.append_assoc]
    · show (s.book.added : Multiset Json) =
        (committed ++ logsWith RowResult.isInserted batch rs : List Json) + s.book.dropped +
          (s.book.refused ++ logsWith RowResult.isRefused s.task.batch rs : List Json) +
          (s.book.lost ++ failedLogs s.task.batch rs : List Json) + ([] : List Json) +
          s.backlog.queue
      rw [hentries, hbatch, batch_eq batch rs]
      simp only [← Multiset.coe_add, Multiset.coe_nil, add_zero]
      abel
  | @insertThrows batch f db what _ _ htask hthrow =>
    obtain ⟨committed, hcomm, hentries⟩ := h.entries
    have hconn := (insertReport_throw hthrow).1
    refine ⟨?_, h.drops, committed, ?_, ?_⟩
    · show db.conn.begun = none
      rw [hconn]
      exact h.begun
    · show db.conn.db.log.map (·.source) = _
      rw [hconn]
      exact hcomm
    · show (s.book.added : Multiset Json) = committed + s.book.dropped + s.book.refused +
        (s.book.lost ++ s.task.batch : List Json) + ([] : List Json) + s.backlog.queue
      rw [hentries]
      simp only [← Multiset.coe_add, Multiset.coe_nil, add_zero]
      abel
  | requestStop hphase => exact h.still rfl rfl rfl rfl rfl
  | stopPool hphase hstop => exact h.still rfl rfl rfl rfl rfl
  | stopHarvesters hphase => exact h.still rfl rfl rfl rfl rfl
  | stopWritePool hphase => exact h.still rfl rfl rfl rfl rfl
  | join hphase => exact h.still rfl rfl rfl rfl rfl

/-- The rows of the log table determine what has been committed. -/
theorem Committed.unique {c c' : List Json} (h : Committed tables s c)
    (h' : Committed tables s c') : c = c' :=
  List.append_cancel_left (h.symm.trans h')

/-- If the entries are accounted for with `held` in place of what is lost and held,
then the rest of these is nothing. -/
theorem Balanced.rest_eq_zero (h : Balanced tables s) {committed : List Json}
    (hcomm : Committed tables s committed) {held rest : Multiset Json}
    (hentries : (s.book.added : Multiset Json) =
      committed + s.book.dropped + s.book.refused + held)
    (hsplit : (s.book.lost + s.task.batch + s.backlog.queue : Multiset Json) = held + rest) :
    rest = 0 := by
  obtain ⟨committed', hcomm', hall⟩ := h.entries
  obtain rfl := hcomm.unique hcomm'
  refine add_left_cancel (a := (committed + s.book.dropped + s.book.refused + held :
    Multiset Json)) ?_
  calc (committed + s.book.dropped + s.book.refused + held + rest : Multiset Json)
      = committed + s.book.dropped + s.book.refused +
          (s.book.lost + s.task.batch + s.backlog.queue) := by rw [hsplit, add_assoc _ held rest]
    _ = s.book.added := by rw [hall]; abel
    _ = committed + s.book.dropped + s.book.refused + held + 0 := by rw [hentries, add_zero]

theorem balanced_of_run {d : LookupTable} {maxSize : ℕ} {acts : List ServerAction}
    (h : Run (ServerStep cat) (.start tables d maxSize) acts s) : Balanced tables s :=
  h.invariant (fun _ _ _ hs hstep => hs.step hstep) (balanced_start tables d maxSize)

end

end LogLite
