import LogLite.Lib.Run
import LogLite.Query.Delete
import LogLite.Sse.Subscriber
import LogLite.Store.Appended

/-!
# A subscriber and the writers

The flush task inserts a batch, reads the largest id and hands it to the notifier;
the vacuum deletes rows; a subscriber's loop runs next to both, in any order.

## Main definitions

* `SseSystem`, `SystemStep` — the flush task, the vacuum and one subscriber.
* `WindowFits` — the rows of the window fit in one event.
* `IdsAbove` — new rows get ids above the cursor.

## Main results

* `Announced.step` — between two flushes the notifier has at least the id of every
  row.
-/

namespace LogLite

open Transition

/-- Where the flush task is. -/
inductive FlushStage where
  /-- Between two flushes. -/
  | idle
  /-- After `Insert`, before `GetMaxLogId`. -/
  | inserted
  /-- Before `Notify`. -/
  | notifying (maxId : ℤ)

/-- The state of the system; `inserted` are the rows inserted since the
subscription. -/
structure SseSystem where
  feed : Feed
  flush : FlushStage
  sub : Subscriber
  inserted : List LogRow

/-- The rows of the log table. -/
abbrev SseSystem.rows (s : SseSystem) : List LogRow := s.feed.rows

/-- A step of the flush task, the vacuum, the clock or the subscriber. -/
inductive SystemAction where
  | insert (f : Faults) (logs : List Json)
  | getMax
  | notify
  | vacuum (fault : Option DeleteFault) (filters : List QueryFilter)
  | tick (ms : ℕ)
  | loop (act : SseAction)

/-- The filters of `remove_stale_logs` and `remove_excessive_logs`. -/
inductive VacuumFilters (timestampField : ColumnName) : List QueryFilter → Prop
  | stale (cutoff : Bytes) :
      VacuumFilters timestampField [⟨timestampField, lit "<=", .string cutoff⟩]
  | staleBounded (cutoff : Bytes) (removeMaxId : ℤ) :
      VacuumFilters timestampField [⟨timestampField, lit "<=", .string cutoff⟩,
        ⟨lit "id", lit "<=", .integer removeMaxId⟩]
  | excessive (removeMaxId : ℤ) :
      VacuumFilters timestampField [⟨lit "id", lit "<=", .integer removeMaxId⟩]

/-- Row ids are 64-bit integers. -/
def RowIdsFit (rows : List LogRow) : Prop := ∀ r ∈ rows, fitsInt64 r.id = true

/-- The rows of a batch are recorded once there is a subscription. -/
def SseSystem.record (s : SseSystem) (db : WriterDatabase) : List LogRow :=
  match s.sub.stage with
  | .connecting => []
  | _ => s.inserted ++ db.log.drop s.rows.length

/-- One step of the system.  `Insert` and `GetMaxLogId` run in one call on the write
strand, so the vacuum, which runs there too, does not come between them. -/
inductive SystemStep (cat : DatabaseCatalog) (o : SseOptions) :
    SseSystem → SystemAction → SseSystem → Prop
  | insert {s : SseSystem} {db : WriterDatabase} (f : Faults) (logs : List Json) :
      s.flush = .idle → InsertReturns cat s.feed.db (f, logs) db → RowIdsFit db.log →
        SystemStep cat o s (.insert f logs)
          { s with feed.db := db, flush := .inserted, inserted := s.record db }
  | getMax {s : SseSystem} : s.flush = .inserted →
      SystemStep cat o s .getMax { s with flush := .notifying (getMaxLogId s.rows) }
  | notify {s : SseSystem} {maxId : ℤ} : s.flush = .notifying maxId →
      SystemStep cat o s .notify { s with feed.lastId := maxId, flush := .idle }
  | vacuum {s : SseSystem} {db : WriterDatabase} {fault : Option DeleteFault}
      {filters : List QueryFilter} : s.flush ≠ .inserted →
      VacuumFilters o.timestampField filters →
      WriterStep cat s.feed.db (.delete fault filters) db →
        SystemStep cat o s (.vacuum fault filters) { s with feed.db := db }
  | tick {s : SseSystem} (ms : ℕ) :
      SystemStep cat o s (.tick ms) { s with feed.clock := s.feed.clock + ms }
  | loop {s : SseSystem} {act : SseAction} {b : Subscriber} : SseStep cat o s.feed s.sub act b →
      SystemStep cat o s (.loop act) { s with sub := b }

/-- The server after `RunServer` has handed the largest id to the notifier. -/
def SseSystem.start (tables : Tables) (d : LookupTable) (clock : ℤ) : SseSystem where
  feed := ⟨⟨⟨tables, none⟩, d⟩, getMaxLogId tables.log, clock⟩
  flush := .idle
  sub := .fresh
  inserted := []

/-! ### The conditions -/

/-- No statement of the query fails while it is stepped. -/
def QueriesRun (act : SystemAction) : Prop :=
  act ≠ .loop .countFault ∧ act ≠ .loop .selectFault

/-- No deletion, and no query error that goes unnoticed. -/
def Undisturbed (act : SystemAction) : Prop :=
  (∀ fault filters, act ≠ .vacuum fault filters) ∧ QueriesRun act

/-- When the window is queried, it holds no more rows than one event. -/
def WindowFits (o : SseOptions) (s : SseSystem) (act : SystemAction) : Prop :=
  act = .loop .count ∨ act = .loop .select → ∀ current, s.sub.stage.current = some current →
    (s.rows.filter fun r => s.sub.pushedId < r.id ∧ r.id ≤ current).length ≤ o.limit

/-- Below this id the loop does not look any more. -/
def Subscriber.cursor (b : Subscriber) : ℤ :=
  match b.stage with
  | .holding current _ _ => current
  | _ => b.pushedId

/-- When a batch is inserted that adds rows, the largest id in the table is not
below the cursor. -/
def IdsAbove (cat : DatabaseCatalog) (s : SseSystem) (act : SystemAction) : Prop :=
  ∀ f logs db, act = .insert f logs → InsertReturns cat s.feed.db (f, logs) db →
    s.sub.stage ≠ .connecting → db.log = s.rows ∨ s.sub.cursor ≤ getMaxLogId s.rows

/-! ### The flush task -/

/-- What holds of the tables, the flush task and the notifier: the id handed to the
notifier is at least that of every row. -/
structure Announced (s : SseSystem) : Prop where
  begun : s.feed.db.conn.begun = none
  rows : RowIdsFit s.rows
  lastId : fitsInt64 s.feed.lastId = true
  idle : s.flush = .idle → ∀ r ∈ s.rows, r.id ≤ s.feed.lastId
  notifying : ∀ maxId, s.flush = .notifying maxId →
    fitsInt64 maxId = true ∧ ∀ r ∈ s.rows, r.id ≤ maxId

theorem fitsInt64_getMaxLogId {rows : List LogRow} (h : RowIdsFit rows) :
    fitsInt64 (getMaxLogId rows) = true := by
  by_cases hrows : rows = []
  · rw [hrows]
    decide
  · obtain ⟨r, hr, hid⟩ := exists_eq_getMaxLogId hrows
    rw [← hid]
    exact h r hr

/-- A deletion leaves a part of the rows. -/
theorem WriterStep.delete_subset {cat : DatabaseCatalog} {w w' : WriterDatabase}
    {fault : Option DeleteFault} {filters : List QueryFilter}
    (h : WriterStep cat w (.delete fault filters) w') : w'.log ⊆ w.log := by
  obtain ⟨keep, rfl⟩ := h.delete_eq
  exact List.filter_subset_self w.log

section
variable {cat : DatabaseCatalog} {o : SseOptions} {s t : SseSystem} {act : SystemAction}

theorem Announced.step (h : Announced s) (hstep : SystemStep cat o s act t) : Announced t := by
  cases hstep with
  | insert f logs hidle hret hfit =>
    exact ⟨hret.begun h.begun, hfit, h.lastId, nofun, nofun⟩
  | getMax hins =>
    refine ⟨h.begun, h.rows, h.lastId, nofun, ?_⟩
    intro maxId hmax
    obtain rfl := FlushStage.notifying.inj hmax
    exact ⟨fitsInt64_getMaxLogId h.rows, fun r hr => le_getMaxLogId hr⟩
  | @notify maxId hnot =>
    obtain ⟨hfit, hle⟩ := h.notifying maxId hnot
    exact ⟨h.begun, h.rows, hfit, fun _ => hle, nofun⟩
  | vacuum _ _ hdel =>
    have hsub := hdel.delete_subset
    obtain ⟨keep, rfl⟩ := hdel.delete_eq
    exact ⟨h.begun, fun r hr => h.rows r (hsub hr), h.lastId,
      fun hidle r hr => h.idle hidle r (hsub hr),
      fun maxId hmax => ⟨(h.notifying maxId hmax).1,
        fun r hr => (h.notifying maxId hmax).2 r (hsub hr)⟩⟩
  | tick ms => exact ⟨h.begun, h.rows, h.lastId, h.idle, h.notifying⟩
  | loop hloop => exact ⟨h.begun, h.rows, h.lastId, h.idle, h.notifying⟩

theorem announced_start {tables : Tables} (d : LookupTable) (clock : ℤ)
    (hfit : RowIdsFit tables.log) : Announced (.start tables d clock) where
  begun := rfl
  rows := hfit
  lastId := fitsInt64_getMaxLogId hfit
  idle := fun _ _ hr => le_getMaxLogId hr
  notifying := nofun

end

/-! ### A small server -/

/-- The database with these rows. -/
def stampDb (rows : List LogRow) : WriterDatabase := ⟨⟨⟨rows, []⟩, none⟩, ∅⟩

theorem insertReturns_stamp (rows : List LogRow) (time : String) :
    InsertReturns stampCatalog (stampDb rows) (.none, [stampLog time])
      (stampDb (rows ++ [stampRow (nextRowId rows) time])) :=
  ⟨[.inserted], rfl⟩

/-- Events of one row. -/
def oneRow : SseOptions := ⟨1, 500, lit "timestamp", by decide, by decide⟩

theorem WindowFits.of_ne {o : SseOptions} {s : SseSystem} {act : SystemAction}
    (hcount : act ≠ .loop .count) (hselect : act ≠ .loop .select) : WindowFits o s act :=
  fun hact => absurd hact (not_or.mpr ⟨hcount, hselect⟩)

/-- A window that is known to fit. -/
theorem WindowFits.of_current {o : SseOptions} {s : SseSystem} {act : SystemAction} {current : ℤ}
    (hcur : s.sub.stage.current = some current)
    (hlen : (s.rows.filter fun r => s.sub.pushedId < r.id ∧ r.id ≤ current).length ≤ o.limit) :
    WindowFits o s act := by
  intro _ current' hcur'
  obtain rfl := Option.some.inj (hcur.symm.trans hcur')
  exact hlen

end LogLite
