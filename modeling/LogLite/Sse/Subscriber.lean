import LogLite.Query.Page

/-!
# The event loop of a subscriber

`HandleSSE` sends the response headers, subscribes, and loops: it waits for its
timer, compares the notifier's last id with the id it has pushed up to, waits out
the debounce window, queries the ids between the two, writes the rows as one event
and moves its cursor.  Every point where the coroutine is suspended, or where
another thread can act between two of its calls, is a stage of its own.

What the loop reads (the notifier, the committed rows, the clock) is a parameter
of its steps, so that they can be run against any server.

## Main definitions

* `Feed` — what the loop reads; `Subscriber` — its variables and the events written.
* `idWindow` — the filters `id > pushed_id` and `id <= current_id`.
* `SseStep` — one step of the loop.

## Main results

* `selects_idWindow` — the window selects the rows with these ids.
-/

namespace LogLite

/-- The settings of the loop. -/
structure SseOptions where
  limit : ℕ
  debounceMs : ℤ
  timestampField : ColumnName
  limit_pos : 0 < limit
  limit_lt : limit < 2 ^ 31

/-- What the loop reads: the committed tables and the dictionary, the last id of
the notifier, and the steady clock in milliseconds. -/
structure Feed where
  db : WriterDatabase
  lastId : ℤ
  clock : ℤ

/-- The committed rows of the log table. -/
abbrev Feed.rows (feed : Feed) : List LogRow := feed.db.log

/-- Where the coroutine is. -/
inductive SseStage where
  /-- Before it has subscribed. -/
  | connecting
  /-- At its timer. -/
  | waiting
  /-- Writing a keep-alive comment. -/
  | pinging (now : ℤ)
  /-- In `Query`, before the count. -/
  | counting (current now : ℤ)
  /-- In `Query`, before the rows are selected. -/
  | selecting (current now : ℤ)
  /-- After `Query`, until the event is written. -/
  | holding (current now : ℤ) (results : List LogRow)
  /-- Disconnected. -/
  | ended

/-- The id the loop is about to move its cursor to. -/
def SseStage.current : SseStage → Option ℤ
  | .counting current _ => some current
  | .selecting current _ => some current
  | .holding current _ _ => some current
  | _ => none

/-- The variables of the loop.  `initialId` is the cursor at the subscription, and
`sent` the rows of each event; no code reads them. -/
structure Subscriber where
  stage : SseStage
  initialId : ℤ
  pushedId : ℤ
  lastPush : ℤ
  lastWrite : ℤ
  sent : List (List LogRow)

/-- A client that has just connected. -/
def Subscriber.fresh : Subscriber := ⟨.connecting, 0, 0, 0, 0, []⟩

/-- The step the coroutine takes, or the way it fails: a statement of the query
whose step fails ends like one without more rows. -/
inductive SseAction where
  | subscribe
  | wake
  | count
  | countFault
  | select
  | selectFault
  | queryError
  | write
  | skip
  | disconnect
  deriving DecidableEq

/-- The variables before the first iteration. -/
def Subscriber.subscribed (feed : Feed) : Subscriber :=
  ⟨.waiting, feed.lastId, feed.lastId, 0, feed.clock, []⟩

/-- The filters of the query. -/
def idWindow (pushedId currentId : ℤ) : List QueryFilter :=
  [⟨lit "id", lit ">", .integer pushedId⟩, ⟨lit "id", lit "<=", .integer currentId⟩]

/-- The coroutine moves on. -/
abbrev Subscriber.goto (b : Subscriber) (stage : SseStage) : Subscriber := { b with stage := stage }

/-- The cursor is moved without an event. -/
def Subscriber.pass (b : Subscriber) (current : ℤ) : Subscriber :=
  { b with stage := .waiting, pushedId := current }

/-- The event is written, and the cursor is moved. -/
def Subscriber.push (b : Subscriber) (current now : ℤ) (results : List LogRow) : Subscriber :=
  { b with
    stage := .waiting
    pushedId := current
    lastPush := now
    lastWrite := now
    sent := b.sent ++ [results] }

/-- A push came less than the debounce window ago; `last_push_tp` is zero before
the first one. -/
def Debounced (o : SseOptions) (b : Subscriber) (now : ℤ) : Prop :=
  b.lastPush ≠ 0 ∧ now - b.lastPush < o.debounceMs

section
variable (cat : DatabaseCatalog) (o : SseOptions) (feed : Feed)

/-- The page the loop asks for. -/
def IsWindowPage (b : Subscriber) (current : ℤ) (page : List LogRow) : Prop :=
  IsPage cat feed.db.colDict (idWindow b.pushedId current) o.timestampField o.limit 0 feed.rows page

/-- One step of `HandleSSE`.  A client whose headers cannot be written never
subscribes. -/
inductive SseStep : Subscriber → SseAction → Subscriber → Prop
  | subscribe {b : Subscriber} : b.stage = .connecting →
      SseStep b .subscribe (.subscribed feed)
  -- nothing new: a comment after 15 s without a write
  | nothingNew {b : Subscriber} : b.stage = .waiting → feed.lastId ≤ b.pushedId →
      feed.clock - b.lastWrite < 15000 → SseStep b .wake b
  | keepAlive {b : Subscriber} : b.stage = .waiting → feed.lastId ≤ b.pushedId →
      15000 ≤ feed.clock - b.lastWrite → SseStep b .wake (b.goto (.pinging feed.clock))
  | pinged {b : Subscriber} {now : ℤ} : b.stage = .pinging now →
      SseStep b .write { b with stage := .waiting, lastWrite := now }
  | pingFails {b : Subscriber} {now : ℤ} : b.stage = .pinging now →
      SseStep b .disconnect (b.goto .ended)
  -- new ids
  | debounced {b : Subscriber} : b.stage = .waiting → b.pushedId < feed.lastId →
      Debounced o b feed.clock → SseStep b .wake b
  | wake {b : Subscriber} : b.stage = .waiting → b.pushedId < feed.lastId →
      ¬ Debounced o b feed.clock → SseStep b .wake (b.goto (.counting feed.lastId feed.clock))
  -- the query, which may throw and is then tried again
  | countError {b : Subscriber} {current now : ℤ} : b.stage = .counting current now →
      SseStep b .queryError (b.goto .waiting)
  | countNone {b : Subscriber} {current now : ℤ} : b.stage = .counting current now →
      Compiles cat feed.db.colDict (idWindow b.pushedId current) →
      countRows cat feed.db.colDict (idWindow b.pushedId current) feed.rows = 0 →
        SseStep b .count (b.goto (.holding current now []))
  | countSome {b : Subscriber} {current now : ℤ} : b.stage = .counting current now →
      Compiles cat feed.db.colDict (idWindow b.pushedId current) →
      countRows cat feed.db.colDict (idWindow b.pushedId current) feed.rows ≠ 0 →
        SseStep b .count (b.goto (.selecting current now))
  | countFault {b : Subscriber} {current now : ℤ} : b.stage = .counting current now →
      SseStep b .countFault (b.goto (.holding current now []))
  | selectError {b : Subscriber} {current now : ℤ} : b.stage = .selecting current now →
      SseStep b .queryError (b.goto .waiting)
  | select {b : Subscriber} {current now : ℤ} {page : List LogRow} :
      b.stage = .selecting current now → IsWindowPage cat o feed b current page →
        SseStep b .select (b.goto (.holding current now page))
  | selectFault {b : Subscriber} {current now : ℤ} {page part : List LogRow} :
      b.stage = .selecting current now → IsWindowPage cat o feed b current page → part <+: page →
        SseStep b .selectFault (b.goto (.holding current now part))
  -- the event
  | skip {b : Subscriber} {current now : ℤ} : b.stage = .holding current now [] →
      SseStep b .skip (b.pass current)
  | write {b : Subscriber} {current now : ℤ} {results : List LogRow} :
      b.stage = .holding current now results → results ≠ [] →
        SseStep b .write (b.push current now results)
  | writeFails {b : Subscriber} {current now : ℤ} {results : List LogRow} :
      b.stage = .holding current now results → results ≠ [] →
        SseStep b .disconnect (b.goto .ended)

variable {cat}

/-- The filters of the window are accepted. -/
theorem idWindow_valid (hid : cat.HasRowId) {pushedId currentId : ℤ} :
    ∀ ft ∈ idWindow pushedId currentId, ft.Valid cat := by
  have hgt : allowedOps.contains (lit ">") = true := by decide
  have hle : allowedOps.contains (lit "<=") = true := by decide
  intro ft hft
  simp only [idWindow, List.mem_cons, List.not_mem_nil, or_false] at hft
  rcases hft with rfl | rfl
  · exact ⟨hid.knows, hgt⟩
  · exact ⟨hid.knows, hle⟩

/-- **The window selects the rows with ids between the two.** -/
theorem selects_idWindow (hid : cat.HasRowId) {d : LookupTable} {pushedId currentId : ℤ}
    (hp : fitsInt64 pushedId = true) (hc : fitsInt64 currentId = true) (r : LogRow) :
    selects cat d (idWindow pushedId currentId) r =
      decide (pushedId < r.id ∧ r.id ≤ currentId) := by
  have hlow : (conditionOf cat d ⟨lit "id", lit ">", .integer pushedId⟩).holds cat r =
      Cmp.gt.holds (compare r.id pushedId) := holds_id_iff hid rfl (by decide) hp
  have hhigh : (conditionOf cat d ⟨lit "id", lit "<=", .integer currentId⟩).holds cat r =
      Cmp.le.holds (compare r.id currentId) := holds_id_iff hid rfl (by decide) hc
  rw [Bool.eq_iff_iff, selects_iff (idWindow_valid hid), idWindow, List.forall_mem_cons,
    List.forall_mem_cons, hlow, hhigh]
  simp [Cmp.holds, compare_gt_iff_gt]

/-- The rows of the window. -/
theorem matching_idWindow (hid : cat.HasRowId) {d : LookupTable} {pushedId currentId : ℤ}
    (hp : fitsInt64 pushedId = true) (hc : fitsInt64 currentId = true) (rows : List LogRow) :
    matching cat d (idWindow pushedId currentId) rows =
      rows.filter fun r => pushedId < r.id ∧ r.id ≤ currentId :=
  List.filter_congr fun r _ => selects_idWindow hid hp hc r

end

end LogLite
