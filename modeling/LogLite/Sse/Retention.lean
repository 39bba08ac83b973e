import LogLite.Query.Order
import LogLite.Sse.Delivery

/-!
# Events across retention

SQLite gives a new row one more than the largest id in the table, so a row that
is deleted at the top frees its id.  A subscriber's cursor does not go back: rows
that get an id behind it are never looked at.

## Main definitions

* `SseLive` — every new row has been sent, or the next window looks at it.
* `TurnStep` — a step without errors; it counts the turns of the loop.
* `Awaited` — a row that no window has read yet.

## Main results

* `Awaited.step`, `Awaited.run` — each turn brings an awaited row closer to its event.
* `sse_live` — **no new row is left behind while new rows get ids above the cursor,
  and each is sent within seven turns unless it is deleted before.**
-/

namespace LogLite

open Transition

/-- Every row inserted since the subscription has been sent, or lies ahead of the
cursor and, once its flush is over, not above the id of the notifier. -/
def SseLive (s : SseSystem) : Prop :=
  ∀ r ∈ s.rows, r ∈ s.inserted → r ∈ s.sub.sent.flatten ∨
    (s.sub.pushedId < r.id ∧ (s.flush = .idle → r.id ≤ s.feed.lastId))

/-- The steps without unnoticed query errors whose windows fit and whose new rows
get ids above the cursor. -/
abbrev AboveStep (cat : DatabaseCatalog) (o : SseOptions) :
    SseSystem → SystemAction → SseSystem → Prop :=
  Guarded (SystemStep cat o) fun s act => QueriesRun act ∧ WindowFits o s act ∧ IdsAbove cat s act

section
variable {cat : DatabaseCatalog} {o : SseOptions} {s t : SseSystem}

theorem sseLive_of_delivery (ha : Announced s) (hd : Delivery s) : SseLive s := by
  intro r hr hins
  rcases le_or_gt r.id s.sub.pushedId with hle | hlt
  · exact .inl (hd.sent r hr (hd.inserted r hins) hle)
  · exact .inr ⟨hlt, fun hidle => ha.idle hidle r hr⟩

/-- A client subscribes once. -/
theorem AboveStep.initialId {act : SystemAction} (hstep : AboveStep cat o s act t)
    (hconn : s.sub.stage ≠ .connecting) :
    t.sub.stage ≠ .connecting ∧ t.sub.initialId = s.sub.initialId := by
  obtain ⟨hstep, -⟩ := hstep
  cases hstep with
  | insert f logs hidle hret hfit => exact ⟨hconn, rfl⟩
  | getMax hins => exact ⟨hconn, rfl⟩
  | notify hnot => exact ⟨hconn, rfl⟩
  | vacuum _ _ hdel => exact ⟨hconn, rfl⟩
  | tick ms => exact ⟨hconn, rfl⟩
  | loop hloop =>
    cases hloop with
    | subscribe hstage => exact absurd hstage hconn
    | nothingNew => exact ⟨hconn, rfl⟩
    | debounced => exact ⟨hconn, rfl⟩
    | _ => exact ⟨nofun, rfl⟩

theorem delivery_of_run (hid : cat.HasRowId) {acts : List SystemAction}
    (hrun : Run (AboveStep cat o) s acts t) (h : Announced s ∧ Delivery s) :
    Announced t ∧ Delivery t := by
  refine hrun.invariant (I := fun s => Announced s ∧ Delivery s) ?_ h
  intro s act t ⟨ha, hd⟩ ⟨hstep, hquery, hfits, habove⟩
  exact ⟨ha.step hstep, hd.step hid ha hstep hquery hfits habove⟩

/-! ### The next window -/

/-- The row has been sent, or the loop holds it for its next event. -/
def Subscriber.Read (b : Subscriber) (r : LogRow) : Prop :=
  r ∈ b.sent.flatten ∨
    ∃ current now results, b.stage = .holding current now results ∧ r ∈ results

/-- No query throws, and the client stays. -/
def ErrorFree (act : SystemAction) : Prop := act ≠ .loop .queryError ∧ act ≠ .loop .disconnect

/-- The steps of the loop count, but for a wake within the debounce window. -/
def SseSystem.turns (o : SseOptions) (s : SseSystem) : SystemAction → ℕ
  | .loop .wake =>
    if s.sub.lastPush = 0 ∨ o.debounceMs ≤ s.feed.clock - s.sub.lastPush then 1 else 0
  | .loop _ => 1
  | _ => 0

/-- A step without errors, and the turns the loop has taken. -/
def TurnStep (cat : DatabaseCatalog) (o : SseOptions) (s : SseSystem × ℕ) (act : SystemAction)
    (t : SseSystem × ℕ) : Prop :=
  AboveStep cat o s.1 act t.1 ∧ ErrorFree act ∧ t.2 = s.2 + s.1.turns o act

/-- A row in the table that no window has read; the notifier has its id. -/
structure Awaited (r : LogRow) (s : SseSystem) : Prop where
  mem : r ∈ s.rows
  announced : r.id ≤ s.feed.lastId
  ahead : s.sub.pushedId < r.id
  connected : s.sub.stage ≠ .connecting
  listening : s.sub.stage ≠ .ended
  unread : ∀ current now results, s.sub.stage = .holding current now results → current < r.id

/-- The turns until the event with this id is written: those of the window under way,
if it ends before the id, and a wake, a count, a query and a write. -/
def SseStage.turnsLeft (id : ℤ) : SseStage → ℕ
  | .waiting => 4
  | .pinging _ => 5
  | .counting current _ => if id ≤ current then 3 else 7
  | .selecting current _ => if id ≤ current then 2 else 6
  | .holding .. => 5
  | _ => 2

theorem SseStage.two_le_turnsLeft (id : ℤ) (stage : SseStage) : 2 ≤ stage.turnsLeft id := by
  cases stage with
  | counting current now =>
    rw [turnsLeft]
    split <;> decide
  | selecting current now =>
    rw [turnsLeft]
    split <;> decide
  | _ => simp [turnsLeft]

theorem SseStage.turnsLeft_le (id : ℤ) (stage : SseStage) : stage.turnsLeft id ≤ 7 := by
  cases stage with
  | counting current now =>
    rw [turnsLeft]
    split <;> decide
  | selecting current now =>
    rw [turnsLeft]
    split <;> decide
  | _ => simp [turnsLeft]

theorem turns_of_not_debounced (hdeb : ¬ Debounced o s.sub s.feed.clock) :
    s.turns o (.loop .wake) = 1 := by
  rw [SseSystem.turns, if_pos]
  unfold Debounced at hdeb
  omega

theorem turns_of_debounced (hdeb : Debounced o s.sub s.feed.clock) :
    s.turns o (.loop .wake) = 0 := by
  obtain ⟨hne, hlt⟩ := hdeb
  rw [SseSystem.turns, if_neg]
  omega

/-- A row whose flush is over has been read or is awaited. -/
theorem read_or_awaited (ha : Announced s) (hd : Delivery s) {r : LogRow} (hr : r ∈ s.rows)
    (hins : r ∈ s.inserted) (hidle : s.flush = .idle) (hend : s.sub.stage ≠ .ended) :
    s.sub.Read r ∨ Awaited r s := by
  by_cases hread : s.sub.Read r
  · exact .inl hread
  have hinitial := hd.inserted r hins
  refine .inr ⟨hr, ha.idle hidle r hr, ?_, ?_, hend, ?_⟩
  · by_contra hle
    exact hread (.inl (hd.sent r hr hinitial (not_lt.mp hle)))
  · intro hconn
    rw [(hd.fresh hconn).1] at hins
    cases hins
  · intro current now results hstage
    by_contra hle
    rcases List.mem_append.mp (hd.held current now results hstage r hr hinitial (not_lt.mp hle))
      with hsent | hheld
    · exact hread (.inl hsent)
    · exact hread (.inr ⟨current, now, results, hstage, hheld⟩)

/-- What is held up to an id has been read. -/
theorem Delivery.read {r : LogRow} {current now : ℤ} {results : List LogRow} (h : Delivery s)
    (hr : r ∈ s.rows) (hahead : s.sub.initialId < r.id)
    (hstage : s.sub.stage = .holding current now results) (hle : r.id ≤ current) :
    s.sub.Read r := by
  rcases List.mem_append.mp (h.held current now results hstage r hr hahead hle) with hsent | hheld
  · exact .inl hsent
  · exact .inr ⟨current, now, results, hstage, hheld⟩

/-- **A turn of the loop brings an awaited row closer to its event.** -/
theorem Awaited.loop (hd : Delivery s) {r : LogRow} (h : Awaited r s) {act : SseAction}
    {b : Subscriber} (hstep : SseStep cat o s.feed s.sub act b)
    (hquery : QueriesRun (.loop act)) (hfree : ErrorFree (.loop act))
    (hd' : Delivery { s with sub := b }) :
    (b.Read r ∧ s.turns o (.loop act) + 1 ≤ s.sub.stage.turnsLeft r.id) ∨
      (Awaited r { s with sub := b } ∧
        b.stage.turnsLeft r.id + s.turns o (.loop act) ≤ s.sub.stage.turnsLeft r.id) := by
  have hinitial : s.sub.initialId < r.id := lt_of_le_of_lt hd.initial h.ahead
  have hnew := not_le.mpr (lt_of_lt_of_le h.ahead h.announced)
  cases hstep with
  | subscribe hstage => exact absurd hstage h.connected
  | nothingNew hstage hle hwait => exact absurd hle hnew
  | keepAlive hstage hle hwait => exact absurd hle hnew
  | pinged hstage =>
    refine .inr ⟨⟨h.mem, h.announced, h.ahead, nofun, nofun, nofun⟩, ?_⟩
    rw [hstage]
    exact Nat.le_refl _
  | pingFails hstage => exact absurd rfl hfree.2
  | debounced hstage hlt hdeb =>
    refine .inr ⟨h, ?_⟩
    rw [turns_of_debounced hdeb]
    exact Nat.le_refl _
  | wake hstage hlt hdeb =>
    refine .inr ⟨⟨h.mem, h.announced, h.ahead, nofun, nofun, nofun⟩, ?_⟩
    rw [turns_of_not_debounced hdeb, hstage]
    show (SseStage.counting s.feed.lastId s.feed.clock).turnsLeft r.id + 1 ≤ 4
    rw [SseStage.turnsLeft, if_pos h.announced]
  | countError hstage => exact absurd rfl hfree.1
  | @countNone current now hstage hcomp hzero =>
    rw [hstage]
    rcases le_or_gt r.id current with hle | hgt
    · refine .inl ⟨hd'.read h.mem hinitial rfl hle, ?_⟩
      rw [SseStage.turnsLeft, if_pos hle]
      exact Nat.le_succ 2
    · refine .inr ⟨⟨h.mem, h.announced, h.ahead, nofun, nofun, ?_⟩, ?_⟩
      · intro current' now' results heq
        cases heq
        exact hgt
      · rw [SseStage.turnsLeft, SseStage.turnsLeft, if_neg (not_le.mpr hgt)]
        exact Nat.le_succ 6
  | @countSome current now hstage hcomp hpos =>
    refine .inr ⟨⟨h.mem, h.announced, h.ahead, nofun, nofun, nofun⟩, ?_⟩
    rw [hstage, SseStage.turnsLeft, SseStage.turnsLeft]
    split <;> exact Nat.le_refl _
  | countFault hstage => exact absurd rfl hquery.1
  | selectError hstage => exact absurd rfl hfree.1
  | @select current now page hstage hpage =>
    rw [hstage]
    rcases le_or_gt r.id current with hle | hgt
    · refine .inl ⟨hd'.read h.mem hinitial rfl hle, ?_⟩
      rw [SseStage.turnsLeft, if_pos hle]
      exact Nat.le_refl 2
    · refine .inr ⟨⟨h.mem, h.announced, h.ahead, nofun, nofun, ?_⟩, ?_⟩
      · intro current' now' results heq
        cases heq
        exact hgt
      · rw [SseStage.turnsLeft, SseStage.turnsLeft, if_neg (not_le.mpr hgt)]
        exact Nat.le_refl 6
  | selectFault hstage hpage hpart => exact absurd rfl hquery.2
  | @skip current now hstage =>
    refine .inr ⟨⟨h.mem, h.announced, h.unread current now [] hstage, nofun, nofun, nofun⟩, ?_⟩
    rw [hstage]
    exact Nat.le_refl 5
  | @write current now results hstage hne =>
    refine .inr ⟨⟨h.mem, h.announced, h.unread current now results hstage, nofun, nofun, nofun⟩, ?_⟩
    rw [hstage]
    exact Nat.le_refl 5
  | writeFails hstage hne => exact absurd rfl hfree.2

/-- **An awaited row is deleted, read, or comes closer to its event.** -/
theorem Awaited.step (hid : cat.HasRowId) (ha : Announced s) (hd : Delivery s) {r : LogRow}
    (h : Awaited r s) {act : SystemAction} (hstep : AboveStep cat o s act t)
    (hfree : ErrorFree act) :
    (r ∉ t.rows ∧ t.sub = s.sub ∧ s.turns o act = 0) ∨
      (t.sub.Read r ∧ s.turns o act + 1 ≤ s.sub.stage.turnsLeft r.id) ∨
        (Awaited r t ∧
          t.sub.stage.turnsLeft r.id + s.turns o act ≤ s.sub.stage.turnsLeft r.id) := by
  obtain ⟨hstep, hquery, hfits, habove⟩ := hstep
  have hd' := hd.step hid ha hstep hquery hfits habove
  have hsame : t.rows = s.rows → t.feed.lastId = s.feed.lastId → t.sub = s.sub → Awaited r t := by
    intro hrows hlast hsub
    refine ⟨hrows ▸ h.mem, hlast ▸ h.announced, ?_, ?_, ?_, ?_⟩ <;> rw [hsub]
    · exact h.ahead
    · exact h.connected
    · exact h.listening
    · exact h.unread
  cases hstep with
  | @insert db f logs hidle hret hfit =>
    obtain ⟨new, hlog, -⟩ := hret.appends ha.begun
    refine .inr (.inr ⟨⟨?_, h.announced, h.ahead, h.connected, h.listening, h.unread⟩,
      Nat.le_refl _⟩)
    show r ∈ db.log
    rw [hlog]
    exact List.mem_append_left new h.mem
  | getMax hins => exact .inr (.inr ⟨hsame rfl rfl rfl, Nat.le_refl _⟩)
  | @notify maxId hnot =>
    exact .inr (.inr ⟨⟨h.mem, (ha.notifying maxId hnot).2 r h.mem, h.ahead, h.connected,
      h.listening, h.unread⟩, Nat.le_refl _⟩)
  | @vacuum db _ _ _ _ hdel =>
    by_cases hr : r ∈ db.log
    · exact .inr (.inr ⟨⟨hr, h.announced, h.ahead, h.connected, h.listening, h.unread⟩,
        Nat.le_refl _⟩)
    · exact .inl ⟨hr, rfl, rfl⟩
  | tick ms => exact .inr (.inr ⟨hsame rfl rfl rfl, Nat.le_refl _⟩)
  | loop hloop => exact .inr (h.loop hd hloop hquery hfree hd')

/-- Events that have been written stay written. -/
theorem sent_subset (hconn : s.sub.stage ≠ .connecting) {act : SystemAction}
    (hstep : AboveStep cat o s act t) : s.sub.sent.flatten ⊆ t.sub.sent.flatten := by
  obtain ⟨hstep, -⟩ := hstep
  cases hstep with
  | loop hloop =>
    cases hloop with
    | subscribe hstage => exact absurd hstage hconn
    | write hstage hne =>
      intro r hr
      rw [Subscriber.push, List.flatten_append]
      exact List.mem_append_left _ hr
    | _ => exact fun r hr => hr
  | _ => exact fun r hr => hr

/-- What the loop holds is written by its next turn. -/
theorem Subscriber.Read.step {r : LogRow} (h : s.sub.Read r) (hconn : s.sub.stage ≠ .connecting)
    {act : SystemAction} (hstep : AboveStep cat o s act t) (hfree : ErrorFree act) :
    r ∈ t.sub.sent.flatten ∨ (t.sub.Read r ∧ s.turns o act = 0) := by
  have hsubset := sent_subset hconn hstep
  rcases h with hsent | ⟨current, now, results, hstage, hr⟩
  · exact .inl (hsubset hsent)
  have hread : s.sub.Read r := .inr ⟨current, now, results, hstage, hr⟩
  obtain ⟨hstep, -⟩ := hstep
  cases hstep with
  | insert f logs hidle hret hfit => exact .inr ⟨hread, rfl⟩
  | getMax hins => exact .inr ⟨hread, rfl⟩
  | notify hnot => exact .inr ⟨hread, rfl⟩
  | vacuum _ _ hdel => exact .inr ⟨hread, rfl⟩
  | tick ms => exact .inr ⟨hread, rfl⟩
  | loop hloop =>
    cases hloop with
    | @write current' now' results' hheld hne =>
      obtain ⟨rfl, rfl, rfl⟩ := SseStage.holding.inj (hstage.symm.trans hheld)
      left
      rw [Subscriber.push, List.flatten_append, List.flatten_singleton]
      exact List.mem_append_right _ hr
    | skip hheld =>
      obtain ⟨-, -, rfl⟩ := SseStage.holding.inj (hstage.symm.trans hheld)
      cases hr
    | writeFails hheld => exact absurd rfl hfree.2
    | _ => simp_all

/-- A row that has been sent stays sent, and one that is held is sent by the next turn. -/
theorem Subscriber.Read.run {r : LogRow} {p q : SseSystem × ℕ} {acts : List SystemAction}
    (hrun : Run (TurnStep cat o) p acts q) (h : p.1.sub.Read r)
    (hconn : p.1.sub.stage ≠ .connecting) : r ∈ q.1.sub.sent.flatten ∨ q.2 = p.2 := by
  have hsent : ∀ {p q : SseSystem × ℕ} {acts}, Run (TurnStep cat o) p acts q →
      p.1.sub.stage ≠ .connecting ∧ r ∈ p.1.sub.sent.flatten → r ∈ q.1.sub.sent.flatten := by
    intro p q acts hrun hp
    refine (hrun.invariant (I := fun p : SseSystem × ℕ =>
      p.1.sub.stage ≠ .connecting ∧ r ∈ p.1.sub.sent.flatten) ?_ hp).2
    intro p act q ⟨hconn, hr⟩ ⟨hstep, _⟩
    exact ⟨(hstep.initialId hconn).1, sent_subset hconn hstep hr⟩
  induction hrun with
  | nil p => exact .inr rfl
  | cons hstep hrest ih =>
    obtain ⟨habove, hfree, hturns⟩ := hstep
    have hconn' := (habove.initialId hconn).1
    rcases h.step hconn habove hfree with hr | ⟨hread, hzero⟩
    · exact .inl (hsent hrest ⟨hconn', hr⟩)
    · rw [hzero, Nat.add_zero] at hturns
      rw [← hturns]
      exact ih hread hconn'

/-- A row that some state of the run has lost, before any window had read it, and before
`turns` turns were over. -/
def DeletedUnread (cat : DatabaseCatalog) (o : SseOptions) (p : SseSystem × ℕ)
    (acts : List SystemAction) (q : SseSystem × ℕ) (r : LogRow) (turns : ℕ) : Prop :=
  ∃ acts₁ acts₂ mid, acts = acts₁ ++ acts₂ ∧ Run (TurnStep cat o) p acts₁ mid ∧
    Run (TurnStep cat o) mid acts₂ q ∧ r ∉ mid.1.rows ∧ ¬ mid.1.sub.Read r ∧ mid.2 < turns

/-- **Within seven turns an awaited row is sent, or deleted before its window.** -/
theorem Awaited.run (hid : cat.HasRowId) {r : LogRow} {p q : SseSystem × ℕ}
    {acts : List SystemAction} (hrun : Run (TurnStep cat o) p acts q) (ha : Announced p.1)
    (hd : Delivery p.1) (h : Awaited r p.1) {turns : ℕ}
    (hturns : p.2 + p.1.sub.stage.turnsLeft r.id ≤ turns) :
    r ∈ q.1.sub.sent.flatten ∨ DeletedUnread cat o p acts q r (turns - 1) ∨ q.2 < turns := by
  have htwo := p.1.sub.stage.two_le_turnsLeft r.id
  induction hrun with
  | nil p => exact .inr (.inr (by omega))
  | @cons p m q act acts hstep hrest ih =>
    obtain ⟨habove, hfree, hcount⟩ := hstep
    have hconn := h.connected
    obtain ⟨ha', hd'⟩ := delivery_of_run hid (.single habove) ⟨ha, hd⟩
    by_cases hread : p.1.sub.Read r
    · rcases hread.run (.cons ⟨habove, hfree, hcount⟩ hrest) hconn with hsent | hsame
      · exact .inl hsent
      · exact .inr (.inr (by omega))
    rcases h.step hid ha hd habove hfree with ⟨hgone, hsub, hzero⟩ | ⟨hread', hle⟩ | ⟨h', hle⟩
    · refine .inr (.inl
        ⟨[act], acts, m, rfl, .single ⟨habove, hfree, hcount⟩, hrest, hgone, ?_, ?_⟩)
      · rw [hsub]
        exact hread
      · omega
    · have hconn' := (habove.initialId hconn).1
      rcases hread'.run hrest hconn' with hsent | hsame
      · exact .inl hsent
      · exact .inr (.inr (by omega))
    · have htwo' := m.1.sub.stage.two_le_turnsLeft r.id
      rcases ih ha' hd' h' (by omega) htwo' with
        hsent | ⟨acts₁, acts₂, mid, rfl, hfirst, hlast, hmid⟩ | hlt
      · exact .inl hsent
      · exact .inr (.inl ⟨act :: acts₁, acts₂, mid, rfl, .cons ⟨habove, hfree, hcount⟩ hfirst,
          hlast, hmid⟩)
      · exact .inr (.inr hlt)

/-- The loop is never stuck: until the client leaves, it has a step that is no error. -/
theorem exists_loop_step (hid : cat.HasRowId) {ci : ColumnInfo}
    (hci : cat.column o.timestampField = some ci) (hend : s.sub.stage ≠ .ended) :
    ∃ act b, SseStep cat o s.feed s.sub act b ∧ QueriesRun (.loop act) ∧ ErrorFree (.loop act) := by
  have hcomp : ∀ p c, Compiles cat s.feed.db.colDict (idWindow p c) :=
    fun p c => compiles_of_valid (idWindow_valid hid)
  cases hstage : s.sub.stage with
  | connecting => exact ⟨_, _, .subscribe hstage, ⟨nofun, nofun⟩, ⟨nofun, nofun⟩⟩
  | waiting =>
    rcases le_or_gt s.feed.lastId s.sub.pushedId with hle | hlt
    · rcases lt_or_ge (s.feed.clock - s.sub.lastWrite) 15000 with hshort | hlong
      · exact ⟨_, _, .nothingNew hstage hle hshort, ⟨nofun, nofun⟩, ⟨nofun, nofun⟩⟩
      · exact ⟨_, _, .keepAlive hstage hle hlong, ⟨nofun, nofun⟩, ⟨nofun, nofun⟩⟩
    · by_cases hdeb : Debounced o s.sub s.feed.clock
      · exact ⟨_, _, .debounced hstage hlt hdeb, ⟨nofun, nofun⟩, ⟨nofun, nofun⟩⟩
      · exact ⟨_, _, .wake hstage hlt hdeb, ⟨nofun, nofun⟩, ⟨nofun, nofun⟩⟩
  | pinging now => exact ⟨_, _, .pinged hstage, ⟨nofun, nofun⟩, ⟨nofun, nofun⟩⟩
  | counting current now =>
    by_cases hzero : countRows cat s.feed.db.colDict (idWindow s.sub.pushedId current) s.rows = 0
    · exact ⟨_, _, .countNone hstage (hcomp _ _) hzero, ⟨nofun, nofun⟩, ⟨nofun, nofun⟩⟩
    · exact ⟨_, _, .countSome hstage (hcomp _ _) hzero, ⟨nofun, nofun⟩, ⟨nofun, nofun⟩⟩
  | selecting current now =>
    obtain ⟨page, hpage⟩ := IsPage.exists (hcomp s.sub.pushedId current) hci o.limit 0 s.rows
    exact ⟨_, _, .select hstage hpage, ⟨nofun, nofun⟩, ⟨nofun, nofun⟩⟩
  | holding current now results =>
    cases results with
    | nil => exact ⟨_, _, .skip hstage, ⟨nofun, nofun⟩, ⟨nofun, nofun⟩⟩
    | cons r rest => exact ⟨_, _, .write hstage nofun, ⟨nofun, nofun⟩, ⟨nofun, nofun⟩⟩
  | ended => exact absurd hstage hend

/-- **While new rows get ids above the cursor, every new row is sent or lies ahead of
it; the loop always has a step; and a row whose flush is over is sent within seven of
its turns, unless it is deleted before a window has read it.** -/
theorem sse_live (hid : cat.HasRowId) {tables : Tables} {d : LookupTable} {clock : ℤ}
    (hfit : RowIdsFit tables.log) {acts : List SystemAction}
    (hrun : Run (AboveStep cat o) (.start tables d clock) acts s) :
    SseLive s ∧
    (s.sub.stage ≠ .ended → ∀ ci, cat.column o.timestampField = some ci →
      ∃ act b, SseStep cat o s.feed s.sub act b ∧ QueriesRun (.loop act) ∧
        ErrorFree (.loop act)) ∧
    (s.sub.stage ≠ .ended → s.flush = .idle → ∀ r ∈ s.rows, r ∈ s.inserted →
      ∀ acts' t turns, Run (TurnStep cat o) (s, 0) acts' (t, turns) → 7 ≤ turns →
        r ∈ t.sub.sent.flatten ∨ DeletedUnread cat o (s, 0) acts' (t, turns) r 6) := by
  have hstart : Announced (.start tables d clock) ∧ Delivery (.start tables d clock) :=
    ⟨announced_start d clock hfit, delivery_start tables d clock⟩
  obtain ⟨ha, hd⟩ := delivery_of_run hid hrun hstart
  refine ⟨sseLive_of_delivery ha hd, fun hend ci hci => exists_loop_step hid hci hend, ?_⟩
  intro hend hidle r hr hins acts' t turns hrun' hseven
  have hconn : s.sub.stage ≠ .connecting := by
    intro hconn
    rw [(hd.fresh hconn).1] at hins
    cases hins
  rcases read_or_awaited ha hd hr hins hidle hend with hread | hawait
  · rcases hread.run hrun' hconn with hsent | hzero
    · exact .inl hsent
    · exact absurd hzero (by omega)
  · have hleft : 0 + s.sub.stage.turnsLeft r.id ≤ 7 := by
      rw [Nat.zero_add]
      exact s.sub.stage.turnsLeft_le r.id
    rcases hawait.run hid hrun' ha hd hleft with hsent | hdeleted | hlt
    · exact .inl hsent
    · exact .inr hdeleted
    · omega

end

/-- The small server once the notifier has the id of its second row, the one new row. -/
def stampServer (rows : List LogRow) (clock : ℤ) (sub : Subscriber) : SseSystem :=
  ⟨⟨stampDb rows, 2, clock⟩, .idle, sub, [stampRow 2 "2026-02-01"]⟩

/-- A deletion, a window, a deletion before its event is written, and three more turns. -/
def stampTurns : List SystemAction :=
  [.vacuum none [⟨lit "timestamp", lit "<=", .string (lit "2026-01-01T00:00:00")⟩],
    .loop .wake, .loop .count, .loop .select,
    .vacuum none [⟨lit "timestamp", lit "<=", .string (lit "2026-03-01T00:00:00")⟩],
    .loop .write, .tick 500, .loop .wake, .loop .wake, .loop .wake]

/-- The server before these turns. -/
def stampBefore : SseSystem :=
  stampServer [stampRow 1 "2020-01-01", stampRow 2 "2026-02-01"] 1000
    ⟨.waiting, 1, 1, 0, 1000, []⟩

/-- The server after them. -/
def stampAfter : SseSystem :=
  stampServer [] 1500 ⟨.waiting, 1, 2, 1000, 1000, [[stampRow 2 "2026-02-01"]]⟩

/-- A step that is none of the two queries. -/
theorem quiet_stamp {s : SseSystem} {act : SystemAction} (hrun : QueriesRun act)
    (hcount : act ≠ .loop .count) (hselect : act ≠ .loop .select)
    (habove : IdsAbove stampCatalog s act) :
    QueriesRun act ∧ WindowFits oneRow s act ∧ IdsAbove stampCatalog s act :=
  ⟨hrun, .of_ne hcount hselect, habove⟩

theorem run_stampBefore : Run (AboveStep stampCatalog oneRow)
    (.start ⟨[stampRow 1 "2020-01-01"], []⟩ ∅ 1000)
      [.loop .subscribe, .insert .none [stampLog "2026-02-01"], .getMax, .notify] stampBefore := by
  have hfit : RowIdsFit [stampRow 1 "2020-01-01", stampRow 2 "2026-02-01"] := by
    unfold RowIdsFit
    decide
  exact .cons ⟨.loop (.subscribe rfl), quiet_stamp ⟨nofun, nofun⟩ nofun nofun nofun⟩ <|
    .cons ⟨.insert .none _ rfl (insertReturns_stamp _ "2026-02-01") hfit,
      quiet_stamp ⟨nofun, nofun⟩ nofun nofun fun _ _ _ _ _ _ => .inr (by decide)⟩ <|
    .cons ⟨.getMax rfl, quiet_stamp ⟨nofun, nofun⟩ nofun nofun nofun⟩ <|
    .single ⟨.notify rfl, quiet_stamp ⟨nofun, nofun⟩ nofun nofun nofun⟩

theorem run_stampTurns :
    Run (TurnStep stampCatalog oneRow) (stampBefore, 0) stampTurns (stampAfter, 7) := by
  -- the two deletions, and the page of the window
  have hfirst : WriterStep stampCatalog
      (stampDb [stampRow 1 "2020-01-01", stampRow 2 "2026-02-01"])
      (.delete none [⟨lit "timestamp", lit "<=", .string (lit "2026-01-01T00:00:00")⟩])
        (stampDb [stampRow 2 "2026-02-01"]) := .inl ⟨1, rfl⟩
  have hsecond : WriterStep stampCatalog (stampDb [stampRow 2 "2026-02-01"])
      (.delete none [⟨lit "timestamp", lit "<=", .string (lit "2026-03-01T00:00:00")⟩])
        (stampDb []) := .inl ⟨1, rfl⟩
  have hpage : IsPage stampCatalog ∅ (idWindow 1 2) (lit "timestamp") 1 0
      [stampRow 2 "2026-02-01"] [stampRow 2 "2026-02-01"] :=
    ⟨⟨_, rfl⟩, _, [stampRow 2 "2026-02-01"], rfl, .refl _, .cons nofun .nil, rfl⟩
  have holdest : TurnStep stampCatalog oneRow (stampBefore, 0)
      (.vacuum none [⟨lit "timestamp", lit "<=", .string (lit "2026-01-01T00:00:00")⟩])
      (stampServer [stampRow 2 "2026-02-01"] 1000 ⟨.waiting, 1, 1, 0, 1000, []⟩, 0) :=
    ⟨⟨.vacuum nofun (.stale _) hfirst, quiet_stamp ⟨nofun, nofun⟩ nofun nofun nofun⟩,
      ⟨nofun, nofun⟩, rfl⟩
  have hwake : TurnStep stampCatalog oneRow
      (stampServer [stampRow 2 "2026-02-01"] 1000 ⟨.waiting, 1, 1, 0, 1000, []⟩, 0) (.loop .wake)
      (stampServer [stampRow 2 "2026-02-01"] 1000 ⟨.counting 2 1000, 1, 1, 0, 1000, []⟩, 1) :=
    ⟨⟨.loop (.wake rfl (by decide) fun hdeb => hdeb.1 rfl),
      quiet_stamp ⟨nofun, nofun⟩ nofun nofun nofun⟩, ⟨nofun, nofun⟩, rfl⟩
  have hcount : TurnStep stampCatalog oneRow
      (stampServer [stampRow 2 "2026-02-01"] 1000 ⟨.counting 2 1000, 1, 1, 0, 1000, []⟩, 1)
      (.loop .count)
      (stampServer [stampRow 2 "2026-02-01"] 1000 ⟨.selecting 2 1000, 1, 1, 0, 1000, []⟩, 2) :=
    ⟨⟨.loop (.countSome rfl ⟨_, rfl⟩ (by decide)), ⟨nofun, nofun⟩,
      .of_current rfl (by decide), nofun⟩, ⟨nofun, nofun⟩, rfl⟩
  have hselect : TurnStep stampCatalog oneRow
      (stampServer [stampRow 2 "2026-02-01"] 1000 ⟨.selecting 2 1000, 1, 1, 0, 1000, []⟩, 2)
      (.loop .select)
      (stampServer [stampRow 2 "2026-02-01"] 1000
        ⟨.holding 2 1000 [stampRow 2 "2026-02-01"], 1, 1, 0, 1000, []⟩, 3) :=
    ⟨⟨.loop (.select rfl hpage), ⟨nofun, nofun⟩, .of_current rfl (by decide), nofun⟩,
      ⟨nofun, nofun⟩, rfl⟩
  have hnewest : TurnStep stampCatalog oneRow
      (stampServer [stampRow 2 "2026-02-01"] 1000
        ⟨.holding 2 1000 [stampRow 2 "2026-02-01"], 1, 1, 0, 1000, []⟩, 3)
      (.vacuum none [⟨lit "timestamp", lit "<=", .string (lit "2026-03-01T00:00:00")⟩])
      (stampServer [] 1000 ⟨.holding 2 1000 [stampRow 2 "2026-02-01"], 1, 1, 0, 1000, []⟩, 3) :=
    ⟨⟨.vacuum nofun (.stale _) hsecond, quiet_stamp ⟨nofun, nofun⟩ nofun nofun nofun⟩,
      ⟨nofun, nofun⟩, rfl⟩
  have hwrite : TurnStep stampCatalog oneRow
      (stampServer [] 1000 ⟨.holding 2 1000 [stampRow 2 "2026-02-01"], 1, 1, 0, 1000, []⟩, 3)
      (.loop .write)
      (stampServer [] 1000 ⟨.waiting, 1, 2, 1000, 1000, [[stampRow 2 "2026-02-01"]]⟩, 4) :=
    ⟨⟨.loop (.write rfl nofun), quiet_stamp ⟨nofun, nofun⟩ nofun nofun nofun⟩, ⟨nofun, nofun⟩, rfl⟩
  have htick : TurnStep stampCatalog oneRow
      (stampServer [] 1000 ⟨.waiting, 1, 2, 1000, 1000, [[stampRow 2 "2026-02-01"]]⟩, 4)
      (.tick 500) (stampAfter, 4) :=
    ⟨⟨.tick 500, quiet_stamp ⟨nofun, nofun⟩ nofun nofun nofun⟩, ⟨nofun, nofun⟩, rfl⟩
  have hnothing : stampAfter.feed.lastId ≤ stampAfter.sub.pushedId := Int.le_refl 2
  have hshort : stampAfter.feed.clock - stampAfter.sub.lastWrite < 15000 := by decide
  have hidle : ∀ n, TurnStep stampCatalog oneRow (stampAfter, n) (.loop .wake) (stampAfter, n + 1) := fun n =>
    ⟨⟨.loop (.nothingNew rfl hnothing hshort),
      quiet_stamp ⟨nofun, nofun⟩ nofun nofun nofun⟩, ⟨nofun, nofun⟩, rfl⟩
  exact .cons holdest <| .cons hwake <| .cons hcount <| .cons hselect <| .cons hnewest <|
      .cons hwrite <| .cons htick <| .cons (hidle 4) <| .cons (hidle 5) <| .single (hidle 6)

/-- The oldest row is deleted before the window; the new one is deleted after the query
of its window, and sent. -/
theorem sse_live_oldest_deleted : ∃ s t : SseSystem,
    Run (AboveStep stampCatalog oneRow) (.start ⟨[stampRow 1 "2020-01-01"], []⟩ ∅ 1000)
        [.loop .subscribe, .insert .none [stampLog "2026-02-01"], .getMax, .notify] s ∧
      Run (TurnStep stampCatalog oneRow) (s, 0) stampTurns (t, 7) ∧
      t.rows = [] ∧ t.sub.sent = [[stampRow 2 "2026-02-01"]] ∧ SseLive s ∧
      (stampRow 2 "2026-02-01" ∈ t.sub.sent.flatten ∨
        DeletedUnread stampCatalog oneRow (s, 0) stampTurns (t, 7)
          (stampRow 2 "2026-02-01") 6) := by
  have hstart : RowIdsFit (⟨[stampRow 1 "2020-01-01"], []⟩ : Tables).log := by
    unfold RowIdsFit
    decide
  have hlive := sse_live stampCatalog_hasRowId hstart run_stampBefore
  have hmem : stampRow 2 "2026-02-01" ∈ stampBefore.rows :=
    List.mem_cons_of_mem _ List.mem_cons_self
  have hins : stampRow 2 "2026-02-01" ∈ stampBefore.inserted := List.mem_cons_self
  exact ⟨stampBefore, stampAfter, run_stampBefore, run_stampTurns, rfl, rfl, hlive.1,
    hlive.2.2 nofun rfl _ hmem hins _ _ 7 run_stampTurns (Nat.le_refl 7)⟩

/-- The only row is sent and then deleted for its age; the next one gets its id,
and is never sent. -/
theorem sse_stalls_after_retention : ¬ ∀ (cat : DatabaseCatalog) (o : SseOptions) (tables : Tables)
    (d : LookupTable) (clock : ℤ) (acts : List SystemAction) (s : SseSystem), cat.HasRowId →
      RowIdsFit tables.log →
        Run (Guarded (SystemStep cat o) fun s act => QueriesRun act ∧ WindowFits o s act)
          (.start tables d clock) acts s → SseLive s := by
  intro h
  have hfit : ∀ time, RowIdsFit [stampRow 1 time] := by
    intro time r hr
    rw [List.mem_singleton.mp hr]
    rfl
  have hpage : IsPage stampCatalog ∅ (idWindow 0 1) (lit "timestamp") 1 0
      [stampRow 1 "2020-01-01"] [stampRow 1 "2020-01-01"] :=
    ⟨⟨_, rfl⟩, _, [stampRow 1 "2020-01-01"], rfl, .refl _, .cons nofun .nil, rfl⟩
  have hdel : WriterStep stampCatalog (stampDb [stampRow 1 "2020-01-01"])
      (.delete none [⟨lit "timestamp", lit "<=", .string (lit "2026-01-01T00:00:00")⟩])
        (stampDb []) := .inl ⟨1, rfl⟩
  have hquiet : ∀ {s act}, QueriesRun act → act ≠ .loop .count → act ≠ .loop .select →
      QueriesRun act ∧ WindowFits oneRow s act :=
    fun hrun hcount hselect => ⟨hrun, .of_ne hcount hselect⟩
  have hlive := h stampCatalog oneRow ⟨[], []⟩ ∅ 1000 [.loop .subscribe,
    .insert .none [stampLog "2020-01-01"], .getMax, .notify, .loop .wake, .loop .count,
    .loop .select, .loop .write,
    .vacuum none [⟨lit "timestamp", lit "<=", .string (lit "2026-01-01T00:00:00")⟩],
    .insert .none [stampLog "2026-02-01"]] _ stampCatalog_hasRowId nofun <|
    .cons ⟨.loop (.subscribe rfl), hquiet ⟨nofun, nofun⟩ nofun nofun⟩ <|
    .cons ⟨.insert .none _ rfl (insertReturns_stamp _ "2020-01-01") (hfit _),
      hquiet ⟨nofun, nofun⟩ nofun nofun⟩ <|
    .cons ⟨.getMax rfl, hquiet ⟨nofun, nofun⟩ nofun nofun⟩ <|
    .cons ⟨.notify rfl, hquiet ⟨nofun, nofun⟩ nofun nofun⟩ <|
    .cons ⟨.loop (.wake rfl (by decide) fun hdeb => hdeb.1 rfl),
      hquiet ⟨nofun, nofun⟩ nofun nofun⟩ <|
    .cons ⟨.loop (.countSome rfl ⟨_, rfl⟩ (by decide)), ⟨nofun, nofun⟩,
      .of_current rfl (by decide)⟩ <|
    .cons ⟨.loop (.select rfl hpage), ⟨nofun, nofun⟩, .of_current rfl (by decide)⟩ <|
    .cons ⟨.loop (.write rfl nofun), hquiet ⟨nofun, nofun⟩ nofun nofun⟩ <|
    .cons ⟨.vacuum nofun (.stale _) hdel, hquiet ⟨nofun, nofun⟩ nofun nofun⟩ <|
    .single ⟨.insert .none _ rfl (insertReturns_stamp _ "2026-02-01") (hfit _),
      hquiet ⟨nofun, nofun⟩ nofun nofun⟩
  have hins : stampRow 1 "2026-02-01" ∈ [stampRow 1 "2020-01-01", stampRow 1 "2026-02-01"] :=
    List.mem_cons_of_mem _ List.mem_cons_self
  rcases hlive (stampRow 1 "2026-02-01") List.mem_cons_self hins with hsent | ⟨hahead, -⟩
  · have hcells := congrArg LogRow.cells (List.mem_singleton.mp hsent)
    revert hcells
    decide
  · exact absurd hahead (by decide)

end LogLite
