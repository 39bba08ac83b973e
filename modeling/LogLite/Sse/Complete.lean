import LogLite.Sse.Delivery

/-!
# Completeness of the events

Without deletions the ids in the table only go up, so no row gets an id behind the
cursor.  What remains is the limit: the rows of one window are sent in one event,
which has room for `sse_limit` rows, and the cursor moves past all of them.

## Main definitions

* `SseComplete` — the rows behind the cursor have been sent.

## Main results

* `sse_complete` — **all rows behind the cursor have been sent while each window
  fits in one event, and not any more after one that does not.**
-/

namespace LogLite

open Transition

section
variable {cat : DatabaseCatalog} {o : SseOptions} {s t : SseSystem} {act : SystemAction}

/-- No id the system has read is above the largest in the table. -/
structure NotAhead (s : SseSystem) : Prop where
  lastId : s.feed.lastId ≤ getMaxLogId s.rows
  notifying : ∀ maxId, s.flush = .notifying maxId → maxId ≤ getMaxLogId s.rows
  pushedId : s.sub.stage ≠ .connecting → s.sub.pushedId ≤ getMaxLogId s.rows
  current : ∀ current, s.sub.stage.current = some current → current ≤ getMaxLogId s.rows

theorem NotAhead.cursor_le (h : NotAhead s) (hconn : s.sub.stage ≠ .connecting) :
    s.sub.cursor ≤ getMaxLogId s.rows := by
  unfold Subscriber.cursor
  split
  · next current now results hstage => exact h.current current (by rw [hstage]; rfl)
  · exact h.pushedId hconn

theorem NotAhead.idsAbove (h : NotAhead s) : IdsAbove cat s act :=
  fun _ _ _ _ _ hconn => .inr (h.cursor_le hconn)

/-- The loop moves to a stage whose id it had already read. -/
theorem NotAhead.goto (h : NotAhead s) (hold : s.sub.stage ≠ .connecting) {b : Subscriber}
    (hpushed : b.pushedId = s.sub.pushedId)
    (hcurrent : b.stage.current = none ∨ b.stage.current = s.sub.stage.current ∨
      b.stage.current = some s.feed.lastId) : NotAhead { s with sub := b } where
  lastId := h.lastId
  notifying := h.notifying
  pushedId := by
    intro _
    show b.pushedId ≤ _
    rw [hpushed]
    exact h.pushedId hold
  current := by
    intro current hcur
    have hcur : b.stage.current = some current := hcur
    rw [hcur] at hcurrent
    rcases hcurrent with hnone | hsame | hlast
    · cases hnone
    · exact h.current current hsame.symm
    · obtain rfl := Option.some.inj hlast
      exact h.lastId

/-- The cursor moves to the id it was to move to. -/
theorem NotAhead.advance (h : NotAhead s) {b : Subscriber} {current : ℤ}
    (hcur : s.sub.stage.current = some current) (hpushed : b.pushedId = current)
    (hstage : b.stage = .waiting) : NotAhead { s with sub := b } where
  lastId := h.lastId
  notifying := h.notifying
  pushedId := by
    intro _
    show b.pushedId ≤ _
    rw [hpushed]
    exact h.current current hcur
  current := by
    intro current' hcur'
    have hcur' : b.stage.current = some current' := hcur'
    rw [hstage] at hcur'
    cases hcur'

theorem NotAhead.loop (h : NotAhead s) {act : SseAction} {b : Subscriber}
    (hstep : SseStep cat o s.feed s.sub act b) : NotAhead { s with sub := b } := by
  cases hstep with
  | subscribe hstage => exact ⟨h.lastId, h.notifying, fun _ => h.lastId, nofun⟩
  | nothingNew hstage hle hwait => exact h
  | keepAlive hstage hle hwait => exact h.goto (by rw [hstage]; nofun) rfl (.inl rfl)
  | pinged hstage => exact h.goto (by rw [hstage]; nofun) rfl (.inl rfl)
  | pingFails hstage => exact h.goto (by rw [hstage]; nofun) rfl (.inl rfl)
  | debounced hstage hlt hdeb => exact h
  | wake hstage hlt hdeb => exact h.goto (by rw [hstage]; nofun) rfl (.inr (.inr rfl))
  | countError hstage => exact h.goto (by rw [hstage]; nofun) rfl (.inl rfl)
  | countNone hstage hcomp hzero =>
    exact h.goto (by rw [hstage]; nofun) rfl (.inr (.inl (by rw [hstage]; rfl)))
  | countSome hstage hcomp hpos =>
    exact h.goto (by rw [hstage]; nofun) rfl (.inr (.inl (by rw [hstage]; rfl)))
  | countFault hstage =>
    exact h.goto (by rw [hstage]; nofun) rfl (.inr (.inl (by rw [hstage]; rfl)))
  | selectError hstage => exact h.goto (by rw [hstage]; nofun) rfl (.inl rfl)
  | select hstage hpage =>
    exact h.goto (by rw [hstage]; nofun) rfl (.inr (.inl (by rw [hstage]; rfl)))
  | selectFault hstage hpage hpart =>
    exact h.goto (by rw [hstage]; nofun) rfl (.inr (.inl (by rw [hstage]; rfl)))
  | skip hstage => exact h.advance (by rw [hstage]; rfl) rfl rfl
  | write hstage hne => exact h.advance (by rw [hstage]; rfl) rfl rfl
  | writeFails hstage hne => exact h.goto (by rw [hstage]; nofun) rfl (.inl rfl)

/-- Without deletions, the ids in the table only go up. -/
theorem NotAhead.step (h : NotAhead s) (ha : Announced s) (hstep : SystemStep cat o s act t)
    (hquiet : Undisturbed act) : NotAhead t := by
  cases hstep with
  | insert f logs hidle hret hfit =>
    have hmax := (hret.appends ha.begun).getMaxLogId_le
    exact ⟨h.lastId.trans hmax, nofun, fun hconn => (h.pushedId hconn).trans hmax,
      fun current hcur => (h.current current hcur).trans hmax⟩
  | getMax hins =>
    refine ⟨h.lastId, ?_, h.pushedId, h.current⟩
    intro maxId hmax
    obtain rfl := FlushStage.notifying.inj hmax
    exact Int.le_refl _
  | @notify maxId hnot => exact ⟨h.notifying maxId hnot, nofun, h.pushedId, h.current⟩
  | vacuum _ _ hdel => exact absurd rfl (hquiet.1 _ _)
  | tick ms => exact ⟨h.lastId, h.notifying, h.pushedId, h.current⟩
  | loop hloop => exact h.loop hloop

theorem notAhead_start (tables : Tables) (d : LookupTable) (clock : ℤ) :
    NotAhead (.start tables d clock) where
  lastId := Int.le_refl _
  notifying := nofun
  pushedId := fun hconn => absurd rfl hconn
  current := nofun

/-! ### What has been sent -/

/-- Row ids are distinct, and nothing ahead of the cursor has been sent. -/
structure Behind (s : SseSystem) : Prop where
  nodup : (s.rows.map (·.id)).Nodup
  sent : ∀ r ∈ s.sub.sent.flatten, r.id ≤ s.sub.pushedId
  held : ∀ current now results, s.sub.stage = .holding current now results →
    ∀ r ∈ results, r.id ≤ current

/-- The loop moves on without moving its cursor. -/
theorem Behind.goto (h : Behind s) {b : Subscriber} (hpushed : b.pushedId = s.sub.pushedId)
    (hsent : b.sent = s.sub.sent) (hheld : ∀ current now results,
      b.stage = .holding current now results → ∀ r ∈ results, r.id ≤ current) :
    Behind { s with sub := b } where
  nodup := h.nodup
  sent := by
    show ∀ r ∈ b.sent.flatten, r.id ≤ b.pushedId
    rw [hsent, hpushed]
    exact h.sent
  held := hheld

theorem Behind.loop (hid : cat.HasRowId) (h : Behind s) (hd : Delivery s) {act : SseAction}
    {b : Subscriber} (hstep : SseStep cat o s.feed s.sub act b) : Behind { s with sub := b } := by
  -- the rows of a page lie in the window
  have hpage : ∀ current page, s.sub.stage.current = some current →
      IsWindowPage cat o s.feed s.sub current page → ∀ r ∈ page, r.id ≤ current := by
    intro current page hcur hpage r hr
    have hmem := hpage.subset hr
    rw [matching_idWindow hid hd.pushedFits (hd.current current hcur).1, List.mem_filter,
      decide_eq_true_eq] at hmem
    exact hmem.2.2
  cases hstep with
  | subscribe hstage => exact ⟨h.nodup, nofun, nofun⟩
  | nothingNew hstage hle hwait => exact h
  | keepAlive hstage hle hwait => exact h.goto rfl rfl nofun
  | pinged hstage => exact h.goto rfl rfl nofun
  | pingFails hstage => exact h.goto rfl rfl nofun
  | debounced hstage hlt hdeb => exact h
  | wake hstage hlt hdeb => exact h.goto rfl rfl nofun
  | countError hstage => exact h.goto rfl rfl nofun
  | countNone hstage hcomp hzero =>
    refine h.goto rfl rfl fun current now results hheld r hr => ?_
    cases hheld
    cases hr
  | countSome hstage hcomp hpos => exact h.goto rfl rfl nofun
  | countFault hstage =>
    refine h.goto rfl rfl fun current now results hheld r hr => ?_
    cases hheld
    cases hr
  | selectError hstage => exact h.goto rfl rfl nofun
  | @select current now page hstage hwin =>
    refine h.goto rfl rfl fun current' now' results hheld r hr => ?_
    cases hheld
    exact hpage current page (by rw [hstage]; rfl) hwin r hr
  | @selectFault current now page part hstage hwin hpart =>
    refine h.goto rfl rfl fun current' now' results hheld r hr => ?_
    cases hheld
    exact hpage current page (by rw [hstage]; rfl) hwin r (hpart.mem hr)
  | @skip current now hstage =>
    have hcur := hd.current current (by rw [hstage]; rfl)
    refine ⟨h.nodup, fun r hr => ?_, nofun⟩
    have hle : r.id ≤ s.sub.pushedId := h.sent r hr
    show r.id ≤ current
    omega
  | @write current now results hstage hne =>
    have hcur := hd.current current (by rw [hstage]; rfl)
    refine ⟨h.nodup, fun r hr => ?_, nofun⟩
    have hr : r ∈ (s.sub.sent ++ [results]).flatten := hr
    rw [List.flatten_append, List.flatten_singleton, List.mem_append] at hr
    rcases hr with hold | hnew
    · have hle : r.id ≤ s.sub.pushedId := h.sent r hold
      show r.id ≤ current
      omega
    · exact h.held current now results hstage r hnew
  | writeFails hstage hne => exact h.goto rfl rfl nofun

theorem Behind.step (hid : cat.HasRowId) (h : Behind s) (ha : Announced s) (hd : Delivery s)
    (hstep : SystemStep cat o s act t) : Behind t := by
  cases hstep with
  | insert f logs hidle hret hfit =>
    exact ⟨(hret.appends ha.begun).nodup h.nodup, h.sent, h.held⟩
  | getMax hins => exact ⟨h.nodup, h.sent, h.held⟩
  | notify hnot => exact ⟨h.nodup, h.sent, h.held⟩
  | vacuum _ _ hdel =>
    obtain ⟨keep, rfl⟩ := hdel.delete_eq
    exact ⟨h.nodup.sublist (List.filter_sublist.map _), h.sent, h.held⟩
  | tick ms => exact ⟨h.nodup, h.sent, h.held⟩
  | loop hloop => exact h.loop hid hd hloop

/-! ### The theorem -/

/-- Every row behind the cursor has been sent. -/
def SseComplete (s : SseSystem) : Prop :=
  ∀ r ∈ s.rows, s.sub.initialId < r.id → r.id ≤ s.sub.pushedId → r ∈ s.sub.sent.flatten

/-- The runs without deletions and errors whose windows fit. -/
abbrev FittingStep (cat : DatabaseCatalog) (o : SseOptions) :
    SseSystem → SystemAction → SseSystem → Prop :=
  Guarded (SystemStep cat o) fun s act => Undisturbed act ∧ WindowFits o s act

theorem complete_of_run (hid : cat.HasRowId) {tables : Tables} {d : LookupTable} {clock : ℤ}
    (hfit : RowIdsFit tables.log) (hnodup : (tables.log.map (·.id)).Nodup)
    {acts : List SystemAction} (hrun : Run (FittingStep cat o) (.start tables d clock) acts s) :
    Delivery s ∧ Behind s := by
  have hinv := hrun.invariant (I := fun s => Announced s ∧ Delivery s ∧ NotAhead s ∧ Behind s) ?_
    ⟨announced_start d clock hfit, delivery_start tables d clock, notAhead_start tables d clock,
      hnodup, nofun, nofun⟩
  · exact ⟨hinv.2.1, hinv.2.2.2⟩
  · intro s act t ⟨ha, hd, hn, hb⟩ ⟨hstep, hquiet, hfits⟩
    exact ⟨ha.step hstep, hd.step hid ha hstep hquiet.2 hfits hn.idsAbove, hn.step ha hstep hquiet,
      hb.step hid ha hd hstep⟩

/-- After a window that did not fit, a row behind the cursor has not been sent. -/
theorem not_sseComplete_of_select (hid : cat.HasRowId) (hd : Delivery s) (hb : Behind s)
    {u : SseSystem} (hselect : SystemStep cat o s (.loop .select) t)
    (hover : ¬ WindowFits o s (.loop .select)) (hwrite : SystemStep cat o t (.loop .write) u) :
    ¬ SseComplete u := by
  obtain ⟨b, hloop, rfl⟩ : ∃ b, SseStep cat o s.feed s.sub .select b ∧ t = { s with sub := b } := by
    cases hselect with
    | loop hloop => exact ⟨_, hloop, rfl⟩
  cases hloop with
  | @select current now page hstage hpage =>
    have hcur : s.sub.stage.current = some current := by rw [hstage]; rfl
    obtain ⟨hfits, hlt⟩ := hd.current current hcur
    have hmatch := matching_idWindow hid (d := s.feed.db.colDict) hd.pushedFits hfits s.rows
    have hmore : o.limit < (matching cat s.feed.db.colDict
        (idWindow s.sub.pushedId current) s.rows).length := by
      rw [hmatch]
      by_contra hle
      refine hover fun _ current' hcur' => ?_
      obtain rfl := Option.some.inj (hcur.symm.trans hcur')
      exact not_lt.mp hle
    have hdistinct : (matching cat s.feed.db.colDict
        (idWindow s.sub.pushedId current) s.rows).Nodup :=
      (List.Nodup.of_map _ hb.nodup).filter _
    obtain ⟨r, hr, hmiss⟩ := hpage.exists_notMem hmore hdistinct
    rw [hmatch, List.mem_filter, decide_eq_true_eq] at hr
    cases hwrite with
    | loop hloop =>
      cases hloop with
      | pinged hstage' => cases hstage'
      | write hstage' hne =>
        cases hstage'
        intro hcomp
        have hinitial : s.sub.initialId < r.id := by
          have hle := hd.initial
          omega
        have hsent := hcomp r hr.1 hinitial hr.2.2
        have hsent : r ∈ (s.sub.sent ++ [page]).flatten := hsent
        rw [List.flatten_append, List.flatten_singleton, List.mem_append] at hsent
        rcases hsent with hold | hnew
        · have hle := hb.sent r hold
          omega
        · exact hmiss hnew

/-- **Without deletions, every row behind the cursor has been sent while each
window fits in one event; when one does not, a row is missing after its event.** -/
theorem sse_complete (hid : cat.HasRowId) {tables : Tables} {d : LookupTable} {clock : ℤ}
    (hfit : RowIdsFit tables.log) (hnodup : (tables.log.map (·.id)).Nodup) :
    (∀ acts s, Run (FittingStep cat o) (.start tables d clock) acts s → SseComplete s) ∧
    (∀ acts s t u, Run (FittingStep cat o) (.start tables d clock) acts s →
      SystemStep cat o s (.loop .select) t → ¬ WindowFits o s (.loop .select) →
        SystemStep cat o t (.loop .write) u → ¬ SseComplete u) := by
  refine ⟨fun acts s hrun => ?_, fun acts s t u hrun hselect hover hwrite => ?_⟩
  · exact (complete_of_run hid hfit hnodup hrun).1.sent
  · obtain ⟨hd, hb⟩ := complete_of_run hid hfit hnodup hrun
    exact not_sseComplete_of_select hid hd hb hselect hover hwrite

end

/-- A row inserted after the subscription is sent in an event. -/
theorem sse_complete_one : ∃ s,
    Run (SystemStep stampCatalog oneRow) (.start ⟨[], []⟩ ∅ 1000)
        [.loop .subscribe, .insert .none [stampLog "2026-01-01"], .getMax, .notify, .loop .wake,
          .loop .count, .loop .select, .loop .write] s ∧ SseComplete s := by
  have hnone : RowIdsFit (⟨[], []⟩ : Tables).log := nofun
  have hdistinct : ((⟨[], []⟩ : Tables).log.map (·.id)).Nodup := .nil
  have hret := insertReturns_stamp [] "2026-01-01"
  have hfit : RowIdsFit [stampRow 1 "2026-01-01"] := by
    unfold RowIdsFit
    decide
  have hpage : IsPage stampCatalog ∅ (idWindow 0 1) (lit "timestamp") 1 0
      [stampRow 1 "2026-01-01"] [stampRow 1 "2026-01-01"] :=
    ⟨⟨_, rfl⟩, _, [stampRow 1 "2026-01-01"], rfl, .refl _, .cons nofun .nil, rfl⟩
  have hquiet : ∀ {s act}, (∀ fault filters, act ≠ .vacuum fault filters) → QueriesRun act →
      act ≠ .loop .count → act ≠ .loop .select → Undisturbed act ∧ WindowFits oneRow s act :=
    fun hvac hrun hcount hselect => ⟨⟨hvac, hrun⟩, .of_ne hcount hselect⟩
  have hrun : Run (FittingStep stampCatalog oneRow) (.start ⟨[], []⟩ ∅ 1000) _ _ :=
    .cons ⟨.loop (.subscribe rfl), hquiet nofun ⟨nofun, nofun⟩ nofun nofun⟩ <|
    .cons ⟨.insert .none _ rfl hret hfit, hquiet nofun ⟨nofun, nofun⟩ nofun nofun⟩ <|
    .cons ⟨.getMax rfl, hquiet nofun ⟨nofun, nofun⟩ nofun nofun⟩ <|
    .cons ⟨.notify rfl, hquiet nofun ⟨nofun, nofun⟩ nofun nofun⟩ <|
    .cons ⟨.loop (.wake rfl (by decide) fun hdeb => hdeb.1 rfl),
      hquiet nofun ⟨nofun, nofun⟩ nofun nofun⟩ <|
    .cons ⟨.loop (.countSome rfl ⟨_, rfl⟩ (by decide)),
      ⟨nofun, nofun, nofun⟩, .of_current rfl (by decide)⟩ <|
    .cons ⟨.loop (.select rfl hpage), ⟨nofun, nofun, nofun⟩, .of_current rfl (by decide)⟩ <|
    .single ⟨.loop (.write rfl nofun), hquiet nofun ⟨nofun, nofun⟩ nofun nofun⟩
  exact ⟨_, hrun.of_guarded, (sse_complete stampCatalog_hasRowId hnone hdistinct).1 _ _ hrun⟩

/-- Two rows in one window, with room for one in the event: the older one is
never sent. -/
theorem sse_skips_burst : ¬ ∀ (cat : DatabaseCatalog) (o : SseOptions) (tables : Tables)
    (d : LookupTable) (clock : ℤ) (acts : List SystemAction) (s : SseSystem), cat.HasRowId →
      RowIdsFit tables.log → (tables.log.map (·.id)).Nodup →
        Run (Guarded (SystemStep cat o) fun _ act => Undisturbed act)
          (.start tables d clock) acts s → SseComplete s := by
  intro h
  have hret : InsertReturns stampCatalog (stampDb [])
      (.none, [stampLog "2026-01-01", stampLog "2026-01-02"])
        (stampDb [stampRow 1 "2026-01-01", stampRow 2 "2026-01-02"]) :=
    ⟨[.inserted, .inserted], rfl⟩
  have hfit : RowIdsFit [stampRow 1 "2026-01-01", stampRow 2 "2026-01-02"] := by
    unfold RowIdsFit
    decide
  have hdesc : Descending ⟨lit "timestamp", lit "TEXT", true, false, timestamp_noNul⟩
      [stampRow 2 "2026-01-02", stampRow 1 "2026-01-01"] := by
    unfold Descending
    decide
  have hpage : IsPage stampCatalog ∅ (idWindow 0 2) (lit "timestamp") 1 0
      [stampRow 1 "2026-01-01", stampRow 2 "2026-01-02"] [stampRow 2 "2026-01-02"] :=
    ⟨⟨_, rfl⟩, _, _, rfl, .swap _ _ _, hdesc, rfl⟩
  have hcomp := h stampCatalog oneRow ⟨[], []⟩ ∅ 1000 [.loop .subscribe,
    .insert .none [stampLog "2026-01-01", stampLog "2026-01-02"], .getMax, .notify, .loop .wake,
    .loop .count, .loop .select, .loop .write] _ stampCatalog_hasRowId nofun .nil <|
    .cons ⟨.loop (.subscribe rfl), nofun, nofun, nofun⟩ <|
    .cons ⟨.insert .none _ rfl hret hfit, nofun, nofun, nofun⟩ <|
    .cons ⟨.getMax rfl, nofun, nofun, nofun⟩ <|
    .cons ⟨.notify rfl, nofun, nofun, nofun⟩ <|
    .cons ⟨.loop (.wake rfl (by decide) fun hdeb => hdeb.1 rfl), nofun, nofun, nofun⟩ <|
    .cons ⟨.loop (.countSome rfl ⟨_, rfl⟩ (by decide)), nofun, nofun, nofun⟩ <|
    .cons ⟨.loop (.select rfl hpage), nofun, nofun, nofun⟩ <|
    .single ⟨.loop (.write rfl nofun), nofun, nofun, nofun⟩
  have hmem := hcomp (stampRow 1 "2026-01-01") List.mem_cons_self (by decide) (by decide)
  have hid : (1 : ℤ) = 2 := congrArg LogRow.id (List.mem_singleton.mp hmem)
  exact absurd hid (by decide)

end LogLite
