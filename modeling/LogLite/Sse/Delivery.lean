import LogLite.Lib.Cursor
import LogLite.Sse.System

/-!
# What a subscriber has received

The loop delivers what is between its cursor and the id it moves to, so the rows
it misses are those one event has no room for, and those that get an id behind its
cursor.

## Main definitions

* `Delivery` — the rows behind the cursor have been sent.

## Main results

* `Delivery.step` — what every step keeps that meets both conditions.
-/

namespace LogLite

open Cursor

section
variable {cat : DatabaseCatalog} {o : SseOptions} {s t : SseSystem} {act : SystemAction}

/-- What holds of the subscriber: the rows behind its cursor have been sent, and
those it holds are the rest up to the id it moves to. -/
structure Delivery (s : SseSystem) : Prop where
  fresh : s.sub.stage = .connecting → s.inserted = [] ∧ s.sub.initialId = s.sub.pushedId
  pushedFits : fitsInt64 s.sub.pushedId = true
  initial : s.sub.initialId ≤ s.sub.pushedId
  current : ∀ current, s.sub.stage.current = some current →
    fitsInt64 current = true ∧ s.sub.pushedId < current
  sent : Covered (·.id) s.sub.initialId s.sub.pushedId s.rows s.sub.sent.flatten
  held : ∀ current now results, s.sub.stage = .holding current now results →
    Covered (·.id) s.sub.initialId current s.rows (s.sub.sent.flatten ++ results)
  inserted : ∀ r ∈ s.inserted, s.sub.initialId < r.id

theorem Delivery.pushedId_le_cursor (h : Delivery s) : s.sub.pushedId ≤ s.sub.cursor := by
  unfold Subscriber.cursor
  split
  · next current now results hstage =>
    exact (h.current current (by rw [hstage]; rfl)).2.le
  · exact Int.le_refl _

theorem mem_record {db : WriterDatabase} {r : LogRow} (h : r ∈ s.record db) :
    s.sub.stage ≠ .connecting ∧ (r ∈ s.inserted ∨ r ∈ db.log.drop s.rows.length) := by
  unfold SseSystem.record at h
  split at h
  · cases h
  · next hne => exact ⟨hne, List.mem_append.mp h⟩

/-- Steps that touch neither the rows nor the subscriber keep the invariant. -/
theorem Delivery.frame (h : Delivery s) (hrows : t.rows = s.rows) (hsub : t.sub = s.sub)
    (hins : t.inserted = s.inserted) : Delivery t where
  fresh := by
    rw [hsub, hins]
    exact h.fresh
  pushedFits := by
    rw [hsub]
    exact h.pushedFits
  initial := by
    rw [hsub]
    exact h.initial
  current := by
    rw [hsub]
    exact h.current
  sent := by
    rw [hsub, hrows]
    exact h.sent
  held := by
    rw [hsub, hrows]
    exact h.held
  inserted := by
    rw [hsub, hins]
    exact h.inserted

/-- Rows with ids above the cursor keep the invariant. -/
theorem Delivery.insert (h : Delivery s) {db : WriterDatabase} {flush : FlushStage}
    (happ : Appends s.rows db.log)
    (habove : s.sub.stage ≠ .connecting → db.log = s.rows ∨ s.sub.cursor ≤ getMaxLogId s.rows) :
    Delivery { s with feed.db := db, flush := flush, inserted := s.record db } := by
  obtain ⟨new, hlog, hnew, -⟩ := happ
  have hcursor := h.pushedId_le_cursor
  -- the new rows lie above the cursor
  have hids : s.sub.stage ≠ .connecting → ∀ r ∈ new, s.sub.cursor < r.id := by
    intro hconn r hr
    rcases habove hconn with hsame | hle
    · rw [hsame, List.self_eq_append_right] at hlog
      rw [hlog] at hr
      cases hr
    · have hlt := hnew r hr
      omega
  have hrows : ({ s with feed.db := db, flush := flush, inserted := s.record db } :
      SseSystem).rows = s.rows ++ new := hlog
  refine ⟨?_, h.pushedFits, h.initial, h.current, ?_, ?_, ?_⟩
  · intro hconn
    have hconn : s.sub.stage = .connecting := hconn
    refine ⟨?_, (h.fresh hconn).2⟩
    show s.record db = []
    rw [SseSystem.record, hconn]
  · rw [hrows]
    by_cases hconn : s.sub.stage = .connecting
    · show Covered _ s.sub.initialId s.sub.pushedId _ _
      rw [(h.fresh hconn).2]
      exact .start
    · refine h.sent.append fun r hr => ?_
      have hlt : s.sub.cursor < r.id := hids hconn r hr
      show s.sub.pushedId < r.id
      omega
  · intro current now results hstage
    have hstage : s.sub.stage = .holding current now results := hstage
    rw [hrows]
    refine (h.held current now results hstage).append fun r hr => ?_
    have habove := hids (by rw [hstage]; nofun) r hr
    rwa [Subscriber.cursor, hstage] at habove
  · intro r hr
    obtain ⟨hconn, hold | hadded⟩ := mem_record hr
    · exact h.inserted r hold
    · rw [hlog, List.drop_left] at hadded
      have hlt := hids hconn r hadded
      have hle := h.initial
      show s.sub.initialId < r.id
      omega

/-- Deletions keep the invariant. -/
theorem Delivery.delete (h : Delivery s) {db : WriterDatabase} (hsub : db.log ⊆ s.rows) :
    Delivery { s with feed.db := db } where
  fresh := h.fresh
  pushedFits := h.pushedFits
  initial := h.initial
  current := h.current
  sent := h.sent.subset hsub
  held := fun current now results hstage => (h.held current now results hstage).subset hsub
  inserted := h.inserted

/-- The loop moves on without moving its cursor. -/
theorem Delivery.goto (h : Delivery s) (stage : SseStage) (lastWrite : ℤ)
    (hconn : stage ≠ .connecting)
    (hcurrent : ∀ current, stage.current = some current →
      fitsInt64 current = true ∧ s.sub.pushedId < current)
    (hheld : ∀ current now results, stage = .holding current now results →
      Covered (·.id) s.sub.initialId current s.rows (s.sub.sent.flatten ++ results)) :
    Delivery { s with sub := { s.sub with stage := stage, lastWrite := lastWrite } } where
  fresh := fun heq => absurd heq hconn
  pushedFits := h.pushedFits
  initial := h.initial
  current := hcurrent
  sent := h.sent
  held := hheld
  inserted := h.inserted

/-- The loop goes to a stage outside the query. -/
theorem Delivery.leave (h : Delivery s) (stage : SseStage) (lastWrite : ℤ)
    (hconn : stage ≠ .connecting) (hnone : stage.current = none) :
    Delivery { s with sub := { s.sub with stage := stage, lastWrite := lastWrite } } := by
  refine h.goto stage lastWrite hconn ?_ ?_
  · intro current hcur
    rw [hnone] at hcur
    cases hcur
  · intro current now results hstage
    rw [hstage] at hnone
    cases hnone

/-- The loop goes to another stage of its query. -/
theorem Delivery.proceed (h : Delivery s) (stage : SseStage) (lastWrite : ℤ)
    (hconn : stage ≠ .connecting) (hsame : s.sub.stage.current = stage.current)
    (hheld : ∀ current now results, stage = .holding current now results →
      Covered (·.id) s.sub.initialId current s.rows (s.sub.sent.flatten ++ results)) :
    Delivery { s with sub := { s.sub with stage := stage, lastWrite := lastWrite } } :=
  h.goto stage lastWrite hconn (fun current hcur => h.current current (hsame.trans hcur)) hheld

/-- **Every step of the loop keeps the invariant**, if its query runs and its
window fits in one event. -/
theorem Delivery.loop (hid : cat.HasRowId) (h : Delivery s) (ha : Announced s) {act : SseAction}
    {b : Subscriber} (hstep : SseStep cat o s.feed s.sub act b) (hrun : QueriesRun (.loop act))
    (hfits : WindowFits o s (.loop act)) : Delivery { s with sub := b } := by
  -- the rows of the window, when it is queried
  have hwindow : ∀ current, s.sub.stage.current = some current →
      act = .count ∨ act = .select →
        (matching cat s.feed.db.colDict (idWindow s.sub.pushedId current) s.rows).length ≤ o.limit ∧
          ∀ r, r ∈ matching cat s.feed.db.colDict (idWindow s.sub.pushedId current) s.rows ↔
            r ∈ s.rows ∧ s.sub.pushedId < r.id ∧ r.id ≤ current := by
    intro current hcur hact
    rw [matching_idWindow hid h.pushedFits (h.current current hcur).1]
    refine ⟨hfits (hact.imp (congrArg _) (congrArg _)) current hcur, fun r => ?_⟩
    rw [List.mem_filter, decide_eq_true_eq]
  cases hstep with
  | subscribe hstage =>
    obtain ⟨hins, -⟩ := h.fresh hstage
    refine ⟨nofun, ha.lastId, Int.le_refl _, nofun, .start, nofun, ?_⟩
    intro r hr
    have hr : r ∈ s.inserted := hr
    rw [hins] at hr
    cases hr
  | nothingNew hstage hle hwait => exact h
  | keepAlive hstage hle hwait => exact h.leave (.pinging _) _ nofun rfl
  | pinged hstage => exact h.leave .waiting _ nofun rfl
  | pingFails hstage => exact h.leave .ended _ nofun rfl
  | debounced hstage hlt hdeb => exact h
  | wake hstage hlt hdeb =>
    refine h.goto (.counting _ _) _ nofun ?_ nofun
    intro current hcur
    obtain rfl := Option.some.inj hcur
    exact ⟨ha.lastId, hlt⟩
  | countError hstage => exact h.leave .waiting _ nofun rfl
  | @countNone current now hstage hcomp hzero =>
    have hcur : s.sub.stage.current = some current := by rw [hstage]; rfl
    obtain ⟨hlen, hmem⟩ := hwindow current hcur (.inl rfl)
    have hnil := matching_eq_nil_of_countRows (lt_of_le_of_lt hlen o.limit_lt) hzero
    refine h.proceed (.holding current now []) _ nofun hcur ?_
    intro current' now' results hheld
    cases hheld
    refine h.sent.advance fun r hr hlo hhi => ?_
    rw [← hnil]
    exact (hmem r).mpr ⟨hr, hlo, hhi⟩
  | @countSome current now hstage hcomp hpos =>
    have hcur : s.sub.stage.current = some current := by rw [hstage]; rfl
    exact h.proceed (.selecting current now) _ nofun hcur nofun
  | countFault hstage => exact absurd rfl hrun.1
  | selectError hstage => exact h.leave .waiting _ nofun rfl
  | @select current now page hstage hpage =>
    have hcur : s.sub.stage.current = some current := by rw [hstage]; rfl
    obtain ⟨hlen, hmem⟩ := hwindow current hcur (.inr rfl)
    refine h.proceed (.holding current now page) _ nofun hcur ?_
    intro current' now' results hheld
    cases hheld
    refine h.sent.advance fun r hr hlo hhi => ?_
    exact (IsPage.mem_iff hpage hlen).mpr ((hmem r).mpr ⟨hr, hlo, hhi⟩)
  | selectFault hstage hpage hpart => exact absurd rfl hrun.2
  | @skip current now hstage =>
    have hcur := h.current current (by rw [hstage]; rfl)
    have hheld := h.held current now [] hstage
    rw [List.append_nil] at hheld
    exact ⟨nofun, hcur.1, h.initial.trans hcur.2.le, nofun, hheld, nofun, h.inserted⟩
  | @write current now results hstage hne =>
    have hcur := h.current current (by rw [hstage]; rfl)
    have hheld := h.held current now results hstage
    refine ⟨nofun, hcur.1, h.initial.trans hcur.2.le, nofun, ?_, nofun, h.inserted⟩
    show Covered _ _ current _ (s.sub.sent ++ [results]).flatten
    rw [List.flatten_append, List.flatten_singleton]
    exact hheld
  | writeFails hstage hne => exact h.leave .ended _ nofun rfl

/-- **What every step keeps that meets the conditions.** -/
theorem Delivery.step (hid : cat.HasRowId) (h : Delivery s) (ha : Announced s)
    (hstep : SystemStep cat o s act t) (hrun : QueriesRun act) (hfits : WindowFits o s act)
    (habove : IdsAbove cat s act) : Delivery t := by
  cases hstep with
  | insert f logs hidle hret hfit =>
    exact h.insert (hret.appends ha.begun) (habove f logs _ rfl hret)
  | getMax hins => exact h.frame rfl rfl rfl
  | notify hnot => exact h.frame rfl rfl rfl
  | vacuum _ _ hdel => exact h.delete hdel.delete_subset
  | tick ms => exact h.frame rfl rfl rfl
  | loop hloop => exact h.loop hid ha hloop hrun hfits

theorem delivery_start (tables : Tables) (d : LookupTable) (clock : ℤ) :
    Delivery (.start tables d clock) where
  fresh := fun _ => ⟨rfl, rfl⟩
  pushedFits := by
    show fitsInt64 0 = true
    decide
  initial := Int.le_refl _
  current := nofun
  sent := .start
  held := nofun
  inserted := nofun

end

end LogLite
