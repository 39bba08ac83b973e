import LogLite.Lib.Run
import LogLite.Lib.Windows
import LogLite.Sse.System

/-!
# The windows of a subscriber's events

Whatever the notifier and the tables do, the loop only moves its cursor forward, and
each event holds rows between two positions of it.  So the steps of the loop are
looked at alone here: every step may see any database, any last id and any time.

## Main definitions

* `Observed` — a subscriber with the id windows of the events written to it.
* `ObservedStep` — a step of the loop that sees any feed.

## Main results

* `Forward.step` — what every step keeps.
* `sse_no_repeat` — **the windows of the events are disjoint and increase, so no row
  is sent twice and none with an id up to the one read at the subscription.**
-/

namespace LogLite

open Transition Windows

/-- A subscriber with the id windows `(pushed_id, current_id]` of the events written
to it; no code reads the windows. -/
structure Observed where
  sub : Subscriber
  windows : List (ℤ × ℤ)

/-- What a step can see: ids are distinct 64-bit integers. -/
structure Feed.Sane (feed : Feed) : Prop where
  ids : ∀ r ∈ feed.rows, fitsInt64 r.id = true
  nodup : (feed.rows.map (·.id)).Nodup
  lastId : fitsInt64 feed.lastId = true

/-- The window of the event a step writes, if it writes one. -/
def Subscriber.window (b : Subscriber) : SseAction → List (ℤ × ℤ)
  | .write =>
    match b.stage with
    | .holding current _ _ => [(b.pushedId, current)]
    | _ => []
  | _ => []

/-- A step of the loop, which sees any feed. -/
def ObservedStep (cat : DatabaseCatalog) (o : SseOptions) (s : Observed) (seen : Feed × SseAction)
    (t : Observed) : Prop :=
  seen.1.Sane ∧ SseStep cat o seen.1 s.sub seen.2 t.sub ∧
    t.windows = s.windows ++ s.sub.window seen.2

/-- A client that has just connected. -/
def Observed.start : Observed := ⟨.fresh, []⟩

/-! ### The invariant -/

/-- What holds at each point of the loop: an id the loop is about to move to is ahead
of its cursor, and the rows it holds lie between the two. -/
def SseStage.Ahead (pushedId : ℤ) : SseStage → Prop
  | .counting current _ => pushedId < current ∧ fitsInt64 current = true
  | .selecting current _ => pushedId < current ∧ fitsInt64 current = true
  | .holding current _ results => pushedId < current ∧ fitsInt64 current = true ∧
      (∀ r ∈ results, Inside (pushedId, current) r.id) ∧ (results.map (·.id)).Nodup
  | _ => True

/-- The cursor only moves forward, and the events come from the windows it passes. -/
structure Forward (s : Observed) : Prop where
  fits : fitsInt64 s.sub.pushedId = true
  ahead : s.sub.stage.Ahead s.sub.pushedId
  fresh : s.sub.stage = .connecting → s.sub.sent = [] ∧ s.windows = []
  series : Series (·.id) s.sub.initialId s.sub.pushedId s.sub.sent s.windows

theorem forward_start : Forward .start where
  fits := by decide
  ahead := trivial
  fresh := fun _ => ⟨rfl, rfl⟩
  series := .nil _ _

section
variable {cat : DatabaseCatalog} {o : SseOptions} {feed : Feed} {s t : Observed}
  {act : SseAction}

/-- The rows of a page of the window. -/
theorem IsWindowPage.inside (hid : cat.HasRowId) (hsane : feed.Sane) {b : Subscriber}
    {current : ℤ} (hp : fitsInt64 b.pushedId = true) (hc : fitsInt64 current = true)
    {page : List LogRow} (h : IsWindowPage cat o feed b current page) :
    (∀ r ∈ page, Inside (b.pushedId, current) r.id) ∧ (page.map (·.id)).Nodup := by
  constructor
  · intro r hr
    have hmem := h.subset hr
    rw [matching_idWindow hid hp hc, List.mem_filter, decide_eq_true_eq] at hmem
    exact hmem.2
  · obtain ⟨-, ci, sorted, -, hperm, -, rfl⟩ := h
    have hsorted : (sorted.map (·.id)).Nodup := by
      rw [(hperm.map _).nodup_iff]
      exact hsane.nodup.sublist (List.filter_sublist.map _)
    refine hsorted.sublist (List.Sublist.map _ ?_)
    unfold limited
    split
    · exact List.drop_sublist _ _
    · exact (List.take_sublist _ _).trans (List.drop_sublist _ _)

/-- The loop moves on without an event, and without moving its cursor. -/
theorem Forward.goto {b : Subscriber} {windows : List (ℤ × ℤ)} (h : Forward ⟨b, windows⟩)
    (next : SseStage) (lastWrite : ℤ) (hnext : next.Ahead b.pushedId)
    (hne : next ≠ .connecting) :
    Forward ⟨{ b with stage := next, lastWrite := lastWrite }, windows⟩ where
  fits := h.fits
  ahead := hnext
  fresh := fun hc => absurd hc hne
  series := h.series

/-- **Every step of the loop keeps the cursor moving forward.** -/
theorem Forward.step (hid : cat.HasRowId) (h : Forward s)
    (hstep : ObservedStep cat o s (feed, act) t) : Forward t := by
  obtain ⟨hsane, hsub, hwindows⟩ := hstep
  obtain ⟨b, windows⟩ := s
  obtain ⟨b', windows'⟩ := t
  have hahead := h.ahead
  dsimp only at hsub hwindows hahead
  have hstill : b.window act = [] → windows' = windows := by
    intro hnone
    rw [hwindows, hnone, List.append_nil]
  cases hsub with
  | subscribe hs =>
    obtain ⟨hsent, hnone⟩ := h.fresh hs
    obtain rfl := hstill rfl
    refine ⟨hsane.lastId, trivial, fun hc => (by cases hc), ?_⟩
    dsimp only at hnone
    rw [hnone]
    exact .nil _ _
  | nothingNew hs hle hlast =>
    obtain rfl := hstill rfl
    exact h
  | keepAlive hs hle hlast =>
    obtain rfl := hstill rfl
    exact h.goto (.pinging feed.clock) b.lastWrite trivial (by simp)
  | @pinged now hs =>
    obtain rfl := hstill (by rw [Subscriber.window, hs])
    exact h.goto .waiting now trivial (by simp)
  | pingFails hs =>
    obtain rfl := hstill rfl
    exact h.goto .ended b.lastWrite trivial (by simp)
  | debounced hs hlt hdeb =>
    obtain rfl := hstill rfl
    exact h
  | wake hs hlt hdeb =>
    obtain rfl := hstill rfl
    exact h.goto (.counting feed.lastId feed.clock) b.lastWrite ⟨hlt, hsane.lastId⟩ (by simp)
  | countError hs =>
    obtain rfl := hstill rfl
    exact h.goto .waiting b.lastWrite trivial (by simp)
  | @countNone current now hs hcompiles hzero =>
    obtain rfl := hstill rfl
    rw [hs] at hahead
    exact h.goto (.holding current now []) b.lastWrite ⟨hahead.1, hahead.2, by simp, .nil⟩ (by simp)
  | @countSome current now hs hcompiles hsome =>
    obtain rfl := hstill rfl
    rw [hs] at hahead
    exact h.goto (.selecting current now) b.lastWrite hahead (by simp)
  | @countFault current now hs =>
    obtain rfl := hstill rfl
    rw [hs] at hahead
    exact h.goto (.holding current now []) b.lastWrite ⟨hahead.1, hahead.2, by simp, .nil⟩ (by simp)
  | selectError hs =>
    obtain rfl := hstill rfl
    exact h.goto .waiting b.lastWrite trivial (by simp)
  | @select current now page hs hpage =>
    obtain rfl := hstill rfl
    rw [hs] at hahead
    obtain ⟨hinside, hnodup⟩ := hpage.inside hid hsane h.fits hahead.2
    exact h.goto (.holding current now page) b.lastWrite ⟨hahead.1, hahead.2, hinside, hnodup⟩
      (by simp)
  | @selectFault current now page part hs hpage hpart =>
    -- what a failing statement has returned so far is a part of the page
    obtain rfl := hstill rfl
    rw [hs] at hahead
    obtain ⟨hinside, hnodup⟩ := hpage.inside hid hsane h.fits hahead.2
    exact h.goto (.holding current now part) b.lastWrite ⟨hahead.1, hahead.2,
      fun r hr => hinside r (hpart.subset hr), hnodup.sublist (hpart.sublist.map _)⟩ (by simp)
  | skip hs =>
    obtain rfl := hstill rfl
    rw [hs] at hahead
    exact ⟨hahead.2.1, trivial, fun hc => (by cases hc), h.series.mono hahead.1.le⟩
  | @write current now results hs hne =>
    rw [hs] at hahead
    have hwindow : windows' = windows ++ [(b.pushedId, current)] := by
      rw [hwindows, Subscriber.window, hs]
    subst hwindow
    exact ⟨hahead.2.1, trivial, fun hc => (by cases hc),
      h.series.push hahead.1 hahead.2.2.1 hahead.2.2.2⟩
  | writeFails hs hne =>
    obtain rfl := hstill rfl
    exact h.goto .ended b.lastWrite trivial (by simp)

/-! ### The theorem -/

/-- **The windows of the events are disjoint and increase, each event has rows of its
window, no row id is sent twice, and none up to the id read at the subscription.** -/
theorem sse_no_repeat (hid : cat.HasRowId) {seen : List (Feed × SseAction)}
    (hrun : Run (ObservedStep cat o) .start seen s) :
    s.windows.Pairwise (fun w w' => w.2 ≤ w'.1) ∧ (∀ w ∈ s.windows, w.1 < w.2) ∧
      List.Forall₂ (fun event w => ∀ r ∈ event, w.1 < r.id ∧ r.id ≤ w.2) s.sub.sent s.windows ∧
        (s.sub.sent.flatten.map (·.id)).Nodup ∧
          ∀ r ∈ s.sub.sent.flatten, s.sub.initialId < r.id := by
  have hforward := hrun.invariant (I := Forward) (fun _ _ _ h hstep => h.step hid hstep)
    forward_start
  have hseries := hforward.series
  exact ⟨hseries.increasing, hseries.proper, hseries.inside, hseries.nodup, fun r => hseries.lt⟩

/-! ### A run -/

section
variable {b : Subscriber} {windows : List (ℤ × ℤ)} {feed' : Feed} {page : List LogRow}

/-- The four steps of an event, if nothing fails. -/
theorem event_steps (hfeed : feed.Sane) (hfeed' : feed'.Sane) (hstage : b.stage = .waiting)
    (hlt : b.pushedId < feed.lastId) (hdeb : ¬ Debounced o b feed.clock)
    (hcount : countRows cat feed.db.colDict (idWindow b.pushedId feed.lastId) feed.rows ≠ 0)
    (hpage : IsWindowPage cat o feed b feed.lastId page) (hne : page ≠ []) :
    ObservedStep cat o ⟨b, windows⟩ (feed, .wake)
        ⟨b.goto (.counting feed.lastId feed.clock), windows⟩ ∧
      ObservedStep cat o ⟨b.goto (.counting feed.lastId feed.clock), windows⟩ (feed, .count)
        ⟨b.goto (.selecting feed.lastId feed.clock), windows⟩ ∧
      ObservedStep cat o ⟨b.goto (.selecting feed.lastId feed.clock), windows⟩ (feed, .select)
        ⟨b.goto (.holding feed.lastId feed.clock page), windows⟩ ∧
      ObservedStep cat o ⟨b.goto (.holding feed.lastId feed.clock page), windows⟩ (feed', .write)
        ⟨b.push feed.lastId feed.clock page, windows ++ [(b.pushedId, feed.lastId)]⟩ := by
  have hsame : windows = windows ++ [] := (List.append_nil _).symm
  refine ⟨⟨hfeed, ?_, hsame⟩, ⟨hfeed, ?_, hsame⟩, ⟨hfeed, ?_, hsame⟩, ⟨hfeed', ?_, rfl⟩⟩
  · exact .wake hstage hlt hdeb
  · exact .countSome rfl hpage.1 hcount
  · exact .select rfl hpage
  · exact .write rfl hne

theorem event_run (hfeed : feed.Sane) (hfeed' : feed'.Sane) (hstage : b.stage = .waiting)
    (hlt : b.pushedId < feed.lastId) (hdeb : ¬ Debounced o b feed.clock)
    (hcount : countRows cat feed.db.colDict (idWindow b.pushedId feed.lastId) feed.rows ≠ 0)
    (hpage : IsWindowPage cat o feed b feed.lastId page) (hne : page ≠ []) :
    Run (ObservedStep cat o) ⟨b, windows⟩
      [(feed, .wake), (feed, .count), (feed, .select), (feed', .write)]
      ⟨b.push feed.lastId feed.clock page, windows ++ [(b.pushedId, feed.lastId)]⟩ := by
  obtain ⟨hwake, hcounted, hselected, hwritten⟩ :=
    event_steps hfeed hfeed' hstage hlt hdeb hcount hpage hne
  exact .cons hwake <| .cons hcounted <| .cons hselected <| .single hwritten

end

end

/-- What the loop sees when one row is in the table. -/
def oneStamp (id clock : ℤ) : Feed := ⟨stampDb [stampRow id "2026-01-01"], id, clock⟩

/-- The row is sent first. -/
def sentFirst : Subscriber :=
  ⟨.waiting, 0, 1, 1000, 1000, [[stampRow 1 "2026-01-01"]]⟩

/-- An event; then its row is deleted and the notifier goes back; then a row with id 3 comes,
and its query fails once. -/
theorem sse_no_repeat_two : ∃ seen, ∃ s : Observed,
    Run (ObservedStep stampCatalog oneRow) .start seen s ∧ s.windows = [(0, 1), (1, 3)] ∧
      s.sub.sent = [[stampRow 1 "2026-01-01"], [stampRow 3 "2026-01-01"]] ∧
      (s.sub.sent.flatten.map (·.id)).Nodup := by
  have hempty : Feed.Sane ⟨stampDb [], 0, 1000⟩ := ⟨nofun, .nil, (by decide : fitsInt64 0 = true)⟩
  have hsane : ∀ id clock, fitsInt64 id = true → (oneStamp id clock).Sane := by
    intro id clock hfits
    refine ⟨fun r hr => ?_, List.nodup_singleton _, hfits⟩
    obtain rfl := List.mem_singleton.mp hr
    exact hfits
  have hquiet : ¬ Debounced oneRow sentFirst 3000 := by
    unfold Debounced
    decide
  have hone := hsane 1 1000 (by decide)
  have hthree := hsane 3 3000 (by decide)
  have hsubscribe : ObservedStep stampCatalog oneRow .start (⟨stampDb [], 0, 1000⟩, .subscribe)
      ⟨.subscribed ⟨stampDb [], 0, 1000⟩, []⟩ := ⟨hempty, .subscribe rfl, rfl⟩
  have hfirst : Run (ObservedStep stampCatalog oneRow) ⟨.subscribed ⟨stampDb [], 0, 1000⟩, []⟩
      _ ⟨sentFirst, [(0, 1)]⟩ :=
    event_run hone hempty rfl Int.zero_lt_one (fun hdeb => hdeb.1 rfl) (by decide)
      ⟨⟨_, rfl⟩, _, [stampRow 1 "2026-01-01"], rfl, .refl _, .cons nofun .nil, rfl⟩
      (List.cons_ne_nil _ _)
  have hback : ObservedStep stampCatalog oneRow ⟨sentFirst, [(0, 1)]⟩
      (⟨stampDb [], 0, 1000⟩, .wake) ⟨sentFirst, [(0, 1)]⟩ :=
    ⟨hempty, .nothingNew rfl Int.one_nonneg (by decide), rfl⟩
  have hwake : ObservedStep stampCatalog oneRow ⟨sentFirst, [(0, 1)]⟩ (oneStamp 3 3000, .wake)
      ⟨sentFirst.goto (.counting 3 3000), [(0, 1)]⟩ :=
    ⟨hthree, .wake rfl (by decide) hquiet, rfl⟩
  have hfails : ObservedStep stampCatalog oneRow ⟨sentFirst.goto (.counting 3 3000), [(0, 1)]⟩
      (oneStamp 3 3000, .queryError) ⟨sentFirst, [(0, 1)]⟩ :=
    ⟨hthree, .countError rfl, rfl⟩
  have hsecond : Run (ObservedStep stampCatalog oneRow) ⟨sentFirst, [(0, 1)]⟩ _
      ⟨sentFirst.push 3 3000 [stampRow 3 "2026-01-01"], [(0, 1), (1, 3)]⟩ :=
    event_run hthree hempty rfl (by decide) hquiet (by decide)
      ⟨⟨_, rfl⟩, _, [stampRow 3 "2026-01-01"], rfl, .refl _, .cons nofun .nil, rfl⟩
      (List.cons_ne_nil _ _)
  have hrun := (Run.cons hsubscribe hfirst).append <|
    .cons hback <| .cons hwake <| .cons hfails hsecond
  exact ⟨_, _, hrun, rfl, rfl, (sse_no_repeat stampCatalog_hasRowId hrun).2.2.2.1⟩

end LogLite
