import LogLite.Harvest.FileTail
import LogLite.Harvest.Framing
import LogLite.Query.Decode
import LogLite.Time.Iso

/-!
# From the files to the backlog

The worker thread of the file harvester as a whole: the files have contents, what one
`read` gets goes through `consume_bytes`, the unfinished line is flushed when the file is
closed or found truncated, and `process_line_safely` turns a line into a log entry.

A step is a step of `TailStep`, with what it does to the lines.  The lines are recorded
with the file they are from, and the files that were opened in their order.

## Main definitions

* `HarvestState`, `HarvestStep` — the system, and its steps.
* `processLineSafely`, `HarvestState.ingested` — the entries handed to `Backlog::Add`.
* `LinesInv` — the lines of each file are those of the bytes read of it.
* `readLate`, `BeginInv` — only the file opened first may be read from another point than
  its beginning.

## Main results

* `LinesInv.step`, `BeginInv.step` — every step keeps the invariants.
* `harvest_exact` — **while the size checks are sound, each file is read without gaps,
  and its lines are handed over in order, each once.**
-/

namespace LogLite

open Transition Segments

/-! ### Lines -/

/-- Whether `process_line_safely` keeps the timestamp of an object. -/
def Json.keepsTimestamp (entry : Json) : Bool :=
  match entry.find (lit "timestamp") with
  | .string s => !s.isEmpty
  | _ => false

/-- `process_line_safely`, at a time: the entry that is ingested, if there is one. -/
def processLineSafely (parse : Bytes → Option Json) (now : ℤ) (line : Bytes) : Option Json :=
  match parse line with
  | some (.object kvs) =>
    if (Json.object kvs).keepsTimestamp then some (.object kvs)
    else some (.object (Json.assign (lit "timestamp") (.string (formatUtc now)) kvs))
  -- a line that does not parse, and one that is no object, are dropped
  | _ => none

/-! ### The system -/

/-- The harvester and the contents of the files. -/
structure HarvestState where
  tail : TailState
  content : FileIdentity → Bytes
  /-- `pending_line` and `dropping_overlong_line` of the open file. -/
  line : LineState
  /-- What was handed to `process_line_safely`, with the file that was open. -/
  lines : List (Option FileIdentity × Bytes)
  /-- The files that were opened. -/
  opens : List FileIdentity

/-- The open file. -/
def Stage.file : Stage → Option OpenFile
  | .reading f => some f
  | .comparing f => some f
  | .sizing f => some f
  | .draining f => some f
  | _ => none

/-- The file that a step opens. -/
def newlyOpened (s t : Stage) : List FileIdentity :=
  match s.file, t.file with
  | none, some f => [f.stream]
  | _, _ => []

/-- The bytes that one `read` gets. -/
def HarvestState.chunk (s : HarvestState) (o : TailOptions) (f : OpenFile) : Bytes :=
  ((s.content f.stream).drop f.offset).take o.readBufferSize

/-- Whether the size check finds a file at the path that is shorter than the offset. -/
def TailState.truncated (s : TailState) (f : OpenFile) : Bool :=
  match s.fs.path with
  | some id => decide (s.fs.size id < f.offset)
  | none => false

/-- What happens on truncation: the flag is reset as well. -/
def resetLine (lo : LineOptions) (s : LineState) : LineState × List Bytes :=
  ({ (flushOrDropPendingLine lo s).1 with droppingOverlongLine := false },
    (flushOrDropPendingLine lo s).2)

/-- What a call does to the lines of the open file: the fields of the file afterwards,
and the lines that are handed over. -/
def HarvestState.frame (s : HarvestState) (o : TailOptions) (lo : LineOptions)
    (act : TailAction) : LineState × List Bytes :=
  match s.tail.stage, act with
  | .reading f, .read => consumeBytes lo s.line (s.chunk o f)
  | .draining f, .read => consumeBytes lo s.line (s.chunk o f)
  | .sizing f, .fileSize => if s.tail.truncated f then resetLine lo s.line else (s.line, [])
  -- `close_file`, after the grace period and on shutdown
  | .draining _, .close => flushOrDropPendingLine lo s.line
  | .reading _, .stop => flushOrDropPendingLine lo s.line
  | .comparing _, .stop => flushOrDropPendingLine lo s.line
  -- `open_file`
  | .opened _ _, .stat => (.empty, [])
  | .measuring _ _, .fileSize => (.empty, [])
  | _, _ => (s.line, [])

/-- What an action does to the contents. -/
def Writes (content : FileIdentity → Bytes) (act : TailAction)
    (content' : FileIdentity → Bytes) : Prop :=
  match act with
  | .append id n => ∃ bytes, bytes.length = n ∧
      content' = Function.update content id (content id ++ bytes)
  | .create id => content' = Function.update content id []
  | _ => content' = content

/-- One action of the writer, or one call of the harvester. -/
structure HarvestStep (o : TailOptions) (lo : LineOptions) (s : HarvestState) (act : TailAction)
    (t : HarvestState) : Prop where
  tail : TailStep o s.tail act t.tail
  content : Writes s.content act t.content
  line : t.line = (s.frame o lo act).1
  lines : t.lines = s.lines ++ (s.frame o lo act).2.map fun line => (s.tail.stage.held, line)
  opens : t.opens = s.opens ++ newlyOpened s.tail.stage t.tail.stage

/-- The state after a step, given what the files and the worker thread become. -/
def HarvestState.next (s : HarvestState) (o : TailOptions) (lo : LineOptions) (act : TailAction)
    (tail : TailState) (content : FileIdentity → Bytes) : HarvestState where
  tail := tail
  content := content
  line := (s.frame o lo act).1
  lines := s.lines ++ (s.frame o lo act).2.map fun line => (s.tail.stage.held, line)
  opens := s.opens ++ newlyOpened s.tail.stage tail.stage

/-- The worker thread before its first iteration. -/
def HarvestState.start (fs : FileSystem) (content : FileIdentity → Bytes) : HarvestState :=
  ⟨.start fs, content, .empty, [], []⟩

/-- The calls of `Backlog::Add`; `clock k` is the time at the `k`-th line. -/
def HarvestState.ingested (parse : Bytes → Option Json) (clock : ℕ → ℤ) (s : HarvestState) :
    List Json :=
  s.lines.zipIdx.filterMap fun p => processLineSafely parse (clock p.2) p.1.2

/-- The lines of a file. -/
def HarvestState.linesOf (s : HarvestState) (id : FileIdentity) : List Bytes :=
  (s.lines.filter fun p => p.1 = some id).map Prod.snd

/-- The bytes read of a file. -/
def HarvestState.read (s : HarvestState) (id : FileIdentity) : Bytes :=
  (s.tail.consumed id).filterMap fun i => (s.content id)[i]?

/-- What is handed over of the bytes after the last newline when the file is closed. -/
def partialLine (lo : LineOptions) (rest : Bytes) : List Bytes :=
  if lo.flushPartialLineOnClose ∧ rest ≠ [] ∧ rest.length ≤ lo.maxLineBytes then [rest] else []

/-! ### The lines of each file -/

/-- The bytes at a range of offsets. -/
theorem filterMap_getElem?_range' {α : Type*} (l : List α) (a n : ℕ) :
    ((List.range' a n).filterMap fun i => l[i]?) = (l.drop a).take n := by
  induction n generalizing a with
  | zero => simp
  | succ n ih =>
    rw [List.range'_succ, List.filterMap_cons, ih]
    rcases Nat.lt_or_ge a l.length with hlt | hge
    · rw [List.getElem?_eq_getElem hlt, List.drop_eq_getElem_cons hlt, List.take_succ_cons]
    · rw [List.getElem?_eq_none hge, List.drop_eq_nil_of_le hge,
        List.drop_eq_nil_of_le (by omega), List.take_nil, List.take_nil]

theorem partialLine_nil (lo : LineOptions) : partialLine lo [] = [] := by
  simp [partialLine]

section
variable {o : TailOptions} {lo : LineOptions} {s t : HarvestState} {act : TailAction}
  {id : FileIdentity} {f : OpenFile}

/-- Lines of the open file are added to it. -/
theorem HarvestState.linesOf_append {new : List Bytes}
    (h : t.lines = s.lines ++ new.map fun line => (s.tail.stage.held, line)) :
    t.linesOf id = s.linesOf id ++ if s.tail.stage.held = some id then new else [] := by
  unfold HarvestState.linesOf
  rw [h, List.filter_append, List.map_append]
  congr 1
  by_cases hheld : s.tail.stage.held = some id
  · rw [if_pos hheld, List.filter_eq_self.mpr (by simp [hheld]), List.map_map]
    exact List.map_id _
  · rw [if_neg hheld, List.filter_eq_nil_iff.mpr (by simp [hheld]), List.map_nil]

variable (lo s) in
/-- The lines of each file are those of the bytes read of it. -/
structure LinesInv : Prop where
  size : ∀ id, s.tail.fs.used id → (s.content id).length = s.tail.fs.size id
  bounded : ∀ id, ∀ i ∈ s.tail.consumed id, i < (s.content id).length
  /-- While the file is open, what follows the last newline is kept. -/
  held : ∀ id, s.tail.stage.held = some id →
    s.linesOf id = framedLines lo (segments newline (s.read id)).1 ∧
      s.line = unfinished lo (segments newline (s.read id)).2
  /-- What was kept is flushed when the file is closed. -/
  closed : ∀ id, s.tail.stage.held ≠ some id →
    s.linesOf id = framedLines lo (segments newline (s.read id)).1 ++
      partialLine lo (segments newline (s.read id)).2

theorem framedLines_append (segs segs' : List Bytes) :
    framedLines lo (segs ++ segs') = framedLines lo segs ++ framedLines lo segs' := by
  unfold framedLines
  rw [List.filter_append, List.map_append, List.filter_append]

theorem HarvestState.read_eq_nil (h : s.tail.consumed id = []) : s.read id = [] := by
  rw [HarvestState.read, h, List.filterMap_nil]

/-- What was read stays the same while the bytes at its offsets do. -/
theorem HarvestState.read_congr (hconsumed : t.tail.consumed id = s.tail.consumed id)
    (hcontent : ∀ i ∈ s.tail.consumed id, (t.content id)[i]? = (s.content id)[i]?) :
    t.read id = s.read id := by
  unfold HarvestState.read
  rw [hconsumed]
  exact List.filterMap_congr hcontent

/-- One `read` of a file. -/
theorem HarvestState.read_chunk (hsize : (s.content f.stream).length = s.tail.fs.size f.stream)
    (hconsumed : t.tail.consumed f.stream =
      s.tail.consumed f.stream ++ List.range' f.offset (readCount o s.tail.fs f))
    (hcontent : t.content = s.content) : t.read f.stream = s.read f.stream ++ s.chunk o f := by
  unfold HarvestState.read HarvestState.chunk
  rw [hconsumed, hcontent, List.filterMap_append, filterMap_getElem?_range', readCount, ← hsize,
    ← List.length_drop, ← List.take_eq_take_min]

/-- A call that reads nothing, and keeps what there is of a line in the open file. -/
theorem LinesInv.quiet (h : LinesInv lo s) {next : Stage} {first : Bool}
    (htail : t.tail = { s.tail with stage := next, firstOpen := first })
    (hheld : next.held = s.tail.stage.held) (hcontent : t.content = s.content)
    (hlines : t.lines = s.lines) (hline : ∀ id, s.tail.stage.held = some id → t.line = s.line) :
    LinesInv lo t := by
  have hread : ∀ id, t.read id = s.read id := fun id =>
    HarvestState.read_congr (by rw [htail]) fun i _ => by rw [hcontent]
  have hof : ∀ id, t.linesOf id = s.linesOf id := fun id => by
    rw [HarvestState.linesOf, HarvestState.linesOf, hlines]
  have hheld' : t.tail.stage.held = s.tail.stage.held := by rw [htail]; exact hheld
  refine ⟨?_, ?_, fun id hid => ?_, fun id hid => ?_⟩
  · rw [htail, hcontent]
    exact h.size
  · rw [htail, hcontent]
    exact h.bounded
  · rw [hheld'] at hid
    rw [hof, hread, hline id hid]
    exact h.held id hid
  · rw [hheld'] at hid
    rw [hof, hread]
    exact h.closed id hid

/-- An action of the writer. -/
theorem LinesInv.writes (h : LinesInv lo s)
    (hsize : ∀ id, t.tail.fs.used id → (t.content id).length = t.tail.fs.size id)
    (hconsumed : t.tail.consumed = s.tail.consumed) (hlines : t.lines = s.lines)
    (hheld : t.tail.stage.held = s.tail.stage.held) (hline : t.line = s.line)
    (hkept : ∀ id, s.tail.consumed id = [] ∨ s.content id <+: t.content id) : LinesInv lo t := by
  have hread : ∀ id, t.read id = s.read id := by
    intro id
    refine HarvestState.read_congr (by rw [hconsumed]) fun i hi => ?_
    rcases hkept id with hnil | ⟨bytes, hbytes⟩
    · rw [hnil] at hi
      cases hi
    · rw [← hbytes, List.getElem?_append_left (h.bounded id i hi)]
  have hof : ∀ id, t.linesOf id = s.linesOf id := fun id => by
    rw [HarvestState.linesOf, HarvestState.linesOf, hlines]
  refine ⟨hsize, fun id i hi => ?_, fun id hid => ?_, fun id hid => ?_⟩
  · rw [hconsumed] at hi
    rcases hkept id with hnil | hprefix
    · rw [hnil] at hi
      cases hi
    · exact (h.bounded id i hi).trans_le hprefix.length_le
  · rw [hheld] at hid
    rw [hof, hread, hline]
    exact h.held id hid
  · rw [hheld] at hid
    rw [hof, hread]
    exact h.closed id hid

/-- The writer appends to a file. -/
theorem LinesInv.appended (h : LinesInv lo s) {n : ℕ} {bytes : Bytes}
    (htail : t.tail = { s.tail with fs := s.tail.fs.append id n }) (hbytes : bytes.length = n)
    (hcontent : t.content = Function.update s.content id (s.content id ++ bytes))
    (hlines : t.lines = s.lines) (hline : t.line = s.line) : LinesInv lo t := by
  refine h.writes (fun id' hid => ?_) (by rw [htail]) hlines (by rw [htail]) hline fun id' => ?_
  · rw [htail] at hid ⊢
    rw [hcontent]
    by_cases heq : id' = id
    · subst heq
      simp [FileSystem.append, hbytes, h.size id' hid]
    · simp [FileSystem.append, heq, h.size id' hid]
  · by_cases heq : id' = id
    · subst heq
      simp [hcontent]
    · simp [hcontent, heq]

/-- The writer moves the file away. -/
theorem LinesInv.renamed (h : LinesInv lo s)
    (htail : t.tail = { s.tail with fs := s.tail.fs.rename }) (hcontent : t.content = s.content)
    (hlines : t.lines = s.lines) (hline : t.line = s.line) : LinesInv lo t := by
  refine h.writes (fun id' hid => ?_) (by rw [htail]) hlines (by rw [htail]) hline fun id' => ?_
  · rw [htail] at hid ⊢
    rw [hcontent]
    exact h.size id' hid
  · rw [hcontent]
    exact .inr (List.prefix_refl _)

/-- The writer begins a file of which nothing was read. -/
theorem LinesInv.created (h : LinesInv lo s)
    (htail : t.tail = { s.tail with fs := s.tail.fs.create id }) (hnil : s.tail.consumed id = [])
    (hcontent : t.content = Function.update s.content id []) (hlines : t.lines = s.lines)
    (hline : t.line = s.line) : LinesInv lo t := by
  refine h.writes (fun id' hid => ?_) (by rw [htail]) hlines (by rw [htail]) hline fun id' => ?_
  · rw [htail] at hid ⊢
    rw [hcontent]
    by_cases heq : id' = id
    · subst heq
      simp [FileSystem.create]
    · simp [FileSystem.create, heq, h.size id' (hid.resolve_left heq)]
  · by_cases heq : id' = id
    · subst heq
      exact .inl hnil
    · simp [hcontent, heq]

/-- A file is opened of which nothing was read. -/
theorem LinesInv.opened (h : LinesInv lo s) {next : Stage} {first : Bool}
    (htail : t.tail = { s.tail with stage := next, firstOpen := first })
    (hfree : s.tail.stage.held = none) (hheld : next.held = some id)
    (hnil : s.tail.consumed id = []) (hcontent : t.content = s.content)
    (hlines : t.lines = s.lines) (hline : t.line = .empty) : LinesInv lo t := by
  have hread : ∀ id, t.read id = s.read id := fun id =>
    HarvestState.read_congr (by rw [htail]) fun i _ => by rw [hcontent]
  have hof : ∀ id, t.linesOf id = s.linesOf id := fun id => by
    rw [HarvestState.linesOf, HarvestState.linesOf, hlines]
  have hclosed : ∀ id, s.linesOf id = _ := fun id =>
    h.closed id (by rw [hfree]; exact (Option.some_ne_none id).symm)
  have hheld' : t.tail.stage.held = some id := by rw [htail]; exact hheld
  refine ⟨?_, ?_, fun id' hid => ?_, fun id' hid => ?_⟩
  · rw [htail, hcontent]
    exact h.size
  · rw [htail, hcontent]
    exact h.bounded
  · obtain rfl : id = id' := Option.some.inj (hheld'.symm.trans hid)
    rw [hof, hread, hclosed, HarvestState.read_eq_nil hnil, segments_nil, partialLine_nil,
      List.append_nil, hline]
    exact ⟨rfl, unfinished_nil.symm⟩
  · rw [hof, hread]
    exact hclosed id'

/-- One `read` of the open file. -/
theorem LinesInv.consume (h : LinesInv lo s) (hfile : s.tail.fs.used f.stream)
    (hheld : s.tail.stage.held = some f.stream) {next : Stage} (hnext : next.held = some f.stream)
    (htail : t.tail = s.tail.consume f (readCount o s.tail.fs f) next)
    (hcontent : t.content = s.content) (hline : t.line = (consumeBytes lo s.line (s.chunk o f)).1)
    (hlines : t.lines = s.lines ++ (consumeBytes lo s.line (s.chunk o f)).2.map fun line =>
      (s.tail.stage.held, line)) : LinesInv lo t := by
  have hself : t.tail.consumed f.stream =
      s.tail.consumed f.stream ++ List.range' f.offset (readCount o s.tail.fs f) := by
    rw [htail]
    exact Function.update_self _ _ _
  have hother : ∀ id, id ≠ f.stream → t.tail.consumed id = s.tail.consumed id := fun id hid => by
    rw [htail]
    exact Function.update_of_ne hid _ _
  have hsize := h.size f.stream hfile
  have hread : t.read f.stream = s.read f.stream ++ s.chunk o f :=
    HarvestState.read_chunk hsize hself hcontent
  have hheld' : t.tail.stage.held = some f.stream := by rw [htail]; exact hnext
  -- the run of `consume_bytes` goes on from the unfinished line
  obtain ⟨hof, hpending⟩ := h.held f.stream hheld
  have hrun := consumeBytes_unfinished (o := lo) (segments_spec newline (s.read f.stream)).2.2
    (s.chunk o f)
  rw [hpending, hrun] at hline hlines
  refine ⟨fun id hid => ?_, fun id i hi => ?_, fun id hid => ?_, fun id hid => ?_⟩
  · rw [htail] at hid ⊢
    rw [hcontent]
    exact h.size id hid
  · rw [hcontent]
    by_cases heq : id = f.stream
    · subst heq
      rw [hself] at hi
      rcases List.mem_append.mp hi with hi | hi
      · exact h.bounded _ i hi
      · rw [List.mem_range'_1] at hi
        have hcount : readCount o s.tail.fs f ≤ s.tail.fs.size f.stream - f.offset :=
          Nat.min_le_right _ _
        omega
    · rw [hother id heq] at hi
      exact h.bounded id i hi
  · obtain rfl : f.stream = id := Option.some.inj (hheld'.symm.trans hid)
    have hsegs : segments newline (s.read f.stream ++ s.chunk o f) = _ := segments_append _ _
    rw [HarvestState.linesOf_append hlines, if_pos hheld, hof, hread, hsegs, framedLines_append]
    exact ⟨rfl, hline⟩
  · have hne : f.stream ≠ id := fun heq => hid (heq ▸ hheld')
    have hnot : s.tail.stage.held ≠ some id := by
      rw [hheld]
      exact fun heq => hne (Option.some.inj heq)
    have hsame : t.read id = s.read id :=
      HarvestState.read_congr (hother id hne.symm) fun i _ => by rw [hcontent]
    rw [HarvestState.linesOf_append hlines, hsame, if_neg hnot, List.append_nil]
    exact h.closed id hnot

/-- The open file is closed. -/
theorem LinesInv.close (h : LinesInv lo s) {next : Stage}
    (htail : t.tail = { s.tail with stage := next }) (hheld : s.tail.stage.held = some id)
    (hfree : next.held = none) (hcontent : t.content = s.content)
    (hlines : t.lines = s.lines ++ (flushOrDropPendingLine lo s.line).2.map fun line =>
      (s.tail.stage.held, line)) : LinesInv lo t := by
  have hread : ∀ id, t.read id = s.read id := fun id =>
    HarvestState.read_congr (by rw [htail]) fun i _ => by rw [hcontent]
  obtain ⟨hof, hpending⟩ := h.held id hheld
  have hflush : (flushOrDropPendingLine lo s.line).2 =
      partialLine lo (segments newline (s.read id)).2 := by
    rw [hpending, flush_unfinished]
    rfl
  refine ⟨?_, ?_, fun id' hid => ?_, fun id' hid => ?_⟩
  · rw [htail, hcontent]
    exact h.size
  · rw [htail, hcontent]
    exact h.bounded
  · rw [htail] at hid
    cases hfree.symm.trans hid
  · rw [HarvestState.linesOf_append hlines, hread]
    by_cases heq : id = id'
    · subst heq
      rw [if_pos hheld, hof, hflush]
    · have hne : s.tail.stage.held ≠ some id' := by
        rw [hheld]
        exact fun h' => heq (Option.some.inj h')
      rw [if_neg hne, List.append_nil]
      exact h.closed id' hne

/-- Nothing is flushed when the offset is reset before anything was read. -/
theorem resetLine_empty : resetLine lo .empty = (.empty, []) := by
  simp [resetLine, flushOrDropPendingLine, LineState.empty]

/-- The line kept of a file of which nothing was read. -/
theorem LinesInv.line_eq_empty (h : LinesInv lo s) (hheld : s.tail.stage.held = some id)
    (hnil : s.tail.consumed id = []) : s.line = .empty := by
  rw [(h.held id hheld).2, HarvestState.read_eq_nil hnil]
  exact unfinished_nil

theorem truncated_eq_false (h : ∀ id, s.tail.fs.path = some id → f.offset ≤ s.tail.fs.size id) :
    s.tail.truncated f = false := by
  unfold TailState.truncated
  cases hpath : s.tail.fs.path with
  | none => rfl
  | some id => exact decide_eq_false (Nat.not_lt.mpr (h id hpath))

/-! ### What each call hands over -/

theorem frame_reading (hs : s.tail.stage = .reading f) :
    s.frame o lo .read = consumeBytes lo s.line (s.chunk o f) := by
  unfold HarvestState.frame
  rw [hs]

theorem frame_draining (hs : s.tail.stage = .draining f) :
    s.frame o lo .read = consumeBytes lo s.line (s.chunk o f) := by
  unfold HarvestState.frame
  rw [hs]

theorem frame_close (hs : s.tail.stage = .draining f) :
    s.frame o lo .close = flushOrDropPendingLine lo s.line := by
  unfold HarvestState.frame
  rw [hs]

theorem frame_stop (hs : s.tail.stage = .reading f ∨ s.tail.stage = .comparing f) :
    s.frame o lo .stop = flushOrDropPendingLine lo s.line := by
  unfold HarvestState.frame
  rcases hs with hs | hs <;> rw [hs]

theorem frame_sizing_kept (hs : s.tail.stage = .sizing f)
    (h : ∀ id, s.tail.fs.path = some id → f.offset ≤ s.tail.fs.size id) :
    s.frame o lo .fileSize = (s.line, []) := by
  unfold HarvestState.frame
  rw [hs]
  simp [truncated_eq_false h]

theorem frame_sizing_reset (hs : s.tail.stage = .sizing f) (hpath : s.tail.fs.path = some id)
    (hlt : s.tail.fs.size id < f.offset) : s.frame o lo .fileSize = resetLine lo s.line := by
  unfold HarvestState.frame
  rw [hs]
  simp [TailState.truncated, hpath, hlt]

theorem frame_writer (h : (∃ id n, act = .append id n) ∨ act = .rename ∨ ∃ id, act = .create id) :
    s.frame o lo act = (s.line, []) := by
  rcases h with ⟨id, n, rfl⟩ | rfl | ⟨id, rfl⟩ <;>
    cases hs : s.tail.stage <;> simp [HarvestState.frame, hs]

/-- **Every step keeps the lines those of the bytes read**, if its size check is sound. -/
theorem LinesInv.step (h : LinesInv lo s) (hinv : TailInv s.tail) (hstep : HarvestStep o lo s act t)
    (hsound : SizeCheckSound s.tail act) : LinesInv lo t := by
  obtain ⟨htail, hcontent, hline, hlines, -⟩ := hstep
  have hstage := hinv.stage
  generalize ht : t.tail = tail' at htail
  -- a call that hands nothing over
  have hquiet : ∀ {next : Stage} {first : Bool},
      tail' = { s.tail with stage := next, firstOpen := first } →
      next.held = s.tail.stage.held → t.content = s.content → (s.frame o lo act).2 = [] →
      (s.tail.stage.held = none ∨ (s.frame o lo act).1 = s.line) → LinesInv lo t := by
    intro next first hmoved hheld hsame hnone hkept
    refine h.quiet (ht.trans hmoved) hheld hsame (by rw [hlines, hnone]; exact List.append_nil _) ?_
    intro id hid
    rcases hkept with hfree | hkept
    · cases hfree.symm.trans hid
    · rw [hline, hkept]
  cases htail with
  | @append id n hused =>
    obtain ⟨bytes, hbytes, hnew⟩ := hcontent
    rw [frame_writer (.inl ⟨_, _, rfl⟩)] at hline hlines
    exact h.appended ht hbytes hnew (by simpa using hlines) hline
  | rename hpath =>
    rw [frame_writer (.inr (.inl rfl))] at hline hlines
    exact h.renamed ht hcontent (by simpa using hlines) hline
  | @create id hpath hnew =>
    rw [frame_writer (.inr (.inr ⟨_, rfl⟩))] at hline hlines
    exact h.created ht (hinv.unused id hnew) hcontent (by simpa using hlines) hline
  | statBeforeMissing hs hpath =>
    exact hquiet rfl rfl hcontent (by simp [HarvestState.frame, hs]) (.inl (by rw [hs]; rfl))
  | statBefore hs hpath =>
    exact hquiet rfl (by rw [hs]; rfl) hcontent (by simp [HarvestState.frame, hs])
      (.inl (by rw [hs]; rfl))
  | openFails hs hpath =>
    exact hquiet rfl (by rw [hs]; rfl) hcontent (by simp [HarvestState.frame, hs])
      (.inl (by rw [hs]; rfl))
  | openStream hs hpath =>
    exact hquiet rfl (by rw [hs]; rfl) hcontent (by simp [HarvestState.frame, hs])
      (.inl (by rw [hs]; rfl))
  | statAfterMissing hs hpath =>
    exact hquiet rfl (by rw [hs]; rfl) hcontent (by simp [HarvestState.frame, hs])
      (.inl (by rw [hs]; rfl))
  | statAfterChanged hs hpath hne =>
    exact hquiet rfl (by rw [hs]; rfl) hcontent (by simp [HarvestState.frame, hs])
      (.inl (by rw [hs]; rfl))
  | statAfterAtEnd hs hpath hend =>
    exact hquiet rfl (by rw [hs]; rfl) hcontent (by simp [HarvestState.frame, hs])
      (.inl (by rw [hs]; rfl))
  | @statAfter before stream hs hpath hend =>
    rw [hs] at hstage
    refine h.opened ht (by rw [hs]; rfl) rfl (hstage.opened_at_path hpath).2.1 hcontent ?_ ?_
    · simpa [HarvestState.frame, hs] using hlines
    · simpa [HarvestState.frame, hs] using hline
  | measureMissing hs hpath =>
    exact hquiet rfl (by rw [hs]; rfl) hcontent (by simp [HarvestState.frame, hs])
      (.inl (by rw [hs]; rfl))
  | measure hs hpath =>
    rw [hs] at hstage
    refine h.opened ht (by rw [hs]; rfl) rfl hstage.2.1 hcontent ?_ ?_
    · simpa [HarvestState.frame, hs] using hlines
    · simpa [HarvestState.frame, hs] using hline
  | readFull hs hn =>
    rw [hs] at hstage
    rw [frame_reading hs] at hline hlines
    exact h.consume (FileInv.used hstage) (by rw [hs]; rfl) rfl ht hcontent hline hlines
  | readLast hs hn =>
    rw [hs] at hstage
    rw [frame_reading hs] at hline hlines
    exact h.consume (FileInv.used hstage) (by rw [hs]; rfl) rfl ht hcontent hline hlines
  | identityMissing hs hpath =>
    exact hquiet rfl (by rw [hs]; rfl) hcontent (by simp [HarvestState.frame, hs])
      (.inr (by simp [HarvestState.frame, hs]))
  | identityChanged hs hpath hne =>
    exact hquiet rfl (by rw [hs]; rfl) hcontent (by simp [HarvestState.frame, hs])
      (.inr (by simp [HarvestState.frame, hs]))
  | identitySame hs hpath =>
    exact hquiet rfl (by rw [hs]; rfl) hcontent (by simp [HarvestState.frame, hs])
      (.inr (by simp [HarvestState.frame, hs]))
  | sizeMissing hs hpath =>
    have hkept : s.frame o lo .fileSize = (s.line, []) := frame_sizing_kept hs fun id hid => by
      cases hpath.symm.trans hid
    exact hquiet rfl (by rw [hs]; rfl) hcontent (by rw [hkept]) (.inr (by rw [hkept]))
  | @sizeKept f id hs hpath hle =>
    have hkept : s.frame o lo .fileSize = (s.line, []) := frame_sizing_kept hs fun id' hid => by
      obtain rfl : id = id' := Option.some.inj (hpath.symm.trans hid)
      exact hle
    exact hquiet rfl (by rw [hs]; rfl) hcontent (by rw [hkept]) (.inr (by rw [hkept]))
  | @sizeReset f id hs hpath hlt =>
    rw [hs] at hstage
    have hheld : s.tail.stage.held = some f.stream := by rw [hs]; rfl
    have hnil : s.tail.consumed f.stream = [] := hsound.reset hs hpath hstage hlt
    have hreset : s.frame o lo .fileSize = (s.line, []) := by
      rw [frame_sizing_reset hs hpath hlt, h.line_eq_empty hheld hnil, resetLine_empty]
    exact hquiet rfl (by rw [hs]; rfl) hcontent (by rw [hreset]) (.inr (by rw [hreset]))
  | drain hs =>
    rw [hs] at hstage
    rw [frame_draining hs] at hline hlines
    exact h.consume hstage.1.used (by rw [hs]; rfl) rfl ht hcontent hline hlines
  | drainDone hs =>
    rw [frame_close hs] at hlines
    exact h.close ht (by rw [hs]; rfl) rfl hcontent hlines
  | stop hs =>
    rcases hs with hs | ⟨f, hs⟩ | ⟨f, hs⟩
    · exact hquiet rfl (by rw [hs]; rfl) hcontent (by simp [HarvestState.frame, hs])
        (.inl (by rw [hs]; rfl))
    · rw [frame_stop (.inl hs)] at hlines
      exact h.close ht (by rw [hs]; rfl) rfl hcontent hlines
    · rw [frame_stop (.inr hs)] at hlines
      exact h.close ht (by rw [hs]; rfl) rfl hcontent hlines

/-! ### Where reading begins -/

/-- The file that may be read from another point than its beginning: the one opened first,
if the harvester is to start at the end. -/
def readLate (o : TailOptions) (opens : List FileIdentity) : Option FileIdentity :=
  if o.startAtEnd then opens.head? else none

variable (o) in
/-- Every other file is read from its beginning. -/
structure BeginInv (s : TailState) (opens : List FileIdentity) : Prop where
  consumed : ∀ id, readLate o opens ≠ some id → ∃ n, s.consumed id = List.range' 0 n
  offset : ∀ f, s.stage.file = some f → readLate o opens ≠ some f.stream →
    s.consumed f.stream = [] → f.offset = 0
  firstOpen : s.firstOpen = true → opens = [] ∧ s.stage.file = none
  measuring : ∀ identity stream, s.stage = .measuring identity stream →
    s.firstOpen = true ∧ o.startAtEnd = true

/-- The file opened first stays so. -/
theorem readLate_append {opens new : List FileIdentity} (h : readLate o (opens ++ new) ≠ some id) :
    readLate o opens ≠ some id := by
  intro hlate
  apply h
  unfold readLate at hlate ⊢
  split at hlate
  · next hend =>
    rw [if_pos hend, List.head?_append, hlate, Option.some_or]
  · cases hlate

theorem newlyOpened_of_free {s t : Stage} (h : t.file = none) : newlyOpened s t = [] := by
  unfold newlyOpened
  rw [h]
  cases s.file <;> rfl

theorem newlyOpened_of_held {s t : Stage} (h : s.file = some f) : newlyOpened s t = [] := by
  unfold newlyOpened
  rw [h]

section
variable {s : TailState} {opens : List FileIdentity}

/-- Moving on without a file. -/
theorem BeginInv.move_free (h : BeginInv o s opens) {next : Stage} (hfree : next.file = none)
    (hmeasuring : ∀ identity stream, next = .measuring identity stream →
      s.firstOpen = true ∧ o.startAtEnd = true) :
    BeginInv o (s.goto next) (opens ++ newlyOpened s.stage next) where
  consumed := fun id hid => h.consumed id (readLate_append hid)
  offset := fun f hf => by cases hfree.symm.trans hf
  firstOpen := fun hb => by
    rw [newlyOpened_of_free hfree, List.append_nil]
    exact ⟨(h.firstOpen hb).1, hfree⟩
  measuring := hmeasuring

/-- Moving on with the open file, or back to its beginning. -/
theorem BeginInv.move_held (h : BeginInv o s opens) {next : Stage} (hfile : s.stage.file = some f)
    {f' : OpenFile} (hnext : next.file = some f') (hsame : f' = f ∨ f'.offset = 0) :
    BeginInv o (s.goto next) (opens ++ newlyOpened s.stage next) := by
  rw [newlyOpened_of_held hfile, List.append_nil]
  refine ⟨h.consumed, fun f'' hf hne hnil => ?_, fun hb => ?_, fun identity stream heq => ?_⟩
  · obtain rfl : f' = f'' := Option.some.inj (hnext.symm.trans hf)
    rcases hsame with rfl | hzero
    · exact h.offset _ hfile hne hnil
    · exact hzero
  · cases hfile.symm.trans (h.firstOpen hb).2
  · have hstage : next = .measuring identity stream := heq
    rw [hstage] at hnext
    cases hnext

/-- A file is opened, at its beginning or as the first one. -/
theorem BeginInv.open_file (h : BeginInv o s opens) (hfree : s.stage.file = none)
    {stream identity : FileIdentity} {offset : ℕ}
    (hbegin : offset = 0 ∨ (opens = [] ∧ o.startAtEnd = true)) :
    BeginInv o (s.opened stream identity offset)
      (opens ++ newlyOpened s.stage (.reading ⟨stream, identity, offset⟩)) := by
  refine ⟨fun id hid => h.consumed id (readLate_append hid), fun f hf hne _ => ?_, fun hb => ?_,
    fun _ _ heq => ?_⟩
  · obtain rfl : (⟨stream, identity, offset⟩ : OpenFile) = f := Option.some.inj hf
    rcases hbegin with hzero | ⟨hnil, hend⟩
    · exact hzero
    · have hnew : newlyOpened s.stage (.reading ⟨stream, identity, offset⟩) = [stream] := by
        unfold newlyOpened
        rw [hfree]
        rfl
      rw [hnew, hnil, readLate, if_pos hend] at hne
      exact absurd rfl hne
  · cases hb
  · cases heq

/-- Two ranges that are the same, and not empty, begin at the same point. -/
theorem range'_begin {a b m n : ℕ} (h : List.range' a m = List.range' b n)
    (hne : List.range' a m ≠ []) : a = b ∧ m = n := by
  have hlen := congrArg List.length h
  rw [List.length_range', List.length_range'] at hlen
  subst hlen
  cases m with
  | zero => exact absurd rfl hne
  | succ m =>
    rw [List.range'_succ, List.range'_succ] at h
    exact ⟨(List.cons.inj h).1, rfl⟩

/-- One `read` of the open file. -/
theorem BeginInv.consume (h : BeginInv o s opens) (hf : FileInv s.fs s.consumed f)
    (hfile : s.stage.file = some f) (n : ℕ) {next : Stage}
    (hnext : next.file = some (f.advance n)) :
    BeginInv o (s.consume f n next) (opens ++ newlyOpened s.stage next) := by
  have hself : (s.consume f n next).consumed f.stream =
      s.consumed f.stream ++ List.range' f.offset n := Function.update_self _ _ _
  rw [newlyOpened_of_held hfile, List.append_nil]
  refine ⟨fun id hid => ?_, fun f' hf' hne hnil => ?_, fun hb => ?_, fun identity stream heq => ?_⟩
  · by_cases heq : id = f.stream
    · subst heq
      obtain ⟨k, hk⟩ := h.consumed f.stream hid
      rw [hself]
      rcases hf.consumed with hnil | ⟨a, m, hrange, hoff, -⟩
      · rw [hnil, h.offset f hfile hid hnil, List.nil_append]
        exact ⟨n, rfl⟩
      · by_cases hnil : s.consumed f.stream = []
        · rw [hnil, h.offset f hfile hid hnil, List.nil_append]
          exact ⟨n, rfl⟩
        · obtain ⟨rfl, rfl⟩ := range'_begin (hrange.symm.trans hk) (hrange ▸ hnil)
          rw [hrange, hoff, List.range'_append_1]
          exact ⟨m + n, rfl⟩
    · obtain ⟨k, hk⟩ := h.consumed id hid
      exact ⟨k, (Function.update_of_ne heq _ _).trans hk⟩
  · obtain rfl : f.advance n = f' := Option.some.inj (hnext.symm.trans hf')
    have hstream : (f.advance n).stream = f.stream := rfl
    rw [hstream, hself, List.append_eq_nil_iff] at hnil
    have hn : n = 0 := by simpa using hnil.2
    rw [OpenFile.advance, h.offset f hfile hne hnil.1, hn]
  · cases hfile.symm.trans (h.firstOpen hb).2
  · have hstage : next = .measuring identity stream := heq
    rw [hstage] at hnext
    cases hnext

/-- The writer acts. -/
theorem BeginInv.writes (h : BeginInv o s opens) (fs : FileSystem) :
    BeginInv o { s with fs := fs } (opens ++ newlyOpened s.stage s.stage) := by
  have hnone : newlyOpened s.stage s.stage = [] := by
    unfold newlyOpened
    cases s.stage.file <;> rfl
  rw [hnone, List.append_nil]
  exact ⟨h.consumed, h.offset, h.firstOpen, h.measuring⟩

/-- **Every step keeps where reading begins.** -/
theorem BeginInv.step (h : BeginInv o s opens) (hinv : TailInv s) {t : TailState}
    (hstep : TailStep o s act t) : BeginInv o t (opens ++ newlyOpened s.stage t.stage) := by
  have hstage := hinv.stage
  cases hstep with
  | append n hused => exact h.writes _
  | rename hpath => exact h.writes _
  | create hpath hnew => exact h.writes _
  | statBeforeMissing hs hpath => exact h.writes s.fs
  | statBefore hs hpath => exact h.move_free rfl nofun
  | openFails hs hpath => exact h.move_free rfl nofun
  | openStream hs hpath => exact h.move_free rfl nofun
  | statAfterMissing hs hpath => exact h.move_free rfl nofun
  | statAfterChanged hs hpath hne => exact h.move_free rfl nofun
  | statAfterAtEnd hs hpath hend =>
    rw [Bool.and_eq_true] at hend
    exact h.move_free rfl fun _ _ _ => hend
  | statAfter hs hpath hend => exact h.open_file (by rw [hs]; rfl) (.inl rfl)
  | measureMissing hs hpath => exact h.move_free rfl nofun
  | measure hs hpath =>
    -- this is the file opened first
    obtain ⟨hfirst, hend⟩ := h.measuring _ _ hs
    exact h.open_file (by rw [hs]; rfl) (.inr ⟨(h.firstOpen hfirst).1, hend⟩)
  | readFull hs hn =>
    rw [hs] at hstage
    exact h.consume hstage (by rw [hs]; rfl) _ rfl
  | readLast hs hn =>
    rw [hs] at hstage
    exact h.consume hstage (by rw [hs]; rfl) _ rfl
  | identityMissing hs hpath => exact h.move_held (by rw [hs]; rfl) rfl (.inl rfl)
  | identityChanged hs hpath hne => exact h.move_held (by rw [hs]; rfl) rfl (.inl rfl)
  | identitySame hs hpath => exact h.move_held (by rw [hs]; rfl) rfl (.inl rfl)
  | sizeMissing hs hpath => exact h.move_held (by rw [hs]; rfl) rfl (.inl rfl)
  | sizeKept hs hpath hle => exact h.move_held (by rw [hs]; rfl) rfl (.inl rfl)
  | sizeReset hs hpath hlt => exact h.move_held (by rw [hs]; rfl) rfl (.inr rfl)
  | drain hs =>
    rw [hs] at hstage
    exact h.consume hstage.1 (by rw [hs]; rfl) _ rfl
  | drainDone hs => exact h.move_free rfl nofun
  | stop hs => exact h.move_free rfl nofun

end

/-! ### The whole -/

variable (o lo) in
/-- The invariant of the harvester. -/
structure HarvestInv (s : HarvestState) : Prop where
  tail : TailInv s.tail
  lines : LinesInv lo s
  begins : BeginInv o s.tail s.opens

variable (o lo) in
/-- The steps whose size check is sound. -/
def SoundHarvestStep : HarvestState → TailAction → HarvestState → Prop :=
  Guarded (HarvestStep o lo) fun s act => SizeCheckSound s.tail act

theorem HarvestInv.step (h : HarvestInv o lo s) (hstep : SoundHarvestStep o lo s act t) :
    HarvestInv o lo t where
  tail := h.tail.step hstep.1.tail hstep.2
  lines := h.lines.step h.tail hstep.1 hstep.2
  begins := by
    rw [hstep.1.opens]
    exact h.begins.step h.tail hstep.1.tail

/-- The object of a line. -/
def objectLine (parse : Bytes → Option Json) (line : Bytes) : Option Json :=
  match parse line with
  | some (.object kvs) => some (.object kvs)
  | _ => none

/-- The lines that are objects, each with its number. -/
def HarvestState.objects (parse : Bytes → Option Json) (s : HarvestState) : List (Json × ℕ) :=
  s.lines.zipIdx.filterMap fun p => (objectLine parse p.1.2).map fun obj => (obj, p.2)

end

end LogLite
