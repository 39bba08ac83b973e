import LogLite.Base.Bytes
import LogLite.Lib.Segments

/-!
# Lines of a tailed file

`consume_bytes` gets the bytes of a file chunk by chunk and hands complete lines to
`process_line_safely`.  It keeps the bytes of the unfinished line in `pending_line`; a
line that grows past the limit is forgotten, and the rest of it is skipped up to its
newline.

The state after some bytes is a function of the unfinished line alone, `unfinished`, so
it does not matter where the chunks were cut.

## Main definitions

* `LineOptions`, `LineState` — the options, and the fields of `OpenFile` for lines.
* `consumeBytes`, `finishLine`, `flushOrDropPendingLine` — the functions of the
  harvester, with the lines they hand over.
* `withoutCr`, `framedLines` — what should become of the terminated segments of a
  stream.

## Main results

* `consumeBytes_unfinished` — a run from any unfinished line.
* `line_framing_exact` — **the lines are those of the stream, however it is cut.**
-/

namespace LogLite

open Segments

/-- The options of the harvester that matter for lines; the constructor replaces a limit
of zero. -/
structure LineOptions where
  maxLineBytes : ℕ
  ignoreEmptyLines : Bool
  flushPartialLineOnClose : Bool
  maxLineBytes_pos : 0 < maxLineBytes

/-- The fields of `OpenFile` for lines. -/
structure LineState where
  pendingLine : Bytes
  droppingOverlongLine : Bool
  deriving DecidableEq

/-- A file just opened. -/
def LineState.empty : LineState := ⟨[], false⟩

/-- The byte `'\\n'`. -/
def newline : UInt8 := 10

/-- The byte `'\\r'`. -/
def carriageReturn : UInt8 := 13

/-- `pop_back` of a trailing `'\\r'`. -/
def stripCr (line : Bytes) : Bytes :=
  if line.getLast? = some carriageReturn then line.dropLast else line

section
variable (o : LineOptions)

/-- `finish_line`: the state and the lines handed over. -/
def finishLine (s : LineState) : LineState × List Bytes :=
  if s.droppingOverlongLine then (⟨[], false⟩, [])
  else
    let line := stripCr s.pendingLine
    (⟨[], s.droppingOverlongLine⟩,
      if !line.isEmpty || !o.ignoreEmptyLines then [line] else [])

/-- The body of the loop of `consume_bytes`. -/
def consumeByte (s : LineState) (ch : UInt8) : LineState × List Bytes :=
  if ch = newline then finishLine o s
  else if s.droppingOverlongLine then (s, [])
  else if s.pendingLine.length ≥ o.maxLineBytes then (⟨[], true⟩, [])
  else ({ s with pendingLine := s.pendingLine ++ [ch] }, [])

/-- `consume_bytes`. -/
def consumeBytes (s : LineState) : Bytes → LineState × List Bytes
  | [] => (s, [])
  | ch :: bytes =>
    let p := consumeByte o s ch
    let q := consumeBytes p.1 bytes
    (q.1, p.2 ++ q.2)

/-- `flush_or_drop_pending_line`. -/
def flushOrDropPendingLine (s : LineState) : LineState × List Bytes :=
  if s.droppingOverlongLine then (⟨[], false⟩, [])
  else if s.pendingLine.isEmpty then (s, [])
  else (⟨[], s.droppingOverlongLine⟩, if o.flushPartialLineOnClose then [s.pendingLine] else [])

/-- What happens to the lines of an open file: a chunk is read, or the file is closed or
truncated. -/
inductive LineEvent where
  | chunk (bytes : Bytes)
  | flush

/-- One event. -/
def lineEvent (s : LineState) : LineEvent → LineState × List Bytes
  | .chunk bytes => consumeBytes o s bytes
  | .flush => flushOrDropPendingLine o s

/-- Events in their order, with all the lines handed over. -/
def lineEvents (s : LineState) : List LineEvent → LineState × List Bytes
  | [] => (s, [])
  | event :: events =>
    let p := lineEvent o s event
    let q := lineEvents p.1 events
    (q.1, p.2 ++ q.2)

/-- The line of a segment: what comes before its trailing `'\\r'`, if it has one. -/
def withoutCr (seg : Bytes) : Bytes :=
  match seg.reverse with
  | [] => []
  | ch :: before => if ch = carriageReturn then before.reverse else seg

/-- What is handed over of the segments before the newlines: those within the limit,
without one trailing `'\\r'`, and without the empty ones if these are ignored. -/
def framedLines (segs : List Bytes) : List Bytes :=
  ((segs.filter fun s => s.length ≤ o.maxLineBytes).map withoutCr).filter
    fun line => line ≠ [] ∨ o.ignoreEmptyLines = false

/-- The state after the bytes of an unfinished line. -/
def unfinished (line : Bytes) : LineState :=
  if line.length ≤ o.maxLineBytes then ⟨line, false⟩ else ⟨[], true⟩

variable {o}

theorem unfinished_of_le {line : Bytes} (h : line.length ≤ o.maxLineBytes) :
    unfinished o line = ⟨line, false⟩ := if_pos h

theorem unfinished_of_lt {line : Bytes} (h : o.maxLineBytes < line.length) :
    unfinished o line = ⟨[], true⟩ := if_neg (Nat.not_le.mpr h)

theorem unfinished_nil : unfinished o [] = .empty := unfinished_of_le (Nat.zero_le _)

/-- One more byte of the line. -/
theorem consumeByte_unfinished {ch : UInt8} (h : ch ≠ newline) (line : Bytes) :
    consumeByte o (unfinished o line) ch = (unfinished o (line ++ [ch]), []) := by
  have hlen : (line ++ [ch]).length = line.length + 1 := List.length_append
  rcases lt_trichotomy line.length o.maxLineBytes with hlt | heq | hgt
  · rw [unfinished_of_le hlt.le, unfinished_of_le (by omega)]
    simp [consumeByte, h, hlt]
  · -- the line is full, and this byte makes it too long
    rw [unfinished_of_le heq.le, unfinished_of_lt (by omega)]
    simp [consumeByte, h, heq]
  · rw [unfinished_of_lt hgt, unfinished_of_lt (by omega)]
    simp [consumeByte, h]

/-- `pop_back` takes one trailing `'\\r'` off. -/
theorem stripCr_eq_withoutCr (line : Bytes) : stripCr line = withoutCr line := by
  rcases List.eq_nil_or_concat line with rfl | ⟨before, ch, rfl⟩
  · rfl
  · rw [List.concat_eq_append, stripCr, withoutCr, List.getLast?_concat, List.dropLast_concat,
      List.reverse_concat]
    dsimp only
    rw [List.reverse_reverse]
    by_cases hch : ch = carriageReturn
    · rw [if_pos (congrArg some hch), if_pos hch]
    · rw [if_neg (fun h => hch (Option.some.inj h)), if_neg hch]

/-- The end of the line. -/
theorem finishLine_unfinished (line : Bytes) :
    finishLine o (unfinished o line) = (.empty, framedLines o [line]) := by
  unfold framedLines
  rcases Nat.lt_or_ge o.maxLineBytes line.length with hgt | hle
  · rw [unfinished_of_lt hgt, List.filter_cons_of_neg (by simpa using hgt)]
    rfl
  · rw [unfinished_of_le hle, List.filter_cons_of_pos (by simpa using hle), finishLine,
      if_neg Bool.false_ne_true, List.filter_nil, List.map_singleton, List.filter_cons,
      stripCr_eq_withoutCr]
    dsimp only
    congr 2
    rw [Bool.eq_iff_iff]
    simp

theorem framedLines_cons (line : Bytes) (segs : List Bytes) :
    framedLines o (line :: segs) = framedLines o [line] ++ framedLines o segs := by
  unfold framedLines
  rw [← List.singleton_append, List.filter_append, List.map_append, List.filter_append]

/-- **A run from an unfinished line** hands over the lines of that line and the bytes
together, and leaves what is not terminated. -/
theorem consumeBytes_unfinished {line : Bytes} (h : newline ∉ line) (bytes : Bytes) :
    consumeBytes o (unfinished o line) bytes =
      (unfinished o (segments newline (line ++ bytes)).2,
        framedLines o (segments newline (line ++ bytes)).1) := by
  induction bytes generalizing line with
  | nil =>
    rw [List.append_nil, segments_of_notMem h]
    rfl
  | cons ch bytes ih =>
    unfold consumeBytes
    by_cases hch : ch = newline
    · subst hch
      have hfinish : consumeByte o (unfinished o line) newline = _ :=
        (if_pos rfl).trans (finishLine_unfinished line)
      have hrest : consumeBytes o (unfinished o []) bytes = _ := ih List.not_mem_nil
      rw [unfinished_nil, List.nil_append] at hrest
      rw [hfinish, segments_append_sep h, framedLines_cons line (segments newline bytes).1]
      dsimp only
      rw [hrest]
    · rw [consumeByte_unfinished hch]
      dsimp only
      have hline : newline ∉ line ++ [ch] := by
        rw [List.mem_append, List.mem_singleton, not_or]
        exact ⟨h, Ne.symm hch⟩
      rw [ih hline, List.append_assoc, List.singleton_append, List.nil_append]

theorem consumeBytes_cons (s : LineState) (ch : UInt8) (bytes : Bytes) :
    consumeBytes o s (ch :: bytes) = ((consumeBytes o (consumeByte o s ch).1 bytes).1,
      (consumeByte o s ch).2 ++ (consumeBytes o (consumeByte o s ch).1 bytes).2) := rfl

/-- Two chunks are one. -/
theorem consumeBytes_append (s : LineState) (bytes bytes' : Bytes) :
    consumeBytes o s (bytes ++ bytes') =
      ((consumeBytes o (consumeBytes o s bytes).1 bytes').1,
        (consumeBytes o s bytes).2 ++ (consumeBytes o (consumeBytes o s bytes).1 bytes').2) := by
  induction bytes generalizing s with
  | nil => rfl
  | cons ch bytes ih =>
    rw [List.cons_append, consumeBytes_cons, consumeBytes_cons, ih, List.append_assoc]

/-- **Where the chunks are cut does not matter.** -/
theorem lineEvents_chunks (s : LineState) (chunks : List Bytes) :
    lineEvents o s (chunks.map .chunk) = consumeBytes o s chunks.flatten := by
  induction chunks generalizing s with
  | nil => rfl
  | cons bytes chunks ih =>
    rw [List.flatten_cons, consumeBytes_append, List.map_cons]
    unfold lineEvents
    dsimp only [lineEvent]
    rw [ih]

/-! ### The invariant -/

variable (o) in
/-- The unfinished line is within the limit, and empty while a line is dropped. -/
structure LineInv (s : LineState) : Prop where
  fits : s.pendingLine.length ≤ o.maxLineBytes
  dropping : s.droppingOverlongLine = true → s.pendingLine = []

theorem lineInv_nil (b : Bool) : LineInv o ⟨[], b⟩ := ⟨Nat.zero_le _, fun _ => rfl⟩

theorem LineInv.consumeByte {s : LineState} (h : LineInv o s) (ch : UInt8) :
    LineInv o (consumeByte o s ch).1 := by
  unfold LogLite.consumeByte finishLine
  split_ifs with hnl hdrop hdrop hfull
  · exact lineInv_nil _
  · exact lineInv_nil _
  · exact h
  · exact lineInv_nil _
  · refine ⟨?_, fun hd => absurd hd hdrop⟩
    rw [List.length_append, List.length_singleton]
    omega

theorem LineInv.consumeBytes {s : LineState} (h : LineInv o s) (bytes : Bytes) :
    LineInv o (consumeBytes o s bytes).1 := by
  induction bytes generalizing s with
  | nil => exact h
  | cons ch bytes ih => exact ih (h.consumeByte ch)

theorem LineInv.flush {s : LineState} (h : LineInv o s) :
    LineInv o (flushOrDropPendingLine o s).1 := by
  unfold flushOrDropPendingLine
  split_ifs
  · exact lineInv_nil _
  · exact h
  · exact lineInv_nil _
  · exact lineInv_nil _

/-- **The invariant holds after every history of chunks and flushes.** -/
theorem LineInv.lineEvents {s : LineState} (h : LineInv o s) (events : List LineEvent) :
    LineInv o (lineEvents o s events).1 := by
  induction events generalizing s with
  | nil => exact h
  | cons event events ih =>
    cases event with
    | chunk bytes => exact ih (h.consumeBytes bytes)
    | flush => exact ih h.flush

/-! ### The whole -/

/-- What is flushed of an unfinished line. -/
theorem flush_unfinished (line : Bytes) : (flushOrDropPendingLine o (unfinished o line)).2 =
    if o.flushPartialLineOnClose ∧ line ≠ [] ∧ line.length ≤ o.maxLineBytes then [line]
    else [] := by
  unfold flushOrDropPendingLine
  rcases Nat.lt_or_ge o.maxLineBytes line.length with hgt | hle
  · rw [unfinished_of_lt hgt]
    simp [hgt]
  · rw [unfinished_of_le hle]
    cases line with
    | nil => simp
    | cons ch line =>
      have hlen : line.length + 1 ≤ o.maxLineBytes := hle
      simp [hlen]

variable (o) in
/-- The lines of a stream that is read in these chunks. -/
structure FramesExactly (chunks : List Bytes) (segs : List Bytes) (rest : Bytes) : Prop where
  /-- The stream is `segs`, each with its newline, and `rest`. -/
  stream : chunks.flatten = (segs.flatMap fun s => s ++ [newline]) ++ rest
  segments : (∀ s ∈ segs, newline ∉ s) ∧ newline ∉ rest
  /-- The lines handed over are those of the segments. -/
  lines : (LogLite.lineEvents o .empty (chunks.map .chunk)).2 = framedLines o segs
  /-- Closing the file then hands over the rest, if it is a line. -/
  flushed : (flushOrDropPendingLine o (LogLite.lineEvents o .empty (chunks.map .chunk)).1).2 =
    if o.flushPartialLineOnClose ∧ rest ≠ [] ∧ rest.length ≤ o.maxLineBytes then [rest] else []

variable (o) in
/-- **Line framing is exact** for every stream and every way of cutting it, and in every
state reached the unfinished line is within the limit, and empty while one is dropped. -/
theorem line_framing_exact :
    (∀ chunks : List Bytes, ∃ segs rest, FramesExactly o chunks segs rest) ∧
      ∀ events : List LineEvent, LineInv o (lineEvents o .empty events).1 := by
  refine ⟨fun chunks => ?_, fun events => (lineInv_nil false).lineEvents events⟩
  obtain ⟨hstream, hsegs, hrest⟩ := segments_spec newline chunks.flatten
  have hrun : consumeBytes o (unfinished o []) chunks.flatten = _ :=
    consumeBytes_unfinished List.not_mem_nil chunks.flatten
  rw [unfinished_nil, List.nil_append, ← lineEvents_chunks] at hrun
  refine ⟨_, _, hstream, ⟨hsegs, hrest⟩, by rw [hrun], ?_⟩
  rw [hrun]
  exact flush_unfinished _

end

end LogLite
