import LogLite.Harvest.Framing

/-!
# Lines of a connection

`SocketHarvester.handle_client` appends what it reads to a buffer and splits lines off it.
A line is decoded, given a timestamp if it has none, and handed to `ingest`; whatever goes
wrong with it is logged and does not reach the loop around it.

`ingest` takes a `dict`.  That an entry is one is not checked: `"timestamp" in entry` is
true of some strings and lists too, and they are handed over.

The decoder, UTF-8 and then JSON, is a parameter: nothing here depends on what it accepts.

## Main definitions

* `PyValue`, `PyException` — what a line is decoded to, and what may be raised.
* `withTimestamp`, `handleLine` — what is done with one line.
* `drain`, `handleClient` — the inner loop and `handle_client`.
* `Acceptable`, `stamped`, `entries` — what should be handed over of the lines of a stream.
* `FramesConnection`, `Frames` — the connection is framed exactly.

## Main results

* `drain_eq` — the inner loop takes the segments off the buffer.
* `socket_framing_iff` — **when the calls of `ingest` are those of the lines of the stream,
  however it is cut.**
-/

namespace LogLite

open Segments

/-! ### One line -/

/-- A decoded value.  A string is its characters in the way of UTF-8, lone surrogates too; a
`dict` has its items in their order. -/
inductive PyValue where
  | none
  | bool (b : Bool)
  | int (n : ℤ)
  | float (repr : Bytes)
  | str (s : Bytes)
  | list (xs : List PyValue)
  | dict (items : List (Bytes × PyValue))

/-- What may be raised: `json.JSONDecodeError`, or another exception. -/
inductive PyException where
  | jsonDecodeError
  | other (what : Bytes)

/-- `"timestamp" == value`. -/
def PyValue.isTimestamp : PyValue → Bool
  | .str s => s == lit "timestamp"
  | _ => false

/-- `"timestamp" in entry`, where that is defined. -/
def PyValue.hasTimestamp : PyValue → Option Bool
  | .str s => some (contains (lit "timestamp") s)
  | .list xs => some (xs.any PyValue.isTimestamp)
  | .dict items => some (items.any fun item => item.1 == lit "timestamp")
  | _ => Option.none

/-- The entry with the time `now`, if it has no timestamp: `entry["timestamp"] = now`. -/
def withTimestamp (now : Bytes) (entry : PyValue) : Except PyException PyValue :=
  match entry.hasTimestamp, entry with
  | Option.none, _ => .error (.other (lit "argument is not iterable"))
  | some true, entry => .ok entry
  | some false, .dict items => .ok (.dict (items ++ [(lit "timestamp", .str now)]))
  | some false, .list _ => .error (.other (lit "list indices must be integers or slices, not str"))
  | some false, _ => .error (.other (lit "object does not support item assignment"))

/-- What becomes of a line. -/
inductive LineOutcome where
  /-- `ingest(entry)` is called; what it raises is logged. -/
  | ingested (entry : PyValue)
  /-- `failed to decode line` is logged. -/
  | failedToDecode
  /-- `error processing line` is logged. -/
  | errorProcessing (what : Bytes)

section
variable (decode : Bytes → Except PyException PyValue) (clock : ℕ → Bytes)

/-- The body of the inner `try`, for a line that is not empty. -/
def handleLine (now : Bytes) (line : Bytes) : LineOutcome :=
  match decode line with
  | .error .jsonDecodeError => .failedToDecode
  | .error (.other what) => .errorProcessing what
  | .ok entry =>
    match withTimestamp now entry with
    | .error .jsonDecodeError => .failedToDecode
    | .error (.other what) => .errorProcessing what
    | .ok entry => .ingested entry

/-! ### A connection -/

/-- The buffer of a connection, the number of lines split off it so far, and what became of
those that were not empty. -/
structure ConnectionState where
  buffer : Bytes
  lines : ℕ
  outcomes : List LineOutcome

/-- `buffer.split(b"\n", 1)`, if `b"\n" in buffer`. -/
def splitLine (buffer : Bytes) : Option (Bytes × Bytes) :=
  match buffer.dropWhile (· != newline) with
  | [] => none
  | _ :: rest => some (buffer.takeWhile (· != newline), rest)

theorem length_splitLine {buffer line rest : Bytes} (h : splitLine buffer = some (line, rest)) :
    rest.length < buffer.length := by
  unfold splitLine at h
  split at h
  · cases h
  · next b rest hdrop =>
    cases h
    have hle := (List.dropWhile_suffix (· != newline) (l := buffer)).length_le
    rw [hdrop, List.length_cons] at hle
    omega

/-- One line is split off and handled.  `clock k` is the time at which line `k` of the
connection is handled. -/
def takeLine (s : ConnectionState) (line rest : Bytes) : ConnectionState where
  buffer := rest
  lines := s.lines + 1
  outcomes := s.outcomes ++ if line.isEmpty then [] else [handleLine decode (clock s.lines) line]

/-- The inner loop: lines are split off until there is no newline left. -/
def drain (s : ConnectionState) : ConnectionState :=
  match _h : splitLine s.buffer with
  | none => s
  | some (line, rest) => drain (takeLine decode clock s line rest)
termination_by s.buffer.length
decreasing_by exact length_splitLine _h

/-- How the loop of `handle_client` stands: it waits for more, it was stopped, the stream
has ended, or `read` has failed. -/
inductive ClientEnd where
  | waits
  | stopped
  | endOfStream
  | connectionError (what : Bytes)
  deriving DecidableEq

/-- `handle_client`, for a list of its turns: whether `_running` is set, and what `read` then
returns or raises.  Nothing raised in the inner loop gets out of it. -/
def handleClient (s : ConnectionState) :
    List (Bool × Except Bytes Bytes) → ConnectionState × ClientEnd
  | [] => (s, .waits)
  | (false, _) :: _ => (s, .stopped)
  | (true, .error what) :: _ => (s, .connectionError what)
  | (true, .ok data) :: turns =>
    if data.isEmpty then (s, .endOfStream)
    else handleClient (drain decode clock { s with buffer := s.buffer ++ data }) turns

/-- A turn that reads. -/
def readTurn (data : Bytes) : Bool × Except Bytes Bytes := (true, .ok data)

/-- A new connection. -/
def ConnectionState.start : ConnectionState := ⟨[], 0, []⟩

/-- The argument `ingest` is called with, if it is. -/
def LineOutcome.call : LineOutcome → Option PyValue
  | .ingested entry => some entry
  | _ => none

/-! ### What should be handed over -/

/-- What `ingest` is declared to take: a `dict`. -/
def Acceptable : PyValue → Bool
  | .dict _ => true
  | _ => false

/-- The value, with the time `now` if it is a `dict` without a timestamp. -/
def stamped (now : Bytes) : PyValue → PyValue
  | .dict items =>
    if items.any fun item => item.1 == lit "timestamp" then .dict items
    else .dict (items ++ [(lit "timestamp", .str now)])
  | entry => entry

/-- The entry of a line, if it is not empty and decodes to an acceptable one. -/
def entryOf (now : Bytes) (line : Bytes) : Option PyValue :=
  if line.isEmpty then none
  else
    match decode line with
    | .ok entry => if Acceptable entry then some (stamped now entry) else none
    | .error _ => none

/-- The entries of the lines of a connection, in their order. -/
def entries (lines : List Bytes) : List PyValue :=
  lines.zipIdx.filterMap fun line => entryOf decode (clock line.2) line.1

/-- What becomes of the lines of a connection, from line `k` on. -/
def lineOutcomes (k : ℕ) (lines : List Bytes) : List LineOutcome :=
  (lines.zipIdx k).filterMap fun line =>
    if line.1.isEmpty then none else some (handleLine decode (clock line.2) line.1)

variable {decode clock}

theorem withTimestamp_of_acceptable {now : Bytes} {entry : PyValue}
    (h : Acceptable entry = true) : withTimestamp now entry = .ok (stamped now entry) := by
  cases entry with
  | dict items =>
    simp only [withTimestamp, stamped, PyValue.hasTimestamp]
    cases items.any fun item => item.1 == lit "timestamp" with
    | true => rfl
    | false => rfl
  | _ => cases h

/-- What has no timestamp and is no `dict` is not handed over. -/
theorem withTimestamp_of_not_acceptable {now : Bytes} {entry : PyValue}
    (h : Acceptable entry = false) (hno : entry.hasTimestamp ≠ some true) :
    ∃ what, withTimestamp now entry = .error (.other what) := by
  cases entry with
  | dict => cases h
  | str s =>
    have hhas : contains (lit "timestamp") s = false := by
      simpa [PyValue.hasTimestamp] using hno
    exact ⟨_, by simp [withTimestamp, PyValue.hasTimestamp, hhas]; rfl⟩
  | list xs =>
    have hhas : xs.any PyValue.isTimestamp = false := by
      simpa [PyValue.hasTimestamp] using hno
    exact ⟨_, by simp only [withTimestamp, PyValue.hasTimestamp, hhas]; rfl⟩
  | none | bool | int | float => exact ⟨_, rfl⟩

/-- What has a timestamp is handed over as it is. -/
theorem withTimestamp_of_hasTimestamp {now : Bytes} {entry : PyValue}
    (h : entry.hasTimestamp = some true) : withTimestamp now entry = .ok entry := by
  unfold withTimestamp
  rw [h]

theorem acceptable_stamped {now : Bytes} {entry : PyValue} :
    Acceptable (stamped now entry) = Acceptable entry := by
  cases entry with
  | dict items =>
    rw [stamped]
    split_ifs
    · rfl
    · rfl
  | _ => rfl

variable (decode) in
/-- The line is decoded to a string or a list that is taken to have a timestamp. -/
def Mistaken (line : Bytes) : Prop :=
  line ≠ [] ∧ ∃ entry, decode line = .ok entry ∧ Acceptable entry = false ∧
    entry.hasTimestamp = some true

/-- `ingest` is called with the entry of a line, and with nothing else. -/
theorem handleLine_call {now line : Bytes} (hline : line ≠ []) (h : ¬ Mistaken decode line) :
    (handleLine decode now line).call = entryOf decode now line := by
  unfold handleLine entryOf
  rw [if_neg (by simpa using hline)]
  cases hdecode : decode line with
  | error e => cases e <;> rfl
  | ok entry =>
    cases hacceptable : Acceptable entry with
    | true => simp [withTimestamp_of_acceptable hacceptable, hacceptable, LineOutcome.call]
    | false =>
      obtain ⟨what, hwhat⟩ : ∃ what, withTimestamp now entry = .error (.other what) :=
        withTimestamp_of_not_acceptable hacceptable fun hhas =>
          h ⟨hline, entry, hdecode, hacceptable, hhas⟩
      simp [hwhat, hacceptable, LineOutcome.call]

/-- For a mistaken line `ingest` is called with what is no `dict`. -/
theorem Mistaken.call {now line : Bytes} (h : Mistaken decode line) :
    ∃ entry, (handleLine decode now line).call = some entry ∧ Acceptable entry = false := by
  obtain ⟨-, entry, hdecode, hacceptable, hhas⟩ := h
  refine ⟨entry, ?_, hacceptable⟩
  simp only [handleLine, hdecode, withTimestamp_of_hasTimestamp hhas, LineOutcome.call]

theorem acceptable_of_mem_entries {lines : List Bytes} {entry : PyValue}
    (h : entry ∈ entries decode clock lines) : Acceptable entry = true := by
  obtain ⟨line, -, hentry⟩ := List.mem_filterMap.mp h
  unfold entryOf at hentry
  split at hentry
  · cases hentry
  · split at hentry
    · split at hentry
      · next hacceptable =>
        cases hentry
        rwa [acceptable_stamped]
      · cases hentry
    · cases hentry

/-! ### The loops -/

theorem lineOutcomes_cons (k : ℕ) (line : Bytes) (lines : List Bytes) :
    lineOutcomes decode clock k (line :: lines) =
      (if line.isEmpty then [] else [handleLine decode (clock k) line]) ++
        lineOutcomes decode clock (k + 1) lines := by
  unfold lineOutcomes
  rw [List.zipIdx_cons, List.filterMap_cons]
  cases line.isEmpty <;> rfl

theorem lineOutcomes_append (k : ℕ) (lines lines' : List Bytes) :
    lineOutcomes decode clock k (lines ++ lines') =
      lineOutcomes decode clock k lines ++ lineOutcomes decode clock (k + lines.length) lines' := by
  unfold lineOutcomes
  rw [List.zipIdx_append, List.filterMap_append, Nat.add_comm]

theorem splitLine_eq_none {buffer : Bytes} (h : splitLine buffer = none) : newline ∉ buffer := by
  unfold splitLine at h
  split at h
  · next hdrop =>
    intro hmem
    simpa using List.dropWhile_eq_nil_iff.mp hdrop newline hmem
  · cases h

theorem splitLine_eq_some {buffer line rest : Bytes} (h : splitLine buffer = some (line, rest)) :
    buffer = line ++ newline :: rest ∧ newline ∉ line := by
  unfold splitLine at h
  split at h
  · cases h
  · next b rest hdrop =>
    cases h
    have hb := List.head?_dropWhile_not (· != newline) buffer
    rw [hdrop] at hb
    obtain rfl : b = newline := by simpa using hb
    refine ⟨?_, fun hmem => by simpa using List.mem_takeWhile_imp hmem⟩
    rw [← hdrop, List.takeWhile_append_dropWhile]

/-- **The inner loop takes the segments off the buffer** and handles each of them. -/
theorem drain_eq (s : ConnectionState) :
    drain decode clock s =
      ⟨(segments newline s.buffer).2, s.lines + (segments newline s.buffer).1.length,
        s.outcomes ++ lineOutcomes decode clock s.lines (segments newline s.buffer).1⟩ := by
  induction s using drain.induct decode clock with
  | case1 s hsplit =>
    rw [drain, segments_of_notMem (splitLine_eq_none hsplit)]
    split
    · simp [lineOutcomes]
    · next line rest hsplit' =>
      rw [hsplit] at hsplit'
      cases hsplit'
  | case2 s line rest hsplit ih =>
    obtain ⟨hbuffer, hline⟩ := splitLine_eq_some hsplit
    rw [drain]
    split
    · next hsplit' =>
      rw [hsplit] at hsplit'
      cases hsplit'
    · next line' rest' hsplit' =>
      rw [hsplit] at hsplit'
      cases hsplit'
      rw [ih, hbuffer, segments_append_sep hline]
      dsimp only [takeLine]
      rw [lineOutcomes_cons, List.append_assoc, List.length_cons, Nat.add_right_comm,
        Nat.add_assoc]

/-- **The loop over the reads** is the inner loop on everything that was read. -/
theorem handleClient_chunks {s : ConnectionState} {chunks : List Bytes}
    (hbuffer : newline ∉ s.buffer) (hne : ∀ data ∈ chunks, data ≠ [])
    (turns : List (Bool × Except Bytes Bytes)) :
    handleClient decode clock s (chunks.map readTurn ++ turns) =
      handleClient decode clock
        (drain decode clock { s with buffer := s.buffer ++ chunks.flatten }) turns := by
  induction chunks generalizing s with
  | nil =>
    rw [List.flatten_nil, List.append_nil, drain_eq, segments_of_notMem hbuffer]
    simp [lineOutcomes]
  | cons data chunks ih =>
    obtain ⟨hdata, hchunks⟩ := List.forall_mem_cons.mp hne
    have hturn : handleClient decode clock s (readTurn data :: (chunks.map readTurn ++ turns)) =
        handleClient decode clock (drain decode clock { s with buffer := s.buffer ++ data })
          (chunks.map readTurn ++ turns) := by
      rw [readTurn, handleClient, if_neg (by simpa using hdata)]
    -- the rest of the buffer has no newline, and the segments of what follows continue it
    obtain ⟨-, -, hrest⟩ := segments_spec newline (s.buffer ++ data)
    rw [List.map_cons, List.cons_append, hturn, drain_eq]
    rw [ih hrest hchunks, List.flatten_cons, drain_eq, drain_eq]
    dsimp only
    rw [← List.append_assoc, segments_append (s.buffer ++ data), List.length_append,
      lineOutcomes_append, List.append_assoc, Nat.add_assoc]

/-- The calls of `ingest` are the entries of the lines, if none of them is mistaken. -/
theorem calls_lineOutcomes_iff (lines : List Bytes) :
    (lineOutcomes decode clock 0 lines).filterMap LineOutcome.call =
      entries decode clock lines ↔ ∀ line ∈ lines, ¬ Mistaken decode line := by
  constructor
  · intro h line hline hmistaken
    obtain ⟨k, hk⟩ := List.mem_iff_getElem?.mp hline
    obtain ⟨entry, hcall, hnot⟩ := @Mistaken.call _ (clock k) _ hmistaken
    have houtcome : handleLine decode (clock k) line ∈ lineOutcomes decode clock 0 lines := by
      refine List.mem_filterMap.mpr ⟨(line, k), ?_, ?_⟩
      · exact List.mem_zipIdx_iff_getElem?.mpr hk
      · rw [if_neg (by simpa using hmistaken.1)]
    have hmem : entry ∈ entries decode clock lines := by
      rw [← h]
      exact List.mem_filterMap.mpr ⟨_, houtcome, hcall⟩
    exact Bool.false_ne_true (hnot.symm.trans (acceptable_of_mem_entries hmem))
  · intro h
    unfold lineOutcomes entries
    rw [List.filterMap_filterMap]
    refine List.filterMap_congr fun line hline => ?_
    by_cases hempty : line.1 = []
    · simp [entryOf, hempty]
    · rw [if_neg (by simpa using hempty)]
      exact handleLine_call hempty (h _ (List.fst_mem_of_mem_zipIdx hline))

/-! ### The whole -/

/-- The stream is `segs`, each with its newline, and the unterminated `rest`. -/
structure Lines (stream : Bytes) (segs : List Bytes) (rest : Bytes) : Prop where
  cut : stream = (segs.flatMap fun s => s ++ [newline]) ++ rest
  segs_whole : ∀ s ∈ segs, newline ∉ s
  rest_whole : newline ∉ rest

theorem lines_segments (stream : Bytes) :
    Lines stream (segments newline stream).1 (segments newline stream).2 := by
  obtain ⟨hstream, hsegs, hrest⟩ := segments_spec newline stream
  exact ⟨hstream, hsegs, hrest⟩

theorem Lines.eq_segments {stream : Bytes} {segs : List Bytes} {rest : Bytes}
    (h : Lines stream segs rest) : segments newline stream = (segs, rest) := by
  rw [h.cut]
  exact segments_eq h.segs_whole h.rest_whole

variable (decode clock) in
/-- A connection whose bytes arrive in these chunks. -/
structure FramesConnection (chunks : List Bytes) (segs : List Bytes) (rest : Bytes) : Prop where
  lines : Lines chunks.flatten segs rest
  /-- After the chunks, the loop waits for more, and its buffer is the unterminated rest. -/
  waits : (handleClient decode clock .start (chunks.map readTurn)).2 = .waits ∧
    (handleClient decode clock .start (chunks.map readTurn)).1.buffer = rest
  /-- `ingest` was called for the entries of the lines, in their order, and for nothing else. -/
  calls : (handleClient decode clock .start (chunks.map readTurn)).1.outcomes.filterMap
    LineOutcome.call = entries decode clock segs
  /-- The end of the stream ends the loop, and changes nothing. -/
  ended : handleClient decode clock .start (chunks.map readTurn ++ [readTurn []]) =
    ((handleClient decode clock .start (chunks.map readTurn)).1, .endOfStream)

variable (decode clock) in
/-- The connection is framed exactly after each of its chunks. -/
def Frames (chunks : List Bytes) : Prop :=
  ∀ k, ∃ segs rest, FramesConnection decode clock (chunks.take k) segs rest

/-- What a connection has come to after some chunks. -/
theorem handleClient_start {chunks : List Bytes} (hne : ∀ data ∈ chunks, data ≠ [])
    (turns : List (Bool × Except Bytes Bytes)) :
    handleClient decode clock .start (chunks.map readTurn ++ turns) =
      handleClient decode clock
        ⟨(segments newline chunks.flatten).2, (segments newline chunks.flatten).1.length,
          lineOutcomes decode clock 0 (segments newline chunks.flatten).1⟩ turns := by
  rw [handleClient_chunks (by simp [ConnectionState.start]) hne, drain_eq]
  simp [ConnectionState.start]

/-- What becomes of the lines, with nothing more to read. -/
theorem handleClient_read {chunks : List Bytes} (hne : ∀ data ∈ chunks, data ≠ []) :
    handleClient decode clock .start (chunks.map readTurn) =
      (⟨(segments newline chunks.flatten).2, (segments newline chunks.flatten).1.length,
        lineOutcomes decode clock 0 (segments newline chunks.flatten).1⟩, .waits) := by
  have hstart : handleClient decode clock .start (chunks.map readTurn ++ []) = _ :=
    handleClient_start hne []
  rwa [List.append_nil, handleClient] at hstart

theorem framesConnection_iff {chunks : List Bytes} (hne : ∀ data ∈ chunks, data ≠ []) :
    (∃ segs rest, FramesConnection decode clock chunks segs rest) ↔
      ∀ line ∈ (segments newline chunks.flatten).1, ¬ Mistaken decode line := by
  have hread : handleClient decode clock .start (chunks.map readTurn) = _ :=
    handleClient_read hne
  constructor
  · rintro ⟨segs, rest, h⟩
    have hcalls := h.calls
    rw [hread] at hcalls
    rw [h.lines.eq_segments] at hcalls ⊢
    exact (calls_lineOutcomes_iff segs).mp hcalls
  · intro h
    refine ⟨_, _, lines_segments _, ?_, ?_, ?_⟩
    · rw [hread]
      exact ⟨rfl, rfl⟩
    · rw [hread]
      exact (calls_lineOutcomes_iff _).mpr h
    · rw [hread, handleClient_start hne, readTurn, handleClient]
      rfl

/-- The lines of the first chunks are the first lines. -/
theorem mem_segments_take {chunks : List Bytes} {line : Bytes} {k : ℕ}
    (h : line ∈ (segments newline (chunks.take k).flatten).1) :
    line ∈ (segments newline chunks.flatten).1 := by
  have hsplit : chunks.flatten = (chunks.take k).flatten ++ (chunks.drop k).flatten := by
    rw [← List.flatten_append, List.take_append_drop]
  rw [hsplit, segments_append]
  exact List.mem_append_left _ h

/-- **When framing is exact, for every stream and every way of cutting it**: as long as no
line is decoded to a string or a list that is taken to have a timestamp. -/
theorem socket_framing_iff (decode : Bytes → Except PyException PyValue) (clock : ℕ → Bytes)
    (chunks : List Bytes) (hne : ∀ data ∈ chunks, data ≠ []) :
    Frames decode clock chunks ↔
      ∀ line ∈ (segments newline chunks.flatten).1, ¬ Mistaken decode line := by
  constructor
  · intro h
    have hall := h chunks.length
    rw [List.take_length] at hall
    exact (framesConnection_iff hne).mp hall
  · intro h k
    refine (framesConnection_iff fun data hdata => hne data (List.mem_of_mem_take hdata)).mpr ?_
    intro line hline
    exact h line (mem_segments_take hline)

end

/-- A decoder that knows two lines. -/
def decodeTwo (line : Bytes) : Except PyException PyValue :=
  if line = lit "\x7b\"a\":1\x7d" then .ok (.dict [(lit "a", .int 1)])
  else if line = lit "\"timestamp\"" then .ok (.str (lit "timestamp"))
  else .error .jsonDecodeError

/-- An object in two chunks, an empty line and one that is no JSON. -/
theorem socket_framing_two_chunks : Frames decodeTwo (fun _ => lit "2025-01-01T00:00:00")
    [lit "\x7b\"a\"", lit ":1\x7d\n\n\x7b\n"] := by
  refine (socket_framing_iff decodeTwo _ _ (by simp [lit])).mpr ?_
  have hlines : (segments newline [lit "\x7b\"a\"", lit ":1\x7d\n\n\x7b\n"].flatten).1 =
      [lit "\x7b\"a\":1\x7d", [], lit "\x7b"] := by decide
  rw [hlines]
  rintro line hline ⟨hne, entry, hdecode, hnot, -⟩
  have hdict : ∀ line ∈ [lit "\x7b\"a\":1\x7d", [], lit "\x7b"], ∀ entry,
      decodeTwo line = .ok entry → Acceptable entry = true := by
    intro line hline entry hdecode
    unfold decodeTwo at hdecode
    split at hdecode
    · cases hdecode
      rfl
    · split at hdecode
      · next hstr =>
        subst hstr
        exact absurd hline (by decide)
      · cases hdecode
  exact Bool.false_ne_true (hnot.symm.trans (hdict line hline entry hdecode))

/-- `ingest` is called with the string `timestamp`. -/
theorem string_is_ingested : ¬ Frames decodeTwo (fun _ => lit "2025-01-01T00:00:00")
    [lit "\"timestamp\"\n"] := by
  intro h
  have hall := h 1
  rw [show [lit "\"timestamp\"\n"].take 1 = [lit "\"timestamp\"\n"] from rfl,
    framesConnection_iff (by simp [lit])] at hall
  refine hall (lit "\"timestamp\"") (by decide) ⟨by decide, .str (lit "timestamp"), ?_, rfl, ?_⟩
  · rfl
  · decide

end LogLite
