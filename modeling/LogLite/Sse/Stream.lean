import LogLite.Base.Decimal
import LogLite.Lib.EventStream
import LogLite.Sse.Windows
import Mathlib.Data.List.Flatten
import Mathlib.Data.List.Perm.Basic

/-!
# What the client of the event stream sees

`HandleSSE` writes the rows of an event as one JSON array in one `data` line, and a
comment when there is nothing to write for a while.  The client is a browser's
`EventSource`, which gets the bytes in any pieces, and the live console, which keeps the
last rows of the messages.

JSON text has no control characters, so an event is one message, and nothing in a log can
end it early or forge another one.

## Main definitions

* `eventText`, `keepAliveText` — what is written to the stream.
* `Streamed`, `StreamStep` — the loop with the bytes on the wire.
* `sliceLast`, `consoleMessage` — `slice(-maxLogs)`, and the handler of the console.

## Main results

* `dump_plain` — JSON text has no control characters.
* `sse_stream_exact` — **the client gets one message for each event, whatever is logged
  and however the bytes arrive.**
* `live_console_tail` — **the console shows the last rows sent, each once.**
-/

namespace LogLite

open Transition EventStream

/-! ### JSON text -/

/-- A text without control characters. -/
def ControlFree (s : Bytes) : Prop := ∀ b ∈ s, 32 ≤ b

theorem ControlFree.append {s t : Bytes} (h : ControlFree s) (h' : ControlFree t) :
    ControlFree (s ++ t) := by
  intro b hb
  rcases List.mem_append.mp hb with hb | hb
  · exact h b hb
  · exact h' b hb

theorem ControlFree.oneLine {s : Bytes} (h : ControlFree s) : OneLine s :=
  ⟨fun hb => absurd (h _ hb) (by decide), fun hb => absurd (h _ hb) (by decide)⟩

theorem controlFree_of_all {s : Bytes} (h : (s.all fun b => 32 ≤ b) = true) : ControlFree s := by
  intro b hb
  simpa using List.all_eq_true.mp h b hb

theorem escapeByte_plain (b : UInt8) : ControlFree (escapeByte b) := by
  have hall : ∀ n : Fin 256, ((escapeByte (UInt8.ofNat n)).all fun b => 32 ≤ b) = true := by
    decide +kernel
  have hb := hall ⟨b.toNat, b.toNat_lt⟩
  rw [UInt8.ofNat_toNat] at hb
  exact controlFree_of_all hb

theorem quoted_plain (s : Bytes) : ControlFree (quoted s) := by
  refine ((controlFree_of_all (by decide)).append ?_).append (controlFree_of_all (by decide))
  intro b hb
  obtain ⟨c, -, hc⟩ := List.mem_flatMap.mp hb
  exact escapeByte_plain c b hc

theorem digitBytes_plain (n : ℕ) : ControlFree (digitBytes n) := by
  intro b hb
  have hdigit := List.all_eq_true.mp (isDigit_digitBytes n) b hb
  rw [isDigit, Bool.and_eq_true, decide_eq_true_eq] at hdigit
  exact UInt8.le_trans (by decide) hdigit.1

theorem decimal_plain (n : ℤ) : ControlFree (decimal n) := by
  cases n with
  | ofNat n => exact (decimal_natCast n).symm ▸ digitBytes_plain n
  | negSucc n =>
    rw [decimal_negSucc]
    exact ControlFree.append (s := [45]) (controlFree_of_all (by decide)) (digitBytes_plain (n + 1))

mutual

/-- **JSON text has no control characters.** -/
theorem dump_plain {P : Platform} (hP : ∀ x, ControlFree (P.floatText x)) :
    ∀ v : Json, ControlFree (v.dump P)
  | .null => controlFree_of_all (s := lit "null") (by decide)
  | .bool true => controlFree_of_all (s := lit "true") (by decide)
  | .bool false => controlFree_of_all (s := lit "false") (by decide)
  | .integer n => decimal_plain n
  | .float x => hP x
  | .string s => quoted_plain s
  | .array xs =>
    ((controlFree_of_all (by decide)).append (dumpItems_plain hP xs)).append
      (controlFree_of_all (by decide))
  | .object kvs =>
    ((controlFree_of_all (by decide)).append (dumpMembers_plain hP kvs)).append
      (controlFree_of_all (by decide))

theorem dumpItems_plain {P : Platform} (hP : ∀ x, ControlFree (P.floatText x)) :
    ∀ xs : List Json, ControlFree (Json.dumpItems P xs)
  | [] => nofun
  | [x] => dump_plain hP x
  | x :: y :: xs =>
    ((dump_plain hP x).append (controlFree_of_all (by decide))).append
      (dumpItems_plain hP (y :: xs))

theorem dumpMembers_plain {P : Platform} (hP : ∀ x, ControlFree (P.floatText x)) :
    ∀ kvs : List (Bytes × Json), ControlFree (Json.dumpMembers P kvs)
  | [] => nofun
  | [(k, x)] =>
    ((quoted_plain k).append (controlFree_of_all (by decide))).append (dump_plain hP x)
  | (k, x) :: y :: xs =>
    ((((quoted_plain k).append (controlFree_of_all (by decide))).append (dump_plain hP x)).append
      (controlFree_of_all (by decide))).append (dumpMembers_plain hP (y :: xs))

end

/-! ### The stream -/

section
variable (P : Platform)

/-- The event of some rows. -/
def eventText (results : List Json) : Bytes :=
  lit "data: [" ++ (lit ",").intercalate (results.map fun v => v.dump P) ++ lit "]\r\n\r\n"

/-- The comment that keeps the connection open. -/
def keepAliveText : Bytes := lit ":\r\n\r\n"

variable {P} in
theorem intercalate_dump : ∀ xs : List Json,
    (lit ",").intercalate (xs.map fun v => v.dump P) = Json.dumpItems P xs
  | [] => rfl
  | [x] => by simp [List.intercalate, Json.dumpItems]
  | x :: y :: xs => by
    have htail := intercalate_dump (y :: xs)
    simp only [List.intercalate, List.map_cons, List.intersperse_cons_cons,
      List.flatten_cons] at htail ⊢
    rw [htail, ← List.append_assoc]
    rfl

/-- The data line of an event holds the text of an array. -/
theorem eventText_eq (results : List Json) : eventText P results =
    dataField ++ [58, 32] ++ (Json.array results).dump P ++ [13, 10, 13, 10] := by
  rw [eventText, intercalate_dump]
  show _ = dataField ++ [58, 32] ++ ([91] ++ Json.dumpItems P results ++ [93]) ++ [13, 10, 13, 10]
  simp [lit, dataField]

variable (render : LogRow → Json)

/-- The loop with the bytes on the wire. -/
structure Streamed where
  observed : Observed
  wire : Bytes

/-- The text of the message of an event. -/
def messageText (rows : List LogRow) : Bytes := (Json.array (rows.map render)).dump P

/-- What the coroutine is about to write. -/
def Subscriber.writing (b : Subscriber) : Bytes :=
  match b.stage with
  | .pinging _ => keepAliveText
  | .holding _ _ results => eventText P (results.map render)
  | _ => []

/-- What a step puts on the wire; of a write that fails, some part may have got through. -/
def Subscriber.Puts (b : Subscriber) (act : SseAction) (bytes : Bytes) : Prop :=
  match act with
  | .write => bytes = b.writing P render
  | .disconnect => bytes <+: b.writing P render
  | _ => bytes = []

/-- A step of the loop, with the bytes it puts on the wire. -/
def StreamStep (cat : DatabaseCatalog) (o : SseOptions) (s : Streamed) (seen : Feed × SseAction)
    (t : Streamed) : Prop :=
  ObservedStep cat o s.observed seen t.observed ∧
    ∃ bytes, s.observed.sub.Puts P render seen.2 bytes ∧ t.wire = s.wire ++ bytes

end

/-- A client that has just connected. -/
def Streamed.start : Streamed := ⟨.start, []⟩

section
variable {P : Platform} {render : LogRow → Json}

variable (P render) in
/-- The client has got a message for each event, and is between two messages; of a write
that failed it may have got the message. -/
structure StreamInv (s : Streamed) : Prop where
  forward : Forward s.observed
  live : s.observed.sub.stage ≠ .ended → (Reader.idle []).read s.wire =
    .idle (s.observed.sub.sent.map (messageText P render))
  ended : ∃ cut, cut.length ≤ 1 ∧ ((Reader.idle []).read s.wire).messages =
    s.observed.sub.sent.map (messageText P render) ++ cut

theorem streamInv_start : StreamInv P render .start where
  forward := forward_start
  live := fun _ => rfl
  ended := ⟨[], Nat.zero_le 1, rfl⟩

/-- **An event is read as one message.** -/
theorem read_eventText (hP : ∀ x, ControlFree (P.floatText x)) (messages : List Bytes)
    (rows : List LogRow) : (Reader.idle messages).read (eventText P (rows.map render)) =
      .idle (messages ++ [messageText P render rows]) := by
  rw [eventText_eq]
  exact read_data (dump_plain hP _).oneLine messages

theorem read_keepAliveText (messages : List Bytes) :
    (Reader.idle messages).read keepAliveText = .idle messages := by
  have htext : keepAliveText = [58, 13, 10, 13, 10] := by decide
  rw [htext]
  exact read_comment messages

/-- A part of what is being written is read as at most one message. -/
theorem read_part (hP : ∀ x, ControlFree (P.floatText x)) {b : Subscriber} {part : Bytes}
    (hpart : part <+: b.writing P render) (messages : List Bytes) : ∃ cut : List Bytes,
      cut.length ≤ 1 ∧ ((Reader.idle messages).read part).messages = messages ++ cut := by
  have hnone : part = [] → ∃ cut : List Bytes, cut.length ≤ 1 ∧
      ((Reader.idle messages).read part).messages = messages ++ cut := by
    rintro rfl
    exact ⟨[], Nat.zero_le 1, (List.append_nil _).symm⟩
  unfold Subscriber.writing at hpart
  split at hpart
  · obtain ⟨rest, hrest⟩ := hpart
    have hwhole := read_messages ((Reader.idle messages).read part) rest
    rw [← read_append, hrest, read_keepAliveText] at hwhole
    refine ⟨[], Nat.zero_le 1, ?_⟩
    rw [List.append_nil]
    exact List.IsPrefix.eq_of_length_le hwhole (read_messages (.idle messages) part).length_le
  · next current now results _ =>
    rcases messages_of_prefix hpart
      (congrArg Reader.messages (read_eventText hP messages results)) with hcut | hcut
    · exact ⟨[], Nat.zero_le 1, by rw [hcut, List.append_nil]; rfl⟩
    · exact ⟨[_], Nat.le_refl 1, hcut⟩
  · exact hnone (List.prefix_nil.mp hpart)

variable {cat : DatabaseCatalog} {o : SseOptions} {feed : Feed} {s t : Streamed} {act : SseAction}

/-- The steps that write, or fail to. -/
theorem SseStep.sent_cases {b b' : Subscriber} (h : SseStep cat o feed b act b')
    (hfresh : b.stage = .connecting → b.sent = []) :
    (act ≠ .write ∧ act ≠ .disconnect ∧ b'.sent = b.sent) ∨
      (act = .write ∧ ((∃ now, b.stage = .pinging now ∧ b'.sent = b.sent) ∨
        ∃ current now results, b.stage = .holding current now results ∧
          b'.sent = b.sent ++ [results])) ∨
      (act = .disconnect ∧ b'.stage = .ended ∧ b'.sent = b.sent) := by
  cases h with
  | subscribe hs => exact .inl ⟨nofun, nofun, (hfresh hs).symm⟩
  | pinged hs => exact .inr (.inl ⟨rfl, .inl ⟨_, hs, rfl⟩⟩)
  | write hs hne => exact .inr (.inl ⟨rfl, .inr ⟨_, _, _, hs, rfl⟩⟩)
  | pingFails hs => exact .inr (.inr ⟨rfl, rfl, rfl⟩)
  | writeFails hs hne => exact .inr (.inr ⟨rfl, rfl, rfl⟩)
  | _ => exact .inl ⟨nofun, nofun, rfl⟩

/-- The loop takes no step after its end. -/
theorem SseStep.ne_ended {b b' : Subscriber} (h : SseStep cat o feed b act b') :
    b.stage ≠ .ended := by
  intro hended
  cases h <;> simp_all

/-- **Every step keeps the client in step.** -/
theorem StreamInv.step (hP : ∀ x, ControlFree (P.floatText x)) (hid : cat.HasRowId)
    (h : StreamInv P render s) (hstep : StreamStep P render cat o s (feed, act) t) :
    StreamInv P render t := by
  obtain ⟨hobserved, bytes, hputs, hwire⟩ := hstep
  have hforward := h.forward.step hid hobserved
  have hne := hobserved.2.1.ne_ended
  have hcases := hobserved.2.1.sent_cases fun hs => (h.forward.fresh hs).1
  have hlive := h.live hne
  -- a step after which the client is between two messages
  have hgoes : ∀ new : List (List LogRow), t.observed.sub.sent = s.observed.sub.sent ++ new →
      (∀ messages, (Reader.idle messages).read bytes =
        .idle (messages ++ new.map (messageText P render))) → StreamInv P render t := by
    intro new hnew hread
    have hidle : (Reader.idle []).read t.wire =
        .idle (t.observed.sub.sent.map (messageText P render)) := by
      rw [hwire, read_append, hlive, hread, hnew, List.map_append]
    exact ⟨hforward, fun _ => hidle, [], Nat.zero_le 1, by rw [hidle, List.append_nil]; rfl⟩
  rcases hcases with ⟨hwrite, hdis, hsame⟩ | ⟨rfl, ⟨now, hs, hsame⟩ |
    ⟨current, now, results, hs, hsent⟩⟩ | ⟨rfl, hended, hsame⟩
  · have hnil : bytes = [] := by
      cases act <;> first | exact hputs | exact absurd rfl hwrite | exact absurd rfl hdis
    refine hgoes [] (by rw [hsame, List.append_nil]) fun messages => ?_
    rw [hnil, List.map_nil, List.append_nil]
    rfl
  · have hbytes : bytes = keepAliveText := by
      rw [show bytes = _ from hputs, Subscriber.writing, hs]
    refine hgoes [] (by rw [hsame, List.append_nil]) fun messages => ?_
    rw [hbytes, List.map_nil, List.append_nil]
    exact read_keepAliveText messages
  · have hbytes : bytes = eventText P (results.map render) := by
      rw [show bytes = _ from hputs, Subscriber.writing, hs]
    refine hgoes [results] hsent fun messages => ?_
    rw [hbytes]
    exact read_eventText hP messages results
  · refine ⟨hforward, fun hlive' => absurd hended hlive', ?_⟩
    have hpart : bytes <+: s.observed.sub.writing P render := hputs
    rw [hwire, read_append, hlive, hsame]
    exact read_part hP hpart _

theorem streamInv_of_run (hP : ∀ x, ControlFree (P.floatText x)) (hid : cat.HasRowId)
    {seen : List (Feed × SseAction)} (hrun : Run (StreamStep P render cat o) .start seen s) :
    StreamInv P render s :=
  hrun.invariant (I := StreamInv P render) (fun _ _ _ h hstep => h.step hP hid hstep)
    streamInv_start

/-- **The client gets one message for each event**, whatever is logged and however the bytes
arrive; only of an event whose write failed may it have got a message that was not counted
as sent. -/
theorem sse_stream_exact (hP : ∀ x, ControlFree (P.floatText x)) (hid : cat.HasRowId)
    {seen : List (Feed × SseAction)} (hrun : Run (StreamStep P render cat o) .start seen s)
    {chunks : List Bytes} (hchunks : chunks.flatten = s.wire) :
    ∃ cut : List Bytes, cut.length ≤ 1 ∧ (s.observed.sub.stage ≠ .ended → cut = []) ∧
      (chunks.foldl Reader.read (.idle [])).messages =
        s.observed.sub.sent.map (messageText P render) ++ cut := by
  have hinv := streamInv_of_run hP hid hrun
  rw [read_flatten, hchunks]
  by_cases hended : s.observed.sub.stage = .ended
  · obtain ⟨cut, hlen, hcut⟩ := hinv.ended
    exact ⟨cut, hlen, fun hne => absurd hended hne, hcut⟩
  · refine ⟨[], Nat.zero_le 1, fun _ => rfl, ?_⟩
    rw [hinv.live hended, List.append_nil]
    rfl

/-! ### The live console -/

section
variable {α : Type} (maxLogs : ℕ) (parse : Bytes → Option (List α))

/-- `slice(-n)`: the last `n` items; `-0` is no different from `0`. -/
def sliceLast (n : ℕ) (l : List α) : List α := if n = 0 then l else l.drop (l.length - n)

/-- `onmessage`: the buffer afterwards.  A message that does not parse is only logged. -/
def consoleMessage (buffer : List α) (data : Bytes) : List α :=
  match parse data with
  | some incoming =>
    if incoming.length > 0 then sliceLast maxLogs (buffer ++ incoming.reverse) else buffer
  | none => buffer

variable {maxLogs parse}

theorem sliceLast_of_le {l : List α} (h : l.length ≤ maxLogs) : sliceLast maxLogs l = l := by
  unfold sliceLast
  split
  · rfl
  · rw [Nat.sub_eq_zero_of_le h, List.drop_zero]

/-- What is cut off does not come back. -/
theorem sliceLast_append (l l' : List α) :
    sliceLast maxLogs (sliceLast maxLogs l ++ l') = sliceLast maxLogs (l ++ l') := by
  unfold sliceLast
  by_cases h : maxLogs = 0
  · simp [h]
  · rw [if_neg h, if_neg h, if_neg h, ← List.drop_append_of_le_length (by omega), List.drop_drop]
    congr 1
    simp only [List.length_drop, List.length_append]
    omega

theorem length_sliceLast_le (h : 0 < maxLogs) (l : List α) :
    (sliceLast maxLogs l).length ≤ maxLogs := by
  rw [sliceLast, if_neg (by omega), List.length_drop]
  omega

/-- **The console keeps the last rows** of all messages, in the order of arrival. -/
theorem foldl_consoleMessage (h : 0 < maxLogs) (messages : List Bytes) {buffer : List α}
    (hbuffer : buffer.length ≤ maxLogs) :
    messages.foldl (consoleMessage maxLogs parse) buffer =
      sliceLast maxLogs (buffer ++ (messages.filterMap parse).flatMap List.reverse) := by
  induction messages generalizing buffer with
  | nil => simp [sliceLast_of_le hbuffer]
  | cons data messages ih =>
    rw [List.foldl_cons, List.filterMap_cons]
    cases hparse : parse data with
    | none =>
      have hsame : consoleMessage maxLogs parse buffer data = buffer := by
        rw [consoleMessage, hparse]
      rw [hsame]
      exact ih hbuffer
    | some incoming =>
      have hnext : consoleMessage maxLogs parse buffer data =
          sliceLast maxLogs (buffer ++ incoming.reverse) := by
        rw [consoleMessage, hparse]
        dsimp only
        split
        · rfl
        · next hnone =>
          have hnil : incoming = [] := List.length_eq_zero_iff.mp (by omega)
          rw [hnil, List.reverse_nil, List.append_nil, sliceLast_of_le hbuffer]
      rw [hnext, ih (length_sliceLast_le h _), sliceLast_append, List.flatMap_cons,
        List.append_assoc]

end

theorem sliceLast_map {α β : Type} (f : α → β) (n : ℕ) (l : List α) :
    sliceLast n (l.map f) = (sliceLast n l).map f := by
  unfold sliceLast
  split
  · rfl
  · rw [List.length_map, List.map_drop]

theorem sliceLast_sublist {α : Type} (n : ℕ) (l : List α) : (sliceLast n l).Sublist l := by
  unfold sliceLast
  split
  · exact .refl _
  · exact List.drop_sublist _ _

/-- Messages that parse. -/
theorem filterMap_parse {α β : Type} {text : List β → Bytes} {parse : Bytes → Option (List α)}
    {view : β → α} {events : List (List β)}
    (h : ∀ rows ∈ events, parse (text rows) = some (rows.map view)) :
    ((events.map text).filterMap parse).flatMap List.reverse =
      (events.flatMap List.reverse).map view := by
  induction events with
  | nil => rfl
  | cons rows events ih =>
    rw [List.forall_mem_cons] at h
    rw [List.map_cons, List.filterMap_cons, h.1, List.flatMap_cons, List.flatMap_cons,
      List.map_append, ih h.2, List.map_reverse]

/-- **The console shows the last rows sent since it was cleared, each once**; `k` messages
came before that. -/
theorem live_console_tail (hP : ∀ x, ControlFree (P.floatText x)) (hid : cat.HasRowId)
    {seen : List (Feed × SseAction)} (hrun : Run (StreamStep P render cat o) .start seen s)
    (hlive : s.observed.sub.stage ≠ .ended) {chunks : List Bytes}
    (hchunks : chunks.flatten = s.wire) {α : Type} {parse : Bytes → Option (List α)}
    {view : LogRow → α} (hparse : ∀ rows ∈ s.observed.sub.sent,
      parse (messageText P render rows) = some (rows.map view))
    {maxLogs : ℕ} (hmax : 0 < maxLogs) (k : ℕ) :
    ∃ shown : List LogRow, shown = (s.observed.sub.sent.drop k).flatMap List.reverse ∧
      ((chunks.foldl Reader.read (.idle [])).messages.drop k).foldl
        (consoleMessage maxLogs parse) [] = (sliceLast maxLogs shown).map view ∧
      ((sliceLast maxLogs shown).map (·.id)).Nodup := by
  have hinv := streamInv_of_run hP hid hrun
  refine ⟨_, rfl, ?_, ?_⟩
  · rw [read_flatten, hchunks, hinv.live hlive]
    show ((s.observed.sub.sent.map (messageText P render)).drop k).foldl _ [] = _
    rw [foldl_consoleMessage hmax _ (by simp), List.nil_append, ← List.map_drop,
      filterMap_parse fun rows hrows => hparse rows (List.mem_of_mem_drop hrows), sliceLast_map]
  · -- the rows shown are among those sent, in another order
    have hperm : ((s.observed.sub.sent.drop k).flatMap List.reverse).Perm
        (s.observed.sub.sent.drop k).flatten := by
      rw [← List.flatMap_id]
      exact List.Perm.flatMap_left _ fun rows _ => List.reverse_perm rows
    have hnodup : ((s.observed.sub.sent.drop k).flatten.map (·.id)).Nodup :=
      hinv.forward.series.nodup.sublist
        ((List.Sublist.flatten (List.drop_sublist k _)).map _)
    exact ((hperm.map _).nodup_iff.mpr hnodup).sublist ((sliceLast_sublist _ _).map _)

end

/-- A step that writes nothing. -/
theorem ObservedStep.quiet {P : Platform} {render : LogRow → Json} {cat : DatabaseCatalog}
    {o : SseOptions} {s t : Observed} {seen : Feed × SseAction} {wire : Bytes}
    (h : ObservedStep cat o s seen t) (hputs : s.sub.Puts P render seen.2 []) :
    StreamStep P render cat o ⟨s, wire⟩ seen ⟨t, wire⟩ :=
  ⟨h, [], hputs, (List.append_nil wire).symm⟩

/-- The steps of an event, and what they put on the wire. -/
theorem stream_event {P : Platform} {render : LogRow → Json} {cat : DatabaseCatalog}
    {o : SseOptions} {b : Subscriber} {windows : List (ℤ × ℤ)} {feed feed' : Feed}
    {page : List LogRow} {wire : Bytes} (hfeed : feed.Sane) (hfeed' : feed'.Sane)
    (hstage : b.stage = .waiting) (hlt : b.pushedId < feed.lastId)
    (hdeb : ¬ Debounced o b feed.clock)
    (hcount : countRows cat feed.db.colDict (idWindow b.pushedId feed.lastId) feed.rows ≠ 0)
    (hpage : IsWindowPage cat o feed b feed.lastId page) (hne : page ≠ []) :
    Run (StreamStep P render cat o) ⟨⟨b, windows⟩, wire⟩
      [(feed, .wake), (feed, .count), (feed, .select), (feed', .write)]
      ⟨⟨b.push feed.lastId feed.clock page, windows ++ [(b.pushedId, feed.lastId)]⟩,
        wire ++ eventText P (page.map render)⟩ := by
  obtain ⟨hwake, hcounted, hselected, hwritten⟩ :=
    event_steps hfeed hfeed' hstage hlt hdeb hcount hpage hne
  exact .cons (hwake.quiet rfl) <| .cons (hcounted.quiet rfl) <| .cons (hselected.quiet rfl) <|
    .single ⟨hwritten, _, rfl, rfl⟩

/-- A row whose text would end an event and begin another one. -/
def brokenRow : LogRow := stampRow 1 "2026\r\n\r\ndata: [7]\n\n"

/-- The row after it. -/
def plainRow : LogRow := stampRow 2 "2026"

/-- What the loop sees while the first row comes, and then the second one. -/
def brokenFeed : Feed := ⟨stampDb [brokenRow], 1, 1000⟩

def plainFeed : Feed := ⟨stampDb [brokenRow, plainRow], 2, 3000⟩

/-- The state after two events. -/
def twoEvents : Streamed where
  observed := ⟨⟨.waiting, 0, 2, 3000, 3000, [[brokenRow], [plainRow]]⟩, [(0, 1), (1, 2)]⟩
  wire := eventText stampCatalog.platform [brokenRow.source] ++
    eventText stampCatalog.platform [plainRow.source]

/-- What the loop sees on the way. -/
def twoEventsSeen : List (Feed × SseAction) :=
  (⟨stampDb [], 0, 1000⟩, .subscribe) :: [(brokenFeed, .wake), (brokenFeed, .count),
    (brokenFeed, .select), (brokenFeed, .write)] ++
    [(plainFeed, .wake), (plainFeed, .count), (plainFeed, .select), (plainFeed, .write)]

theorem twoEvents_run :
    Run (StreamStep stampCatalog.platform LogRow.source stampCatalog oneRow) .start twoEventsSeen
      twoEvents := by
  have hempty : Feed.Sane ⟨stampDb [], 0, 1000⟩ := ⟨nofun, .nil, (by decide : fitsInt64 0 = true)⟩
  have hsane : ∀ feed ∈ [brokenFeed, plainFeed], feed.Sane := by
    intro feed hfeed
    simp only [List.mem_cons, List.not_mem_nil, or_false] at hfeed
    rcases hfeed with rfl | rfl <;> exact ⟨by decide, by decide, by decide⟩
  have hbroken := hsane brokenFeed List.mem_cons_self
  have hplain := hsane plainFeed (List.mem_cons_of_mem _ (List.mem_singleton_self _))
  have hsubscribe : ObservedStep stampCatalog oneRow .start (⟨stampDb [], 0, 1000⟩, .subscribe)
      ⟨.subscribed ⟨stampDb [], 0, 1000⟩, []⟩ := ⟨hempty, .subscribe rfl, rfl⟩
  have hfirst : Run (StreamStep stampCatalog.platform LogRow.source stampCatalog oneRow)
      ⟨⟨.subscribed ⟨stampDb [], 0, 1000⟩, []⟩, []⟩ _ _ :=
    stream_event hbroken hbroken rfl Int.zero_lt_one (fun hdeb => hdeb.1 rfl) (by decide)
      ⟨⟨_, rfl⟩, _, [brokenRow], rfl, .refl _, .cons nofun .nil, rfl⟩ (List.cons_ne_nil _ _)
  have hsecond : Run (StreamStep stampCatalog.platform LogRow.source stampCatalog oneRow)
      ⟨⟨⟨.waiting, 0, 1, 1000, 1000, [[brokenRow]]⟩, [(0, 1)]⟩,
        eventText stampCatalog.platform [brokenRow.source]⟩ _ twoEvents :=
    stream_event hplain hplain rfl (by decide) (by unfold Debounced; decide) (by decide)
      ⟨⟨_, rfl⟩, _, [plainRow], rfl, .refl _, .cons nofun .nil, rfl⟩ (List.cons_ne_nil _ _)
  exact .cons (hsubscribe.quiet rfl) (hfirst.append hsecond)

theorem floatText_plain (x : Real64) : ControlFree (stampCatalog.platform.floatText x) :=
  controlFree_of_all (s := lit "0.0") (by decide)

/-- The bytes are cut within the first event and within the line break at its end. -/
theorem sse_stream_exact_two : ∃ cut : List Bytes, cut.length ≤ 1 ∧
    (twoEvents.observed.sub.stage ≠ .ended → cut = []) ∧
    ([twoEvents.wire.take 30, (twoEvents.wire.drop 30).take 36, twoEvents.wire.drop 66].foldl
      Reader.read (.idle [])).messages =
        twoEvents.observed.sub.sent.map (messageText stampCatalog.platform LogRow.source) ++ cut :=
  sse_stream_exact floatText_plain stampCatalog_hasRowId twoEvents_run (by decide)

/-- What the console makes of the messages. -/
def parseTwo (data : Bytes) : Option (List ℤ) :=
  if data = messageText stampCatalog.platform LogRow.source [brokenRow] then some [1]
  else if data = messageText stampCatalog.platform LogRow.source [plainRow] then some [2]
  else none

/-- A console with room for one row shows the second one. -/
theorem live_console_tail_two : ∃ shown : List LogRow,
    shown = (twoEvents.observed.sub.sent.drop 0).flatMap List.reverse ∧
      (([twoEvents.wire].foldl Reader.read (.idle [])).messages.drop 0).foldl
        (consoleMessage 1 parseTwo) [] = (sliceLast 1 shown).map LogRow.id ∧
      ((sliceLast 1 shown).map (·.id)).Nodup := by
  refine live_console_tail floatText_plain stampCatalog_hasRowId twoEvents_run nofun (by simp) ?_
    Nat.one_pos 0
  intro rows hrows
  have hrows : rows ∈ [[brokenRow], [plainRow]] := hrows
  simp only [List.mem_cons, List.not_mem_nil, or_false] at hrows
  rcases hrows with rfl | rfl
  · exact if_pos rfl
  · exact (if_neg (by decide)).trans (if_pos rfl)

end LogLite
