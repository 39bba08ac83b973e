import Mathlib.Data.List.Basic
import Mathlib.Data.List.Infix
import Mathlib.Tactic.Common

/-!
# Event streams

The client of a stream of server-sent events reads it line by line: a line ends with a
carriage return, a line feed, or both; a line has a field and a value, and the values of
the `data` lines are gathered until a blank line dispatches them as a message.  A line
that begins with a colon has the empty field, and is a comment.

The reader takes its bytes one by one, so it does not matter how they were cut.  Fields
other than `data` are skipped.

## Main definitions

* `Reader`, `Reader.read` — the reader, and what it makes of some bytes.
* `Reader.idle` — a reader between two messages.

## Main results

* `read_flatten` — how the stream was cut does not matter.
* `read_data`, `read_comment` — a message of one line, and a comment.
* `messages_of_prefix` — a part of a message.
-/

namespace EventStream

/-- A byte string. -/
abbrev Text := List UInt8

/-- The client: the line that is not complete yet, whether the last byte was a carriage
return, the data buffer, and the messages dispatched so far. -/
structure Reader where
  line : Text
  afterCr : Bool
  data : Text
  messages : List Text
  deriving DecidableEq

/-- A reader between two messages. -/
def Reader.idle (messages : List Text) : Reader := ⟨[], false, [], messages⟩

/-- The bytes of `data`. -/
def dataField : Text := [100, 97, 116, 97]

/-- The field of a line, and its value without one leading space. -/
def fieldOf (line : Text) : Text × Text :=
  let value := (line.dropWhile (· != 58)).tail
  (line.takeWhile (· != 58), if value.head? = some 32 then value.tail else value)

/-- The end of a line; a blank one dispatches what has been gathered. -/
def Reader.endLine (r : Reader) : Reader :=
  if r.line = [] then
    { r with
      data := []
      messages := if r.data = [] then r.messages else r.messages ++ [r.data.dropLast] }
  else
    { r with
      line := []
      data := if (fieldOf r.line).1 = dataField then r.data ++ (fieldOf r.line).2 ++ [10]
        else r.data }

/-- One byte. -/
def Reader.byte (r : Reader) (b : UInt8) : Reader :=
  if b = 10 then
    -- a line feed after a carriage return belongs to it
    if r.afterCr then { r with afterCr := false } else r.endLine
  else if b = 13 then { r.endLine with afterCr := true }
  else { r with line := r.line ++ [b], afterCr := false }

/-- Some bytes. -/
def Reader.read (r : Reader) (bytes : Text) : Reader := bytes.foldl Reader.byte r

theorem read_append (r : Reader) (bytes bytes' : Text) :
    r.read (bytes ++ bytes') = (r.read bytes).read bytes' := List.foldl_append

/-- **How the stream was cut does not matter.** -/
theorem read_flatten (r : Reader) (chunks : List Text) :
    chunks.foldl Reader.read r = r.read chunks.flatten := by
  induction chunks generalizing r with
  | nil => rfl
  | cons bytes chunks ih => rw [List.foldl_cons, ih, List.flatten_cons, read_append]

/-! ### Lines -/

/-- Bytes that end no line. -/
def OneLine (s : Text) : Prop := 10 ∉ s ∧ 13 ∉ s

theorem OneLine.append {s t : Text} (h : OneLine s) (h' : OneLine t) : OneLine (s ++ t) := by
  simp [OneLine, h.1, h.2, h'.1, h'.2]

/-- A part of a line. -/
theorem read_oneLine {s : Text} (h : OneLine s) (line data : Text) (messages : List Text) :
    Reader.read ⟨line, false, data, messages⟩ s = ⟨line ++ s, false, data, messages⟩ := by
  induction s generalizing line with
  | nil => rw [List.append_nil]; rfl
  | cons b s ih =>
    obtain ⟨hlf, hcr⟩ := h
    rw [List.mem_cons, not_or] at hlf hcr
    have hbyte : Reader.byte ⟨line, false, data, messages⟩ b =
        ⟨line ++ [b], false, data, messages⟩ := by
      simp [Reader.byte, Ne.symm hlf.1, Ne.symm hcr.1]
    show Reader.read (Reader.byte ⟨line, false, data, messages⟩ b) s = _
    rw [hbyte, ih ⟨hlf.2, hcr.2⟩, List.append_assoc, List.singleton_append]

/-- The field of a `data` line, and its value. -/
theorem fieldOf_data (value : Text) :
    fieldOf (dataField ++ [58, 32] ++ value) = (dataField, value) := rfl

/-- **A message of one line is read as it was written.** -/
theorem read_data {value : Text} (h : OneLine value) (messages : List Text) :
    (Reader.idle messages).read (dataField ++ [58, 32] ++ value ++ [13, 10, 13, 10]) =
      .idle (messages ++ [value]) := by
  have hline : OneLine (dataField ++ [58, 32] ++ value) := OneLine.append ⟨by decide, by decide⟩ h
  have hend : Reader.read ⟨dataField ++ [58, 32] ++ value, false, [], messages⟩ [13, 10, 13, 10] =
      .idle (messages ++ [value]) := by
    have hfield : (Reader.mk (dataField ++ [58, 32] ++ value) false [] messages).endLine =
        ⟨[], false, value ++ [10], messages⟩ := by
      rw [Reader.endLine, if_neg (by simp [dataField]), fieldOf_data, if_pos rfl, List.nil_append]
    simp only [Reader.read, List.foldl_cons, List.foldl_nil, Reader.byte, hfield]
    simp [Reader.endLine, Reader.idle]
  have hstart : (Reader.idle messages).read (dataField ++ [58, 32] ++ value) =
      ⟨dataField ++ [58, 32] ++ value, false, [], messages⟩ := read_oneLine hline [] [] messages
  rw [read_append, hstart, hend]

/-- A comment is skipped. -/
theorem read_comment (messages : List Text) :
    (Reader.idle messages).read [58, 13, 10, 13, 10] = .idle messages := by
  simp [Reader.read, Reader.byte, Reader.endLine, Reader.idle, fieldOf, dataField]

/-! ### Parts of a message -/

theorem endLine_messages (r : Reader) : r.messages <+: r.endLine.messages := by
  unfold Reader.endLine
  split
  · dsimp only
    split
    · exact List.prefix_refl _
    · exact List.prefix_append _ _
  · exact List.prefix_refl _

/-- A byte takes back no message. -/
theorem byte_messages (r : Reader) (b : UInt8) : r.messages <+: (r.byte b).messages := by
  unfold Reader.byte
  split
  · split
    · exact List.prefix_refl _
    · exact endLine_messages r
  · split
    · exact endLine_messages r
    · exact List.prefix_refl _

/-- **What has been read is not taken back.** -/
theorem read_messages (r : Reader) (bytes : Text) : r.messages <+: (r.read bytes).messages := by
  induction bytes generalizing r with
  | nil => exact List.prefix_refl _
  | cons b bytes ih => exact (byte_messages r b).trans (ih (r.byte b))

/-- **A part of what would be read as one more message is read as it, or as nothing.** -/
theorem messages_of_prefix {r : Reader} {part whole : Text} {value : Text}
    (hpart : part <+: whole) (hwhole : (r.read whole).messages = r.messages ++ [value]) :
    (r.read part).messages = r.messages ∨ (r.read part).messages = r.messages ++ [value] := by
  obtain ⟨rest, rfl⟩ := hpart
  rw [read_append] at hwhole
  have hle := hwhole ▸ read_messages (r.read part) rest
  obtain ⟨more, hmore⟩ := read_messages r part
  rw [← hmore] at hle ⊢
  rw [List.prefix_append_right_inj] at hle
  cases more with
  | nil => exact .inl (List.append_nil _)
  | cons m more =>
    right
    obtain ⟨rest', hrest⟩ := hle
    rw [List.cons_append] at hrest
    obtain ⟨rfl, hnil⟩ := List.cons.inj hrest
    rw [(List.append_eq_nil_iff.mp hnil).1]

end EventStream
