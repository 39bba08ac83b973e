import LogLite.Lib.Run
import Mathlib.Data.List.Basic
import Mathlib.Logic.Function.Basic

/-!
# Tailing a file

`FileHarvester::run` follows a path: it opens the file it finds there, reads it to
its end again and again, and after each read looks at the path to see whether the
file was rotated or truncated.  The path is looked at twice, for its identity and
for its size, while the bytes come from the stream opened before; the writer may
act between any two of these calls.

The system is a transition relation whose steps are the filesystem calls of the
harvester and the actions of the writer, which appends to files, renames the
tailed file away and creates files.  A file is its identity and its size; what has
been read of it is recorded as the list of the offsets of the consumed bytes.

## Main definitions

* `FileSystem`, `Stage`, `TailState` — the files, the point the harvester is at.
* `TailStep` — one call or one action.
* `Contiguous` — the offsets consumed from each file form a range.
* `SizeCheckSound` — the size check does not take a new file for the opened one.

## Main results

* `TailInv.step` — what every step keeps while the size checks are sound.
* `tail_contiguous` — **no byte is consumed twice while the size checks are sound,
  and the first one that is not makes the next read start over.**
-/

namespace LogLite

open Transition

/-- `FileIdentity`. -/
structure FileIdentity where
  a : UInt64
  b : UInt64
  c : UInt64
  deriving DecidableEq

/-- The files: which one is at the path, how long they are, and which identities
have been in use. -/
structure FileSystem where
  path : Option FileIdentity
  size : FileIdentity → ℕ
  used : FileIdentity → Prop
  path_used : ∀ id, path = some id → used id

/-- The options of the harvester that matter here. -/
structure TailOptions where
  readBufferSize : ℕ
  startAtEnd : Bool
  readBufferSize_pos : 0 < readBufferSize

/-- `OpenFile`: the file the stream reads, the identity recorded for it, and the
offset. -/
structure OpenFile where
  stream : FileIdentity
  identity : FileIdentity
  offset : ℕ

/-- Where the worker thread is. -/
inductive Stage where
  /-- At the top of the loop, without an open file. -/
  | top
  /-- In `open_file`, after the first look at the identity. -/
  | opening (before : FileIdentity)
  /-- In `open_file`, after the stream was opened. -/
  | opened (before stream : FileIdentity)
  /-- In `open_file`, before `file_size`, to start at the end. -/
  | measuring (identity stream : FileIdentity)
  /-- In `read_available`. -/
  | reading (file : OpenFile)
  /-- Before the identity check. -/
  | comparing (file : OpenFile)
  /-- Before the size check. -/
  | sizing (file : OpenFile)
  /-- In `drain_for_grace_period`. -/
  | draining (file : OpenFile)
  /-- The loop has ended. -/
  | ended

/-- The state of the system; `consumed` records what was passed to
`consume_bytes`. -/
structure TailState where
  fs : FileSystem
  stage : Stage
  firstOpen : Bool
  consumed : FileIdentity → List ℕ

/-- An action of the writer or a call of the harvester. -/
inductive TailAction where
  | append (id : FileIdentity) (n : ℕ)
  | rename
  | create (id : FileIdentity)
  | stat
  | openStream
  | fileSize
  | read
  | close
  | stop

/-! ### The files -/

/-- More bytes at the end of a file. -/
def FileSystem.append (fs : FileSystem) (id : FileIdentity) (n : ℕ) : FileSystem :=
  { fs with size := Function.update fs.size id (fs.size id + n) }

/-- The file at the path is renamed away. -/
def FileSystem.rename (fs : FileSystem) : FileSystem where
  path := none
  size := fs.size
  used := fs.used
  path_used := by simp

/-- A new, empty file at the path. -/
def FileSystem.create (fs : FileSystem) (id : FileIdentity) : FileSystem where
  path := some id
  size := Function.update fs.size id 0
  used := fun id' => id' = id ∨ fs.used id'
  path_used := by
    intro id' h
    exact .inl (Option.some.inj h).symm

/-! ### Reading -/

/-- How many bytes one `read` gets. -/
def readCount (o : TailOptions) (fs : FileSystem) (f : OpenFile) : ℕ :=
  min o.readBufferSize (fs.size f.stream - f.offset)

/-- The file after one `read`. -/
def OpenFile.advance (f : OpenFile) (n : ℕ) : OpenFile := { f with offset := f.offset + n }

/-- The offsets of `n` more bytes of a file are recorded. -/
def TailState.consume (s : TailState) (f : OpenFile) (n : ℕ) (stage : Stage) : TailState :=
  { s with
    stage := stage
    consumed := Function.update s.consumed f.stream
      (s.consumed f.stream ++ List.range' f.offset n) }

/-- The file that was opened, at the end or at the beginning. -/
def TailState.opened (s : TailState) (stream identity : FileIdentity) (offset : ℕ) : TailState :=
  { s with stage := .reading ⟨stream, identity, offset⟩, firstOpen := false }

/-- The harvester moves on. -/
abbrev TailState.goto (s : TailState) (stage : Stage) : TailState := { s with stage := stage }

/-- One action of the writer, or one call of the harvester and what it does next. -/
inductive TailStep (o : TailOptions) : TailState → TailAction → TailState → Prop
  | append {s : TailState} {id : FileIdentity} (n : ℕ) : s.fs.used id →
      TailStep o s (.append id n) { s with fs := s.fs.append id n }
  | rename {s : TailState} {id : FileIdentity} : s.fs.path = some id →
      TailStep o s .rename { s with fs := s.fs.rename }
  | create {s : TailState} {id : FileIdentity} : s.fs.path = none → ¬ s.fs.used id →
      TailStep o s (.create id) { s with fs := s.fs.create id }
  -- `open_file`
  | statBeforeMissing {s : TailState} : s.stage = .top → s.fs.path = none →
      TailStep o s .stat s
  | statBefore {s : TailState} {id : FileIdentity} : s.stage = .top → s.fs.path = some id →
      TailStep o s .stat (s.goto (.opening id))
  | openFails {s : TailState} {before : FileIdentity} : s.stage = .opening before →
      s.fs.path = none → TailStep o s .openStream (s.goto .top)
  | openStream {s : TailState} {before id : FileIdentity} : s.stage = .opening before →
      s.fs.path = some id → TailStep o s .openStream (s.goto (.opened before id))
  | statAfterMissing {s : TailState} {before stream : FileIdentity} :
      s.stage = .opened before stream → s.fs.path = none →
        TailStep o s .stat (s.goto .top)
  | statAfterChanged {s : TailState} {before stream id : FileIdentity} :
      s.stage = .opened before stream → s.fs.path = some id → before ≠ id →
        TailStep o s .stat (s.goto .top)
  | statAfterAtEnd {s : TailState} {before stream : FileIdentity} :
      s.stage = .opened before stream → s.fs.path = some before →
        (s.firstOpen && o.startAtEnd) = true →
          TailStep o s .stat (s.goto (.measuring before stream))
  | statAfter {s : TailState} {before stream : FileIdentity} :
      s.stage = .opened before stream → s.fs.path = some before →
        (s.firstOpen && o.startAtEnd) = false →
          TailStep o s .stat (s.opened stream before 0)
  | measureMissing {s : TailState} {identity stream : FileIdentity} :
      s.stage = .measuring identity stream → s.fs.path = none →
        TailStep o s .fileSize (s.goto .top)
  | measure {s : TailState} {identity stream id : FileIdentity} :
      s.stage = .measuring identity stream → s.fs.path = some id →
        TailStep o s .fileSize (s.opened stream identity (s.fs.size id))
  -- `read_available`: a full buffer is followed by another read
  | readFull {s : TailState} {f : OpenFile} : s.stage = .reading f →
      readCount o s.fs f = o.readBufferSize →
        TailStep o s .read (s.consume f (readCount o s.fs f)
          (.reading (f.advance (readCount o s.fs f))))
  | readLast {s : TailState} {f : OpenFile} : s.stage = .reading f →
      readCount o s.fs f < o.readBufferSize →
        TailStep o s .read (s.consume f (readCount o s.fs f)
          (.comparing (f.advance (readCount o s.fs f))))
  -- the identity check
  | identityMissing {s : TailState} {f : OpenFile} : s.stage = .comparing f →
      s.fs.path = none → TailStep o s .stat (s.goto (.draining f))
  | identityChanged {s : TailState} {f : OpenFile} {id : FileIdentity} :
      s.stage = .comparing f → s.fs.path = some id → id ≠ f.identity →
        TailStep o s .stat (s.goto (.draining f))
  | identitySame {s : TailState} {f : OpenFile} : s.stage = .comparing f →
      s.fs.path = some f.identity → TailStep o s .stat (s.goto (.sizing f))
  -- the size check
  | sizeMissing {s : TailState} {f : OpenFile} : s.stage = .sizing f →
      s.fs.path = none → TailStep o s .fileSize (s.goto (.reading f))
  | sizeKept {s : TailState} {f : OpenFile} {id : FileIdentity} : s.stage = .sizing f →
      s.fs.path = some id → f.offset ≤ s.fs.size id →
        TailStep o s .fileSize (s.goto (.reading f))
  | sizeReset {s : TailState} {f : OpenFile} {id : FileIdentity} : s.stage = .sizing f →
      s.fs.path = some id → s.fs.size id < f.offset →
        TailStep o s .fileSize (s.goto (.reading { f with offset := 0 }))
  -- the grace period after a rotation, of any length
  | drain {s : TailState} {f : OpenFile} : s.stage = .draining f →
      TailStep o s .read (s.consume f (readCount o s.fs f)
        (.draining (f.advance (readCount o s.fs f))))
  | drainDone {s : TailState} {f : OpenFile} : s.stage = .draining f →
      TailStep o s .close (s.goto .top)
  -- the stop token is looked at between the calls of the loop
  | stop {s : TailState} : (s.stage = .top ∨ (∃ f, s.stage = .reading f) ∨
      (∃ f, s.stage = .comparing f)) → TailStep o s .stop (s.goto .ended)

/-- The worker thread before its first iteration. -/
def TailState.start (fs : FileSystem) : TailState := ⟨fs, .top, true, fun _ => []⟩

/-- What has been consumed of each file is a range of it, in order: no byte twice,
none left out. -/
def Contiguous (s : TailState) : Prop := ∀ id, ∃ a n, s.consumed id = List.range' a n

/-- The size check looks at the opened file, or finds a file that is long enough,
or nothing has been consumed of the opened file yet. -/
def SizeCheckSound (s : TailState) (act : TailAction) : Prop :=
  ∀ f id, act = .fileSize → s.stage = .sizing f → s.fs.path = some id →
    id = f.stream ∨ f.offset ≤ s.fs.size id ∨ s.consumed f.stream = []

/-! ### The invariant -/

/-- A file that has left the path; it does not come back. -/
def FileSystem.Gone (fs : FileSystem) (id : FileIdentity) : Prop :=
  fs.used id ∧ fs.path ≠ some id

/-- The file whose stream is open. -/
def Stage.held : Stage → Option FileIdentity
  | .reading f => some f.stream
  | .comparing f => some f.stream
  | .sizing f => some f.stream
  | .draining f => some f.stream
  | _ => none

/-- What has been consumed of the open file ends at its offset. -/
structure FileInv (fs : FileSystem) (consumed : FileIdentity → List ℕ) (f : OpenFile) : Prop where
  used : fs.used f.stream
  identity : f.identity = f.stream
  consumed : consumed f.stream = [] ∨
    ∃ a n, consumed f.stream = List.range' a n ∧ f.offset = a + n ∧ f.offset ≤ fs.size f.stream

/-- What holds at each point of the loop. -/
def StageInv (fs : FileSystem) (consumed : FileIdentity → List ℕ) : Stage → Prop
  | .top => True
  | .opening before => fs.used before
  | .opened before stream =>
    fs.used stream ∧ consumed stream = [] ∧ (stream = before ∨ fs.Gone before)
  | .measuring identity stream => fs.used stream ∧ consumed stream = [] ∧ identity = stream
  | .reading f => FileInv fs consumed f
  | .comparing f => FileInv fs consumed f
  | .sizing f => FileInv fs consumed f
  | .draining f => FileInv fs consumed f ∧ fs.Gone f.stream
  | .ended => True

/-- The invariant of the system. -/
structure TailInv (s : TailState) : Prop where
  contiguous : Contiguous s
  unused : ∀ id, ¬ s.fs.used id → s.consumed id = []
  clean : s.stage ≠ .ended → ∀ id, s.fs.path = some id → s.stage.held ≠ some id →
    s.consumed id = []
  stage : StageInv s.fs s.consumed s.stage

/-- What the writer can do to the files. -/
structure FileSystem.Evolves (fs fs' : FileSystem) : Prop where
  used : ∀ id, fs.used id → fs'.used id
  size : ∀ id, fs.used id → fs.size id ≤ fs'.size id
  path : ∀ id, fs'.path = some id → fs.path = some id ∨ ¬ fs.used id

theorem FileSystem.evolves_append (fs : FileSystem) (id : FileIdentity) (n : ℕ) :
    fs.Evolves (fs.append id n) where
  used := fun _ h => h
  size := by
    intro id' _
    by_cases h : id' = id
    · subst h
      simp [FileSystem.append]
    · simp [FileSystem.append, h]
  path := fun _ h => .inl h

theorem FileSystem.evolves_rename (fs : FileSystem) : fs.Evolves fs.rename where
  used := fun _ h => h
  size := fun _ _ => Nat.le_refl _
  path := by simp [FileSystem.rename]

theorem FileSystem.evolves_create {fs : FileSystem} {id : FileIdentity} (h : ¬ fs.used id) :
    fs.Evolves (fs.create id) where
  used := fun _ h => .inr h
  size := by
    intro id' hused
    have hne : id' ≠ id := fun heq => h (heq ▸ hused)
    simp [FileSystem.create, hne]
  path := by
    intro id' hpath
    obtain rfl : id = id' := Option.some.inj hpath
    exact .inr h

theorem FileSystem.Gone.evolves {fs fs' : FileSystem} {id : FileIdentity} (h : fs.Gone id)
    (he : fs.Evolves fs') : fs'.Gone id := by
  refine ⟨he.used id h.1, fun hpath => ?_⟩
  rcases he.path id hpath with hold | hnew
  · exact h.2 hold
  · exact hnew h.1

section
variable {fs fs' : FileSystem} {consumed : FileIdentity → List ℕ} {f : OpenFile}

theorem FileInv.evolves (h : FileInv fs consumed f) (he : fs.Evolves fs') :
    FileInv fs' consumed f where
  used := he.used _ h.used
  identity := h.identity
  consumed := by
    rcases h.consumed with hnil | ⟨a, n, hrange, hoff, hle⟩
    · exact .inl hnil
    · have hsize := he.size _ h.used
      exact .inr ⟨a, n, hrange, hoff, by omega⟩

theorem StageInv.evolves {stage : Stage} (h : StageInv fs consumed stage) (he : fs.Evolves fs') :
    StageInv fs' consumed stage := by
  cases stage with
  | top => trivial
  | opening before => exact he.used before h
  | opened before stream =>
    exact ⟨he.used stream h.1, h.2.1, h.2.2.imp_right fun hgone => hgone.evolves he⟩
  | measuring identity stream => exact ⟨he.used stream h.1, h.2⟩
  | reading f => exact FileInv.evolves h he
  | comparing f => exact FileInv.evolves h he
  | sizing f => exact FileInv.evolves h he
  | draining f => exact ⟨h.1.evolves he, h.2.evolves he⟩
  | ended => trivial

/-- Consuming what one `read` gets keeps the range a range. -/
theorem FileInv.consume (o : TailOptions) (h : FileInv fs consumed f) :
    FileInv fs (Function.update consumed f.stream
      (consumed f.stream ++ List.range' f.offset (readCount o fs f)))
        (f.advance (readCount o fs f)) where
  used := h.used
  identity := h.identity
  consumed := by
    have hn : readCount o fs f ≤ fs.size f.stream - f.offset := Nat.min_le_right _ _
    simp only [OpenFile.advance, Function.update_self]
    rcases h.consumed with hnil | ⟨a, k, hrange, hoff, hle⟩
    · rcases Nat.eq_zero_or_pos (readCount o fs f) with h0 | hpos
      · left
        rw [hnil, h0]
        rfl
      · right
        exact ⟨f.offset, readCount o fs f, by rw [hnil, List.nil_append], rfl, by omega⟩
    · right
      refine ⟨a, k + readCount o fs f, ?_, by omega, by omega⟩
      rw [hrange, hoff, List.range'_append_1]

end

/-- The writer keeps the invariant. -/
theorem TailInv.evolves {s : TailState} {fs' : FileSystem} (h : TailInv s)
    (he : s.fs.Evolves fs') : TailInv { s with fs := fs' } where
  contiguous := h.contiguous
  unused := fun id hid => h.unused id fun hused => hid (he.used id hused)
  clean := by
    intro hstage id hpath hheld
    rcases he.path id hpath with hold | hnew
    · exact h.clean hstage id hold hheld
    · exact h.unused id hnew
  stage := h.stage.evolves he

/-- Moving on without consuming anything; an open file that is let go of has left
the path. -/
theorem TailInv.goto {s : TailState} (h : TailInv s) (next : Stage) (first : Bool)
    (hstage : s.stage ≠ .ended)
    (hheld : ∀ id, s.fs.path = some id → next.held ≠ some id → s.stage.held ≠ some id)
    (hnext : StageInv s.fs s.consumed next) :
    TailInv { s with stage := next, firstOpen := first } where
  contiguous := h.contiguous
  unused := h.unused
  clean := fun _ id hpath hne => h.clean hstage id hpath (hheld id hpath hne)
  stage := hnext

/-- Moving on while no file is open. -/
theorem TailInv.goto_free {s : TailState} (h : TailInv s) (next : Stage) (first : Bool)
    (hstage : s.stage ≠ .ended) (hfree : s.stage.held = none)
    (hnext : StageInv s.fs s.consumed next) :
    TailInv { s with stage := next, firstOpen := first } := by
  refine h.goto next first hstage ?_ hnext
  intro id _ _
  rw [hfree]
  exact (Option.some_ne_none id).symm

/-- Moving on with the open file. -/
theorem TailInv.goto_held {s : TailState} (h : TailInv s) (next : Stage)
    (hstage : s.stage ≠ .ended) (hsame : next.held = s.stage.held)
    (hnext : StageInv s.fs s.consumed next) :
    TailInv (s.goto next) := by
  refine h.goto next s.firstOpen hstage ?_ hnext
  intro id _ hne
  rw [← hsame]
  exact hne

/-- Reading keeps the invariant. -/
theorem TailInv.consume {o : TailOptions} {s : TailState} {f : OpenFile} (h : TailInv s)
    (hf : FileInv s.fs s.consumed f) (hheld : s.stage.held = some f.stream) {next : Stage}
    (hnext : next.held = some f.stream)
    (hstage : StageInv s.fs (s.consume f (readCount o s.fs f) next).consumed next) :
    TailInv (s.consume f (readCount o s.fs f) next) where
  contiguous := by
    intro id
    by_cases hid : id = f.stream
    · subst hid
      rcases (hf.consume o).consumed with hnil | ⟨a, n, hrange, -⟩
      · exact ⟨0, 0, hnil⟩
      · exact ⟨a, n, hrange⟩
    · obtain ⟨a, n, hrange⟩ := h.contiguous id
      exact ⟨a, n, (Function.update_of_ne hid _ _).trans hrange⟩
  unused := by
    intro id hid
    have hne : id ≠ f.stream := fun heq => hid (heq ▸ hf.used)
    exact (Function.update_of_ne hne _ _).trans (h.unused id hid)
  clean := by
    intro _ id hpath hne
    have hne' : id ≠ f.stream := fun heq => hne (heq ▸ hnext)
    have hended : s.stage ≠ .ended := by
      intro hended
      rw [hended] at hheld
      cases hheld
    refine (Function.update_of_ne hne' _ _).trans (h.clean hended id hpath ?_)
    rw [hheld]
    exact fun heq => hne' (Option.some.inj heq).symm
  stage := hstage

/-- The file that was opened is the one at the path, if the path is still as it was before. -/
theorem StageInv.opened_at_path {fs : FileSystem} {consumed : FileIdentity → List ℕ}
    {before stream : FileIdentity} (h : StageInv fs consumed (.opened before stream))
    (hpath : fs.path = some before) :
    fs.used stream ∧ consumed stream = [] ∧ stream = before := by
  obtain ⟨hused, hnil, hor⟩ := h
  exact ⟨hused, hnil, hor.resolve_right fun hgone => hgone.2 hpath⟩

/-- A sound check only resets the offset of a file of which nothing was consumed. -/
theorem SizeCheckSound.reset {s : TailState} (h : SizeCheckSound s .fileSize) {f : OpenFile}
    {id : FileIdentity} (hs : s.stage = .sizing f) (hpath : s.fs.path = some id)
    (hf : FileInv s.fs s.consumed f) (hlt : s.fs.size id < f.offset) :
    s.consumed f.stream = [] := by
  rcases h f id rfl hs hpath with rfl | hle | hnil
  · rcases hf.consumed with hnil | ⟨a, n, -, -, hle⟩
    · exact hnil
    · omega
  · omega
  · exact hnil

/-- **Every step keeps the invariant, if its size check is sound.** -/
theorem TailInv.step {o : TailOptions} {s t : TailState} {act : TailAction} (h : TailInv s)
    (hstep : TailStep o s act t) (hsound : SizeCheckSound s act) : TailInv t := by
  have hinv := h.stage
  cases hstep with
  | append n hused => exact h.evolves (s.fs.evolves_append _ n)
  | rename hpath => exact h.evolves s.fs.evolves_rename
  | create hpath hnew => exact h.evolves (FileSystem.evolves_create hnew)
  | statBeforeMissing hs hpath => exact h
  | statBefore hs hpath =>
    exact h.goto_free (.opening _) _ (by simp [hs]) (by rw [hs]; rfl) (s.fs.path_used _ hpath)
  | openFails hs hpath => exact h.goto_free .top _ (by simp [hs]) (by rw [hs]; rfl) trivial
  | @openStream before id hs hpath =>
    rw [hs] at hinv
    refine h.goto_free (.opened before id) _ (by simp [hs]) (by rw [hs]; rfl)
      ⟨s.fs.path_used _ hpath, ?_, ?_⟩
    · exact h.clean (by simp [hs]) id hpath (by simp [hs, Stage.held])
    · by_cases hid : id = before
      · exact .inl hid
      · refine .inr ⟨hinv, ?_⟩
        rw [hpath]
        exact fun heq => hid (Option.some.inj heq)
  | statAfterMissing hs hpath =>
    exact h.goto_free .top _ (by simp [hs]) (by rw [hs]; rfl) trivial
  | statAfterChanged hs hpath hne =>
    exact h.goto_free .top _ (by simp [hs]) (by rw [hs]; rfl) trivial
  | @statAfterAtEnd before stream hs hpath hend =>
    rw [hs] at hinv
    obtain ⟨hused, hnil, heq⟩ := hinv.opened_at_path hpath
    exact h.goto_free (.measuring before stream) _ (by simp [hs]) (by rw [hs]; rfl)
      ⟨hused, hnil, heq.symm⟩
  | @statAfter before stream hs hpath hend =>
    rw [hs] at hinv
    obtain ⟨hused, hnil, heq⟩ := hinv.opened_at_path hpath
    exact h.goto_free (.reading ⟨stream, before, 0⟩) _ (by simp [hs]) (by rw [hs]; rfl)
      ⟨hused, heq.symm, .inl hnil⟩
  | measureMissing hs hpath => exact h.goto_free .top _ (by simp [hs]) (by rw [hs]; rfl) trivial
  | measure hs hpath =>
    rw [hs] at hinv
    obtain ⟨hused, hnil, heq⟩ := hinv
    exact h.goto_free (.reading _) _ (by simp [hs]) (by rw [hs]; rfl) ⟨hused, heq, .inl hnil⟩
  | readFull hs hn =>
    rw [hs] at hinv
    exact h.consume hinv (by rw [hs]; rfl) rfl (FileInv.consume o hinv)
  | readLast hs hn =>
    rw [hs] at hinv
    exact h.consume hinv (by rw [hs]; rfl) rfl (FileInv.consume o hinv)
  | @identityMissing f hs hpath =>
    rw [hs] at hinv
    refine h.goto_held (.draining f) (by simp [hs]) (by rw [hs]; rfl) ⟨hinv, hinv.used, ?_⟩
    rw [hpath]
    exact nofun
  | @identityChanged f id hs hpath hne =>
    rw [hs] at hinv
    refine h.goto_held (.draining f) (by simp [hs]) (by rw [hs]; rfl) ⟨hinv, hinv.used, ?_⟩
    rw [hpath, ← FileInv.identity hinv]
    exact fun heq => hne (Option.some.inj heq)
  | identitySame hs hpath =>
    rw [hs] at hinv
    exact h.goto_held (.sizing _) (by simp [hs]) (by rw [hs]; rfl) hinv
  | sizeMissing hs hpath =>
    rw [hs] at hinv
    exact h.goto_held (.reading _) (by simp [hs]) (by rw [hs]; rfl) hinv
  | sizeKept hs hpath hle =>
    rw [hs] at hinv
    exact h.goto_held (.reading _) (by simp [hs]) (by rw [hs]; rfl) hinv
  | @sizeReset f id hs hpath hlt =>
    rw [hs] at hinv
    have hf : FileInv s.fs s.consumed f := hinv
    have hnil : s.consumed f.stream = [] := hsound.reset hs hpath hf hlt
    exact h.goto_held (.reading _) (by simp [hs]) (by rw [hs]; rfl)
      ⟨hf.used, hf.identity, .inl hnil⟩
  | drain hs =>
    rw [hs] at hinv
    exact h.consume hinv.1 (by rw [hs]; rfl) rfl ⟨hinv.1.consume o, hinv.2⟩
  | @drainDone f hs =>
    rw [hs] at hinv
    refine h.goto .top _ (by simp [hs]) ?_ trivial
    intro id hpath _ hheld
    rw [hs] at hheld
    refine hinv.2.2 ?_
    rw [hpath]
    exact hheld.symm
  | stop hs =>
    exact ⟨h.contiguous, h.unused, fun hne => absurd rfl hne, trivial⟩

theorem tailInv_start (fs : FileSystem) : TailInv (.start fs) where
  contiguous := fun _ => ⟨0, 0, rfl⟩
  unused := fun _ _ => rfl
  clean := fun _ _ _ _ => rfl
  stage := trivial

/-! ### The theorem -/

theorem tailInv_of_run {o : TailOptions} {fs : FileSystem} {acts : List TailAction} {s : TailState}
    (h : Run (Guarded (TailStep o) SizeCheckSound) (.start fs) acts s) : TailInv s :=
  h.invariant (fun _ _ _ hs hstep => hs.step hstep.1 hstep.2) (tailInv_start fs)

/-- Two ranges in a row, the second of which starts at zero, are not a range. -/
theorem range'_append_range'_zero {a k n : ℕ} (hk : 0 < k) (hn : 0 < n) (b m : ℕ) :
    List.range' a k ++ List.range' 0 n ≠ List.range' b m := by
  intro h
  have hlen := congrArg List.length h
  rw [List.length_append, List.length_range', List.length_range', List.length_range'] at hlen
  have hat : (List.range' a k ++ List.range' 0 n)[k]? = (List.range' b m)[k]? := by rw [h]
  rw [List.getElem?_append_right (by simp), List.length_range', Nat.sub_self,
    List.getElem?_range' (by omega), List.getElem?_range' (by omega)] at hat
  have hval := Option.some.inj hat
  omega

/-- After a size check that is not sound, the next read starts over. -/
theorem read_after_unsound {o : TailOptions} {s t : TailState} (h : TailInv s)
    (hstep : TailStep o s .fileSize t) (hunsound : ¬ SizeCheckSound s .fileSize) :
    ∃ u, TailStep o t .read u ∧ ¬ Contiguous u := by
  simp only [SizeCheckSound, not_forall, not_or] at hunsound
  obtain ⟨f, id, -, hs, hpath, -, hlong, hne⟩ := hunsound
  have hf : FileInv s.fs s.consumed f := by
    have hinv := h.stage
    rw [hs] at hinv
    exact hinv
  have ht : t = s.goto (.reading { f with offset := 0 }) := by
    cases hstep with
    | measureMissing hs' => simp [hs] at hs'
    | measure hs' => simp [hs] at hs'
    | sizeMissing hs' hpath' => simp [hpath] at hpath'
    | sizeKept hs' hpath' hle =>
      rw [hs, Stage.sizing.injEq] at hs'
      rw [hpath, Option.some.injEq] at hpath'
      subst hs' hpath'
      exact absurd hle hlong
    | sizeReset hs' hpath' hlt =>
      rw [hs, Stage.sizing.injEq] at hs'
      rw [hs']
  obtain ⟨a, k, hrange, hoff, hle⟩ := hf.consumed.resolve_left hne
  have hk : 0 < k := by
    rcases Nat.eq_zero_or_pos k with rfl | hk
    · exact absurd hrange hne
    · exact hk
  have hn : 0 < readCount o t.fs { f with offset := 0 } := by
    have hbuf := o.readBufferSize_pos
    have hfs : t.fs = s.fs := by rw [ht]
    simp only [readCount, hfs]
    omega
  have hcons : ∀ next, ¬ Contiguous
      (t.consume { f with offset := 0 } (readCount o t.fs { f with offset := 0 }) next) := by
    intro next hcont
    obtain ⟨b, m, hbm⟩ := hcont f.stream
    have htc : t.consumed f.stream = List.range' a k := by
      rw [ht]
      exact hrange
    simp only [TailState.consume, Function.update_self, htc] at hbm
    exact range'_append_range'_zero hk hn b m hbm
  have hstage : t.stage = .reading { f with offset := 0 } := by rw [ht]
  rcases Nat.lt_or_ge (readCount o t.fs { f with offset := 0 }) o.readBufferSize with hlt | hge
  · exact ⟨_, .readLast hstage hlt, hcons _⟩
  · exact ⟨_, .readFull hstage (Nat.le_antisymm (Nat.min_le_left _ _) hge), hcons _⟩

/-- **While the size checks are sound, what is consumed of each file is a range of
it, so no byte is consumed twice; the first size check that is not sound is
followed by a read that starts over.** -/
theorem tail_contiguous (o : TailOptions) (fs : FileSystem) :
    (∀ acts s, Run (Guarded (TailStep o) SizeCheckSound) (.start fs) acts s → Contiguous s) ∧
    (∀ acts s t, Run (Guarded (TailStep o) SizeCheckSound) (.start fs) acts s →
      TailStep o s .fileSize t → ¬ SizeCheckSound s .fileSize →
        ∃ u, TailStep o t .read u ∧ ¬ Contiguous u) :=
  ⟨fun _ _ h => (tailInv_of_run h).contiguous,
    fun _ _ _ h hstep hunsound => read_after_unsound (tailInv_of_run h) hstep hunsound⟩

/-- Two files, and the options of the server. -/
def fileA : FileIdentity := ⟨0, 0, 1⟩

/-- The other file. -/
def fileB : FileIdentity := ⟨0, 0, 2⟩

/-- The default options. -/
def defaultOptions : TailOptions := ⟨64 * 1024, true, by decide⟩

/-- An empty file at the path. -/
def emptyAtPath : FileSystem where
  path := some fileA
  size := fun _ => 0
  used := fun id => id = fileA
  path_used := by
    intro id h
    exact (Option.some.inj h).symm

/-- A byte is read, and the size check finds the opened file.  Then the file is renamed away
and a new one created; one more byte of the old file is read before it is closed. -/
theorem tail_contiguous_rotated : ∃ s,
    Run (TailStep defaultOptions) (.start emptyAtPath)
        [.stat, .openStream, .stat, .fileSize, .append fileA 1, .read, .stat, .fileSize, .rename,
          .create fileB, .append fileA 1, .read, .stat, .read, .close] s ∧ Contiguous s := by
  have hquiet : ∀ s act, act ≠ .fileSize → SizeCheckSound s act :=
    fun s act hne f id h => absurd h hne
  have hnew : fileB ≠ fileA := by decide
  have hmeasure : SizeCheckSound ((TailState.start emptyAtPath).goto (.measuring fileA fileA))
      .fileSize := by
    intro f id _ hs
    cases hs
  -- the size check, with the file still at its path
  have hsize : ∀ s : TailState, s.stage = .sizing ⟨fileA, fileA, 1⟩ → s.fs.path = some fileA →
      SizeCheckSound s .fileSize := by
    intro s hstage hpath f id _ hs hid
    obtain rfl : (⟨fileA, fileA, 1⟩ : OpenFile) = f := Stage.sizing.inj (hstage.symm.trans hs)
    exact .inl (Option.some.inj (hid.symm.trans hpath))
  have hrun : Run (Guarded (TailStep defaultOptions) SizeCheckSound) (.start emptyAtPath) _ _ :=
    .cons ⟨.statBefore rfl rfl, hquiet _ _ nofun⟩ <|
    .cons ⟨.openStream rfl rfl, hquiet _ _ nofun⟩ <|
    .cons ⟨.statAfterAtEnd rfl rfl rfl, hquiet _ _ nofun⟩ <|
    .cons ⟨.measure rfl rfl, hmeasure⟩ <|
    .cons ⟨.append 1 rfl, hquiet _ _ nofun⟩ <|
    .cons ⟨.readLast rfl (by decide), hquiet _ _ nofun⟩ <|
    .cons ⟨.identitySame rfl rfl, hquiet _ _ nofun⟩ <|
    .cons ⟨.sizeKept rfl rfl (by decide), hsize _ rfl rfl⟩ <|
    .cons ⟨.rename rfl, hquiet _ _ nofun⟩ <|
    .cons ⟨.create rfl hnew, hquiet _ _ nofun⟩ <|
    .cons ⟨.append 1 (.inr rfl), hquiet _ _ nofun⟩ <|
    .cons ⟨.readLast rfl (by decide), hquiet _ _ nofun⟩ <|
    .cons ⟨.identityChanged rfl rfl hnew, hquiet _ _ nofun⟩ <|
    .cons ⟨.drain rfl, hquiet _ _ nofun⟩ <|
    .single ⟨.drainDone rfl, hquiet _ _ nofun⟩
  exact ⟨_, hrun.of_guarded, (tail_contiguous defaultOptions emptyAtPath).1 _ _ hrun⟩

/-- A rotation between the identity check and the size check: the new file is
shorter, so the old stream is read again from the beginning. -/
theorem tail_rereads_rotated_file : ¬ ∀ (o : TailOptions) (fs : FileSystem)
    (acts : List TailAction) (s : TailState), Run (TailStep o) (.start fs) acts s →
      Contiguous s := by
  intro h
  have hnew : fileB ≠ fileA := by decide
  have hcont := h defaultOptions emptyAtPath [.stat, .openStream, .stat, .fileSize,
    .append fileA 1, .read, .stat, .rename, .create fileB, .fileSize, .read] _ <|
    .cons (.statBefore rfl rfl) <| .cons (.openStream rfl rfl) <|
    .cons (.statAfterAtEnd rfl rfl rfl) <| .cons (.measure rfl rfl) <|
    .cons (.append 1 rfl) <| .cons (.readLast rfl (by decide)) <|
    .cons (.identitySame rfl rfl) <| .cons (.rename rfl) <|
    .cons (.create rfl hnew) <| .cons (.sizeReset rfl rfl (by decide)) <|
    .single (.readLast rfl (by decide))
  obtain ⟨a, n, hrange⟩ := hcont fileA
  have hread : List.range' 0 1 ++ List.range' 0 1 = List.range' a n := hrange
  exact range'_append_range'_zero (by decide) (by decide) a n hread

end LogLite
