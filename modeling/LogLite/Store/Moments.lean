import LogLite.Query.Delete

/-!
# What others see while the writer works

The readers run in other threads.  They share the dictionary with the writer, and
see the tables as of the last commit.  So a call of the writer is not one step for
them: it is a run of smaller changes, after each of which they may look.

## Main definitions

* `WriterDatabase.seen` — the committed tables, and the dictionary in memory.
* `WriterChange`, `WriterChange.Step` — the changes of the writer, one by one.
* `Later` — a state the writer can come to.
* `Readable` — what the writer works on and what the readers see are both sound.

## Main results

* `WriterStep.later` — **every call of the writer is a run of such changes.**
* `Later.readable`, `Later.extends` — they keep the database readable, and the ids
  as they are.
-/

namespace LogLite

open Transition

/-- What a reader sees: the tables as of the last commit, and the dictionary. -/
def WriterDatabase.seen (w : WriterDatabase) : WriterDatabase :=
  ⟨⟨w.conn.begun.getD w.conn.db, none⟩, w.colDict⟩

/-- The writer after a deletion. -/
def WriterDatabase.keepRows (w : WriterDatabase) (keep : LogRow → Bool) : WriterDatabase :=
  { w with conn.db.log := w.log.filter keep }

@[simp] theorem WriterDatabase.keepRows_log (w : WriterDatabase) (keep : LogRow → Bool) :
    (w.keepRows keep).log = w.log.filter keep := rfl

/-- A deletion after a deletion. -/
theorem WriterDatabase.keepRows_keepRows (w : WriterDatabase) (keep keep' : LogRow → Bool) :
    (w.keepRows keep).keepRows keep' = w.keepRows fun r => keep' r && keep r := by
  show { w with conn.db.log := (w.log.filter keep).filter keep' } = _
  rw [List.filter_filter]
  rfl

theorem WriterDatabase.keepRows_true (w : WriterDatabase) : w.keepRows (fun _ => true) = w := by
  show { w with conn.db.log := w.log.filter fun _ => true } = _
  rw [List.filter_true]

/-- One change of the writer's state. -/
inductive WriterChange where
  | touch (col : ColumnName)
  | addEntry (ci : ColumnInfo) (value : Bytes) (id : ValueId)
  | appendRow (log : Json) (cells : List (ColumnName × SqlValue))
  | begin
  | commit
  | rollback
  | keepRows (keep : LogRow → Bool)

section
variable (cat : DatabaseCatalog)

/-- When the writer makes a change, and what it leads to. -/
def WriterChange.Step (w : WriterDatabase) : WriterChange → WriterDatabase → Prop
  | touch col, w' => w' = w.touch col
  | addEntry ci value id, w' =>
    ci ∈ cat.insertColumns ∧ cat.compressedColumns.contains ci.name = true ∧
      w.colDict.get? ci.name value = none ∧ newId (w.colDict.colMap ci.name) = some id ∧
        w' = w.addEntry cat.platform ci.name value id
  | appendRow log cells, w' =>
    RowCells cat w.colDict log cat.insertColumns cells ∧ cat.accepts w.log cells = true ∧
      w' = w.appendRow cells log
  | begin, w' => w.conn.begun = none ∧ w' = w.opened
  | commit, w' => w' = w.closed
  | rollback, w' => w' = { w with conn := LogLite.rollback w.conn }
  | keepRows keep, w' => w' = w.keepRows keep

/-- The writer can come from one state to the other. -/
def Later (w w' : WriterDatabase) : Prop := ∃ cs, Run (WriterChange.Step cat) w cs w'

/-- The rows of the writer and those the readers see fit the dictionary. -/
structure Readable (w : WriterDatabase) : Prop where
  sound : Sound cat w
  rows : Coherent cat w.seen

variable {cat}

theorem Later.refl (w : WriterDatabase) : Later cat w w := ⟨[], .nil w⟩

theorem Later.trans {w w' w'' : WriterDatabase} (h : Later cat w w') (h' : Later cat w' w'') :
    Later cat w w'' := by
  obtain ⟨cs, hcs⟩ := h
  obtain ⟨cs', hcs'⟩ := h'
  exact ⟨cs ++ cs', hcs.append hcs'⟩

theorem Later.change {w w' : WriterDatabase} (c : WriterChange) (h : c.Step cat w w') :
    Later cat w w' := ⟨[c], .single h⟩

/-! ### The calls are runs of changes -/

/-- The loops of `Insert` make nothing but such changes. -/
theorem kept_later (w : WriterDatabase) : Kept cat (Later cat w) where
  touch := fun _ col h => h.trans (.change (.touch col) rfl)
  addEntry := fun _ ci value id hci hc hn hid h =>
    h.trans (.change (.addEntry ci value id) ⟨hci, hc, hn, hid, rfl⟩)
  appendRow := fun _ log cells hr ha h => h.trans (.change (.appendRow log cells) ⟨hr, ha, rfl⟩)

/-- A call on the connection makes a change, or throws and makes none. -/
theorem begin_later {w w₀ : WriterDatabase} {fault : Fault} (h : Later cat w₀ w) :
    (w.onConn (beginTransaction fault)).Leaves (Later cat w₀) := by
  unfold WriterDatabase.onConn beginTransaction
  cases fault with
  | some msg => exact h
  | none =>
    cases hb : w.conn.begun with
    | some db => exact h
    | none => exact h.trans (.change .begin ⟨hb, rfl⟩)

theorem commit_later {w w₀ : WriterDatabase} {fault : Fault} (h : Later cat w₀ w) :
    (w.onConn (commit fault)).Leaves (Later cat w₀) := by
  unfold WriterDatabase.onConn commit
  cases fault with
  | some msg => exact h
  | none =>
    cases hb : w.conn.begun with
    | none => exact h
    | some db => exact h.trans (.change .commit rfl)

/-- **`Insert` is a run of such changes, however it ends.** -/
theorem insertReport_later (f : Faults) (logs : List Json) (w : WriterDatabase) :
    (insertReport cat f logs w).Leaves (Later cat w) := by
  unfold insertReport
  split
  · exact .refl w
  · split
    · exact Later.refl w
    · refine (begin_later (.refl w)).bind fun w₁ _ _ h₁ => Outcome.Leaves.onThrow ?_ ?_
      · refine (insertRows_leaves (kept_later w) logs 0 w₁ h₁).bind fun w₂ rs _ h₂ => ?_
        exact (commit_later h₂).bind fun w₃ _ _ h₃ => h₃
      · exact fun w₂ h₂ => h₂.trans (.change .rollback rfl)

/-- **Every call of the writer is a run of such changes.** -/
theorem WriterStep.later {w w' : WriterDatabase} {call : WriterCall}
    (h : WriterStep cat w call w') : Later cat w w' := by
  cases call with
  | insert f logs =>
    have hleaves : (insertReport cat f logs w).Leaves (Later cat w) := insertReport_later f logs w
    rcases h with ⟨rs, h⟩ | ⟨e, h⟩
    · rw [h] at hleaves
      exact hleaves
    · rw [h] at hleaves
      exact hleaves
  | delete fault filters =>
    obtain ⟨keep, rfl⟩ := h.delete_eq
    exact .change (.keepRows keep) rfl

/-! ### What the changes keep -/

theorem Readable.seen {w : WriterDatabase} (h : Readable cat w) : Sound cat w.seen :=
  ⟨h.sound.dict, h.sound.columns, h.rows⟩

/-- Between calls the readers see what the writer works on. -/
theorem Sound.readable {w : WriterDatabase} (h : Sound cat w) (hb : w.conn.begun = none) :
    Readable cat w := by
  refine ⟨h, fun r hr => h.rows r ?_⟩
  rw [WriterDatabase.log, WriterDatabase.seen, hb] at hr
  exact hr

theorem Reachable.readable {w : WriterDatabase} (h : Reachable cat w) : Readable cat w :=
  h.sound.readable h.idle

section
variable {w w' : WriterDatabase} {c : WriterChange}

theorem seen_log_of_begun {db : Tables} (h : w.conn.begun = some db) :
    w.seen.log = db.log := by
  rw [WriterDatabase.log, WriterDatabase.seen, h]
  rfl

theorem seen_log_of_not_begun (h : w.conn.begun = none) : w.seen.log = w.log := by
  rw [WriterDatabase.log, WriterDatabase.seen, h]
  rfl

/-- No change takes an id away. -/
theorem WriterChange.Step.extends (h : c.Step cat w w') (col : ColumnName) :
    Interning.Extends (w.colDict.get? col) (w'.colDict.get? col) := by
  have hkept := kept_extends cat w.colDict
  have hself : ∀ col, Interning.Extends (w.colDict.get? col) (w.colDict.get? col) :=
    fun _ => Interning.Extends.refl _
  cases c with
  | touch col' =>
    obtain rfl := h
    exact hkept.touch w col' hself col
  | addEntry ci value id =>
    obtain ⟨hci, hc, hn, hid, rfl⟩ := h
    exact hkept.addEntry w ci value id hci hc hn hid hself col
  | appendRow log cells =>
    obtain ⟨-, -, rfl⟩ := h
    exact hself col
  | begin =>
    obtain ⟨-, rfl⟩ := h
    exact hself col
  | commit =>
    obtain rfl := h
    exact hself col
  | rollback =>
    obtain rfl := h
    exact hself col
  | keepRows keep =>
    obtain rfl := h
    exact hself col

/-- What the readers see after a change they saw before, or the writer works on it. -/
theorem WriterChange.Step.seen_log (h : c.Step cat w w') {r : LogRow} (hr : r ∈ w'.seen.log) :
    r ∈ w.seen.log ∨ r ∈ w'.log := by
  cases hb : w'.conn.begun with
  | none =>
    rw [seen_log_of_not_begun hb] at hr
    exact .inr hr
  | some db =>
    rw [seen_log_of_begun hb] at hr
    cases c with
    | begin =>
      obtain ⟨-, rfl⟩ := h
      cases hb
      exact .inr hr
    | commit =>
      obtain rfl := h
      cases hb
    | rollback =>
      obtain rfl := h
      unfold LogLite.rollback at hb
      cases hb' : w.conn.begun with
      | none => simp [hb'] at hb
      | some db' => simp [hb'] at hb
    | touch col =>
      obtain rfl := h
      exact .inl ((seen_log_of_begun hb).symm ▸ hr)
    | addEntry ci value id =>
      obtain ⟨-, -, -, -, rfl⟩ := h
      exact .inl ((seen_log_of_begun (w := w) hb).symm ▸ hr)
    | appendRow log cells =>
      obtain ⟨-, -, rfl⟩ := h
      exact .inl ((seen_log_of_begun (w := w) hb).symm ▸ hr)
    | keepRows keep =>
      obtain rfl := h
      exact .inl ((seen_log_of_begun (w := w) hb).symm ▸ hr)

/-- The writer's tables stay sound. -/
theorem WriterChange.Step.sound (h : c.Step cat w w') (hw : Readable cat w) : Sound cat w' := by
  cases c with
  | touch col =>
    obtain rfl := h
    exact kept_sound.touch w col hw.sound
  | addEntry ci value id =>
    obtain ⟨hci, hc, hn, hid, rfl⟩ := h
    exact kept_sound.addEntry w ci value id hci hc hn hid hw.sound
  | appendRow log cells =>
    obtain ⟨hr, ha, rfl⟩ := h
    exact kept_sound.appendRow w log cells hr ha hw.sound
  | begin =>
    obtain ⟨-, rfl⟩ := h
    exact hw.sound.opened
  | commit =>
    obtain rfl := h
    exact hw.sound.closed
  | rollback =>
    obtain rfl := h
    refine ⟨hw.sound.dict, hw.sound.columns, ?_⟩
    cases hb : w.conn.begun with
    | none =>
      intro r hr
      rw [WriterDatabase.log, LogLite.rollback, hb] at hr
      exact hw.sound.rows r hr
    | some db =>
      -- back to what the readers have seen all along
      intro r hr
      rw [WriterDatabase.log, LogLite.rollback, hb] at hr
      exact hw.rows r ((seen_log_of_begun hb).symm ▸ hr)
  | keepRows keep =>
    obtain rfl := h
    exact hw.sound.filter keep

/-- **Every change keeps the database readable.** -/
theorem WriterChange.Step.readable (h : c.Step cat w w') (hw : Readable cat w) :
    Readable cat w' := by
  refine ⟨h.sound hw, fun r hr => ?_⟩
  rcases h.seen_log hr with hold | hnew
  · exact (hw.rows r hold).mono h.extends
  · exact (h.sound hw).rows r hnew

end

theorem Later.extends {w w' : WriterDatabase} (h : Later cat w w') (col : ColumnName) :
    Interning.Extends (w.colDict.get? col) (w'.colDict.get? col) := by
  obtain ⟨cs, h⟩ := h
  refine h.invariant (I := fun v => Interning.Extends (w.colDict.get? col) (v.colDict.get? col))
    ?_ (Interning.Extends.refl _)
  exact fun v c v' hv hstep => hv.trans (hstep.extends col)

/-- **The database stays readable, whatever the writer does.** -/
theorem Later.readable {w w' : WriterDatabase} (h : Later cat w w') (hw : Readable cat w) :
    Readable cat w' := by
  obtain ⟨cs, h⟩ := h
  exact h.invariant (fun v c v' hv hstep => hstep.readable hv) hw

end

end LogLite
