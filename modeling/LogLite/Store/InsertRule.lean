import LogLite.Store.Writer

/-!
# What `Insert` does

The loops of `Insert` change the writer in three ways only: a column gets an
empty map, a new dictionary entry is persisted and added to the map, or a row is
appended.  `insertRows_leaves` is the rule that follows: what these three changes
keep, the loops keep, whether they return or throw.  Around the loops stands the
transaction: `insertReport_ret` and `insertReport_throw` say what it adds.

## Main definitions

* `WriterDatabase.touch`, `addEntry` — the changes to the dictionary.
* `Encodes`, `RowCells` — the bound value of a column and the cells of a row,
  given the dictionary.

## Main results

* `insertRows_leaves` — **the invariant rule for the loops of `Insert`.**
* `insertReport_ret`, `insertReport_throw` — the transaction around them.
-/

namespace LogLite

/-- `lookup_[col]` alone: the column has a map. -/
def WriterDatabase.touch (w : WriterDatabase) (col : ColumnName) : WriterDatabase :=
  { w with colDict := w.colDict.touch col }

/-- A new dictionary entry, in the table and in memory. -/
def WriterDatabase.addEntry (w : WriterDatabase) (P : Platform) (col : ColumnName) (value : Bytes)
    (id : ValueId) : WriterDatabase where
  conn := { w.conn with
    db.columnDictionary := w.conn.db.columnDictionary ++ [persistedRow P col value id] }
  colDict := (w.colDict.touch col).put col value id

@[simp] theorem WriterDatabase.touch_conn (w : WriterDatabase) (col : ColumnName) :
    (w.touch col).conn = w.conn := rfl

@[simp] theorem WriterDatabase.touch_colDict (w : WriterDatabase) (col : ColumnName) :
    (w.touch col).colDict = w.colDict.touch col := rfl

@[simp] theorem WriterDatabase.addEntry_log (w : WriterDatabase) (P : Platform) (col : ColumnName)
    (value : Bytes) (id : ValueId) : (w.addEntry P col value id).log = w.log := rfl

@[simp] theorem WriterDatabase.addEntry_begun (w : WriterDatabase) (P : Platform)
    (col : ColumnName) (value : Bytes) (id : ValueId) :
    (w.addEntry P col value id).conn.begun = w.conn.begun := rfl

@[simp] theorem WriterDatabase.addEntry_get? (w : WriterDatabase) (P : Platform) (col : ColumnName)
    (value : Bytes) (id : ValueId) (col' : ColumnName) (value' : Bytes) :
    (w.addEntry P col value id).colDict.get? col' value' =
      if col' = col ∧ value' = value then some id else w.colDict.get? col' value' := by
  rw [addEntry, LookupTable.get?_put, LookupTable.get?_touch]

@[simp] theorem WriterDatabase.appendRow_log (w : WriterDatabase)
    (cells : List (ColumnName × SqlValue)) (log : Json) :
    (w.appendRow cells log).log = w.log ++ [newRow w.log cells log] := rfl

@[simp] theorem WriterDatabase.appendRow_colDict (w : WriterDatabase)
    (cells : List (ColumnName × SqlValue)) (log : Json) :
    (w.appendRow cells log).colDict = w.colDict := rfl

@[simp] theorem WriterDatabase.appendRow_begun (w : WriterDatabase)
    (cells : List (ColumnName × SqlValue)) (log : Json) :
    (w.appendRow cells log).conn.begun = w.conn.begun := rfl

@[simp] theorem WriterDatabase.appendRow_dict (w : WriterDatabase)
    (cells : List (ColumnName × SqlValue)) (log : Json) :
    (w.appendRow cells log).conn.db.columnDictionary = w.conn.db.columnDictionary := rfl

section
variable (cat : DatabaseCatalog)

/-- A value of a compressed column that goes through the dictionary. -/
def Compresses (col : ColumnName) (v : Json) : Prop :=
  cat.compressedColumns.contains col = true ∧ v.isNull = false

/-- `bound` is bound for the serialized value `v` of `col`, given the ids of `d`. -/
def Encodes (d : LookupTable) (col : ColumnName) (v bound : Json) : Prop :=
  (Compresses cat col v ∧ ∃ id, d.get? col (dictText cat.platform v) = some id ∧
    bound = .integer id) ∨ (¬ Compresses cat col v ∧ bound = v)

/-- The cells of the row of a log, given the ids of `d`. -/
def RowCells (d : LookupTable) (log : Json) (cols : List ColumnInfo)
    (cells : List (ColumnName × SqlValue)) : Prop :=
  List.Forall₂ (fun ci c => c.1 = ci.name ∧
    (ci.notNull = true → (log.find ci.name).isNull = false) ∧
    ∃ bound, Encodes cat d ci.name (serializeValue cat.platform (log.find ci.name)) bound ∧
      c.2 = storedCell cat ci bound) cols cells

variable {cat}

theorem Encodes.mono {d d' : LookupTable} (h : ∀ col, Interning.Extends (d.get? col) (d'.get? col))
    {col : ColumnName} {v bound : Json} (he : Encodes cat d col v bound) :
    Encodes cat d' col v bound := by
  rcases he with ⟨hc, id, hid, hb⟩ | he
  · exact .inl ⟨hc, id, h col hid, hb⟩
  · exact .inr he

theorem RowCells.mono {d d' : LookupTable} (h : ∀ col, Interning.Extends (d.get? col) (d'.get? col))
    {log : Json} {cols : List ColumnInfo} {cells : List (ColumnName × SqlValue)}
    (hr : RowCells cat d log cols cells) : RowCells cat d' log cols cells := by
  refine List.Forall₂.imp ?_ hr
  rintro ci c ⟨hname, hnn, bound, he, hc⟩
  exact ⟨hname, hnn, bound, he.mono h, hc⟩

/-- The cell of a column in the row of a log. -/
theorem RowCells.find? {d : LookupTable} {log : Json} {cols : List ColumnInfo}
    {cells : List (ColumnName × SqlValue)} (hr : RowCells cat d log cols cells)
    (hnodup : (cols.map (·.name)).Nodup) {ci : ColumnInfo} (hci : ci ∈ cols) :
    ∃ bound, Encodes cat d ci.name (serializeValue cat.platform (log.find ci.name)) bound ∧
      cells.find? (fun c => c.1 == ci.name) = some (ci.name, storedCell cat ci bound) := by
  induction hr with
  | nil => cases hci
  | @cons ci' c cols cells hhead _ ih =>
    obtain ⟨hname, -, bound, henc, hcell⟩ := hhead
    rw [List.map_cons, List.nodup_cons] at hnodup
    rcases List.mem_cons.mp hci with rfl | hmem
    · refine ⟨bound, henc, ?_⟩
      rw [List.find?_cons_of_pos (by simp [hname]), ← hname, ← hcell]
    · have hne : ci'.name ≠ ci.name := by
        intro heq
        exact hnodup.1 (heq ▸ List.mem_map_of_mem hmem)
      rw [List.find?_cons_of_neg (by simp [hname, hne])]
      exact ih hnodup.2 hmem

/-- A row has no cell of any other column. -/
theorem RowCells.find?_eq_none {d : LookupTable} {log : Json} {cols : List ColumnInfo}
    {cells : List (ColumnName × SqlValue)} (hr : RowCells cat d log cols cells)
    {name : ColumnName} (h : ∀ ci ∈ cols, ci.name ≠ name) :
    cells.find? (fun c => c.1 == name) = none := by
  induction hr with
  | nil => rfl
  | @cons ci c cols cells hhead _ ih =>
    rw [List.forall_mem_cons] at h
    rw [List.find?_cons_of_neg (by simp [hhead.1, h.1])]
    exact ih h.2

/-- What the three changes of the writer keep. -/
structure Kept (cat : DatabaseCatalog) (I : WriterDatabase → Prop) : Prop where
  touch : ∀ w col, I w → I (w.touch col)
  addEntry : ∀ w ci value id, ci ∈ cat.insertColumns →
    cat.compressedColumns.contains ci.name = true → w.colDict.get? ci.name value = none →
    newId (w.colDict.colMap ci.name) = some id → I w →
    I (w.addEntry cat.platform ci.name value id)
  appendRow : ∀ w log cells, RowCells cat w.colDict log cat.insertColumns cells →
    cat.accepts w.log cells = true → I w → I (w.appendRow cells log)

variable (cat) in
/-- The changes only extend the dictionary. -/
theorem kept_extends (d : LookupTable) :
    Kept cat fun w => ∀ col, Interning.Extends (d.get? col) (w.colDict.get? col) where
  touch := by
    intro w col h col' value i hv
    rw [WriterDatabase.touch_colDict, LookupTable.get?_touch]
    exact h col' hv
  addEntry := by
    intro w ci value id _ _ hnone _ h col' value' i hv
    have hw := h col' hv
    rw [WriterDatabase.addEntry_get?, if_neg]
    · exact hw
    · rintro ⟨rfl, rfl⟩
      rw [hnone] at hw
      cases hw
  appendRow := fun w log cells _ _ h => h

/-! ### The loop over the columns -/

/-- `encodeValue` in a column that is not compressed, or of a `null`. -/
theorem encodeValue_plain {fault : Option DictFault} {col : ColumnName} {v : Json}
    {w : WriterDatabase} (h : ¬ Compresses cat col v) :
    encodeValue cat fault col v w = .ret w v := by
  unfold encodeValue
  rw [if_neg]
  simpa [Compresses] using h

/-- `encodeValue` of a string that has an id. -/
theorem encodeValue_hit {fault : Option DictFault} {col : ColumnName} {v : Json}
    {w : WriterDatabase} {id : ValueId} (h : Compresses cat col v)
    (hid : w.colDict.get? col (dictText cat.platform v) = some id) :
    encodeValue cat fault col v w = .ret (w.touch col) (.integer id) := by
  unfold encodeValue
  rw [if_pos (by simpa [Compresses] using h), getOrCreate_hit _ _ hid]
  rfl

/-- `encodeValue` of a string without an id: the entry is persisted, or the call
throws before it has changed anything. -/
theorem encodeValue_miss {fault : Option DictFault} {col : ColumnName} {v : Json}
    {w : WriterDatabase} (h : Compresses cat col v)
    (hnone : w.colDict.get? col (dictText cat.platform v) = none) :
    encodeValue cat fault col v w =
      match newId (w.colDict.colMap col) with
      | none => .undefined
      | some id =>
        match fault with
        | none => .ret (w.addEntry cat.platform col (dictText cat.platform v) id) (.integer id)
        | some (.prepare msg) => .throw (w.touch col) (prepareFailed msg)
        | some .step => .throw (w.touch col) (persistFailed col (dictText cat.platform v)) := by
  unfold encodeValue
  rw [if_pos (by simpa [Compresses] using h), getOrCreate_miss _ _ hnone]
  cases newId (w.colDict.colMap col) with
  | none => rfl
  | some id =>
    match fault with
    | none => rfl
    | some (.prepare msg) => rfl
    | some .step => rfl

theorem encodeValue_leaves {I : WriterDatabase → Prop} (hI : Kept cat I) {fault : Option DictFault}
    {ci : ColumnInfo} (hci : ci ∈ cat.insertColumns) {v : Json} {w : WriterDatabase} (hw : I w) :
    (encodeValue cat fault ci.name v w).Leaves I := by
  by_cases h : Compresses cat ci.name v
  · cases hid : w.colDict.get? ci.name (dictText cat.platform v) with
    | some id =>
      rw [encodeValue_hit h hid]
      exact hI.touch w ci.name hw
    | none =>
      rw [encodeValue_miss h hid]
      cases hnew : newId (w.colDict.colMap ci.name) with
      | none => trivial
      | some id =>
        match fault with
        | none => exact hI.addEntry w ci _ id hci h.1 hid hnew hw
        | some (.prepare msg) => exact hI.touch w ci.name hw
        | some .step => exact hI.touch w ci.name hw
  · rw [encodeValue_plain h]
    exact hw

/-- `encodeValue` taken apart: the string has an id, or gets one, or the value is bound as
it is. -/
theorem encodeValue_eq_ret {fault : Option DictFault} {col : ColumnName} {v b : Json}
    {w w' : WriterDatabase} (he : encodeValue cat fault col v w = .ret w' b) :
    (∃ id, Compresses cat col v ∧ w.colDict.get? col (dictText cat.platform v) = some id ∧
      w' = w.touch col ∧ b = .integer id) ∨
    (∃ id, Compresses cat col v ∧ w.colDict.get? col (dictText cat.platform v) = none ∧
      w' = w.addEntry cat.platform col (dictText cat.platform v) id ∧ b = .integer id) ∨
    (¬ Compresses cat col v ∧ w' = w ∧ b = v) := by
  by_cases h : Compresses cat col v
  · cases hid : w.colDict.get? col (dictText cat.platform v) with
    | some id =>
      rw [encodeValue_hit h hid] at he
      cases he
      exact .inl ⟨id, h, rfl, rfl, rfl⟩
    | none =>
      rw [encodeValue_miss h hid] at he
      cases hnew : newId (w.colDict.colMap col) with
      | none =>
        rw [hnew] at he
        cases he
      | some id =>
        rw [hnew] at he
        match fault with
        | none =>
          cases he
          exact .inr (.inl ⟨id, h, rfl, rfl, rfl⟩)
        | some (.prepare msg) => cases he
        | some .step => cases he
  · rw [encodeValue_plain h] at he
    cases he
    exact .inr (.inr ⟨h, rfl, rfl⟩)

/-- A returned value is the encoding of the value in the dictionary left behind. -/
theorem encodeValue_encodes {fault : Option DictFault} {col : ColumnName} {v b : Json}
    {w w' : WriterDatabase} (he : encodeValue cat fault col v w = .ret w' b) :
    Encodes cat w'.colDict col v b := by
  obtain ⟨id, h, hid, rfl, rfl⟩ | ⟨id, h, -, rfl, rfl⟩ | ⟨h, rfl, rfl⟩ := encodeValue_eq_ret he
  · exact .inl ⟨h, id, by simp [hid], rfl⟩
  · exact .inl ⟨h, id, by simp, rfl⟩
  · exact .inr ⟨h, rfl⟩

/-- One turn of the loop over the columns, taken apart. -/
theorem encodeRow_cons_eq_ret {faults : ℕ → Option DictFault} {log : Json} {j : ℕ}
    {ci : ColumnInfo} {cols : List ColumnInfo} {w w' : WriterDatabase}
    {enc : Except ColumnName (List (ColumnName × SqlValue))}
    (he : encodeRow cat faults log j (ci :: cols) w = .ret w' enc) :
    ((ci.notNull && (log.find ci.name).isNull) = true ∧ w' = w ∧ enc = .error ci.name) ∨
    ((ci.notNull && (log.find ci.name).isNull) = false ∧ ∃ w₁ b cells,
      encodeValue cat (faults j) ci.name (serializeValue cat.platform (log.find ci.name)) w =
        .ret w₁ b ∧
      encodeRow cat faults log (j + 1) cols w₁ = .ret w' cells ∧
      enc = cells.map fun cs => (ci.name, storedCell cat ci b) :: cs) := by
  simp only [encodeRow] at he
  split at he
  · next hmiss =>
    cases he
    exact .inl ⟨hmiss, rfl, rfl⟩
  · next hmiss =>
    obtain ⟨w₁, b, hb, he⟩ := Outcome.bind_eq_ret.mp he
    obtain ⟨w₂, cells, hcells, he⟩ := Outcome.bind_eq_ret.mp he
    cases he
    exact .inr ⟨eq_false_of_ne_true hmiss, w₁, b, cells, hb, hcells, rfl⟩

theorem encodeRow_leaves {I : WriterDatabase → Prop} (hI : Kept cat I)
    {faults : ℕ → Option DictFault} {log : Json} : ∀ cols : List ColumnInfo,
    cols ⊆ cat.insertColumns → ∀ (j : ℕ) (w : WriterDatabase), I w →
      (encodeRow cat faults log j cols w).Leaves I := by
  intro cols
  induction cols with
  | nil => exact fun _ j w hw => hw
  | cons ci cols ih =>
    intro hcols j w hw
    rw [List.cons_subset] at hcols
    simp only [encodeRow]
    split
    · exact hw
    · refine (encodeValue_leaves hI hcols.1 hw).bind fun w₁ b _ hw₁ => ?_
      exact (ih hcols.2 (j + 1) w₁ hw₁).bind fun w₂ cells _ hw₂ => hw₂

/-- The returned cells are those of the log in the dictionary left behind. -/
theorem encodeRow_cells {faults : ℕ → Option DictFault} {log : Json} : ∀ cols : List ColumnInfo,
    cols ⊆ cat.insertColumns → ∀ (j : ℕ) (w w' : WriterDatabase)
      (cells : List (ColumnName × SqlValue)),
        encodeRow cat faults log j cols w = .ret w' (.ok cells) →
        RowCells cat w'.colDict log cols cells := by
  intro cols
  induction cols with
  | nil =>
    rintro - j w w' cells ⟨⟩
    exact .nil
  | cons ci cols ih =>
    intro hcols j w w' cells he
    rw [List.cons_subset] at hcols
    obtain ⟨-, -, hskip⟩ | ⟨hnn, w₁, b, cells₂, hb, hcells₂, heq⟩ := encodeRow_cons_eq_ret he
    · cases hskip
    · cases cells₂ with
      | error col => cases heq
      | ok cs =>
        cases heq
        -- the other columns only extend the dictionary this value was encoded in
        have hext : ∀ col, Interning.Extends (w₁.colDict.get? col) (w'.colDict.get? col) := by
          have hkeep : (encodeRow cat faults log (j + 1) cols w₁).Leaves _ :=
            encodeRow_leaves (kept_extends cat w₁.colDict) cols hcols.2 (j + 1) w₁
              fun col => Interning.Extends.refl _
          rw [hcells₂] at hkeep
          exact hkeep
        refine .cons ⟨rfl, ?_, b, (encodeValue_encodes hb).mono hext, rfl⟩
          (ih hcols.2 (j + 1) w₁ w' cs hcells₂)
        intro hreq
        simpa [hreq] using hnn

/-! ### The loop over the logs -/

/-- `insertRow` taken apart. -/
theorem insertRow_eq_ret {f : Faults} {i : ℕ} {log : Json} {w w' : WriterDatabase} {r : RowResult}
    (h : insertRow cat f i log w = .ret w' r) :
    ∃ w₁ enc, encodeRow cat (f.dict i) log 0 cat.insertColumns w = .ret w₁ enc ∧
      ((∃ col, enc = .error col ∧ w' = w₁ ∧ r = .skipped col) ∨
        ∃ cells, enc = .ok cells ∧ RowCells cat w₁.colDict log cat.insertColumns cells ∧
          stepRow cat (f.row i) cells log w₁ = (w', r)) := by
  obtain ⟨w₁, enc, henc, h⟩ := Outcome.bind_eq_ret.mp h
  refine ⟨w₁, enc, henc, ?_⟩
  cases enc with
  | error col =>
    cases h
    exact .inl ⟨col, rfl, rfl, rfl⟩
  | ok cells =>
    cases h
    exact .inr ⟨cells, rfl, encodeRow_cells _ (List.Subset.refl _) _ _ _ _ henc, rfl⟩

/-- The row step leaves the dictionary alone. -/
theorem stepRow_colDict {fault : Bool} {cells : List (ColumnName × SqlValue)} {log : Json}
    {w : WriterDatabase} : (stepRow cat fault cells log w).1.colDict = w.colDict := by
  unfold stepRow
  split
  · rfl
  · split <;> rfl

/-- One turn of the loop over the logs, taken apart. -/
theorem insertRows_cons_eq_ret {f : Faults} {i : ℕ} {log : Json} {logs : List Json}
    {w w' : WriterDatabase} {rs : List RowResult}
    (h : insertRows cat f i (log :: logs) w = .ret w' rs) :
    ∃ w₁ r rs', insertRow cat f i log w = .ret w₁ r ∧
      insertRows cat f (i + 1) logs w₁ = .ret w' rs' ∧ rs = r :: rs' := by
  obtain ⟨w₁, r, hrow, h⟩ := Outcome.bind_eq_ret.mp h
  obtain ⟨w₂, rs', hrows, h⟩ := Outcome.bind_eq_ret.mp h
  cases h
  exact ⟨w₁, r, rs', hrow, hrows, rfl⟩

theorem insertRow_leaves {I : WriterDatabase → Prop} (hI : Kept cat I) {f : Faults} {i : ℕ}
    {log : Json} {w : WriterDatabase} (hw : I w) : (insertRow cat f i log w).Leaves I := by
  refine (encodeRow_leaves hI _ (List.Subset.refl _) _ _ hw).bind fun w₁ enc henc hw₁ => ?_
  cases enc with
  | error col => exact hw₁
  | ok cells =>
    show I (stepRow cat (f.row i) cells log w₁).1
    unfold stepRow
    split
    · exact hw₁
    · split
      · next hacc =>
        exact hI.appendRow w₁ log cells
          (encodeRow_cells _ (List.Subset.refl _) _ _ _ _ henc) hacc hw₁
      · exact hw₁

/-- **The invariant rule for the loops of `Insert`**: what the three changes of
the writer keep, the loops keep, whether they return or throw. -/
theorem insertRows_leaves {I : WriterDatabase → Prop} (hI : Kept cat I) {f : Faults} :
    ∀ (logs : List Json) (i : ℕ) (w : WriterDatabase), I w →
      (insertRows cat f i logs w).Leaves I := by
  intro logs
  induction logs with
  | nil => exact fun i w hw => hw
  | cons log logs ih =>
    intro i w hw
    refine (insertRow_leaves hI hw).bind fun w₁ r _ hw₁ => ?_
    exact (ih (i + 1) w₁ hw₁).bind fun w₂ rs _ hw₂ => hw₂

/-! ### The transaction -/

/-- The writer inside the transaction that `Insert` opens. -/
def WriterDatabase.opened (w : WriterDatabase) : WriterDatabase :=
  { w with conn.begun := some w.conn.db }

/-- The writer after the transaction. -/
def WriterDatabase.closed (w : WriterDatabase) : WriterDatabase :=
  { w with conn.begun := none }

@[simp] theorem WriterDatabase.opened_log (w : WriterDatabase) : w.opened.log = w.log := rfl

@[simp] theorem WriterDatabase.opened_colDict (w : WriterDatabase) :
    w.opened.colDict = w.colDict := rfl

@[simp] theorem WriterDatabase.closed_log (w : WriterDatabase) : w.closed.log = w.log := rfl

@[simp] theorem WriterDatabase.closed_colDict (w : WriterDatabase) :
    w.closed.colDict = w.colDict := rfl

variable (cat) in
/-- The loops neither open nor close a transaction. -/
theorem kept_begun (b : Option Tables) : Kept cat fun w => w.conn.begun = b where
  touch := fun _ _ h => h
  addEntry := fun _ _ _ _ _ _ _ _ h => h
  appendRow := fun _ _ _ _ _ h => h

/-- `Insert` when there is something to do and the transaction can be opened. -/
theorem insertReport_eq {f : Faults} {logs : List Json} {w : WriterDatabase}
    (hb : w.conn.begun = none) (hc : cat.insertColumns ≠ []) (hl : logs ≠ [])
    (hp : f.prepare = none) (hf : f.begin = none) :
    insertReport cat f logs w =
      ((insertRows cat f 0 logs w.opened).bind fun w rs =>
        (w.onConn (commit f.commit)).bind fun w _ => .ret w rs).onThrow
          fun w => { w with conn := rollback w.conn } := by
  unfold insertReport
  rw [if_neg (by simp [hc, hl]), hp]
  simp [WriterDatabase.onConn, beginTransaction, hf, hb, WriterDatabase.opened]

/-- **`Insert` returns**: nothing was to be done, or the loops returned and their
work is committed. -/
theorem insertReport_ret {f : Faults} {logs : List Json} {w w' : WriterDatabase}
    {rs : List RowResult} (hb : w.conn.begun = none)
    (h : insertReport cat f logs w = .ret w' rs) :
    ((cat.insertColumns = [] ∨ logs = []) ∧ w' = w ∧ rs = []) ∨
      (cat.insertColumns ≠ [] ∧ logs ≠ [] ∧
        ∃ w₁, insertRows cat f 0 logs w.opened = .ret w₁ rs ∧ w' = w₁.closed) := by
  by_cases hempty : cat.insertColumns = [] ∨ logs = []
  · left
    unfold insertReport at h
    rw [if_pos (by simpa using hempty)] at h
    cases h
    exact ⟨hempty, rfl, rfl⟩
  · right
    rw [not_or] at hempty
    refine ⟨hempty.1, hempty.2, ?_⟩
    cases hp : f.prepare with
    | some msg =>
      unfold insertReport at h
      rw [if_neg (by simp [hempty]), hp] at h
      cases h
    | none =>
      cases hf : f.begin with
      | some msg =>
        unfold insertReport at h
        rw [if_neg (by simp [hempty]), hp] at h
        simp [WriterDatabase.onConn, beginTransaction, hf] at h
      | none =>
        rw [insertReport_eq hb hempty.1 hempty.2 hp hf, Outcome.onThrow_eq_ret] at h
        obtain ⟨w₁, rs₁, hrows, h⟩ := Outcome.bind_eq_ret.mp h
        have hbegun : w₁.conn.begun = some w.conn.db := by
          have hkeep := insertRows_leaves (f := f) (kept_begun cat (some w.conn.db))
            logs 0 w.opened rfl
          rw [hrows] at hkeep
          exact hkeep
        cases hcm : f.commit with
        | some msg => simp [WriterDatabase.onConn, commit, hcm] at h
        | none =>
          simp only [WriterDatabase.onConn, commit, hcm, hbegun, Outcome.mapState_ret,
            Outcome.bind_ret, Outcome.ret.injEq] at h
          exact ⟨w₁, by rw [hrows, h.2], h.1.symm⟩

/-- The call fails before its transaction is open. -/
def FailsToOpen (f : Faults) (w : WriterDatabase) : Prop :=
  f.prepare ≠ none ∨ f.begin ≠ none ∨ w.conn.begun ≠ none

/-- If the transaction cannot be opened, nothing has happened. -/
theorem FailsToOpen.throw_eq {f : Faults} {logs : List Json} {w w' : WriterDatabase} {e : Bytes}
    (hopen : FailsToOpen f w) (hcols : cat.insertColumns ≠ []) (hlogs : logs ≠ [])
    (h : insertReport cat f logs w = .throw w' e) : w' = w := by
  unfold insertReport at h
  rw [if_neg (by simp [hcols, hlogs])] at h
  cases hp : f.prepare with
  | some msg =>
    rw [hp] at h
    cases h
    rfl
  | none =>
    rw [hp] at h
    cases hf : f.begin with
    | some msg =>
      simp only [WriterDatabase.onConn, beginTransaction, hf, Outcome.mapState_throw,
        Outcome.bind_throw, Outcome.throw.injEq] at h
      exact h.1.symm
    | none =>
      cases hb : w.conn.begun with
      | some db =>
        simp only [WriterDatabase.onConn, beginTransaction, hf, hb, Outcome.mapState_throw,
          Outcome.bind_throw, Outcome.throw.injEq] at h
        exact h.1.symm
      | none => simp [FailsToOpen, hp, hf, hb] at hopen

/-- Rolling back to the tables of an idle connection gives that connection. -/
theorem rollback_eq {c c' : Connection} (hb : c.begun = none) (hc : c'.begun = some c.db) :
    rollback c' = c := by
  unfold rollback
  rw [hc]
  show (⟨c.db, none⟩ : Connection) = c
  rw [← hb]

/-- **`Insert` throws**: the database is as it was; so is the dictionary, if the
transaction could not be opened, else it is as the loops left it. -/
theorem insertReport_throw {f : Faults} {logs : List Json} {w w' : WriterDatabase} {e : Bytes}
    (h : insertReport cat f logs w = .throw w' e) :
    w'.conn = w.conn ∧ ((FailsToOpen f w ∧ w'.colDict = w.colDict) ∨
      (¬ FailsToOpen f w ∧ ∃ w₁, ((∃ e, insertRows cat f 0 logs w.opened = .throw w₁ e) ∨
        ∃ rs, insertRows cat f 0 logs w.opened = .ret w₁ rs) ∧ w'.colDict = w₁.colDict)) := by
  by_cases hempty : cat.insertColumns = [] ∨ logs = []
  · unfold insertReport at h
    rw [if_pos (by simpa using hempty)] at h
    cases h
  rw [not_or] at hempty
  by_cases hopen : FailsToOpen f w
  · rw [hopen.throw_eq hempty.1 hempty.2 h]
    exact ⟨rfl, .inl ⟨hopen, rfl⟩⟩
  · have hopened := hopen
    simp only [FailsToOpen, ne_eq, not_or, not_not] at hopened
    obtain ⟨hp, hf, hb⟩ := hopened
    rw [insertReport_eq hb hempty.1 hempty.2 hp hf] at h
    obtain ⟨w₂, hthrow, rfl⟩ := Outcome.onThrow_eq_throw.mp h
    have hkeep := insertRows_leaves (f := f) (kept_begun cat (some w.conn.db))
      logs 0 w.opened rfl
    rcases Outcome.bind_eq_throw.mp hthrow with hthrow | ⟨w₁, rs, hrows, hthrow⟩
    · rw [hthrow] at hkeep
      exact ⟨rollback_eq hb hkeep, .inr ⟨hopen, w₂, .inl ⟨_, hthrow⟩, rfl⟩⟩
    · rw [hrows] at hkeep
      -- the loops returned, so it is `COMMIT` that failed, and it changed nothing
      have hw₂ : w₂ = w₁ := by
        cases hcm : f.commit with
        | some msg =>
          simp only [WriterDatabase.onConn, commit, hcm, Outcome.mapState_throw,
            Outcome.bind_throw, Outcome.throw.injEq] at hthrow
          exact hthrow.1.symm
        | none =>
          have hk : w₁.conn.begun = some w.conn.db := hkeep
          simp [WriterDatabase.onConn, commit, hcm, hk] at hthrow
      subst hw₂
      exact ⟨rollback_eq hb hkeep, .inr ⟨hopen, w₂, .inr ⟨rs, hrows⟩, rfl⟩⟩

end

end LogLite
