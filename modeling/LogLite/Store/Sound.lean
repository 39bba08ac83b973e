import LogLite.Lib.Run
import LogLite.Store.InsertRule

/-!
# What every database keeps

A database that was created empty and has only been written through `Insert` has
a dictionary without repeated ids, rows that are the encodings of the logs they
were made from, and, as long as no call has thrown, a dictionary table that is the
image of the dictionary in memory.

## Main definitions

* `DictSound` — no two values of a column share an id, and ids are positive `int`s.
* `Coherent` — every row is the encoding of its log.
* `Synced` — the dictionary table is the dictionary in memory, as persisted.
* `encodedValues` — the strings of a log that go through the dictionary.
* `InsertReturns`, `InsertEnds` — a call of `Insert` as a step of the writer.

## Main results

* `kept_sound`, `kept_synced` — `Insert` keeps all three.
* `insertReport_get?_isSome` — a successful `Insert` gives an id to exactly the
  strings that went through the dictionary.
-/

namespace LogLite

open Transition

/-! ### The invariants -/

/-- The ids of the dictionary. -/
structure DictSound (d : LookupTable) : Prop where
  numbering : ∀ col, Interning.Numbering (d.get? col)
  range : ∀ col value (id : ℤ), d.get? col value = some id → 1 ≤ id ∧ id ≤ intMax

section
variable (cat : DatabaseCatalog)

/-- Every row holds the encoding of the log it was made from. -/
def Coherent (w : WriterDatabase) : Prop :=
  ∀ r ∈ w.log, RowCells cat w.colDict r.source cat.insertColumns r.cells

/-- The dictionary in memory and the rows of its table, entry by entry. -/
def Synced (w : WriterDatabase) : Prop :=
  ∃ entries : List (ColumnName × Bytes × ValueId),
    w.conn.db.columnDictionary =
        entries.map (fun e => persistedRow cat.platform e.1 e.2.1 e.2.2) ∧
      (∀ e ∈ entries, 0 ∉ e.1) ∧ (entries.map fun e => (e.1, e.2.1)).Nodup ∧
      ∀ col value id, w.colDict.get? col value = some id ↔ (col, value, id) ∈ entries

/-- Only the columns that `Insert` writes are in the dictionary. -/
def DictColumns (d : LookupTable) : Prop :=
  ∀ col value, (d.get? col value).isSome → ∃ ci ∈ cat.insertColumns, ci.name = col

/-- The dictionary is sound and the rows fit it. -/
structure Sound (w : WriterDatabase) : Prop where
  dict : DictSound w.colDict
  columns : DictColumns cat w.colDict
  rows : Coherent cat w

variable {cat}

theorem newId_range {m : ColumnMap} {id : ℤ} (hid : newId m = some id)
    (hm : ∀ value (i : ℤ), m.lookup value = some i → 1 ≤ i ∧ i ≤ intMax) :
    1 ≤ id ∧ id ≤ intMax := by
  unfold newId at hid
  cases hmax : maxValueId m with
  | none =>
    rw [hmax] at hid
    obtain rfl : (1 : ℤ) = id := Option.some.inj hid
    decide
  | some j =>
    rw [hmax] at hid
    simp only at hid
    split at hid
    · next hlt =>
      obtain rfl : j + 1 = id := Option.some.inj hid
      obtain ⟨e, he, rfl⟩ := List.mem_map.mp (List.max?_eq_some_iff.mp hmax).1
      have h1 := (hm e.1 e.2 (AList.mem_lookup_iff.mpr he)).1
      have hlt' : (e.2 : ℤ) < intMax := hlt
      constructor
      · exact le_trans h1 (by exact Int.le_add_one (le_refl _))
      · exact hlt'
    · cases hid

theorem DictSound.empty : DictSound ∅ where
  numbering := fun _ => Interning.numbering_none
  range := by
    intro col value id h
    cases h

theorem DictSound.touch {d : LookupTable} (h : DictSound d) (col : ColumnName) :
    DictSound (d.touch col) where
  numbering := by
    intro col' a b i ha hb
    rw [LookupTable.get?_touch] at ha hb
    exact h.numbering col' ha hb
  range := by
    intro col' value id hv
    rw [LookupTable.get?_touch] at hv
    exact h.range col' value id hv

theorem DictSound.put {d : LookupTable} (h : DictSound d) {col : ColumnName} {id : ValueId}
    (value : Bytes) (hid : newId (d.colMap col) = some id) : DictSound (d.put col value id) where
  numbering := by
    intro col'
    by_cases hc : col' = col
    · subst hc
      rw [LookupTable.get?_put_self]
      exact (h.numbering col').update (newId_unused hid)
    · rw [LookupTable.get?_put_of_ne d value id hc]
      exact h.numbering col'
  range := by
    intro col' value' i hv
    rw [LookupTable.get?_put] at hv
    split at hv
    · obtain rfl : id = i := Option.some.inj hv
      exact newId_range hid fun v j hj => h.range col v j hj
    · exact h.range col' value' i hv

/-! ### `Insert` keeps them -/

variable (cat) in
theorem kept_dictSound : Kept cat fun w => DictSound w.colDict where
  touch := fun w col h => h.touch col
  addEntry := by
    intro w ci value id _ _ _ hid h
    refine (h.touch ci.name).put value ?_
    rw [LookupTable.colMap_touch]
    exact hid
  appendRow := fun w log cells _ _ h => h

theorem kept_dictColumns : Kept cat fun w => DictColumns cat w.colDict where
  touch := by
    intro w col h col' value hsome
    rw [WriterDatabase.touch_colDict, LookupTable.get?_touch] at hsome
    exact h col' value hsome
  addEntry := by
    intro w ci value id hci _ _ _ h col' value' hsome
    rw [WriterDatabase.addEntry_get?] at hsome
    split at hsome
    · next hcv => exact ⟨ci, hci, hcv.1.symm⟩
    · exact h col' value' hsome
  appendRow := fun w log cells _ _ h => h

theorem kept_coherent : Kept cat (Coherent cat) where
  touch := by
    intro w col h r hr
    refine (h r hr).mono fun col' value i hv => ?_
    rw [WriterDatabase.touch_colDict, LookupTable.get?_touch]
    exact hv
  addEntry := by
    intro w ci value id hci hc hnone hid h r hr
    -- a new entry changes no id, so the rows written so far still fit
    exact (h r hr).mono
      ((kept_extends cat w.colDict).addEntry w ci value id hci hc hnone hid
        fun _ => Interning.Extends.refl _)
  appendRow := by
    intro w log cells hcells _ h r hr
    rw [WriterDatabase.appendRow_log, List.mem_append, List.mem_singleton] at hr
    rcases hr with hr | rfl
    · exact h r hr
    · exact hcells

theorem kept_sound : Kept cat (Sound cat) where
  touch := fun w col h => ⟨(kept_dictSound cat).touch w col h.dict,
    kept_dictColumns.touch w col h.columns, kept_coherent.touch w col h.rows⟩
  addEntry := fun w ci value id hci hc hn hid h =>
    ⟨(kept_dictSound cat).addEntry w ci value id hci hc hn hid h.dict,
      kept_dictColumns.addEntry w ci value id hci hc hn hid h.columns,
      kept_coherent.addEntry w ci value id hci hc hn hid h.rows⟩
  appendRow := fun w log cells hr ha h =>
    ⟨(kept_dictSound cat).appendRow w log cells hr ha h.dict,
      kept_dictColumns.appendRow w log cells hr ha h.columns,
      kept_coherent.appendRow w log cells hr ha h.rows⟩

theorem kept_synced : Kept cat (Synced cat) where
  touch := by
    rintro w col ⟨entries, htable, hnul, hnodup, hentries⟩
    refine ⟨entries, htable, hnul, hnodup, fun col' value id => ?_⟩
    rw [WriterDatabase.touch_colDict, LookupTable.get?_touch]
    exact hentries col' value id
  addEntry := by
    rintro w ⟨col, type, notNull, isPk, h0⟩ value id - - hnone -
      ⟨entries, htable, hnul, hnodup, hentries⟩
    have hnew : ∀ id', (col, value, id') ∉ entries := by
      intro id' hmem
      rw [← hentries, hnone] at hmem
      cases hmem
    refine ⟨entries ++ [(col, value, id)], ?_, ?_, ?_, ?_⟩
    · show w.conn.db.columnDictionary ++ [persistedRow cat.platform col value id] = _
      rw [htable, List.map_append]
      rfl
    · intro e he
      rw [List.mem_append, List.mem_singleton] at he
      rcases he with he | rfl
      · exact hnul e he
      · exact h0
    · rw [List.map_append, List.nodup_append]
      refine ⟨hnodup, by simp, ?_⟩
      rintro p hp q hq rfl
      obtain ⟨⟨col', value', id'⟩, hmem, rfl⟩ := List.mem_map.mp hp
      simp only [List.map_cons, List.map_nil, List.mem_singleton, Prod.mk.injEq] at hq
      obtain ⟨rfl, rfl⟩ := hq
      exact hnew id' hmem
    · intro col' value' id'
      rw [WriterDatabase.addEntry_get?, List.mem_append, List.mem_singleton]
      by_cases hcv : col' = col ∧ value' = value
      · obtain ⟨rfl, rfl⟩ := hcv
        simp [hnew id', eq_comm]
      · rw [if_neg hcv, hentries]
        have hne : (col', value', id') ≠ (col, value, id) := by
          intro heq
          cases heq
          exact hcv ⟨rfl, rfl⟩
        simp [hne]
  appendRow := fun w log cells _ _ h => h

theorem Sound.opened {w : WriterDatabase} (h : Sound cat w) : Sound cat w.opened :=
  ⟨h.dict, h.columns, h.rows⟩

theorem Sound.closed {w : WriterDatabase} (h : Sound cat w) : Sound cat w.closed :=
  ⟨h.dict, h.columns, h.rows⟩

theorem sound_fresh : Sound cat .fresh where
  dict := .empty
  columns := by
    intro col value h
    cases h
  rows := by
    intro r hr
    cases hr

theorem synced_fresh : Synced cat .fresh := by
  refine ⟨[], rfl, by simp, .nil, fun col value id => ?_⟩
  simp [WriterDatabase.fresh]

/-! ### The cells of a row -/

theorem Sound.toInt64_id {w : WriterDatabase} (hw : Sound cat w) {col : ColumnName}
    {value : Bytes} {id : ValueId} (h : w.colDict.get? col value = some id) : toInt64 id = id := by
  obtain ⟨h1, h2⟩ := hw.dict.range col value id h
  rw [toInt64_eq_self_iff, fitsInt64_iff]
  unfold intMax at h2
  omega

section
variable {w : WriterDatabase} {r : LogRow} {ci : ColumnInfo}

/-- The cell of a column that is not compressed. -/
theorem Sound.cell_plain (hw : Sound cat w) (hr : r ∈ w.log) (hci : ci ∈ cat.insertColumns)
    (hcomp : cat.compressedColumns.contains ci.name = false) :
    r.cell ci.name =
      storedCell cat ci (serializeValue cat.platform (r.source.find ci.name)) := by
  obtain ⟨bound, henc, hfind⟩ := (hw.rows r hr).find? cat.insertColumns_nodup hci
  rcases henc with ⟨hc, -⟩ | ⟨-, rfl⟩
  · rw [Compresses, hcomp] at hc
    cases hc.1
  · rw [LogRow.cell, hfind]
    rfl

/-- The cell of a compressed column holds the id of the string. -/
theorem Sound.cell_id (hw : Sound cat w) (hr : r ∈ w.log) (hci : ci ∈ cat.insertColumns)
    (hcomp : cat.compressedColumns.contains ci.name = true)
    (hnull : (r.source.find ci.name).isNull = false) :
    ∃ id, w.colDict.get? ci.name (dictText cat.platform
        (serializeValue cat.platform (r.source.find ci.name))) = some id ∧
      r.cell ci.name = Affinity.apply cat.platform ci.affinity (.integer id) := by
  obtain ⟨bound, henc, hfind⟩ := (hw.rows r hr).find? cat.insertColumns_nodup hci
  rcases henc with ⟨-, id, hid, rfl⟩ | ⟨hc, -⟩
  · refine ⟨id, hid, ?_⟩
    rw [LogRow.cell, hfind]
    show Affinity.apply cat.platform ci.affinity (.integer (toInt64 id)) = _
    rw [hw.toInt64_id hid]
  · rw [Compresses, serializeValue_isNull] at hc
    exact absurd ⟨hcomp, hnull⟩ hc

/-- The cell of a null. -/
theorem Sound.cell_null (hw : Sound cat w) (hr : r ∈ w.log) (hci : ci ∈ cat.insertColumns)
    (hnull : (r.source.find ci.name).isNull = true) : r.cell ci.name = .null := by
  obtain ⟨bound, henc, hfind⟩ := (hw.rows r hr).find? cat.insertColumns_nodup hci
  rcases henc with ⟨hc, -⟩ | ⟨-, rfl⟩
  · rw [Compresses, serializeValue_isNull, hnull] at hc
    cases hc.2
  · rw [LogRow.cell, hfind, Json.isNull_iff.mp hnull]
    exact apply_null cat.platform ci.affinity

/-- A column that `Insert` does not write has no cell. -/
theorem Sound.cell_of_isPk (hw : Sound cat w) (hr : r ∈ w.log) (hci : ci ∈ cat.logColumnInfo)
    (hpk : ci.isPk = true) : r.cell ci.name = .null := by
  rw [LogRow.cell, (hw.rows r hr).find?_eq_none fun ci' hci' heq =>
    cat.name_ne_of_isPk hci hpk hci' heq.symm]
  rfl

end

/-! ### The strings that go through the dictionary -/

variable (cat) in
/-- The strings of a log that go through the dictionary: those of the compressed
columns before the first required column that is missing. -/
def encodedValues (log : Json) : List ColumnInfo → List (ColumnName × Bytes)
  | [] => []
  | ci :: cols =>
    let raw := log.find ci.name
    if ci.notNull && raw.isNull then []
    else if cat.compressedColumns.contains ci.name && !raw.isNull then
      (ci.name, dictText cat.platform (serializeValue cat.platform raw)) :: encodedValues log cols
    else encodedValues log cols

variable (cat) in
/-- The strings of a batch that go through the dictionary. -/
def encodedBatch (logs : List Json) : List (ColumnName × Bytes) :=
  logs.flatMap fun log => encodedValues cat log cat.insertColumns

/-- `encodeValue` gives an id to its own string and to no other. -/
theorem encodeValue_get?_isSome {fault : Option DictFault} {col : ColumnName} {v b : Json}
    {w w' : WriterDatabase} (he : encodeValue cat fault col v w = .ret w' b) (col' : ColumnName)
    (value : Bytes) :
    (w'.colDict.get? col' value).isSome ↔ (w.colDict.get? col' value).isSome ∨
      (Compresses cat col v ∧ col' = col ∧ value = dictText cat.platform v) := by
  obtain ⟨id, h, hid, rfl, -⟩ | ⟨id, h, -, rfl, -⟩ | ⟨h, rfl, -⟩ := encodeValue_eq_ret he
  · rw [WriterDatabase.touch_colDict, LookupTable.get?_touch]
    constructor
    · exact .inl
    · rintro (hs | ⟨-, rfl, rfl⟩)
      · exact hs
      · rw [hid]
        rfl
  · rw [WriterDatabase.addEntry_get?]
    by_cases hcv : col' = col ∧ value = dictText cat.platform v
    · simp [hcv, h]
    · simp [hcv]
  · simp [h]

theorem encodeRow_get?_isSome {faults : ℕ → Option DictFault} {log : Json} {col : ColumnName}
    {value : Bytes} : ∀ (cols : List ColumnInfo) (j : ℕ) (w w' : WriterDatabase)
    (enc : Except ColumnName (List (ColumnName × SqlValue))),
      encodeRow cat faults log j cols w = .ret w' enc →
        ((w'.colDict.get? col value).isSome ↔
          (w.colDict.get? col value).isSome ∨ (col, value) ∈ encodedValues cat log cols) := by
  intro cols
  induction cols with
  | nil =>
    rintro j w w' enc ⟨⟩
    simp [encodedValues]
  | cons ci cols ih =>
    intro j w w' enc he
    obtain ⟨hmiss, rfl, -⟩ | ⟨hmiss, w₁, b, cells, hb, hcells, -⟩ := encodeRow_cons_eq_ret he
    · simp [encodedValues, hmiss]
    · rw [ih (j + 1) w₁ _ cells hcells, encodeValue_get?_isSome hb, encodedValues]
      simp only [hmiss, Bool.false_eq_true, if_false]
      by_cases hc : Compresses cat ci.name (serializeValue cat.platform (log.find ci.name))
      · have hc' := hc
        simp only [Compresses, serializeValue_isNull] at hc'
        rw [if_pos (by simpa using hc')]
        simp [hc, or_assoc]
      · have hc' := hc
        simp only [Compresses, serializeValue_isNull] at hc'
        rw [if_neg (by simpa using hc')]
        simp [hc]

theorem insertRows_get?_isSome {f : Faults} {col : ColumnName} {value : Bytes} :
    ∀ (logs : List Json) (i : ℕ) (w w' : WriterDatabase) (rs : List RowResult),
      insertRows cat f i logs w = .ret w' rs →
        ((w'.colDict.get? col value).isSome ↔
          (w.colDict.get? col value).isSome ∨ (col, value) ∈ encodedBatch cat logs) := by
  intro logs
  induction logs with
  | nil =>
    rintro i w w' rs ⟨⟩
    simp [encodedBatch]
  | cons log logs ih =>
    intro i w w' rs h
    obtain ⟨w₁, r, rs₂, hrow, hrows, rfl⟩ := insertRows_cons_eq_ret h
    obtain ⟨w₃, enc, henc, hcase⟩ := insertRow_eq_ret hrow
    have hdict : w₁.colDict = w₃.colDict := by
      rcases hcase with ⟨col, -, rfl, -⟩ | ⟨cells, -, -, hstep⟩
      · rfl
      · have hsame : (stepRow cat (f.row i) cells log w₃).1.colDict = w₃.colDict :=
          stepRow_colDict
        rwa [hstep] at hsame
    rw [ih (i + 1) w₁ _ rs₂ hrows, hdict, encodeRow_get?_isSome _ _ _ _ _ henc, or_assoc]
    simp [encodedBatch]

theorem encodedBatch_of_insertColumns_eq_nil {logs : List Json} (h : cat.insertColumns = []) :
    encodedBatch cat logs = [] := by
  simp [encodedBatch, h, encodedValues]

/-- **A successful `Insert` gives an id to exactly the strings of the batch that
go through the dictionary.** -/
theorem insertReport_get?_isSome {f : Faults} {logs : List Json} {w w' : WriterDatabase}
    {rs : List RowResult} (hb : w.conn.begun = none)
    (h : insertReport cat f logs w = .ret w' rs) (col : ColumnName) (value : Bytes) :
    (w'.colDict.get? col value).isSome ↔
      (w.colDict.get? col value).isSome ∨ (col, value) ∈ encodedBatch cat logs := by
  rcases insertReport_ret hb h with ⟨hempty, rfl, -⟩ | ⟨-, -, w₁, hrows, rfl⟩
  · have hnil : encodedBatch cat logs = [] := by
      rcases hempty with hc | rfl
      · exact encodedBatch_of_insertColumns_eq_nil hc
      · rfl
    simp [hnil]
  · exact insertRows_get?_isSome logs 0 w.opened w₁ rs hrows

/-! ### Calls of `Insert` as steps -/

variable (cat) in
/-- A successful call. -/
def InsertReturns (w : WriterDatabase) (call : Faults × List Json) (w' : WriterDatabase) : Prop :=
  ∃ rs, insertReport cat call.1 call.2 w = .ret w' rs

variable (cat) in
/-- A call that returns or throws. -/
def InsertEnds (w : WriterDatabase) (call : Faults × List Json) (w' : WriterDatabase) : Prop :=
  InsertReturns cat w call w' ∨ ∃ e, insertReport cat call.1 call.2 w = .throw w' e

theorem InsertReturns.begun {w w' : WriterDatabase} {call : Faults × List Json}
    (h : InsertReturns cat w call w') (hb : w.conn.begun = none) : w'.conn.begun = none := by
  obtain ⟨rs, h⟩ := h
  rcases insertReport_ret hb h with ⟨-, rfl, -⟩ | ⟨-, -, w₁, -, rfl⟩
  · exact hb
  · rfl

/-- Between calls no transaction is open. -/
theorem InsertEnds.begun {w w' : WriterDatabase} {call : Faults × List Json}
    (h : InsertEnds cat w call w') (hb : w.conn.begun = none) : w'.conn.begun = none := by
  rcases h with hret | ⟨e, hthrow⟩
  · exact hret.begun hb
  · rw [(insertReport_throw hthrow).1]
    exact hb

/-- What the loops keep and a transaction does not touch, a successful call keeps. -/
theorem InsertReturns.keeps {I : WriterDatabase → Prop} (hI : Kept cat I)
    (ho : ∀ w, I w → I w.opened) (hc : ∀ w, I w → I w.closed) {w w' : WriterDatabase}
    {call : Faults × List Json} (hb : w.conn.begun = none) (h : InsertReturns cat w call w')
    (hw : I w) : I w' := by
  obtain ⟨rs, h⟩ := h
  rcases insertReport_ret hb h with ⟨-, rfl, -⟩ | ⟨-, -, w₁, hrows, rfl⟩
  · exact hw
  · have hkeep := insertRows_leaves hI (f := call.1) call.2 0 w.opened (ho w hw)
    rw [hrows] at hkeep
    exact hc w₁ hkeep

/-- A call that throws keeps what the loops keep of the dictionary. -/
theorem insertReport_throw_keeps {I : LookupTable → Prop} (hI : Kept cat fun w => I w.colDict)
    {f : Faults} {logs : List Json} {w w' : WriterDatabase} {e : Bytes} (hw : I w.colDict)
    (h : insertReport cat f logs w = .throw w' e) : I w'.colDict := by
  obtain ⟨-, ⟨-, hdict⟩ | ⟨-, w₁, hloops, hdict⟩⟩ := insertReport_throw h
  · rw [hdict]
    exact hw
  · have hleaves := insertRows_leaves hI (f := f) logs 0 w.opened hw
    rw [hdict]
    rcases hloops with ⟨e', hloops⟩ | ⟨rs, hloops⟩ <;> rw [hloops] at hleaves <;> exact hleaves

/-- A call that throws changes no id. -/
theorem insertReport_throw_extends {f : Faults} {logs : List Json} {w w' : WriterDatabase}
    {e : Bytes} (h : insertReport cat f logs w = .throw w' e) (col : ColumnName) :
    Interning.Extends (w.colDict.get? col) (w'.colDict.get? col) :=
  insertReport_throw_keeps
    (I := fun d => ∀ col, Interning.Extends (w.colDict.get? col) (d.get? col))
    (kept_extends cat w.colDict) (fun _ => Interning.Extends.refl _) h col

/-- **`Insert` keeps the dictionary sound and the rows readable, however it ends.** -/
theorem InsertEnds.sound {w w' : WriterDatabase} {call : Faults × List Json}
    (h : InsertEnds cat w call w') (hb : w.conn.begun = none) (hw : Sound cat w) :
    Sound cat w' := by
  rcases h with hret | ⟨e, hthrow⟩
  · exact hret.keeps kept_sound (fun _ h => h.opened) (fun _ h => h.closed) hb hw
  · refine ⟨insertReport_throw_keeps (kept_dictSound cat) hw.dict hthrow,
      insertReport_throw_keeps kept_dictColumns hw.columns hthrow, fun r hr => ?_⟩
    rw [WriterDatabase.log, (insertReport_throw hthrow).1] at hr
    exact (hw.rows r hr).mono (insertReport_throw_extends hthrow)

end

end LogLite
