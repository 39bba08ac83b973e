import LogLite.Store.Sound

/-!
# Restart

When the server starts, `Initialize` rebuilds the column dictionary from
`column_dictionary`.  Its `value` column is declared `JSON`, which has `NUMERIC`
affinity, and both the write and the read go through a `char*`: a string that
denotes a number or contains a `NUL` byte may come back as another string.

## Main definitions

* `getColumnDictRows`, `loadLookup`, `initializeDatabase` — the start of the server.
* `RestartLaw` — the dictionary is what it was, and stored ids still decode.
* `Survives` — the strings that come back as they were.

## Main results

* `get?_loadLookup` — the rebuilt table, if no two rows contradict each other.
* `restartLaw_iff` — **the law holds after exactly those runs that put only
  surviving strings into compressed columns.**
-/

namespace LogLite

open Transition

/-! ### Rebuilding the dictionary -/

/-- `sqlite3_column_int` of an integer. -/
def columnInt (n : ℤ) : ℤ := n.bmod (2 ^ 32)

/-- `WriterDatabase::GetColumnDictRows`. -/
def getColumnDictRows (P : Platform) (db : Tables) : List (ColumnName × Bytes × ValueId) :=
  db.columnDictionary.map fun r =>
    (columnText P r.column, columnText P r.value, columnInt r.valueId)

/-- `lut[col][value] = id`, row by row. -/
def loadLookup (rows : List (ColumnName × Bytes × ValueId)) : LookupTable :=
  rows.foldl (fun lut r => lut.put r.1 r.2.1 r.2.2) ∅

/-- Closing the database and running `WriterDatabase::Initialize` on it again. -/
def initializeDatabase (P : Platform) (w : WriterDatabase) : WriterDatabase where
  conn := { w.conn with begun := none }
  colDict := loadLookup (getColumnDictRows P w.conn.db)

/-- Rows that do not give two ids to one value of a column. -/
def Functional (rows : List (ColumnName × Bytes × ValueId)) : Prop :=
  ∀ ⦃col value i j⦄, (col, value, i) ∈ rows → (col, value, j) ∈ rows → i = j

theorem mem_of_get?_foldl_put {col : ColumnName} {value : Bytes} {id : ValueId} :
    ∀ (rows : List (ColumnName × Bytes × ValueId)) (d : LookupTable),
      (rows.foldl (fun lut r => lut.put r.1 r.2.1 r.2.2) d).get? col value = some id →
        (col, value, id) ∈ rows ∨ d.get? col value = some id := by
  intro rows
  induction rows with
  | nil => exact fun d h => .inr h
  | cons r rows ih =>
    intro d h
    rcases ih _ h with hmem | hput
    · exact .inl (List.mem_cons_of_mem r hmem)
    · rw [LookupTable.get?_put] at hput
      split at hput
      · next hcv =>
        obtain rfl := Option.some.inj hput
        obtain ⟨rfl, rfl⟩ := hcv
        exact .inl List.mem_cons_self
      · exact .inr hput

theorem get?_foldl_put_isSome {col : ColumnName} {value : Bytes} :
    ∀ (rows : List (ColumnName × Bytes × ValueId)) (d : LookupTable),
      ((d.get? col value).isSome ∨ ∃ id, (col, value, id) ∈ rows) →
        ((rows.foldl (fun lut r => lut.put r.1 r.2.1 r.2.2) d).get? col value).isSome := by
  intro rows
  induction rows with
  | nil => simp
  | cons r rows ih =>
    intro d h
    refine ih _ ?_
    rw [LookupTable.get?_put]
    rcases h with hd | ⟨id, hmem⟩
    · left
      split
      · rfl
      · exact hd
    · rcases List.mem_cons.mp hmem with rfl | hmem
      · left
        simp
      · exact .inr ⟨id, hmem⟩

/-- Every entry of the rebuilt table comes from a row. -/
theorem mem_of_get?_loadLookup {rows : List (ColumnName × Bytes × ValueId)} {col : ColumnName}
    {value : Bytes} {id : ValueId} (h : (loadLookup rows).get? col value = some id) :
    (col, value, id) ∈ rows := by
  rcases mem_of_get?_foldl_put rows ∅ h with hmem | hempty
  · exact hmem
  · cases hempty

/-- The rebuilt table, if no two rows contradict each other. -/
theorem get?_loadLookup {rows : List (ColumnName × Bytes × ValueId)} (hf : Functional rows)
    {col : ColumnName} {value : Bytes} {id : ValueId} :
    (loadLookup rows).get? col value = some id ↔ (col, value, id) ∈ rows := by
  refine ⟨mem_of_get?_loadLookup, fun hmem => ?_⟩
  obtain ⟨i, hi⟩ := Option.isSome_iff_exists.mp (get?_foldl_put_isSome rows ∅ (.inr ⟨id, hmem⟩))
  have hmem' := mem_of_get?_loadLookup hi
  rw [← hf hmem' hmem]
  exact hi

/-! ### The strings that survive -/

section
variable (P : Platform)

/-- What a string becomes on its way through `column_dictionary.value`. -/
def throughJsonColumn (s : Bytes) : Bytes :=
  columnText P (Affinity.apply P (declaredAffinity (lit "JSON")) (.text (cstr s)))

/-- The string has no `NUL`, and if it denotes a number, it is written as SQLite
prints that number. -/
def Survives (s : Bytes) : Prop :=
  0 ∉ s ∧ (isNumeric s = true → columnText P (numericText P s) = s)

variable {P}

theorem throughJsonColumn_eq (s : Bytes) :
    throughJsonColumn P s = columnText P (numericText P (cstr s)) := rfl

/-- **The surviving strings are those that come back unchanged.** -/
theorem throughJsonColumn_eq_self_iff {s : Bytes} : throughJsonColumn P s = s ↔ Survives P s := by
  rw [throughJsonColumn_eq]
  constructor
  · intro h
    have hnul : 0 ∉ s := by
      rw [← h]
      exact zero_notMem_cstr _
    rw [cstr_eq_self_iff.mpr hnul] at h
    exact ⟨hnul, fun _ => h⟩
  · rintro ⟨hnul, hnum⟩
    have hs := cstr_eq_self_iff.mpr hnul
    rw [hs]
    cases hn : isNumeric s with
    | true => exact hnum hn
    | false =>
      rw [(numericText_text_iff P).mpr ⟨hn, rfl⟩]
      exact hs

end

/-! ### The law -/

section
variable (cat : DatabaseCatalog)

/-- Compressed columns survive a restart: the rebuilt dictionary is the one that
was in memory, and every id stored in a compressed column decodes to the string
that was inserted. -/
structure RestartLaw (w : WriterDatabase) : Prop where
  sameLookup : ∀ col value,
    (initializeDatabase cat.platform w).colDict.get? col value = w.colDict.get? col value
  decodes : ∀ r ∈ w.log, ∀ ci ∈ cat.insertColumns,
    cat.compressedColumns.contains ci.name = true → ∀ id, r.cell ci.name = .integer id →
      getValue (initializeDatabase cat.platform w).colDict ci.name id =
        .ok (dictText cat.platform (serializeValue cat.platform (r.source.find ci.name)))

variable {cat}

theorem columnInt_eq_self {n : ℤ} (h1 : 1 ≤ n) (h2 : n ≤ intMax) : columnInt n = n := by
  unfold intMax at h2
  unfold columnInt
  rw [Int.bmod_eq_of_le] <;> omega

/-- An integer stored in a compressed column is the id of the string of its log. -/
theorem Sound.get?_of_cell {w : WriterDatabase} (hw : Sound cat w) {r : LogRow} (hr : r ∈ w.log)
    {ci : ColumnInfo} (hci : ci ∈ cat.insertColumns)
    (hcomp : cat.compressedColumns.contains ci.name = true) {id : ℤ}
    (hcell : r.cell ci.name = .integer id) :
    w.colDict.get? ci.name
      (dictText cat.platform (serializeValue cat.platform (r.source.find ci.name))) = some id := by
  cases hnull : (r.source.find ci.name).isNull with
  | true =>
    rw [hw.cell_null hr hci hnull] at hcell
    cases hcell
  | false =>
    obtain ⟨id', hid', hstored⟩ := hw.cell_id hr hci hcomp hnull
    rw [hcell] at hstored
    have heq : id = id' := by
      cases ha : ci.affinity <;> rw [ha] at hstored <;>
        first | exact SqlValue.integer.inj hstored | cases hstored
    rw [heq]
    exact hid'

theorem InsertReturns.run_inv {w w' : WriterDatabase} {calls : List (Faults × List Json)}
    (h : Run (InsertReturns cat) w calls w') (hb : w.conn.begun = none) (hw : Sound cat w)
    (hs : Synced cat w) : Sound cat w' ∧ Synced cat w' ∧ ∀ col value,
      (w'.colDict.get? col value).isSome ↔ (w.colDict.get? col value).isSome ∨
        ∃ call ∈ calls, (col, value) ∈ encodedBatch cat call.2 := by
  induction h with
  | nil w => exact ⟨hw, hs, by simp⟩
  | @cons w w₁ w' call calls hstep _ ih =>
    have hw₁ : Sound cat w₁ := InsertEnds.sound (.inl hstep) hb hw
    have hs₁ : Synced cat w₁ := hstep.keeps kept_synced (fun _ h => h) (fun _ h => h) hb hs
    obtain ⟨hw', hs', hkeys⟩ := ih (hstep.begun hb) hw₁ hs₁
    refine ⟨hw', hs', fun col value => ?_⟩
    obtain ⟨rs, hret⟩ := hstep
    rw [hkeys, insertReport_get?_isSome hb hret, or_assoc]
    simp

/-- The rows `Initialize` reads, for the dictionary in memory. -/
theorem getColumnDictRows_eq {w : WriterDatabase} (hw : DictSound w.colDict)
    {entries : List (ColumnName × Bytes × ValueId)}
    (htable : w.conn.db.columnDictionary =
      entries.map fun e => persistedRow cat.platform e.1 e.2.1 e.2.2)
    (hnul : ∀ e ∈ entries, 0 ∉ e.1)
    (hentries : ∀ col value id, w.colDict.get? col value = some id ↔ (col, value, id) ∈ entries) :
    getColumnDictRows cat.platform w.conn.db =
      entries.map fun e => (e.1, throughJsonColumn cat.platform e.2.1, e.2.2) := by
  unfold getColumnDictRows
  rw [htable, List.map_map]
  refine List.map_congr_left ?_
  rintro ⟨col, value, id⟩ hmem
  obtain ⟨h1, h2⟩ := hw.range _ _ _ ((hentries col value id).mpr hmem)
  have hcol : columnText cat.platform (Affinity.apply cat.platform (declaredAffinity (lit "TEXT"))
      (.text (cstr col))) = col := by
    have hc := cstr_eq_self_iff.mpr (hnul _ hmem)
    show cstr (cstr col) = col
    rw [hc, hc]
  simp only [Function.comp_apply, persistedRow, hcol, columnInt_eq_self h1 h2]
  rfl

/-- The rebuilt dictionary is the one in memory if and only if every string in it
survives. -/
theorem sameLookup_iff {w : WriterDatabase} (hw : DictSound w.colDict) (hs : Synced cat w) :
    (∀ col value, (initializeDatabase cat.platform w).colDict.get? col value =
        w.colDict.get? col value) ↔
      ∀ col value, (w.colDict.get? col value).isSome → Survives cat.platform value := by
  obtain ⟨entries, htable, hnul, -, hentries⟩ := hs
  have hrows := getColumnDictRows_eq hw htable hnul hentries
  have hload : (initializeDatabase cat.platform w).colDict =
      loadLookup (entries.map fun e => (e.1, throughJsonColumn cat.platform e.2.1, e.2.2)) := by
    rw [← hrows]
    rfl
  rw [hload]
  constructor
  · intro hsame col value hsome
    obtain ⟨id, hid⟩ := Option.isSome_iff_exists.mp hsome
    -- the entry of `value` after the restart comes from a row, whose id says which row
    have hafter := mem_of_get?_loadLookup ((hsame col value).trans hid)
    obtain ⟨⟨col', value', id'⟩, hmem, heq⟩ := List.mem_map.mp hafter
    simp only [Prod.mk.injEq] at heq
    obtain ⟨rfl, hthrough, rfl⟩ := heq
    have hval : value' = value := hw.numbering _ ((hentries _ _ _).mpr hmem) hid
    subst hval
    exact throughJsonColumn_eq_self_iff.mp hthrough
  · intro hsurv
    have hid : (entries.map fun e => (e.1, throughJsonColumn cat.platform e.2.1, e.2.2)) =
        entries := by
      rw [List.map_congr_left, List.map_id]
      rintro ⟨col, value, id⟩ hmem
      have hsome : (w.colDict.get? col value).isSome := by
        rw [(hentries col value id).mpr hmem]
        rfl
      rw [throughJsonColumn_eq_self_iff.mpr (hsurv col value hsome)]
      rfl
    rw [hid]
    have hf : Functional entries := by
      intro col value i j hi hj
      rw [← hentries] at hi hj
      exact Option.some.inj (hi.symm.trans hj)
    intro col value
    ext id
    rw [get?_loadLookup hf, hentries]

/-- **Compressed columns survive a restart after exactly those runs that put only
surviving strings into them.** -/
theorem restartLaw_iff {w : WriterDatabase} {calls : List (Faults × List Json)}
    (h : Run (InsertReturns cat) .fresh calls w) :
    RestartLaw cat w ↔
      ∀ call ∈ calls, ∀ e ∈ encodedBatch cat call.2, Survives cat.platform e.2 := by
  obtain ⟨hw, hs, hkeys⟩ := InsertReturns.run_inv h rfl sound_fresh synced_fresh
  have hlookup := sameLookup_iff hw.dict hs
  constructor
  · intro hlaw call hcall e he
    refine hlookup.mp hlaw.sameLookup e.1 e.2 ?_
    rw [hkeys]
    exact .inr ⟨call, hcall, he⟩
  · intro hsurv
    have hsame := hlookup.mpr fun col value hsome => by
      rcases (hkeys col value).mp hsome with hfresh | ⟨call, hcall, he⟩
      · cases hfresh
      · exact hsurv call hcall _ he
    refine ⟨hsame, fun r hr ci hci hcomp id hcell => ?_⟩
    have hid := hw.get?_of_cell hr hci hcomp hcell
    rw [← hsame] at hid
    refine getValue_of_get? ?_ hid
    intro a b i ha hb
    rw [hsame] at ha hb
    exact hw.dict.numbering _ ha hb

end

/-- `INFO` survives a restart. -/
theorem restartLaw_info : ∃ w,
    Run (InsertReturns levelCatalog) .fresh [(.none, [levelLog "INFO"])] w ∧
      RestartLaw levelCatalog w := by
  have hrun : ∃ w, InsertReturns levelCatalog .fresh (.none, [levelLog "INFO"]) w := ⟨_, _, rfl⟩
  obtain ⟨w, hw⟩ := hrun
  refine ⟨w, .single hw, (restartLaw_iff (.single hw)).mpr ?_⟩
  intro call hcall e he
  obtain rfl := List.mem_singleton.mp hcall
  have hbatch : encodedBatch levelCatalog [levelLog "INFO"] = [(lit "level", lit "INFO")] := rfl
  rw [hbatch, List.mem_singleton] at he
  rw [he]
  exact ⟨by decide, by decide⟩

/-- `007` does not: it is stored as the number 7. -/
theorem restartLaw_fails : ¬ ∀ (cat : DatabaseCatalog) (w : WriterDatabase)
    (calls : List (Faults × List Json)),
      Run (InsertReturns cat) .fresh calls w → RestartLaw cat w := by
  intro h
  have hlaw := h levelCatalog _ [(.none, [levelLog "007"])] (.single ⟨_, rfl⟩)
  have hsame := hlaw.sameLookup (lit "level") (lit "007")
  revert hsame
  decide

end LogLite
