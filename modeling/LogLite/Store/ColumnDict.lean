import LogLite.Base.Bytes
import LogLite.Lib.Interning
import LogLite.Lib.Outcome
import Mathlib.Algebra.Ring.Int.Defs
import Mathlib.Data.List.AList
import Mathlib.Order.Defs.LinearOrder
import Mathlib.Data.Int.Order.Basic

/-!
# The column dictionary

For each compressed column `ColumnDictionary` keeps a map from the strings seen
in it to ids; the log table stores the ids.  A new string gets the largest id of
its column plus one, and is written to the database by the persist callback
before the map is updated.

A `LookupTable` is a map of maps, as in the code; an unordered map is an
association list, whose order nothing depends on.  What a table means is the
partial function `get?`.

## Main definitions

* `LookupTable`, `LookupTable.get?` — the table and its meaning.
* `newId` — the next id of a column, if `max + 1` is an `int`.
* `getOrCreate`, `getValue` — `ColumnDictionary::GetOrCreate` and `GetValue`.

## Main results

* `get?_put` — the meaning of an update.
* `getOrCreate_hit`, `getOrCreate_miss` — what `getOrCreate` does.
* `getValue_of_get?` — a table without repeated ids decodes what it encodes.
-/

namespace LogLite

/-- `using ValueId = int`. -/
abbrev ValueId := ℤ

/-- `using ColumnName = std::string`. -/
abbrev ColumnName := Bytes

/-- The map of one column: `std::unordered_map<std::string, ValueId>`. -/
abbrev ColumnMap := AList fun _ : Bytes => ValueId

/-- Column, then value, to id. -/
abbrev LookupTable := AList fun _ : ColumnName => ColumnMap

/-- The largest `int`. -/
def intMax : ℤ := 2 ^ 31 - 1

namespace LookupTable

/-- The map of a column; a column that was never used has none, which is as good
as an empty one. -/
def colMap (d : LookupTable) (col : ColumnName) : ColumnMap := (d.lookup col).getD ∅

/-- The id of a value of a column. -/
def get? (d : LookupTable) (col : ColumnName) (value : Bytes) : Option ValueId :=
  (d.colMap col).lookup value

/-- `lookup_[col]`: creates the map of the column if there is none. -/
def touch (d : LookupTable) (col : ColumnName) : LookupTable :=
  match d.lookup col with
  | some _ => d
  | none => d.insert col ∅

/-- `lookup_[col][value] = id`. -/
def put (d : LookupTable) (col : ColumnName) (value : Bytes) (id : ValueId) : LookupTable :=
  d.insert col ((d.colMap col).insert value id)

@[simp] theorem get?_empty (col : ColumnName) (value : Bytes) :
    get? ∅ col value = none := rfl

@[simp] theorem colMap_touch (d : LookupTable) (col col' : ColumnName) :
    (d.touch col).colMap col' = d.colMap col' := by
  unfold touch
  cases h : d.lookup col with
  | some m => rfl
  | none =>
    unfold colMap
    by_cases hc : col' = col
    · subst hc
      simp [h]
    · rw [AList.lookup_insert_ne hc]

@[simp] theorem get?_touch (d : LookupTable) (col col' : ColumnName) (value : Bytes) :
    (d.touch col).get? col' value = d.get? col' value := by
  unfold get?
  rw [colMap_touch]

theorem colMap_put (d : LookupTable) (col col' : ColumnName) (value : Bytes) (id : ValueId) :
    (d.put col value id).colMap col' =
      if col' = col then (d.colMap col).insert value id else d.colMap col' := by
  show ((d.insert col ((d.colMap col).insert value id)).lookup col').getD ∅ = _
  by_cases hc : col' = col
  · subst hc
    rw [AList.lookup_insert, if_pos rfl]
    rfl
  · rw [AList.lookup_insert_ne hc, if_neg hc]
    rfl

/-- The meaning of an update. -/
theorem get?_put (d : LookupTable) (col col' : ColumnName) (value value' : Bytes) (id : ValueId) :
    (d.put col value id).get? col' value' =
      if col' = col ∧ value' = value then some id else d.get? col' value' := by
  unfold get?
  rw [colMap_put]
  by_cases hc : col' = col
  · subst hc
    by_cases hv : value' = value
    · subst hv
      simp
    · simp [AList.lookup_insert_ne hv, hv]
  · simp [hc]

/-- In one column an update is an update of the partial function. -/
theorem get?_put_self (d : LookupTable) (col : ColumnName) (value : Bytes) (id : ValueId) :
    (d.put col value id).get? col = Function.update (d.get? col) value (some id) := by
  funext value'
  rw [get?_put, Function.update_apply]
  simp

theorem get?_put_of_ne (d : LookupTable) {col col' : ColumnName} (value : Bytes) (id : ValueId)
    (h : col' ≠ col) : (d.put col value id).get? col' = d.get? col' := by
  funext value'
  rw [get?_put, if_neg fun hc => h hc.1]

end LookupTable

/-- `max_element` over the ids of a column. -/
def maxValueId (m : ColumnMap) : Option ValueId := (m.entries.map fun e => e.2).max?

/-- The id of the next new value of a column: one for the first, else the
largest plus one.  Past the largest `int` the addition is undefined. -/
def newId (m : ColumnMap) : Option ValueId :=
  match maxValueId m with
  | none => some 1
  | some i => if i < intMax then some (i + 1) else none

theorem le_maxValueId {m : ColumnMap} {value : Bytes} {i : ℤ} (h : m.lookup value = some i) :
    ∃ j : ℤ, maxValueId m = some j ∧ i ≤ j := by
  have hmem : i ∈ m.entries.map fun e => e.2 :=
    List.mem_map.mpr ⟨⟨value, i⟩, AList.mem_lookup_iff.mp h, rfl⟩
  cases hmax : maxValueId m with
  | none =>
    rw [maxValueId, List.max?_eq_none_iff] at hmax
    rw [hmax] at hmem
    cases hmem
  | some j => exact ⟨j, rfl, (List.max?_eq_some_iff.mp hmax).2 i hmem⟩

/-- A new id is larger than every id of its column. -/
theorem lt_newId {m : ColumnMap} {value : Bytes} {i id : ℤ} (hid : newId m = some id)
    (h : m.lookup value = some i) : i < id := by
  obtain ⟨j, hj, hij⟩ := le_maxValueId h
  unfold newId at hid
  rw [hj] at hid
  simp only at hid
  split at hid
  · obtain rfl : j + 1 = id := Option.some.inj hid
    omega
  · cases hid

/-- A new id is not in use in its column. -/
theorem newId_unused {m : ColumnMap} {id : ValueId} (hid : newId m = some id) (value : Bytes) :
    m.lookup value ≠ some id := by
  intro h
  exact absurd (lt_newId hid h) (lt_irrefl id)

/-! ### Operations -/

/-- The persist callback: writes one entry, says whether it did, or throws. -/
abbrev PersistFn (σ : Type) := ColumnName → Bytes → ValueId → σ → Outcome σ Bytes Bool

/-- The message of a failed update of the compression table. -/
def persistFailed (col : ColumnName) (value : Bytes) : Bytes :=
  lit "Failed to update the compression table for column '" ++ col ++ lit "' and value '" ++
    value ++ lit "'"

section
variable {σ : Type}

/-- The map is updated once the entry has been written. -/
def getOrCreateNew (persist : Option (PersistFn σ)) (d : LookupTable) (s : σ) (col : ColumnName)
    (value : Bytes) (id : ValueId) : Outcome (LookupTable × σ) Bytes ValueId :=
  match persist with
  | none => .ret (d.put col value id, s) id
  | some persist =>
    match persist col value id s with
    | .ret s true => .ret (d.put col value id, s) id
    | .ret s false => .throw (d, s) (persistFailed col value)
    | .throw s what => .throw (d, s) what
    | .undefined => .undefined

/-- `ColumnDictionary::GetOrCreate`, with the state of the database it writes to. -/
def getOrCreate (persist : Option (PersistFn σ)) (d : LookupTable) (s : σ) (col : ColumnName)
    (value : Bytes) : Outcome (LookupTable × σ) Bytes ValueId :=
  let d := d.touch col
  match d.get? col value with
  | some id => .ret (d, s) id
  | none =>
    match newId (d.colMap col) with
    | none => .undefined
    | some id => getOrCreateNew persist d s col value id

theorem getOrCreate_hit (persist : Option (PersistFn σ)) {d : LookupTable} (s : σ)
    {col : ColumnName} {value : Bytes} {id : ValueId} (h : d.get? col value = some id) :
    getOrCreate persist d s col value = .ret (d.touch col, s) id := by
  simp [getOrCreate, h]

theorem getOrCreate_miss (persist : Option (PersistFn σ)) {d : LookupTable} (s : σ)
    {col : ColumnName} {value : Bytes} (h : d.get? col value = none) :
    getOrCreate persist d s col value =
      match newId (d.colMap col) with
      | none => .undefined
      | some id => getOrCreateNew persist (d.touch col) s col value id := by
  simp [getOrCreate, h]

end

/-- The message of a lookup in a column without a dictionary. -/
def unknownColumn (col : ColumnName) : Bytes :=
  lit "Unknown compressed column: '" ++ col ++ lit "'"

/-- The message of a lookup of an id that is not in the dictionary. -/
def unknownId (col : ColumnName) (id : ValueId) : Bytes :=
  lit "No value for id=" ++ decimal id ++ lit " in column '" ++ col ++ lit "'"

/-- `ColumnDictionary::GetValue`. -/
def getValue (d : LookupTable) (col : ColumnName) (id : ValueId) : Except Bytes Bytes :=
  match d.lookup col with
  | none => .error (unknownColumn col)
  | some m =>
    match m.entries.find? fun e => e.2 == id with
    | some e => .ok e.1
    | none => .error (unknownId col id)

/-- What `getValue` returns is a value with that id. -/
theorem get?_of_getValue {d : LookupTable} {col : ColumnName} {id : ValueId} {value : Bytes}
    (h : getValue d col id = .ok value) : d.get? col value = some id := by
  unfold getValue at h
  cases hcol : d.lookup col with
  | none => simp [hcol] at h
  | some m =>
    cases hfind : m.entries.find? fun e => e.2 == id with
    | none => simp [hcol, hfind] at h
    | some e =>
      simp only [hcol, hfind, Except.ok.injEq] at h
      have hid : e.2 = id := by simpa using List.find?_some hfind
      have hmem : (⟨e.1, e.2⟩ : Sigma fun _ : Bytes => ValueId) ∈ m.entries :=
        List.mem_of_find?_eq_some hfind
      have hlook : m.lookup e.1 = some e.2 := AList.mem_lookup_iff.mpr hmem
      rw [← h, ← hid]
      simp [LookupTable.get?, LookupTable.colMap, hcol, hlook]

/-- **A table without repeated ids decodes what it encodes.** -/
theorem getValue_of_get? {d : LookupTable} {col : ColumnName} {id : ValueId} {value : Bytes}
    (hd : Interning.Numbering (d.get? col)) (h : d.get? col value = some id) :
    getValue d col id = .ok value := by
  cases hv : getValue d col id with
  | ok value' => rw [hd h (get?_of_getValue hv)]
  | error e =>
    exfalso
    cases hcol : d.lookup col with
    | none => simp [LookupTable.get?, LookupTable.colMap, hcol] at h
    | some m =>
      have hlook : m.lookup value = some id := by
        simpa [LookupTable.get?, LookupTable.colMap, hcol] using h
      have hmem := AList.mem_lookup_iff.mp hlook
      have hfind : (m.entries.find? fun e => e.2 == id).isSome := by
        rw [List.find?_isSome]
        exact ⟨⟨value, id⟩, hmem, by simp⟩
      obtain ⟨e', he'⟩ := Option.isSome_iff_exists.mp hfind
      simp [getValue, hcol, he'] at hv

end LogLite
