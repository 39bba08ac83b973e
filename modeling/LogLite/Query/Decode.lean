import LogLite.Query.Page

/-!
# From rows to JSON

`Query` turns every row the statement returns into a JSON object.  A value of a
compressed column is an id there, and is replaced by its string.

## Main definitions

* `columnToJson` — `Database::column_to_json`.
* `effectiveFields` — the fields of a query, checked.
* `decodeRow`, `queryRows` — the loop over the rows.

## Main results

* `decodeRow_find` — the members of the object of a row.
-/

namespace LogLite

/-- `Database::column_to_json`. -/
def columnToJson : SqlValue → Json
  | .null => .null
  | .integer n => .integer n
  | .real x => .float x
  | .text s => .string s

namespace Json

/-- `object[key] = value`; the members are in the order of their keys. -/
def assign (key : Bytes) (v : Json) : List (Bytes × Json) → List (Bytes × Json)
  | [] => [(key, v)]
  | (k, x) :: kvs =>
    if key = k then (k, v) :: kvs
    else if compare key k = .lt then (key, v) :: (k, x) :: kvs
    else (k, x) :: assign key v kvs

theorem find_cons (name k : Bytes) (x : Json) (kvs : List (Bytes × Json)) :
    find name (.object ((k, x) :: kvs)) = if k = name then x else find name (.object kvs) := by
  by_cases h : k = name
  · simp [find, h]
  · simp [find, h]

theorem find_assign (key name : Bytes) (v : Json) (kvs : List (Bytes × Json)) :
    find name (.object (assign key v kvs)) = if key = name then v else find name (.object kvs) := by
  induction kvs with
  | nil => exact find_cons name key v []
  | cons kv kvs ih =>
    obtain ⟨k, x⟩ := kv
    by_cases hk : key = k
    · subst hk
      rw [assign, if_pos rfl, find_cons, find_cons]
      by_cases h : key = name
      · rw [if_pos h, if_pos h]
      · rw [if_neg h, if_neg h, if_neg h]
    · by_cases hlt : compare key k = .lt
      · rw [assign, if_neg hk, if_pos hlt, find_cons]
      · rw [assign, if_neg hk, if_neg hlt, find_cons, find_cons, ih]
        by_cases h : k = name
        · rw [if_pos h, if_neg fun heq => hk (heq.trans h.symm), if_pos h]
        · rw [if_neg h, if_neg h]

end Json

section
variable (cat : DatabaseCatalog) (d : LookupTable)

/-- The fields of a query: `*` stands for all columns. -/
def effectiveFields (fields : List ColumnName) : Except Bytes (List ColumnName) :=
  if fields = [lit "*"] then .ok (cat.logColumnInfo.map (·.name))
  else
    match fields.find? fun f => !cat.knows f with
    | some f => .error (unknownField f)
    | none => .ok fields

/-- The value of one field: the string of an id, in a compressed column. -/
def decodeValue (f : ColumnName) (v : SqlValue) : Except Bytes Json :=
  match cat.compressedColumns.contains f, columnToJson v with
  | true, .integer n => (getValue d f (toInt32 n)).map .string
  | _, v => .ok v

/-- The loop over the fields of a row, from the members `row` on. -/
def decodeRow (r : LogRow) : List ColumnName → List (Bytes × Json) → Except Bytes Json
  | [], row => .ok (.object row)
  | f :: fs, row =>
    match cat.column f with
    | none => .error (unknownField f)
    | some ci =>
      (decodeValue cat d f (r.value ci)).bind fun v => decodeRow r fs (Json.assign f v row)

/-- The loop over the rows. -/
def queryRows (fields : List ColumnName) : List LogRow → Except Bytes (List Json)
  | [] => .ok []
  | r :: rs =>
    (decodeRow cat d r fields []).bind fun row => (queryRows fields rs).map fun rows => row :: rows

variable {cat d}

/-- The object of a row has the decoded values as members. -/
theorem decodeRow_find {r : LogRow} {value : ColumnName → Json} : ∀ (fields : List ColumnName)
    (row : List (Bytes × Json)),
      (∀ f ∈ fields, ∃ ci, cat.column f = some ci ∧
        decodeValue cat d f (r.value ci) = .ok (value f)) →
      ∃ obj, decodeRow cat d r fields row = .ok obj ∧
        ∀ name, obj.find name =
          if name ∈ fields then value name else Json.find name (.object row) := by
  intro fields
  induction fields with
  | nil => exact fun row _ => ⟨_, rfl, by simp⟩
  | cons f fs ih =>
    intro row h
    obtain ⟨ci, hci, hv⟩ := h f List.mem_cons_self
    obtain ⟨obj, hobj, hfind⟩ :=
      ih (Json.assign f (value f) row) fun f' hf' => h f' (List.mem_cons_of_mem _ hf')
    refine ⟨obj, ?_, fun name => ?_⟩
    · simp only [decodeRow, hci, hv]
      exact hobj
    · rw [hfind, Json.find_assign]
      by_cases hname : f = name
      · subst hname
        simp
      · simp [hname, Ne.symm hname]

theorem queryRows_forall₂ {fields : List ColumnName} {P : LogRow → Json → Prop} :
    ∀ rows : List LogRow, (∀ r ∈ rows, ∃ obj, decodeRow cat d r fields [] = .ok obj ∧ P r obj) →
      ∃ results, queryRows cat d fields rows = .ok results ∧ List.Forall₂ P rows results := by
  intro rows
  induction rows with
  | nil => exact fun _ => ⟨[], rfl, .nil⟩
  | cons r rs ih =>
    intro h
    obtain ⟨obj, hobj, hP⟩ := h r List.mem_cons_self
    obtain ⟨results, hresults, hall⟩ := ih fun r' hr' => h r' (List.mem_cons_of_mem _ hr')
    refine ⟨obj :: results, ?_, .cons hP hall⟩
    simp only [queryRows, hobj, hresults]
    rfl

end

end LogLite
