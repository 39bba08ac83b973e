import LogLite.Query.Decode
import LogLite.Query.Delete
import LogLite.Store.Appended
import LogLite.Store.Report

/-!
# What is inserted is what is queried

A log goes through `serialize_value`, the dictionary, `bind_param`, a column of SQLite,
`column_to_json` and the dictionary again.  Where SQLite leaves bound values as they are,
the values come back, with one exception: JSON has unsigned integers that do not fit
`int64_t`, and `bind_param` takes them modulo `2 ^ 64`.

## Main definitions

* `HasRequired` — a log has a value for every `NOT NULL` column.
* `canonicalText`, `returnedValue` — what a query should give back for a value.
* `Stores`, `GivesBack` — the two halves of the law: what `Insert` stores, and what a query
  returns of it.
* `FitsInt64` — the integers of a log that are not compressed are `int64_t`.

## Main results

* `insert_stores` — `Insert` stores the logs that have all required values and whose
  row step succeeds.
* `insert_query_iff` — **a query gives back what was stored, exactly when the stored
  integers fit.**
-/

namespace LogLite

section
variable (cat : DatabaseCatalog)

/-- The log has a value for every `NOT NULL` column that `Insert` writes. -/
def HasRequired (log : Json) : Prop :=
  ∀ ci ∈ cat.insertColumns, ci.notNull = true → (log.find ci.name).isNull = false

/-- The string that stands for a value in a compressed column: a string for itself, a
boolean as a number, and anything else as its text. -/
def canonicalText : Json → Bytes
  | .null => lit "null"
  | .bool b => if b then lit "1" else lit "0"
  | .integer n => decimal n
  | .float x => cat.platform.floatText x
  | .string s => s
  | .array xs => Json.dump cat.platform (.array xs)
  | .object kvs => Json.dump cat.platform (.object kvs)

/-- What a query should give back for a value: in a compressed column its string,
else booleans as numbers, and arrays and objects as their text. -/
def returnedValue (ci : ColumnInfo) (v : Json) : Json :=
  if cat.compressedColumns.contains ci.name && !v.isNull then .string (canonicalText cat v)
  else
    match v with
    | .bool b => .integer (if b then 1 else 0)
    | .array xs => .string (Json.dump cat.platform (.array xs))
    | .object kvs => .string (Json.dump cat.platform (.object kvs))
    | v => v

/-- The log was refused for a missing value. -/
def RowResult.isSkipped : RowResult → Bool
  | .skipped _ => true
  | _ => false

/-- `Insert` stores `new`: the logs whose row step succeeded, in order, where the row step
is made for the logs that have all required values; and it returns their number. -/
structure Stores (f : Faults) (logs : List Json) (w w' : WriterDatabase) (rs : List RowResult)
    (new : List LogRow) : Prop where
  log : w'.log = w.log ++ new
  sources : new.map (·.source) = logsWith RowResult.isInserted logs rs
  steps : cat.insertColumns ≠ [] →
    List.Forall₂ (fun log r => r.isSkipped = false ↔ HasRequired cat log) logs rs
  count : insert cat f logs w = .ret w' new.length

/-- Queries for columns that are not compressed keys give back the values of the rows
`new`, whatever rows the statement returns. -/
def GivesBack (w' : WriterDatabase) (new : List LogRow) : Prop :=
  ∀ fields eff, effectiveFields cat fields = .ok eff →
    (∀ ci ∈ cat.logColumnInfo, ci.name ∈ eff → ci.isPk = true →
      cat.compressedColumns.contains ci.name = false) →
    ∀ page, page ⊆ w'.log → ∃ results, queryRows cat w'.colDict eff page = .ok results ∧
      List.Forall₂ (fun r obj => r ∈ new → ∀ ci ∈ cat.insertColumns, ci.name ∈ eff →
        obj.find ci.name = returnedValue cat ci (r.source.find ci.name)) page results

/-- The integers of the log in columns that are not compressed are `int64_t`. -/
def FitsInt64 (log : Json) : Prop :=
  ∀ ci ∈ cat.insertColumns, cat.compressedColumns.contains ci.name = false →
    ∀ n, log.find ci.name = .integer n → fitsInt64 n = true

/-- Compressed columns are declared `INTEGER`. -/
def CompressedAreIntegers : Prop :=
  ∀ ci ∈ cat.insertColumns, cat.compressedColumns.contains ci.name = true → ci.affinity = .integer

/-- The affinities of the columns that are not compressed leave the bound values of the
log as they are. -/
def KeepsValues (log : Json) : Prop :=
  ∀ ci ∈ cat.insertColumns, cat.compressedColumns.contains ci.name = false →
    Affinity.apply cat.platform ci.affinity (bindParam cat.platform (log.find ci.name)) =
      bindParam cat.platform (log.find ci.name)

variable {cat}

/-! ### What is stored -/

theorem encodeRow_skips_iff {faults : ℕ → Option DictFault} {log : Json} :
    ∀ (cols : List ColumnInfo) (j : ℕ) (w w' : WriterDatabase)
      (enc : Except ColumnName (List (ColumnName × SqlValue))),
      encodeRow cat faults log j cols w = .ret w' enc →
        ((∃ cells, enc = .ok cells) ↔
          ∀ ci ∈ cols, ci.notNull = true → (log.find ci.name).isNull = false) := by
  intro cols
  induction cols with
  | nil =>
    intro j w w' enc h
    cases h
    simp
  | cons ci cols ih =>
    intro j w w' enc h
    rw [List.forall_mem_cons]
    obtain ⟨hmiss, rfl, rfl⟩ | ⟨hmiss, w₁, b, cells, -, hcells, rfl⟩ := encodeRow_cons_eq_ret h
    · rw [Bool.and_eq_true] at hmiss
      simp [hmiss]
    · have hrest := ih (j + 1) w₁ w' cells hcells
      have hci : ci.notNull = true → (log.find ci.name).isNull = false := by
        intro hreq
        simpa [hreq] using hmiss
      rw [and_iff_right hci, ← hrest]
      cases cells with
      | ok cs => exact ⟨fun _ => ⟨cs, rfl⟩, fun _ => ⟨_, rfl⟩⟩
      | error col =>
        constructor
        · rintro ⟨_, h⟩
          cases h
        · rintro ⟨_, h⟩
          cases h

/-- A row is skipped exactly if the log lacks a required value. -/
theorem insertRow_isSkipped {f : Faults} {i : ℕ} {log : Json} {w w' : WriterDatabase}
    {r : RowResult} (h : insertRow cat f i log w = .ret w' r) :
    r.isSkipped = false ↔ HasRequired cat log := by
  obtain ⟨w₁, enc, henc, hcase⟩ := insertRow_eq_ret h
  unfold HasRequired
  rw [← encodeRow_skips_iff _ _ _ _ _ henc]
  rcases hcase with ⟨col, rfl, -, rfl⟩ | ⟨cells, rfl, -, hstep⟩
  · constructor
    · intro h
      cases h
    · rintro ⟨_, h⟩
      cases h
  · refine ⟨fun _ => ⟨cells, rfl⟩, fun _ => ?_⟩
    unfold stepRow at hstep
    split at hstep
    · cases hstep
      rfl
    · split at hstep <;> cases hstep <;> rfl

theorem insertRows_isSkipped {f : Faults} : ∀ (logs : List Json) (i : ℕ) (w w' : WriterDatabase)
    (rs : List RowResult), insertRows cat f i logs w = .ret w' rs →
      List.Forall₂ (fun log r => r.isSkipped = false ↔ HasRequired cat log) logs rs := by
  intro logs
  induction logs with
  | nil =>
    intro i w w' rs h
    cases h
    exact .nil
  | cons log logs ih =>
    intro i w w' rs h
    obtain ⟨w₁, r, rs₂, hrow, hrows, rfl⟩ := insertRows_cons_eq_ret h
    exact .cons (insertRow_isSkipped hrow) (ih (i + 1) w₁ _ rs₂ hrows)

theorem length_logsWith (p : RowResult → Bool) : ∀ (logs : List Json) (rs : List RowResult),
    rs.length ≤ logs.length → (logsWith p logs rs).length = rs.countP p
  | [], rs, h => by
    rw [List.length_nil, Nat.le_zero, List.length_eq_zero_iff] at h
    rw [h]
    rfl
  | log :: logs, [], _ => rfl
  | log :: logs, r :: rs, h => by
    have ih := length_logsWith p logs rs (by simpa using h)
    rw [logsWith, List.countP_cons]
    by_cases hp : p r = true
    · rw [if_pos hp, if_pos hp, List.length_cons, ih]
    · rw [if_neg hp, if_neg hp, ih, Nat.add_zero]

/-- **`Insert` stores the logs that have all required values and whose row step
succeeds**, and returns their number. -/
theorem insert_stores {f : Faults} {logs : List Json} {w w' : WriterDatabase}
    {rs : List RowResult} (hb : w.conn.begun = none)
    (h : insertReport cat f logs w = .ret w' rs) : ∃ new, Stores cat f logs w w' rs new := by
  have hret : InsertReturns cat w (f, logs) w' := ⟨rs, h⟩
  obtain ⟨new, hlog, -, -⟩ := hret.appends hb
  have hsources := (insertReport_sources hb h).2
  rw [hlog, List.map_append, List.append_cancel_left_eq] at hsources
  have hsteps : rs.length ≤ logs.length ∧ (cat.insertColumns ≠ [] →
      List.Forall₂ (fun log r => r.isSkipped = false ↔ HasRequired cat log) logs rs) := by
    rcases insertReport_ret hb h with ⟨hempty, -, rfl⟩ | ⟨-, -, w₁, hrows, -⟩
    · refine ⟨Nat.zero_le _, fun hcols => ?_⟩
      rw [hempty.resolve_left hcols]
      exact .nil
    · have hall := insertRows_isSkipped logs 0 w.opened w₁ rs hrows
      exact ⟨hall.length_eq.ge, fun _ => hall⟩
  refine ⟨new, hlog, hsources, hsteps.2, ?_⟩
  have hcount : new.length = insertedCount rs := by
    rw [← List.length_map (·.source), hsources, length_logsWith _ _ _ hsteps.1, insertedCount,
      List.count]
    refine List.countP_congr fun r _ => ?_
    cases r <;> simp [RowResult.isInserted]
  rw [insert, h, hcount]
  rfl

/-! ### What is given back -/

theorem isPk_of_mem_insertColumns {ci : ColumnInfo} (hci : ci ∈ cat.insertColumns) :
    ci.isPk = false := by
  rw [DatabaseCatalog.insertColumns, List.mem_filter] at hci
  simpa using hci.2

theorem value_of_mem_insertColumns {ci : ColumnInfo} (hci : ci ∈ cat.insertColumns) (r : LogRow) :
    r.value ci = r.cell ci.name := by
  rw [LogRow.value, isRowId_of_not_isPk (isPk_of_mem_insertColumns hci),
    if_neg Bool.false_ne_true]

theorem column_eq_some {ci : ColumnInfo} (hci : ci ∈ cat.logColumnInfo) :
    cat.column ci.name = some ci := by
  obtain ⟨ci', hfind⟩ : ∃ ci', cat.column ci.name = some ci' :=
    Option.isSome_iff_exists.mp (List.find?_isSome.mpr ⟨ci, hci, beq_self_eq_true _⟩)
  obtain ⟨hmem, hname⟩ := column_mem hfind
  rw [hfind, List.inj_on_of_nodup_map cat.names_nodup hmem hci hname]

/-- The fields of a query are columns. -/
theorem exists_column_of_effectiveFields {fields eff : List ColumnName}
    (h : effectiveFields cat fields = .ok eff) {f : ColumnName} (hf : f ∈ eff) :
    ∃ ci ∈ cat.logColumnInfo, ci.name = f := by
  unfold effectiveFields at h
  split at h
  · cases h
    obtain ⟨ci, hci, rfl⟩ := List.mem_map.mp hf
    exact ⟨ci, hci, rfl⟩
  · split at h
    · cases h
    · next hnone =>
      cases h
      have hknows := List.find?_eq_none.mp hnone f hf
      simpa [DatabaseCatalog.knows] using hknows

theorem bindParam_serializeValue (P : Platform) (v : Json) :
    bindParam P (serializeValue P v) = bindParam P v := by
  cases v with
  | bool b =>
    show SqlValue.integer (toInt64 (if b then 1 else 0)) = .integer (if b then 1 else 0)
    cases b <;> rfl
  | _ => rfl

/-- The dictionary has the string that stands for the value. -/
theorem dictText_serializeValue (v : Json) :
    dictText cat.platform (serializeValue cat.platform v) = canonicalText cat v := by
  cases v with
  | bool b => cases b <;> rfl
  | _ => rfl

theorem toInt32_of_id {id : ℤ} (h1 : 1 ≤ id) (h2 : id ≤ intMax) : toInt32 id = id := by
  unfold intMax at h2
  unfold toInt32
  rw [Int.bmod_eq_of_le] <;> omega

theorem decodeValue_plain {d : LookupTable} {f : ColumnName} {v : SqlValue}
    (h : cat.compressedColumns.contains f = false) :
    decodeValue cat d f v = .ok (columnToJson v) := by
  unfold decodeValue
  rw [h]

section
variable {w : WriterDatabase} {r : LogRow} {ci : ColumnInfo}

/-- A compressed value comes back as its string. -/
theorem decodeValue_compressed (hint : CompressedAreIntegers cat) (hw : Sound cat w)
    (hr : r ∈ w.log) (hci : ci ∈ cat.insertColumns)
    (hcomp : cat.compressedColumns.contains ci.name = true) :
    decodeValue cat w.colDict ci.name (r.value ci) =
      .ok (returnedValue cat ci (r.source.find ci.name)) := by
  rw [value_of_mem_insertColumns hci]
  cases hnull : (r.source.find ci.name).isNull with
  | true =>
    rw [hw.cell_null hr hci hnull, Json.isNull_iff.mp hnull]
    unfold decodeValue returnedValue
    rw [hcomp]
    rfl
  | false =>
    -- the cell has the id of the string, and ids fit an `int`
    obtain ⟨id, hid, hcell⟩ := hw.cell_id hr hci hcomp hnull
    obtain ⟨h1, h2⟩ := hw.dict.range _ _ _ hid
    rw [hint ci hci hcomp, apply_integer_integer] at hcell
    rw [hcell]
    unfold decodeValue returnedValue
    rw [hcomp, hnull]
    simp only [columnToJson]
    rw [toInt32_of_id h1 h2, getValue_of_get? (hw.dict.numbering _) hid, dictText_serializeValue]
    rfl

/-- A value that is not compressed comes back, if it is not an integer modulo `2 ^ 64`. -/
theorem decodeValue_kept (hw : Sound cat w) (hr : r ∈ w.log) (hci : ci ∈ cat.insertColumns)
    (hcomp : cat.compressedColumns.contains ci.name = false)
    (hkeep : KeepsValues cat r.source) :
    decodeValue cat w.colDict ci.name (r.value ci) =
        .ok (returnedValue cat ci (r.source.find ci.name)) ↔
      ∀ n, r.source.find ci.name = .integer n → fitsInt64 n = true := by
  rw [value_of_mem_insertColumns hci, decodeValue_plain hcomp, hw.cell_plain hr hci hcomp,
    storedCell, bindParam_serializeValue, hkeep ci hci hcomp]
  unfold returnedValue
  rw [hcomp]
  cases r.source.find ci.name with
  | integer n =>
    simp only [bindParam, columnToJson, Bool.false_and, Bool.false_eq_true, if_false,
      Except.ok.injEq, Json.integer.injEq, toInt64_eq_self_iff]
    exact ⟨fun h m hm => hm ▸ h, fun h => h n rfl⟩
  | bool b => exact ⟨fun _ n h => Json.noConfusion h, fun _ => rfl⟩
  | null => exact ⟨fun _ n h => Json.noConfusion h, fun _ => rfl⟩
  | float x => exact ⟨fun _ n h => Json.noConfusion h, fun _ => rfl⟩
  | string s => exact ⟨fun _ n h => Json.noConfusion h, fun _ => rfl⟩
  | array xs => exact ⟨fun _ n h => Json.noConfusion h, fun _ => rfl⟩
  | object kvs => exact ⟨fun _ n h => Json.noConfusion h, fun _ => rfl⟩

end

/-- Every value of a row can be decoded. -/
theorem exists_decodeValue (hint : CompressedAreIntegers cat) {w : WriterDatabase}
    (hw : Sound cat w) {r : LogRow} (hr : r ∈ w.log) {ci : ColumnInfo}
    (hci : ci ∈ cat.logColumnInfo)
    (hkey : ci.isPk = true → cat.compressedColumns.contains ci.name = false) :
    ∃ v, decodeValue cat w.colDict ci.name (r.value ci) = .ok v := by
  cases hcomp : cat.compressedColumns.contains ci.name with
  | false => exact ⟨_, decodeValue_plain hcomp⟩
  | true =>
    have hmem : ci ∈ cat.insertColumns := by
      refine List.mem_filter.mpr ⟨hci, ?_⟩
      cases hpk : ci.isPk with
      | false => rfl
      | true => exact absurd (hcomp.symm.trans (hkey hpk)) (by decide)
    exact ⟨_, decodeValue_compressed hint hw hr hmem hcomp⟩

/-- The object of a row has what each field decodes to. -/
theorem exists_decodeRow (hint : CompressedAreIntegers cat) {w : WriterDatabase}
    (hw : Sound cat w) {r : LogRow} (hr : r ∈ w.log) {fields eff : List ColumnName}
    (heff : effectiveFields cat fields = .ok eff)
    (hkey : ∀ ci ∈ cat.logColumnInfo, ci.name ∈ eff → ci.isPk = true →
      cat.compressedColumns.contains ci.name = false) :
    ∃ obj, decodeRow cat w.colDict r eff [] = .ok obj ∧
      ∀ ci ∈ cat.logColumnInfo, ci.name ∈ eff →
        decodeValue cat w.colDict ci.name (r.value ci) = .ok (obj.find ci.name) := by
  have hall : ∀ f, ∃ v, f ∈ eff → ∃ ci, cat.column f = some ci ∧
      decodeValue cat w.colDict f (r.value ci) = .ok v := by
    intro f
    by_cases hf : f ∈ eff
    · obtain ⟨ci, hci, rfl⟩ := exists_column_of_effectiveFields heff hf
      obtain ⟨v, hv⟩ := exists_decodeValue hint hw hr hci (hkey ci hci hf)
      exact ⟨v, fun _ => ⟨ci, column_eq_some hci, hv⟩⟩
    · exact ⟨.null, fun h => absurd h hf⟩
  choose value hvalue using hall
  obtain ⟨obj, hobj, hfind⟩ := decodeRow_find eff [] hvalue
  refine ⟨obj, hobj, fun ci hci hmem => ?_⟩
  obtain ⟨ci', hci', hv⟩ := hvalue ci.name hmem
  obtain rfl := Option.some.inj ((column_eq_some hci).symm.trans hci')
  rw [hv, hfind, if_pos hmem]

theorem logsWith_subset (p : RowResult → Bool) : ∀ (logs : List Json) (rs : List RowResult),
    logsWith p logs rs ⊆ logs
  | [], rs => by
    cases rs <;> exact List.Subset.refl _
  | log :: logs, [] => List.nil_subset _
  | log :: logs, r :: rs => by
    rw [logsWith]
    split
    · exact List.cons_subset_cons log (logsWith_subset p logs rs)
    · exact List.subset_cons_of_subset log (logsWith_subset p logs rs)

/-- If queries give back the value of a column, its integers fit. -/
theorem GivesBack.fits {w' : WriterDatabase} {new : List LogRow} (hback : GivesBack cat w' new)
    (hint : CompressedAreIntegers cat) (hw : Sound cat w') {r : LogRow} (hr : r ∈ new)
    (hlog : r ∈ w'.log) (hkeep : KeepsValues cat r.source) : FitsInt64 cat r.source := by
  intro ci hci hcomp
  have hci' : ci ∈ cat.logColumnInfo := List.mem_of_mem_filter hci
  -- the column twice, for `*` alone stands for all columns
  have heff : effectiveFields cat [ci.name, ci.name] = .ok [ci.name, ci.name] := by
    have hknows : cat.knows ci.name = true := List.any_eq_true.mpr ⟨ci, hci', beq_self_eq_true _⟩
    simp [effectiveFields, hknows]
  have hkey : ∀ x ∈ cat.logColumnInfo, x.name ∈ [ci.name, ci.name] → x.isPk = true →
      cat.compressedColumns.contains x.name = false := by
    intro x hx hmem hpk
    have hname : x.name = ci.name := by simpa using hmem
    exact absurd hname (cat.name_ne_of_isPk hx hpk hci)
  obtain ⟨obj, hobj, hfind⟩ := exists_decodeRow hint hw hlog heff hkey
  obtain ⟨results, hresults, hall⟩ := hback _ _ heff hkey [r] (by simpa using hlog)
  simp only [queryRows, hobj] at hresults
  cases hresults
  obtain ⟨hrow, -⟩ := List.forall₂_cons.mp hall
  refine (decodeValue_kept hw hlog hci hcomp hkeep).mp ?_
  rw [hfind ci hci' List.mem_cons_self, hrow hr ci hci List.mem_cons_self]

/-- **A query gives back what was inserted, exactly when no stored log has, in a column
that is not compressed, an integer outside `int64_t`.** -/
theorem insert_query_iff (hint : CompressedAreIntegers cat) {f : Faults} {logs : List Json}
    {w w' : WriterDatabase} {rs : List RowResult} (hw : Reachable cat w)
    (hkeep : ∀ log ∈ logs, KeepsValues cat log) (h : insertReport cat f logs w = .ret w' rs) :
    (∃ new, Stores cat f logs w w' rs new ∧ GivesBack cat w' new) ↔
      ∀ log ∈ logsWith RowResult.isInserted logs rs, FitsInt64 cat log := by
  obtain ⟨new, hstores⟩ := insert_stores hw.idle h
  have hends : InsertEnds cat w (f, logs) w' := .inl ⟨rs, h⟩
  have hsound : Sound cat w' := hends.sound hw.idle hw.sound
  have hnew : ∀ r ∈ new, r ∈ w'.log := by
    intro r hr
    rw [hstores.log]
    exact List.mem_append_right _ hr
  have hsource : ∀ r ∈ new, r.source ∈ logsWith RowResult.isInserted logs rs := by
    intro r hr
    rw [← hstores.sources]
    exact List.mem_map_of_mem hr
  have hkept : ∀ r ∈ new, KeepsValues cat r.source := fun r hr =>
    hkeep _ (logsWith_subset _ _ _ (hsource r hr))
  constructor
  · rintro ⟨new', hstores', hback⟩ log hlog
    obtain rfl : new' = new := List.append_cancel_left (hstores'.log.symm.trans hstores.log)
    rw [← hstores.sources] at hlog
    obtain ⟨r, hr, rfl⟩ := List.mem_map.mp hlog
    exact hback.fits hint hsound hr (hnew r hr) (hkept r hr)
  · intro hfits
    -- any rows the statement returns, of which only the new ones matter
    refine ⟨new, hstores, fun fields eff heff hkey page hpage => ?_⟩
    refine queryRows_forall₂ page fun r hr => ?_
    obtain ⟨obj, hobj, hfind⟩ := exists_decodeRow hint hsound (hpage hr) heff hkey
    refine ⟨obj, hobj, fun hrnew ci hci hmem => ?_⟩
    have hvalue := hfind ci (List.mem_of_mem_filter hci) hmem
    refine Except.ok.inj (hvalue.symm.trans ?_)
    cases hcomp : cat.compressedColumns.contains ci.name with
    | true => exact decodeValue_compressed hint hsound (hpage hr) hci hcomp
    | false =>
      exact (decodeValue_kept hsound (hpage hr) hci hcomp (hkept r hrnew)).mpr
        (hfits _ (hsource r hrnew) ci hci hcomp)

end

/-! ### Three logs -/

theorem number_noNul : 0 ∉ lit "number" := by decide

/-- The columns of a small log table: the key, a `level` and a `number`, which is required. -/
def tallyColumns : List ColumnInfo :=
  [⟨lit "id", lit "INTEGER", false, true, id_noNul⟩,
    ⟨lit "level", lit "INTEGER", false, false, level_noNul⟩,
    ⟨lit "number", lit "INTEGER", true, false, number_noNul⟩]

theorem tallyColumns_nodup : (tallyColumns.map (·.name)).Nodup := by
  show [lit "id", lit "level", lit "number"].Nodup
  decide

/-- A catalog in which `level` is compressed. -/
def tallyCatalog : DatabaseCatalog where
  compressedColumns := [lit "level"]
  logColumnInfo := tallyColumns
  accepts := fun _ _ => true
  platform := levelCatalog.platform
  names_nodup := tallyColumns_nodup

/-- A log with both values. -/
def tallyLog (level : Json) (n : ℤ) : Json :=
  .object [(lit "level", level), (lit "number", .integer n)]

/-- The second log lacks its number. -/
def tallyLogs : List Json :=
  [tallyLog (.string (lit "INFO")) (2 ^ 63 - 1), levelLog "WARN", tallyLog (.bool true) (-5)]

theorem insertColumns_tally {ci : ColumnInfo} (hci : ci ∈ tallyCatalog.insertColumns) :
    ci.affinity = .integer ∧ (ci.name = lit "level" ∨ ci.name = lit "number") := by
  have hmem : ci ∈ [(⟨lit "level", lit "INTEGER", false, false, level_noNul⟩ : ColumnInfo),
    ⟨lit "number", lit "INTEGER", true, false, number_noNul⟩] := hci
  rw [List.mem_cons, List.mem_singleton] at hmem
  rcases hmem with rfl | rfl
  · exact ⟨by decide, .inl rfl⟩
  · exact ⟨by decide, .inr rfl⟩

theorem keepsValues_tally : ∀ log ∈ tallyLogs, KeepsValues tallyCatalog log := by
  intro log hlog ci hci hcomp
  obtain ⟨haffinity, hname | hname⟩ := insertColumns_tally hci
  · rw [hname] at hcomp
    exact absurd hcomp (by decide)
  · rw [haffinity, hname]
    simp only [tallyLogs, List.mem_cons, List.not_mem_nil, or_false] at hlog
    rcases hlog with rfl | rfl | rfl <;> rfl

/-- The first and the last log come back, with the largest `int64_t` and with strings for
the levels. -/
theorem insert_query_tally : ∃ w',
    insertReport tallyCatalog .none tallyLogs .fresh =
        .ret w' [.inserted, .skipped (lit "number"), .inserted] ∧
      queryRows tallyCatalog w'.colDict [lit "level", lit "number"] w'.log =
        .ok [tallyLog (.string (lit "INFO")) (2 ^ 63 - 1), tallyLog (.string (lit "1")) (-5)] ∧
      ∃ new, Stores tallyCatalog .none tallyLogs .fresh w'
          [.inserted, .skipped (lit "number"), .inserted] new ∧ GivesBack tallyCatalog w' new := by
  have h : insertReport tallyCatalog .none tallyLogs .fresh =
      .ret _ [.inserted, .skipped (lit "number"), .inserted] := rfl
  have hint : CompressedAreIntegers tallyCatalog := fun ci hci _ => (insertColumns_tally hci).1
  refine ⟨_, h, rfl, (insert_query_iff hint ⟨[], .nil _⟩ keepsValues_tally h).mpr ?_⟩
  intro log hlog ci hci hcomp n hn
  obtain ⟨-, hname | hname⟩ := insertColumns_tally hci
  · rw [hname] at hcomp
    exact absurd hcomp (by decide)
  · have hstored : log ∈
        [tallyLog (.string (lit "INFO")) (2 ^ 63 - 1), tallyLog (.bool true) (-5)] := hlog
    rw [hname] at hn
    simp only [List.mem_cons, List.not_mem_nil, or_false] at hstored
    rcases hstored with rfl | rfl
    · cases hn
      decide
    · cases hn
      decide

/-! ### The largest unsigned integer -/

theorem numberColumns_nodup : ((levelColumns (lit "INTEGER")).map (·.name)).Nodup :=
  levelColumns_nodup _

/-- The small log table with numbers that are not compressed. -/
def numberCatalog : DatabaseCatalog where
  compressedColumns := []
  logColumnInfo := levelColumns (lit "INTEGER")
  accepts := fun _ _ => true
  platform := levelCatalog.platform
  names_nodup := numberColumns_nodup

/-- The log with this number. -/
def numberLog (n : ℤ) : Json := .object [(lit "level", .integer n)]

/-- The database with the row of this log, whose cell is `m`. -/
def numberDb (n m : ℤ) : WriterDatabase :=
  ⟨⟨⟨[⟨1, [(lit "level", .integer m)], numberLog n⟩], []⟩, none⟩, ∅⟩

/-- The largest unsigned integer comes back as `-1`. -/
theorem insert_query_unsigned :
    insertReport numberCatalog .none [numberLog (2 ^ 64 - 1)] .fresh =
        .ret (numberDb (2 ^ 64 - 1) (-1)) [.inserted] ∧
      queryRows numberCatalog ∅ [lit "level"] (numberDb (2 ^ 64 - 1) (-1)).log =
        .ok [numberLog (-1)] ∧
      ¬ ∃ new, Stores numberCatalog .none [numberLog (2 ^ 64 - 1)] .fresh
          (numberDb (2 ^ 64 - 1) (-1)) [.inserted] new ∧
        GivesBack numberCatalog (numberDb (2 ^ 64 - 1) (-1)) new := by
  have hquery : queryRows numberCatalog ∅ [lit "level"] (numberDb (2 ^ 64 - 1) (-1)).log =
      .ok [numberLog (-1)] := rfl
  refine ⟨rfl, hquery, ?_⟩
  rintro ⟨new, hstores, hback⟩
  have hnew : new = (numberDb (2 ^ 64 - 1) (-1)).log := hstores.log.symm
  obtain ⟨results, hresults, hall⟩ := hback [lit "level"] [lit "level"] rfl
    (fun ci _ _ _ => rfl) _ (List.Subset.refl _)
  rw [show (numberDb (2 ^ 64 - 1) (-1)).colDict = ∅ from rfl, hquery] at hresults
  cases hresults
  obtain ⟨hrow, -⟩ := List.forall₂_cons.mp hall
  have hback := hrow (by rw [hnew]; exact List.mem_cons_self)
    ⟨lit "level", lit "INTEGER", false, false, by decide⟩ (List.mem_singleton_self _)
    List.mem_cons_self
  cases hback

end LogLite
