import LogLite.Query.Delete

/-!
# Compression is transparent for comparisons

A text column may be compressed, and is then declared `INTEGER`.  A filter on it
is answered from the dictionary instead of by SQLite, and selects the same logs:
the ids in the `IN` list are those of the strings that stand in the relation to
the filter's value, and a row holds such an id exactly when its string does.

## Main definitions

* `DatabaseCatalog.compress` — the same log table with other columns compressed.

## Main results

* `holds_compress_iff` — the two conditions of one filter agree on two rows made
  from the same log.
* `compression_transparent` — **the same logs are selected with compression as
  without it.**
-/

namespace LogLite

/-- The column as it is declared when it is compressed. -/
def ColumnInfo.retype (names : List ColumnName) (ci : ColumnInfo) : ColumnInfo :=
  if names.contains ci.name then { ci with type := lit "INTEGER" } else ci

@[simp] theorem ColumnInfo.retype_name (names : List ColumnName) (ci : ColumnInfo) :
    (ci.retype names).name = ci.name := by
  unfold retype
  split <;> rfl

@[simp] theorem ColumnInfo.retype_isPk (names : List ColumnName) (ci : ColumnInfo) :
    (ci.retype names).isPk = ci.isPk := by
  unfold retype
  split <;> rfl

/-- The catalog of the log table in which `names` are compressed; its constraints
are those of the new declaration. -/
def DatabaseCatalog.compress (cat : DatabaseCatalog) (names : List ColumnName)
    (accepts : List LogRow → List (ColumnName × SqlValue) → Bool) : DatabaseCatalog where
  compressedColumns := names
  logColumnInfo := cat.logColumnInfo.map (ColumnInfo.retype names)
  accepts := accepts
  platform := cat.platform
  names_nodup := by
    rw [List.map_map]
    have hname : ((fun ci => ci.name) ∘ ColumnInfo.retype names) = fun ci => ci.name := by
      funext ci
      simp
    rw [hname]
    exact cat.names_nodup

section
variable {cat : DatabaseCatalog} {names : List ColumnName}
  {accepts : List LogRow → List (ColumnName × SqlValue) → Bool}

theorem column_compress (field : ColumnName) :
    (cat.compress names accepts).column field =
      (cat.column field).map (ColumnInfo.retype names) := by
  unfold DatabaseCatalog.column DatabaseCatalog.compress
  rw [List.find?_map]
  congr 2
  funext ci
  simp

theorem knows_compress (field : ColumnName) :
    (cat.compress names accepts).knows field = cat.knows field := by
  unfold DatabaseCatalog.knows DatabaseCatalog.compress
  rw [List.any_map]
  congr 1
  funext ci
  simp

theorem insertColumns_compress :
    (cat.compress names accepts).insertColumns =
      cat.insertColumns.map (ColumnInfo.retype names) := by
  unfold DatabaseCatalog.insertColumns DatabaseCatalog.compress
  rw [List.filter_map]
  congr 2
  funext ci
  simp

theorem column_of_knows {cat : DatabaseCatalog} {field : ColumnName}
    (h : cat.knows field = true) : ∃ ci, cat.column field = some ci := by
  obtain ⟨ci, hci, hname⟩ := List.any_eq_true.mp h
  exact Option.isSome_iff_exists.mp (List.find?_isSome.mpr ⟨ci, hci, hname⟩)

theorem retype_of_mem {ci : ColumnInfo} (h : names.contains ci.name = true) :
    ci.retype names = { ci with type := lit "INTEGER" } := by
  rw [ColumnInfo.retype, if_pos h]

theorem retype_of_not_mem {ci : ColumnInfo} (h : names.contains ci.name = false) :
    ci.retype names = ci := by
  rw [ColumnInfo.retype, h]
  rfl

/-- A text column is not another name of the row id. -/
theorem isRowId_of_text {ci : ColumnInfo} (h : ci.affinity = .text) : ci.isRowId = false := by
  unfold ColumnInfo.isRowId
  rw [Bool.and_eq_false_iff]
  right
  rw [beq_eq_false_iff_ne]
  intro heq
  rw [ColumnInfo.affinity, declaredAffinity, heq] at h
  revert h
  decide

/-- A string of the log, or a null. -/
def IsText (v : Json) : Prop := v = .null ∨ ∃ s, v = .string s

/-- A filter with one of the six comparisons and a string. -/
def QueryFilter.IsComparison (ft : QueryFilter) : Prop :=
  (comparisonOf ft.op).isSome ∧ ∃ s, ft.value = .string s

theorem QueryFilter.IsComparison.op_ne {ft : QueryFilter} (h : ft.IsComparison) :
    ft.op ≠ lit "~=" := by
  intro heq
  have hsome := h.1
  rw [heq] at hsome
  revert hsome
  decide

theorem QueryFilter.IsComparison.allowed {ft : QueryFilter} (h : ft.IsComparison) :
    allowedOps.contains ft.op = true := by
  obtain ⟨cmp, hcmp⟩ := Option.isSome_iff_exists.mp h.1
  rw [List.contains_iff_mem]
  unfold comparisonOf at hcmp
  split at hcmp
  · next heq => exact heq ▸ by decide
  split at hcmp
  · next heq => exact heq ▸ by decide
  split at hcmp
  · next heq => exact heq ▸ by decide
  split at hcmp
  · next heq => exact heq ▸ by decide
  split at hcmp
  · next heq => exact heq ▸ by decide
  split at hcmp
  · next heq => exact heq ▸ by decide
  · cases hcmp

/-! ### One condition on one row -/

section
variable {accepts₀ : List LogRow → List (ColumnName × SqlValue) → Bool} {w w₀ : WriterDatabase}
  {r r₀ : LogRow} {ft : QueryFilter} {ci : ColumnInfo}

theorem retype_affinity (h : names.contains ci.name = true) :
    (ci.retype names).affinity = .integer := by
  rw [retype_of_mem h]
  rfl

theorem retype_mem_insertColumns (hci : ci ∈ cat.logColumnInfo) (hpk : ci.isPk = false) :
    ci.retype names ∈ (cat.compress names accepts).insertColumns := by
  rw [insertColumns_compress]
  exact List.mem_map_of_mem (List.mem_filter.mpr ⟨hci, by rw [hpk]; rfl⟩)

theorem value_of_not_isPk (hpk : ci.isPk = false) : r.value (ci.retype names) = r.cell ci.name := by
  rw [LogRow.value, isRowId_of_not_isPk (by rw [ColumnInfo.retype_isPk, hpk]),
    ColumnInfo.retype_name]
  rfl

/-- In the compressed column a row meets the condition if and only if its string
stands in the relation to the filter's value. -/
theorem holds_compressed_iff (hw : Sound (cat.compress names accepts) w) (hr : r ∈ w.log)
    (hci : cat.column ft.field = some ci) (hpk : ci.isPk = false)
    (hname : names.contains ft.field = true) {s t : Bytes} (hs : r.source.find ft.field = .string s)
    (ht : ft.value = .string t) :
    (conditionOf (cat.compress names accepts) w.colDict ft).holds (cat.compress names accepts) r =
        true ↔ valueMatches ft.op t s = true := by
  obtain ⟨hmem, hfield⟩ := column_mem hci
  have hname' : names.contains ci.name = true := by rw [hfield]; exact hname
  obtain ⟨id, hid, hcell⟩ := hw.cell_id hr (retype_mem_insertColumns hmem hpk)
    (by rw [ColumnInfo.retype_name]; exact hname')
    (by rw [ColumnInfo.retype_name, hfield, hs]; rfl)
  rw [ColumnInfo.retype_name, hfield, hs] at hid
  rw [ColumnInfo.retype_name, retype_affinity hname'] at hcell
  have hvalue : r.value (ci.retype names) = .integer id := by
    rw [value_of_not_isPk hpk, hcell, apply_integer_integer]
  have hcond : conditionOf (cat.compress names accepts) w.colDict ft =
      .inIds ft.field (queryCandidates cat.platform w.colDict ft) := if_pos hname
  rw [hcond, Condition.holds, column_compress, hci]
  simp only [Option.map_some, hvalue, retype_affinity hname', List.any_eq_true, bindParam,
    comparison_integer_eq]
  constructor
  · rintro ⟨i, hi, heq⟩
    obtain ⟨v, hv, hmatch⟩ := mem_queryCandidates.mp hi
    rw [hw.toInt64_id hv] at heq
    rw [← heq] at hv
    rw [ht] at hmatch
    have hsv : s = v := hw.dict.numbering _ hid hv
    rw [hsv]
    exact hmatch
  · intro hmatch
    refine ⟨id, mem_queryCandidates.mpr ⟨s, hid, ?_⟩, (hw.toInt64_id hid).symm⟩
    rw [ht]
    exact hmatch

/-- A row with a null does not meet any condition on the compressed column. -/
theorem holds_compressed_null (hw : Sound (cat.compress names accepts) w) (hr : r ∈ w.log)
    (hci : cat.column ft.field = some ci) (hpk : ci.isPk = false)
    (hname : names.contains ft.field = true) (hs : r.source.find ft.field = .null) :
    (conditionOf (cat.compress names accepts) w.colDict ft).holds (cat.compress names accepts) r =
      false := by
  obtain ⟨hmem, hfield⟩ := column_mem hci
  have hcell := hw.cell_null hr (retype_mem_insertColumns hmem hpk)
    (by rw [ColumnInfo.retype_name, hfield, hs]; rfl)
  rw [ColumnInfo.retype_name] at hcell
  have hcond : conditionOf (cat.compress names accepts) w.colDict ft =
      .inIds ft.field (queryCandidates cat.platform w.colDict ft) := if_pos hname
  rw [hcond, Condition.holds, column_compress, hci]
  simp [value_of_not_isPk hpk, hcell]

/-- A key column is not in the dictionary, so no row meets a condition on it. -/
theorem holds_compressed_isPk (hw : Sound (cat.compress names accepts) w)
    (hci : cat.column ft.field = some ci) (hpk : ci.isPk = true)
    (hname : names.contains ft.field = true) :
    (conditionOf (cat.compress names accepts) w.colDict ft).holds (cat.compress names accepts) r =
      false := by
  obtain ⟨hmem, hfield⟩ := column_mem hci
  refine conditionOf_holds_of_isEmpty ?_
  rw [Bool.and_eq_true, List.isEmpty_iff]
  refine ⟨hname, List.eq_nil_iff_forall_not_mem.mpr fun id hid => ?_⟩
  obtain ⟨v, hv, -⟩ := mem_queryCandidates.mp hid
  obtain ⟨ci', hci', hname'⟩ := hw.columns ft.field v (by rw [hv]; rfl)
  refine DatabaseCatalog.name_ne_of_isPk (cat.compress names accepts)
    (List.mem_map_of_mem hmem) (by rw [ColumnInfo.retype_isPk, hpk]) hci' ?_
  rw [ColumnInfo.retype_name, hfield, hname']

/-- In a text column that is not compressed, likewise. -/
theorem holds_text_iff (hw : Sound cat w) (hr : r ∈ w.log)
    (hcomp : cat.compressedColumns.contains ft.field = false)
    (hci : cat.column ft.field = some ci) (htext : ci.affinity = .text) (hpk : ci.isPk = false)
    {s t : Bytes} (hs : r.source.find ft.field = .string s) (hft : ft.IsComparison)
    (ht : ft.value = .string t) :
    (conditionOf cat w.colDict ft).holds cat r = true ↔ valueMatches ft.op t s = true := by
  obtain ⟨hmem, hfield⟩ := column_mem hci
  have hins : ci ∈ cat.insertColumns := List.mem_filter.mpr ⟨hmem, by rw [hpk]; rfl⟩
  have hcell := hw.cell_plain hr hins (by rw [hfield]; exact hcomp)
  rw [hfield, hs] at hcell
  have hvalue : r.value ci = .text s := by
    rw [LogRow.value, isRowId_of_not_isPk hpk, hfield]
    show r.cell ft.field = .text s
    rw [hcell, storedCell, htext]
    rfl
  obtain ⟨cmp, hcmp⟩ := Option.isSome_iff_exists.mp hft.1
  rw [conditionOf, hcomp, if_neg Bool.false_ne_true, if_neg hft.op_ne, Condition.holds, hci, hcmp]
  simp only [hvalue, htext, ht, bindParam, comparison_text]
  rw [valueMatches, if_neg hft.op_ne, hcmp]

/-- A row with a null, or a column that is not written, meets no comparison. -/
theorem holds_null (hcomp : cat.compressedColumns.contains ft.field = false)
    (hci : cat.column ft.field = some ci) (hvalue : r.value ci = .null) (hft : ft.IsComparison) :
    (conditionOf cat w.colDict ft).holds cat r = false := by
  obtain ⟨cmp, hcmp⟩ := Option.isSome_iff_exists.mp hft.1
  rw [conditionOf, hcomp, if_neg Bool.false_ne_true, if_neg hft.op_ne, Condition.holds, hci, hcmp]
  simp [hvalue]

/-- A column that neither database compresses has the same value in both rows. -/
theorem value_compress_plain (hw : Sound (cat.compress names accepts) w)
    (hw₀ : Sound (cat.compress [] accepts₀) w₀) (hr : r ∈ w.log) (hr₀ : r₀ ∈ w₀.log)
    (hid : r.id = r₀.id) (hsource : r.source = r₀.source)
    (hmem : ci ∈ (cat.compress names accepts).logColumnInfo)
    (hmem₀ : ci ∈ (cat.compress [] accepts₀).logColumnInfo)
    (hname : names.contains ci.name = false) : r.value ci = r₀.value ci := by
  have hcells : r.cell ci.name = r₀.cell ci.name := by
    cases hpk : ci.isPk with
    | true => rw [hw.cell_of_isPk hr hmem hpk, hw₀.cell_of_isPk hr₀ hmem₀ hpk]
    | false =>
      rw [hw.cell_plain hr (List.mem_filter.mpr ⟨hmem, by rw [hpk]; rfl⟩) hname,
        hw₀.cell_plain hr₀ (List.mem_filter.mpr ⟨hmem₀, by rw [hpk]; rfl⟩) rfl, hsource]
      rfl
  rw [LogRow.value, LogRow.value, hid, hcells]

/-- A filter on a column that is not compressed compares the column itself. -/
theorem conditionOf_plain {d : LookupTable} (hname : names.contains ft.field = false)
    (hft : ft.IsComparison) :
    conditionOf (cat.compress names accepts) d ft = .compare ft.field ft.op ft.value := by
  have hplain : (cat.compress names accepts).compressedColumns.contains ft.field = false := hname
  rw [conditionOf, hplain, if_neg Bool.false_ne_true, if_neg hft.op_ne]

/-- The two conditions of one filter agree on two rows made from the same log. -/
theorem holds_compress_iff (hw : Sound (cat.compress names accepts) w)
    (hw₀ : Sound (cat.compress [] accepts₀) w₀) (hr : r ∈ w.log) (hr₀ : r₀ ∈ w₀.log)
    (hid : r.id = r₀.id) (hsource : r.source = r₀.source)
    (htext : ∀ ci ∈ cat.logColumnInfo, names.contains ci.name = true → ci.affinity = .text)
    (hvalue : names.contains ft.field = true → IsText (r.source.find ft.field))
    (hknown : cat.knows ft.field = true) (hft : ft.IsComparison) :
    (conditionOf (cat.compress names accepts) w.colDict ft).holds (cat.compress names accepts) r =
      (conditionOf (cat.compress [] accepts₀) w₀.colDict ft).holds
        (cat.compress [] accepts₀) r₀ := by
  obtain ⟨ci, hci⟩ := column_of_knows hknown
  obtain ⟨hmem, hfield⟩ := column_mem hci
  have hci₀ : (cat.compress [] accepts₀).column ft.field = some ci := by
    rw [column_compress, hci]
    rfl
  have hmem₀ : ci ∈ (cat.compress [] accepts₀).logColumnInfo := (column_mem hci₀).1
  by_cases hname : names.contains ft.field = true
  · have haff : ci.affinity = .text := htext ci hmem (by rw [hfield]; exact hname)
    cases hpk : ci.isPk with
    | true =>
      -- the column is written by neither database
      have hcell := hw₀.cell_of_isPk hr₀ hmem₀ hpk
      rw [holds_compressed_isPk hw hci hpk hname, holds_null rfl hci₀ ?_ hft]
      rw [LogRow.value, isRowId_of_text haff]
      exact hcell
    | false =>
      rcases hvalue hname with hnull | ⟨s, hs⟩
      · have hins₀ : ci ∈ (cat.compress [] accepts₀).insertColumns :=
          List.mem_filter.mpr ⟨hmem₀, by rw [hpk]; rfl⟩
        have hcell := hw₀.cell_null hr₀ hins₀ (by rw [hfield, ← hsource, hnull]; rfl)
        rw [holds_compressed_null hw hr hci hpk hname hnull, holds_null rfl hci₀ ?_ hft]
        rw [LogRow.value, isRowId_of_text haff]
        exact hcell
      · obtain ⟨t, ht⟩ := hft.2
        rw [Bool.eq_iff_iff, holds_compressed_iff hw hr hci hpk hname hs ht,
          holds_text_iff hw₀ hr₀ rfl hci₀ haff hpk (hsource ▸ hs) hft ht]
  · -- the column is stored alike in both databases
    rw [Bool.not_eq_true] at hname
    have hname' : names.contains ci.name = false := by rw [hfield]; exact hname
    have hci₁ : (cat.compress names accepts).column ft.field = some ci := by
      rw [column_compress, hci, Option.map_some, retype_of_not_mem hname']
    have hmem₁ : ci ∈ (cat.compress names accepts).logColumnInfo := (column_mem hci₁).1
    have hval := value_compress_plain hw hw₀ hr hr₀ hid hsource hmem₁ hmem₀ hname'
    rw [conditionOf_plain hname hft, conditionOf_plain rfl hft, Condition.holds, Condition.holds,
      hci₁, hci₀]
    cases comparisonOf ft.op with
    | none => rfl
    | some cmp =>
      simp only [hval]
      rfl

/-! ### A list of filters -/

/-- A list of comparisons selects a row with compression if and only if it selects
the row made from the same log without it. -/
theorem selects_compress_eq (hw : Sound (cat.compress names accepts) w)
    (hw₀ : Sound (cat.compress [] accepts₀) w₀) (hr : r ∈ w.log) (hr₀ : r₀ ∈ w₀.log)
    (hid : r.id = r₀.id) (hsource : r.source = r₀.source)
    (htext : ∀ ci ∈ cat.logColumnInfo, names.contains ci.name = true → ci.affinity = .text)
    (hvalue : ∀ name, names.contains name = true → IsText (r.source.find name))
    {filters : List QueryFilter} (hfilters : ∀ ft ∈ filters, ft.IsComparison) :
    selects (cat.compress names accepts) w.colDict filters r =
      selects (cat.compress [] accepts₀) w₀.colDict filters r₀ := by
  by_cases hknown : ∀ ft ∈ filters, cat.knows ft.field = true
  · have hvalid : ∀ {names' accepts'}, ∀ ft ∈ filters, ft.Valid (cat.compress names' accepts') :=
      fun ft h => ⟨by rw [knows_compress]; exact hknown ft h, (hfilters ft h).allowed⟩
    rw [Bool.eq_iff_iff, selects_iff hvalid, selects_iff hvalid]
    refine forall₂_congr fun ft h => ?_
    rw [holds_compress_iff hw hw₀ hr hr₀ hid hsource htext (hvalue ft.field) (hknown ft h)
      (hfilters ft h)]
  · simp only [not_forall] at hknown
    obtain ⟨ft, hmem, hunknown⟩ := hknown
    have hinvalid : ∀ {names' accepts'}, ¬ ft.Valid (cat.compress names' accepts') := by
      intro names' accepts' hv
      rw [QueryFilter.Valid, knows_compress] at hv
      exact hunknown hv.1
    rw [selects_of_not_valid hmem hinvalid, selects_of_not_valid hmem hinvalid]

end

/-- What identifies a row across the two databases: its id and its log. -/
def LogRow.key (r : LogRow) : ℤ × Json := (r.id, r.source)

/-- Filtering two lists that agree on a key by predicates that agree on equal keys. -/
theorem map_filter_eq_of_map_eq {α β κ : Type*} {k : α → κ} {k' : β → κ} {p : α → Bool}
    {p' : β → Bool} : ∀ {l : List α} {l' : List β}, l.map k = l'.map k' →
      (∀ a ∈ l, ∀ b ∈ l', k a = k' b → p a = p' b) →
        (l.filter p).map k = (l'.filter p').map k'
  | [], [], _, _ => rfl
  | a :: l, b :: l', h, hp => by
    rw [List.map_cons, List.map_cons, List.cons.injEq] at h
    have hhead := hp a List.mem_cons_self b List.mem_cons_self h.1
    have htail := map_filter_eq_of_map_eq h.2 fun x hx y hy =>
      hp x (List.mem_cons_of_mem a hx) y (List.mem_cons_of_mem b hy)
    rw [List.filter_cons, List.filter_cons, hhead]
    split
    · rw [List.map_cons, List.map_cons, h.1, htail]
    · exact htail

/-- **Compression is transparent for comparisons.**  Two reachable databases that
hold the same logs, one with the text columns `names` compressed and one without
compression, give the same logs for every list of comparisons with strings. -/
theorem compression_transparent {accepts₀ : List LogRow → List (ColumnName × SqlValue) → Bool}
    {w w₀ : WriterDatabase} (hw : Reachable (cat.compress names accepts) w)
    (hw₀ : Reachable (cat.compress [] accepts₀) w₀)
    (hsame : w.log.map LogRow.key = w₀.log.map LogRow.key)
    (htext : ∀ ci ∈ cat.logColumnInfo, names.contains ci.name = true → ci.affinity = .text)
    (hvalue : ∀ r ∈ w.log, ∀ name, names.contains name = true → IsText (r.source.find name))
    {filters : List QueryFilter} (hfilters : ∀ ft ∈ filters, ft.IsComparison) :
    (w.log.filter (selects (cat.compress names accepts) w.colDict filters)).map LogRow.key =
      (w₀.log.filter (selects (cat.compress [] accepts₀) w₀.colDict filters)).map LogRow.key := by
  refine map_filter_eq_of_map_eq hsame fun r hr r₀ hr₀ hkey => ?_
  rw [LogRow.key, LogRow.key, Prod.mk.injEq] at hkey
  exact selects_compress_eq hw.sound hw₀.sound hr hr₀ hkey.1 hkey.2 htext (hvalue r hr) hfilters

end

/-- Two databases with the logs `INFO` and one without a level, and a filter for a
level other than `DEBUG`. -/
theorem compression_transparent_levels : ∃ w w₀,
    Reachable (textCatalog.compress [lit "level"] fun _ _ => true) w ∧
      Reachable (textCatalog.compress [] fun _ _ => true) w₀ ∧
        (w.log.filter (selects (textCatalog.compress [lit "level"] fun _ _ => true) w.colDict
            [⟨lit "level", lit "!=", .string (lit "DEBUG")⟩])).map LogRow.key =
          (w₀.log.filter (selects (textCatalog.compress [] fun _ _ => true) w₀.colDict
            [⟨lit "level", lit "!=", .string (lit "DEBUG")⟩])).map LogRow.key := by
  have hw : InsertReturns (textCatalog.compress [lit "level"] fun _ _ => true) .fresh
      (.none, [levelLog "INFO", .object []]) _ := ⟨_, rfl⟩
  have hw₀ : InsertReturns (textCatalog.compress [] fun _ _ => true) .fresh
      (.none, [levelLog "INFO", .object []]) _ := ⟨_, rfl⟩
  have hreach := hw.reachable
  have hreach₀ := hw₀.reachable
  refine ⟨_, _, hreach, hreach₀, compression_transparent hreach hreach₀ rfl (by decide) ?_ ?_⟩
  · intro r hr name hname
    have hlevel : name = lit "level" := by simpa using hname
    subst hlevel
    rcases List.mem_cons.mp hr with rfl | hr
    · exact .inr ⟨lit "INFO", rfl⟩
    · rw [List.mem_singleton.mp hr]
      exact .inl rfl
  · intro ft hft
    rw [List.mem_singleton.mp hft]
    exact ⟨by decide, _, rfl⟩

end LogLite
