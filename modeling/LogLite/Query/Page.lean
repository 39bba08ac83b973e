import LogLite.Base.SqlOrder
import LogLite.Query.Filter

/-!
# Pages

`ReaderDatabase::Query` with filters runs two statements: `SELECT COUNT(id)`, read
into an `int`, and, unless the count is zero, a `SELECT` with `ORDER BY`, `LIMIT`
and `OFFSET`.  Each sees the rows that are committed when it runs.

## Main definitions

* `Compiles`, `matching`, `countRows` — the filters are accepted, the rows they
  select, and the count the code reads.
* `IsPage` — the rows one `SELECT` may return.
* `DatabaseCatalog.HasRowId` — `id` is the row id.

## Main results

* `IsPage.mem_iff`, `IsPage.exists_notMem` — a page from the start has all selected
  rows if there is room for them, and else lacks one.
-/

namespace LogLite

/-- `sqlite3_column_int`: the low 32 bits. -/
def toInt32 (n : ℤ) : ℤ := n.bmod (2 ^ 32)

/-- The low 32 bits of a number are the number, but for a multiple of `2 ^ 32`. -/
theorem toInt32_eq_iff {n m : ℤ} :
    toInt32 n = m ↔ (∃ wraps, n = 2 ^ 32 * wraps + m) ∧ -2 ^ 31 ≤ m ∧ m < 2 ^ 31 := by
  unfold toInt32
  constructor
  · rintro rfl
    have hlow := Int.le_bmod (x := n) (m := 2 ^ 32) (by decide)
    have hhigh := Int.bmod_lt (x := n) (m := 2 ^ 32) (by decide)
    exact ⟨⟨n.bdiv (2 ^ 32), (Int.bdiv_add_bmod n (2 ^ 32)).symm⟩, by omega, by omega⟩
  · rintro ⟨⟨wraps, rfl⟩, hlow, hhigh⟩
    have hcancel : (m + (2 ^ 32 : ℕ) * wraps).bmod (2 ^ 32) = m.bmod (2 ^ 32) :=
      Int.add_mul_bmod_self_left m (2 ^ 32) wraps
    rw [Int.add_comm]
    exact hcancel.trans (Int.bmod_eq_of_le (by omega) (by omega))

section
variable (cat : DatabaseCatalog) (d : LookupTable) (filters : List QueryFilter)

/-- The filters are turned into a clause, and not refused. -/
def Compiles : Prop := ∃ clause, buildWhereClause cat d filters = .ok clause

/-- The rows a list of filters selects. -/
def matching (rows : List LogRow) : List LogRow := rows.filter (selects cat d filters)

/-- The total `Query` reads from `SELECT COUNT(id)`. -/
def countRows (rows : List LogRow) : ℤ := toInt32 (matching cat d filters rows).length

/-- `ORDER BY column DESC`. -/
def Descending (ci : ColumnInfo) (rows : List LogRow) : Prop :=
  rows.Pairwise fun a b => (a.value ci).compareWith (b.value ci) ≠ .lt

/-- `LIMIT limit OFFSET offset`: a negative limit is none, and a negative offset
is zero. -/
def limited (limit offset : ℤ) (rows : List LogRow) : List LogRow :=
  let rest := rows.drop offset.toNat
  if limit < 0 then rest else rest.take limit.toNat

/-- `page` may be the result of the `SELECT`; rows with equal values of the column
come in any order. -/
def IsPage (orderBy : ColumnName) (limit offset : ℤ) (rows page : List LogRow) : Prop :=
  Compiles cat d filters ∧ ∃ ci sorted, cat.column orderBy = some ci ∧
    sorted.Perm (matching cat d filters rows) ∧ Descending ci sorted ∧
      page = limited limit offset sorted

variable {cat d filters}

theorem matching_eq_nil_of_countRows {rows : List LogRow}
    (hlen : (matching cat d filters rows).length < 2 ^ 31)
    (h : countRows cat d filters rows = 0) : matching cat d filters rows = [] := by
  unfold countRows at h
  obtain ⟨⟨wraps, hwraps⟩, -, -⟩ := toInt32_eq_iff.mp h
  exact List.length_eq_zero_iff.mp (by omega)

/-- Pages have selected rows only. -/
theorem IsPage.subset {orderBy : ColumnName} {limit offset : ℤ} {rows page : List LogRow}
    (h : IsPage cat d filters orderBy limit offset rows page) :
    page ⊆ matching cat d filters rows := by
  obtain ⟨-, ci, sorted, -, hperm, -, rfl⟩ := h
  intro r hr
  have hdrop : r ∈ sorted.drop offset.toNat := by
    unfold limited at hr
    split at hr
    · exact hr
    · exact List.mem_of_mem_take hr
  exact hperm.mem_iff.mp (List.mem_of_mem_drop hdrop)

/-- A page without room for all selected rows lacks one of them. -/
theorem IsPage.exists_notMem {orderBy : ColumnName} {limit : ℕ} {rows page : List LogRow}
    (h : IsPage cat d filters orderBy limit 0 rows page)
    (hlen : limit < (matching cat d filters rows).length)
    (hnodup : (matching cat d filters rows).Nodup) :
    ∃ r ∈ matching cat d filters rows, r ∉ page := by
  obtain ⟨-, ci, sorted, -, hperm, -, rfl⟩ := h
  have hpage : limited limit 0 sorted = sorted.take limit := by
    unfold limited
    rw [if_neg (by omega), Int.toNat_zero, List.drop_zero, Int.toNat_natCast]
  have hmore : limit < sorted.length := hlen.trans_eq hperm.length_eq.symm
  have hdrop : sorted[limit] ∈ sorted.drop limit := by
    rw [List.drop_eq_getElem_cons hmore]
    exact List.mem_cons_self
  refine ⟨sorted[limit], hperm.mem_iff.mp (List.getElem_mem hmore), ?_⟩
  rw [hpage]
  intro htake
  exact List.disjoint_take_drop (hperm.nodup_iff.mpr hnodup) (Nat.le_refl _) htake hdrop

/-- Every selection can be put in the order of a column. -/
theorem IsPage.exists {orderBy : ColumnName} {ci : ColumnInfo} (hclause : Compiles cat d filters)
    (hci : cat.column orderBy = some ci) (limit offset : ℤ) (rows : List LogRow) :
    ∃ page, IsPage cat d filters orderBy limit offset rows page := by
  let before (a b : LogRow) : Bool := ((b.value ci).compareWith (a.value ci)).isLE
  have hsorted := @List.pairwise_mergeSort _ before
    (fun a b c hab hbc => Std.TransCmp.isLE_trans hbc hab)
    (fun a b => by
      show ((b.value ci).compareWith (a.value ci)).isLE.or
        ((a.value ci).compareWith (b.value ci)).isLE = true
      rw [SqlValue.compareWith_swap (a.value ci)]
      cases (b.value ci).compareWith (a.value ci) <;> rfl)
    (matching cat d filters rows)
  refine ⟨_, hclause, ci, _, hci, List.mergeSort_perm _ before, hsorted.imp ?_, rfl⟩
  intro a b hab hlt
  rw [SqlValue.compareWith_swap, Ordering.swap_eq_lt] at hlt
  have hle : ((b.value ci).compareWith (a.value ci)).isLE = true := hab
  rw [hlt] at hle
  cases hle

/-- A page with room for all selected rows is one of their orders. -/
theorem IsPage.perm {orderBy : ColumnName} {limit : ℕ} {rows page : List LogRow}
    (h : IsPage cat d filters orderBy limit 0 rows page)
    (hlen : (matching cat d filters rows).length ≤ limit) :
    page.Perm (matching cat d filters rows) := by
  obtain ⟨-, ci, sorted, -, hperm, -, rfl⟩ := h
  have hall : limited limit 0 sorted = sorted := by
    unfold limited
    rw [if_neg (by omega), Int.toNat_zero, List.drop_zero, Int.toNat_natCast]
    exact List.take_of_length_le (hperm.length_eq.trans_le hlen)
  rw [hall]
  exact hperm

/-- **A page with room for all selected rows has them all.** -/
theorem IsPage.mem_iff {orderBy : ColumnName} {limit : ℕ} {rows page : List LogRow}
    (h : IsPage cat d filters orderBy limit 0 rows page)
    (hlen : (matching cat d filters rows).length ≤ limit) {r : LogRow} :
    r ∈ page ↔ r ∈ matching cat d filters rows := by
  obtain ⟨-, ci, sorted, -, hperm, -, rfl⟩ := h
  have hall : limited limit 0 sorted = sorted := by
    unfold limited
    rw [if_neg (by omega), Int.toNat_zero, List.drop_zero, Int.toNat_natCast]
    exact List.take_of_length_le (hperm.length_eq.trans_le hlen)
  rw [hall]
  exact hperm.mem_iff

end

/-- `id` is another name of the row id, and is not compressed. -/
structure DatabaseCatalog.HasRowId (cat : DatabaseCatalog) : Prop where
  column : ∃ ci, cat.column (lit "id") = some ci ∧ ci.isRowId = true
  plain : cat.compressedColumns.contains (lit "id") = false

theorem stampCatalog_hasRowId : stampCatalog.HasRowId := ⟨⟨_, rfl, by decide⟩, by decide⟩

section
variable {cat : DatabaseCatalog}

theorem DatabaseCatalog.HasRowId.knows (hid : cat.HasRowId) : cat.knows (lit "id") = true := by
  obtain ⟨ci, hci, -⟩ := hid.column
  obtain ⟨hmem, hname⟩ := column_mem hci
  exact List.any_eq_true.mpr ⟨ci, hmem, beq_iff_eq.mpr hname⟩

/-- The affinity of the row id. -/
theorem affinity_of_isRowId {ci : ColumnInfo} (h : ci.isRowId = true) : ci.affinity = .integer := by
  unfold ColumnInfo.isRowId at h
  rw [Bool.and_eq_true, beq_iff_eq] at h
  unfold ColumnInfo.affinity declaredAffinity
  rw [h.2]
  rfl

/-- The condition of a filter that compares the row id with an integer. -/
theorem holds_id_iff (hid : cat.HasRowId) {d : LookupTable} {op : Bytes} {cmp : Cmp} {n : ℤ}
    (hop : comparisonOf op = some cmp) (hne : op ≠ lit "~=") (hn : fitsInt64 n = true)
    {r : LogRow} : (conditionOf cat d ⟨lit "id", op, .integer n⟩).holds cat r =
      cmp.holds (compare r.id n) := by
  obtain ⟨ci, hci, hrow⟩ := hid.column
  have hcond : conditionOf cat d ⟨lit "id", op, .integer n⟩ =
      .compare (lit "id") op (.integer n) := by
    unfold conditionOf
    rw [hid.plain, if_neg Bool.false_ne_true, if_neg hne]
  rw [hcond]
  simp only [Condition.holds, hci, hop]
  rw [affinity_of_isRowId hrow, LogRow.value, hrow, bindParam, toInt64_eq_self_iff.mpr hn]
  rfl

end

end LogLite
