import LogLite.Base.SqlOrder
import LogLite.Lib.Paging
import LogLite.Query.Page

/-!
# Reading a result page by page

A client reads a result with `offset` 0, `limit`, `2 * limit` and so on until a page
is empty.  Each `Query` sorts by the timestamp column alone, so rows with the same
timestamp may change places from one page to the next.  And before it selects
anything `Query` reads a total into an `int`, and answers with no rows if that is
zero.

## Main definitions

* `queryTotal`, `QueryReturns` — `ReaderDatabase::Query`.
* `QueryPages` — the pages of one client, while the table does not change.
* `PartitionsResult` — they have every matching row once, latest first.

## Main results

* `query_pages_partition_iff` — **the pages partition the result, exactly when all rows
  of one timestamp fall on one page** (and the total is not zero for nothing).
-/

namespace LogLite

open Paging

/-! ### The order of the rows -/

/-- `a` is no earlier than `b`. -/
def NotEarlier (ci : ColumnInfo) (a b : LogRow) : Prop :=
  (a.value ci).compareWith (b.value ci) ≠ .lt

instance (ci : ColumnInfo) : DecidableRel (NotEarlier ci) :=
  fun a b => inferInstanceAs (Decidable ((a.value ci).compareWith (b.value ci) ≠ .lt))

theorem notEarlier_iff {ci : ColumnInfo} {a b : LogRow} :
    NotEarlier ci a b ↔ ((a.value ci).compareWith (b.value ci)).isGE = true := by
  unfold NotEarlier
  cases (a.value ci).compareWith (b.value ci) <;> simp

instance (ci : ColumnInfo) : Std.Total (NotEarlier ci) where
  total a b := by
    rw [notEarlier_iff, notEarlier_iff, SqlValue.compareWith_swap (b.value ci)]
    cases (a.value ci).compareWith (b.value ci)
    · exact .inr rfl
    · exact .inl rfl
    · exact .inl rfl

instance (ci : ColumnInfo) : IsTrans LogRow (NotEarlier ci) where
  trans a b c hab hbc := by
    rw [notEarlier_iff] at hab hbc ⊢
    exact Std.TransCmp.isGE_trans hab hbc

/-! ### `Query` -/

section
variable (cat : DatabaseCatalog) (d : LookupTable) (filters : List QueryFilter)

/-- The total `Query` reads: an estimate if there are no filters. -/
def queryTotal (rows : List LogRow) : ℤ :=
  if filters.isEmpty then toInt32 (estimateLogRowCount rows) else countRows cat d filters rows

/-- `ReaderDatabase::Query` may answer with these rows.  A limit below zero is a length that
`results.reserve` refuses. -/
def QueryReturns (orderBy : ColumnName) (limit offset : ℤ) (rows page : List LogRow) : Prop :=
  Compiles cat d filters ∧
    if queryTotal cat d filters rows = 0 then page = []
    else 0 ≤ limit ∧ IsPage cat d filters orderBy limit offset rows page

variable (orderBy : ColumnName) (limit : ℕ) (rows : List LogRow)

/-- The answers to the requests for `offset` 0, `limit`, `2 * limit` and so on. -/
def QueryPages (pages : ℕ → List LogRow) : Prop :=
  ∀ k : ℕ, QueryReturns cat d filters orderBy limit (k * limit : ℕ) rows (pages k)

/-- The pages before the first empty one have every matching row once, in
non-increasing order of the timestamp column. -/
def PartitionsResult (pages : ℕ → List LogRow) : Prop :=
  ∃ n, (∀ k < n, pages k ≠ []) ∧ pages n = [] ∧
    (firstPages pages n).Perm (matching cat d filters rows) ∧
      ∀ ci, cat.column orderBy = some ci → Descending ci (firstPages pages n)

variable {cat d filters orderBy limit rows}

theorem matching_of_not_compiles (h : ¬ Compiles cat d filters) :
    matching cat d filters rows = [] := by
  refine List.filter_eq_nil_iff.mpr fun r _ => ?_
  unfold selects
  cases hclause : buildWhereClause cat d filters with
  | ok clause => exact absurd ⟨clause, hclause⟩ h
  | error what => exact Bool.false_ne_true

theorem limited_eq_page (k : ℕ) (l : List LogRow) :
    limited limit (k * limit : ℕ) l = page limit k l := by
  unfold limited page
  rw [if_neg (by omega), Int.toNat_natCast, Int.toNat_natCast]

/-- A page of the statement is a page of the matching rows in some order. -/
theorem isPage_iff {ci : ColumnInfo} (hci : cat.column orderBy = some ci)
    (hclause : Compiles cat d filters) {k : ℕ} {p : List LogRow} :
    IsPage cat d filters orderBy limit (k * limit : ℕ) rows p ↔
      ∃ sorted, Ordered (NotEarlier ci) (matching cat d filters rows) sorted ∧
        p = page limit k sorted := by
  constructor
  · rintro ⟨-, ci', sorted, hci', hperm, hdesc, rfl⟩
    obtain rfl := Option.some.inj (hci.symm.trans hci')
    exact ⟨sorted, ⟨hperm, hdesc⟩, limited_eq_page k sorted⟩
  · rintro ⟨sorted, ⟨hperm, hdesc⟩, rfl⟩
    exact ⟨hclause, ci, sorted, hci, hperm, hdesc, (limited_eq_page k sorted).symm⟩

/-- Unless the total is zero, the answers are pages of the matching rows. -/
theorem queryPages_iff {ci : ColumnInfo} (hci : cat.column orderBy = some ci)
    (hclause : Compiles cat d filters) (htotal : queryTotal cat d filters rows ≠ 0)
    {pages : ℕ → List LogRow} :
    QueryPages cat d filters orderBy limit rows pages ↔
      Pages (NotEarlier ci) (matching cat d filters rows) limit pages := by
  refine forall_congr' fun k => ?_
  rw [QueryReturns, if_neg htotal, isPage_iff hci hclause, and_iff_right hclause]
  exact and_iff_right (Int.natCast_nonneg limit)

theorem partitionsResult_iff {ci : ColumnInfo} (hci : cat.column orderBy = some ci)
    {pages : ℕ → List LogRow} :
    PartitionsResult cat d filters orderBy rows pages ↔
      Partition (NotEarlier ci) (matching cat d filters rows) pages := by
  refine exists_congr fun n => and_congr_right fun _ => and_congr_right fun _ => ?_
  constructor
  · rintro ⟨hperm, hdesc⟩
    exact ⟨hperm, hdesc ci hci⟩
  · rintro ⟨hperm, hdesc⟩
    refine ⟨hperm, fun ci' hci' => ?_⟩
    obtain rfl := Option.some.inj (hci.symm.trans hci')
    exact hdesc

/-- Where nothing matches, no page has a row. -/
theorem PartitionsResult.of_nil (hnil : matching cat d filters rows = [])
    {pages : ℕ → List LogRow} (h : pages 0 = []) :
    PartitionsResult cat d filters orderBy rows pages := by
  refine ⟨0, nofun, h, ?_, fun ci _ => List.Pairwise.nil⟩
  rw [hnil]
  exact List.Perm.refl _

/-- Where the total is zero, the first page is empty and is the last one. -/
theorem partitionsResult_of_total_zero (htotal : queryTotal cat d filters rows = 0)
    (hclause : Compiles cat d filters)
    (hall : ∀ pages, QueryPages cat d filters orderBy limit rows pages →
      PartitionsResult cat d filters orderBy rows pages) :
    matching cat d filters rows = [] := by
  have hpages : QueryPages cat d filters orderBy limit rows fun _ => [] := by
    intro k
    rw [QueryReturns, if_pos htotal]
    exact ⟨hclause, rfl⟩
  obtain ⟨n, hne, -, hperm, -⟩ := hall _ hpages
  have hn : n = 0 := by
    by_contra hn
    exact hne 0 (Nat.pos_of_ne_zero hn) rfl
  rw [hn] at hperm
  exact hperm.nil_eq.symm

/-- **Reading page by page gives every matching row once, latest first, exactly when
no page boundary separates rows of one timestamp.**  A total of zero for a result that is not empty
loses it all: the ids span, or the filters select, a multiple of `2 ^ 32` rows. -/
theorem query_pages_partition_iff (hlimit : 0 < limit) (hnodup : (rows.map (·.id)).Nodup) :
    (∀ pages, QueryPages cat d filters orderBy limit rows pages →
      PartitionsResult cat d filters orderBy rows pages) ↔
    (queryTotal cat d filters rows = 0 → matching cat d filters rows = []) ∧
      ∀ ci, cat.column orderBy = some ci →
        TiesOnOnePage (NotEarlier ci) (matching cat d filters rows) limit := by
  have hdistinct : (matching cat d filters rows).Nodup := (List.Nodup.of_map _ hnodup).filter _
  by_cases hclause : Compiles cat d filters
  · by_cases htotal : queryTotal cat d filters rows = 0
    · -- every page is empty
      constructor
      · intro hall
        have hnil := partitionsResult_of_total_zero htotal hclause hall
        refine ⟨fun _ => hnil, fun ci _ => ?_⟩
        rw [hnil]
        exact nofun
      · rintro ⟨hzero, -⟩ pages hpages
        have hfirst := (hpages 0).2
        rw [if_pos htotal] at hfirst
        exact .of_nil (hzero htotal) hfirst
    · cases hci : cat.column orderBy with
      | none =>
        -- the statement is refused: there are no answers
        refine ⟨fun _ => ⟨fun h => absurd h htotal, nofun⟩, fun _ pages hpages => ?_⟩
        have hfirst := (hpages 0).2
        rw [if_neg htotal] at hfirst
        obtain ⟨-, -, ci, _, hci', -⟩ := hfirst
        rw [hci] at hci'
        cases hci'
      | some ci =>
        have hlibrary : (∀ pages, Pages (NotEarlier ci) _ limit pages → Partition _ _ pages) ↔ _ :=
          pages_partition_iff hlimit hdistinct
        simp only [queryPages_iff hci hclause htotal, partitionsResult_iff hci, hlibrary]
        constructor
        · intro hties
          refine ⟨fun h => absurd h htotal, fun ci' hci' => ?_⟩
          obtain rfl := Option.some.inj hci'
          exact hties
        · exact fun h => h.2 ci rfl
  · -- `build_where_clause` throws: no row matches, and there are no answers
    have hnil : matching cat d filters rows = [] := matching_of_not_compiles hclause
    refine ⟨fun _ => ⟨fun _ => hnil, fun ci _ => ?_⟩, fun _ pages hpages => ?_⟩
    · rw [hnil]
      exact nofun
    · exact absurd (hpages 0).1 hclause

/-- Three rows, the last two of one time. -/
def threeStamps : List LogRow :=
  [stampRow 1 "12:00:00", stampRow 2 "11:00:00", stampRow 3 "11:00:00"]

/-- Three to a page, they are all on the first one. -/
theorem query_pages_partition_three :
    queryTotal stampCatalog ∅ [] threeStamps = 3 ∧
      ∀ pages, QueryPages stampCatalog ∅ [] (lit "timestamp") 3 threeStamps pages →
        PartitionsResult stampCatalog ∅ [] (lit "timestamp") threeStamps pages := by
  have htotal : queryTotal stampCatalog ∅ [] threeStamps = 3 := by decide
  refine ⟨htotal, (query_pages_partition_iff (by decide) (by decide)).mpr ⟨?_, ?_⟩⟩
  · rw [htotal]
    exact fun h => absurd h (by decide)
  · intro ci hci
    obtain rfl := Option.some.inj hci
    have hmatch : matching stampCatalog ∅ [] threeStamps = threeStamps := rfl
    rw [hmatch]
    unfold TiesOnOnePage
    decide

end

/-! ### Two rows of one time -/

/-- Two logs of the same second. -/
def twoTied : List LogRow := [stampRow 1 "12:00:00", stampRow 2 "12:00:00"]

/-- What a client may be shown of them, one row to a page. -/
def tiedPages : ℕ → List LogRow
  | 0 => [stampRow 1 "12:00:00"]
  | 1 => [stampRow 1 "12:00:00"]
  | _ => []

theorem compiles_nil (cat : DatabaseCatalog) (d : LookupTable) : Compiles cat d [] := ⟨_, rfl⟩

/-- One row is shown twice, the other one never. -/
theorem query_pages_repeat_tied :
    QueryPages stampCatalog ∅ [] (lit "timestamp") 1 twoTied tiedPages ∧
      ¬ PartitionsResult stampCatalog ∅ [] (lit "timestamp") twoTied tiedPages := by
  constructor
  · intro k
    have htotal : queryTotal stampCatalog ∅ [] twoTied ≠ 0 := by decide
    refine ⟨compiles_nil _ _, ?_⟩
    rw [if_neg htotal, and_iff_right (by decide), isPage_iff rfl (compiles_nil _ _)]
    have hmatch : matching stampCatalog ∅ [] twoTied = twoTied := rfl
    rw [hmatch]
    match k with
    | 0 => exact ⟨twoTied, ⟨List.Perm.refl _, by simp [twoTied]; decide⟩, rfl⟩
    | 1 => exact ⟨twoTied.reverse, ⟨List.reverse_perm _, by simp [twoTied]; decide⟩, rfl⟩
    | k + 2 =>
      refine ⟨twoTied, ⟨List.Perm.refl _, by simp [twoTied]; decide⟩, ?_⟩
      exact ((page_eq_nil_iff Nat.one_pos).mpr (by simp [twoTied])).symm
  · rintro ⟨n, hne, hnil, hperm, -⟩
    have hn : n = 2 := by
      match n with
      | 0 => cases hnil
      | 1 => cases hnil
      | 2 => rfl
      | n + 3 => exact absurd rfl (hne 2 (by omega))
    rw [hn] at hperm
    have hids := hperm.map (·.id)
    exact absurd hids (by decide)

end LogLite
