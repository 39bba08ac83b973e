import LogLite.Query.Pagination
import Mathlib.Data.Int.Interval
import Mathlib.Tactic.Linarith

/-!
# The estimate in place of a count

Without filters `Query` does not count the rows: it takes `MAX(id) - MIN(id) + 1`, which is
no less than their number, and no more if no id is missing.  But the estimate is an
`int64_t` and the total an `int`, so of a wide span of ids only the low 32 bits are left.

## Main definitions

* `TrueOfAll` — filters that select every row.
* `NoGaps` — every id between two ids is one.
* `AgreesWithCount` — without filters, `Query` agrees with a `Query` that counts.
* `EstimateFits` — but for a multiple of `2 ^ 32` the estimate is a total that is large
  enough.

## Main results

* `length_le_estimate`, `estimate_eq_length` — the estimate and the number of rows.
* `unfiltered_agrees_iff` — **the two agree exactly if the estimate fits.**
* `estimateFits_of_span_lt` — it does if the ids span less than `2 ^ 31`.
-/

namespace LogLite

/-! ### Counting ids -/

section
variable {ids : List ℤ} {first last : ℤ}

/-- Different integers between two bounds are no more than there is room for. -/
theorem length_le_of_between (hnodup : ids.Nodup) (h : ∀ i ∈ ids, first ≤ i ∧ i ≤ last)
    (hle : first ≤ last + 1) : (ids.length : ℤ) ≤ last + 1 - first := by
  have hsub : ids.toFinset ⊆ Finset.Icc first last := by
    intro i hi
    exact Finset.mem_Icc.mpr (h i (List.mem_toFinset.mp hi))
  have hcard := Finset.card_le_card hsub
  rw [List.toFinset_card_of_nodup hnodup] at hcard
  rw [← Int.card_Icc_of_le first last hle]
  exact_mod_cast hcard

/-- If none is missing there are as many. -/
theorem le_length_of_all (hnodup : ids.Nodup) (h : ∀ i, first ≤ i → i ≤ last → i ∈ ids)
    (hle : first ≤ last + 1) : last + 1 - first ≤ (ids.length : ℤ) := by
  have hsub : Finset.Icc first last ⊆ ids.toFinset := by
    intro i hi
    rw [Finset.mem_Icc] at hi
    exact List.mem_toFinset.mpr (h i hi.1 hi.2)
  have hcard := Finset.card_le_card hsub
  rw [List.toFinset_card_of_nodup hnodup] at hcard
  rw [← Int.card_Icc_of_le first last hle]
  exact_mod_cast hcard

end

/-! ### The estimate -/

/-- Every id between two ids is one. -/
def NoGaps (rows : List LogRow) : Prop :=
  ∀ r ∈ rows, ∀ s ∈ rows, ∀ id, r.id ≤ id → id ≤ s.id → id ∈ rows.map (·.id)

section
variable {rows : List LogRow}

/-- The estimate of a table that is not empty, between its first and its last id. -/
theorem estimate_spec (hne : rows ≠ []) :
    ∃ r ∈ rows, ∃ s ∈ rows, (∀ t ∈ rows, r.id ≤ t.id ∧ t.id ≤ s.id) ∧
      estimateLogRowCount rows = min (s.id - r.id + 1) (2 ^ 63 - 1) := by
  have hids : rows.map (·.id) ≠ [] := by simpa using hne
  obtain ⟨last, hlast⟩ := Option.ne_none_iff_exists'.mp (mt List.max?_eq_none_iff.mp hids)
  obtain ⟨first, hfirst⟩ := Option.ne_none_iff_exists'.mp (mt List.min?_eq_none_iff.mp hids)
  obtain ⟨hlastmem, hle⟩ := List.max?_eq_some_iff.mp hlast
  obtain ⟨hfirstmem, hge⟩ := List.min?_eq_some_iff.mp hfirst
  obtain ⟨s, hs, rfl⟩ := List.mem_map.mp hlastmem
  obtain ⟨r, hr, rfl⟩ := List.mem_map.mp hfirstmem
  refine ⟨r, hr, s, hs, fun t ht => ?_, ?_⟩
  · exact ⟨hge _ (List.mem_map_of_mem ht), hle _ (List.mem_map_of_mem ht)⟩
  · rw [estimateLogRowCount, hlast, hfirst]

/-- The estimate is no less than the number of rows. -/
theorem length_le_estimate (hnodup : (rows.map (·.id)).Nodup) (hlen : rows.length < 2 ^ 63) :
    (rows.length : ℤ) ≤ estimateLogRowCount rows := by
  by_cases hne : rows = []
  · subst hne
    exact le_refl _
  · obtain ⟨r, hr, s, hs, hbetween, hestimate⟩ := estimate_spec hne
    have hspan : ((rows.map (·.id)).length : ℤ) ≤ s.id + 1 - r.id := by
      refine length_le_of_between hnodup ?_ (by linarith [(hbetween s hs).1])
      intro i hi
      obtain ⟨t, ht, rfl⟩ := List.mem_map.mp hi
      exact hbetween t ht
    rw [List.length_map] at hspan
    omega

/-- It is their number if no id is missing. -/
theorem estimate_eq_length (hnodup : (rows.map (·.id)).Nodup) (hgaps : NoGaps rows)
    (hlen : rows.length < 2 ^ 63) : estimateLogRowCount rows = rows.length := by
  by_cases hne : rows = []
  · subst hne
    rfl
  · obtain ⟨r, hr, s, hs, hbetween, hestimate⟩ := estimate_spec hne
    have hspan : s.id + 1 - r.id ≤ ((rows.map (·.id)).length : ℤ) :=
      le_length_of_all hnodup (hgaps r hr s hs) (by linarith [(hbetween s hs).1])
    have hle := length_le_estimate hnodup hlen
    rw [List.length_map] at hspan
    omega

end

/-! ### The total -/

theorem estimate_nil : estimateLogRowCount [] = 0 := rfl

/-- The estimate is, but for a multiple of `2 ^ 32`, a total that is no less than the number
of rows. -/
def EstimateFits (rows : List LogRow) : Prop :=
  ∃ wraps total : ℤ, estimateLogRowCount rows = 2 ^ 32 * wraps + total ∧
    (rows.length : ℤ) ≤ total ∧ total < 2 ^ 31

/-- It does if the ids span less than `2 ^ 31`. -/
theorem estimateFits_of_span_lt {rows : List LogRow} (hnodup : (rows.map (·.id)).Nodup)
    (hlen : rows.length < 2 ^ 63) (hspan : estimateLogRowCount rows < 2 ^ 31) :
    EstimateFits rows :=
  ⟨0, estimateLogRowCount rows, by omega, length_le_estimate hnodup hlen, hspan⟩

/-! ### With and without filters -/

section
variable (cat : DatabaseCatalog) (d : LookupTable)

/-- Filters that select every row. -/
def TrueOfAll (filters : List QueryFilter) (rows : List LogRow) : Prop :=
  filters ≠ [] ∧ Compiles cat d filters ∧ ∀ r ∈ rows, selects cat d filters r = true

/-- `Query` without filters has the rows of a `Query` that counts, and its total is at least
the number of rows, that number if no id is missing, and zero only for an empty table. -/
def AgreesWithCount (rows : List LogRow) : Prop :=
  (∀ filters, TrueOfAll cat d filters rows → ∀ orderBy limit offset page,
    QueryReturns cat d [] orderBy limit offset rows page ↔
      QueryReturns cat d filters orderBy limit offset rows page) ∧
    (rows.length : ℤ) ≤ queryTotal cat d [] rows ∧
      (NoGaps rows → queryTotal cat d [] rows = rows.length) ∧
        (queryTotal cat d [] rows = 0 ↔ rows = [])

variable {cat d} {filters : List QueryFilter} {rows : List LogRow}

theorem matching_nil : matching cat d [] rows = rows := by
  refine List.filter_eq_self.mpr fun r _ => ?_
  rfl

/-- Filters that select every row count them, as far as an `int` goes. -/
theorem TrueOfAll.queryTotal_eq (h : TrueOfAll cat d filters rows) (hlen : rows.length < 2 ^ 31) :
    queryTotal cat d filters rows = rows.length := by
  obtain ⟨hne, -, hall⟩ := h
  have hmatch : matching cat d filters rows = rows := List.filter_eq_self.mpr hall
  unfold queryTotal countRows
  rw [if_neg (by simpa using hne), hmatch, toInt32_eq_iff]
  exact ⟨⟨0, by omega⟩, by omega, by omega⟩

/-- The statement of one list of filters is that of another one that selects the same rows. -/
theorem TrueOfAll.isPage_iff (h : TrueOfAll cat d filters rows) {orderBy : ColumnName}
    {limit offset : ℤ} {page : List LogRow} :
    IsPage cat d [] orderBy limit offset rows page ↔
      IsPage cat d filters orderBy limit offset rows page := by
  obtain ⟨-, hclause, hall⟩ := h
  have hmatch : matching cat d filters rows = rows := List.filter_eq_self.mpr hall
  unfold IsPage
  rw [hmatch, matching_nil]
  exact and_congr_left fun _ => ⟨fun _ => hclause, fun _ => compiles_nil cat d⟩

/-- **Without filters, `Query` agrees with a `Query` that counts exactly if the estimate
fits.** -/
theorem unfiltered_agrees_iff (cat : DatabaseCatalog) (d : LookupTable) (rows : List LogRow)
    (hnodup : (rows.map (·.id)).Nodup) : AgreesWithCount cat d rows ↔ EstimateFits rows := by
  have htotal : queryTotal cat d [] rows = toInt32 (estimateLogRowCount rows) := if_pos rfl
  constructor
  · rintro ⟨-, hle, -⟩
    obtain ⟨⟨wraps, hwraps⟩, -, hhigh⟩ := toInt32_eq_iff.mp htotal.symm
    exact ⟨wraps, _, hwraps, hle, hhigh⟩
  · rintro ⟨wraps, total, hestimate, hle, hhigh⟩
    rw [toInt32_eq_iff.mpr ⟨⟨wraps, hestimate⟩, by omega, hhigh⟩] at htotal
    have hempty : total = 0 ↔ (rows.length : ℤ) = 0 := by
      constructor
      · omega
      · intro h0
        have hnil : rows = [] := List.length_eq_zero_iff.mp (by omega)
        rw [hnil, estimate_nil] at hestimate
        omega
    refine ⟨?_, htotal ▸ hle, fun hgaps => ?_, ?_⟩
    · intro filters htrue orderBy limit offset page
      unfold QueryReturns
      rw [htotal, htrue.queryTotal_eq (by omega), htrue.isPage_iff]
      simp only [hempty]
      exact and_congr_left fun _ => ⟨fun _ => htrue.2.1, fun _ => compiles_nil cat d⟩
    · have hlength := estimate_eq_length hnodup hgaps (by omega)
      rw [htotal]
      omega
    · rw [htotal, hempty, Int.natCast_eq_zero, List.length_eq_zero_iff]

theorem unfiltered_agrees_three : AgreesWithCount stampCatalog ∅ threeStamps :=
  (unfiltered_agrees_iff stampCatalog ∅ threeStamps (by decide)).mpr
    ⟨0, 3, by decide, by decide, by decide⟩

/-- Two rows with ids that span `2 ^ 32`: the total is zero, and no row is returned. -/
def twoFarApart : List LogRow := [stampRow 1 "11:00:00", stampRow 4294967296 "12:00:00"]

theorem unfiltered_query_is_empty : ¬ AgreesWithCount stampCatalog ∅ twoFarApart := by
  rintro ⟨-, -, -, hzero⟩
  have htotal : queryTotal stampCatalog ∅ [] twoFarApart = 0 := by decide
  exact absurd (hzero.mp htotal) (by simp [twoFarApart])

end

end LogLite
