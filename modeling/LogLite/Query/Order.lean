import LogLite.Query.Page

/-!
# The order of the filters

`HandleQuery` collects the filters of a request from an unordered map, so their
order is not specified.  `build_where_clause` checks each filter when the loop comes
to it, but returns `1=0` as soon as no id matches a filter on a compressed column:
the filters after that one are never checked.  A list with an unknown field or
operator is then refused or answered, depending on the order.

## Main definitions

* `OrderIrrelevant` — every order of the filters is refused, or every one selects the
  same rows; and a list with an invalid filter is refused.

## Main results

* `compiles_iff` — which lists are accepted.
* `order_irrelevant_iff` — **the order does not matter, exactly when all filters are
  valid or none that is stops the loop.**
-/

namespace LogLite

section
variable {cat : DatabaseCatalog} {d : LookupTable} {filters filters' : List QueryFilter}

/-- Every list of valid filters is accepted. -/
theorem compiles_of_valid (h : ∀ ft ∈ filters, ft.Valid cat) : Compiles cat d filters := by
  obtain ⟨cs, hcs, -⟩ := conditionsOf_holds (r := ⟨0, [], .null⟩) (d := d) filters h
  unfold Compiles buildWhereClause
  rw [hcs]
  exact ⟨_, rfl⟩

/-- A filter without ids in front of the others hides what is wrong with them. -/
theorem compiles_cons_of_noId {ft : QueryFilter} (h : ft.Valid cat) (hno : ft.NoId cat d = true)
    (fts : List QueryFilter) : Compiles cat d (ft :: fts) := by
  unfold Compiles buildWhereClause
  rw [conditionsOf_cons_of_noId h hno]
  exact ⟨_, rfl⟩

/-- If no valid filter stops the loop, it comes to every filter. -/
theorem valid_of_compiles (hids : ∀ ft ∈ filters, ft.Valid cat → ft.NoId cat d = false)
    (h : Compiles cat d filters) : ∀ ft ∈ filters, ft.Valid cat := by
  obtain ⟨clause, hclause⟩ := h
  rcases buildWhereClause_cases hclause with ⟨-, fts, ft, fts', rfl, -, hvalid, hno⟩ |
    ⟨rfl, -⟩ | ⟨-, hpass, -⟩
  · rw [hids ft (by simp) hvalid] at hno
    cases hno
  · simp
  · exact fun ft hft => (hpass ft hft).1

/-- Two clauses of valid filters in different orders. -/
theorem holds_eq_of_perm (hperm : filters'.Perm filters) (hvalid : ∀ ft ∈ filters, ft.Valid cat)
    {clause clause' : WhereClause} (h : buildWhereClause cat d filters = .ok clause)
    (h' : buildWhereClause cat d filters' = .ok clause') (r : LogRow) :
    clause'.holds cat r = clause.holds cat r := by
  have hvalid' : ∀ ft ∈ filters', ft.Valid cat := fun ft hft => hvalid ft (hperm.mem_iff.mp hft)
  have hsel := selects_iff (d := d) (r := r) hvalid
  have hsel' := selects_iff (d := d) (r := r) hvalid'
  unfold selects at hsel hsel'
  rw [h] at hsel
  rw [h'] at hsel'
  rw [Bool.eq_iff_iff]
  refine hsel'.trans (Iff.trans ?_ hsel.symm)
  exact forall_congr' fun ft => by rw [hperm.mem_iff]

end

/-- The order of the filters does not matter: all orders are refused or none is; those that
are accepted select the same rows of every table; and a list with a filter that is not
valid is refused. -/
structure OrderIrrelevant (cat : DatabaseCatalog) (d : LookupTable)
    (filters : List QueryFilter) : Prop where
  accepted : ∀ filters' : List QueryFilter, filters'.Perm filters →
    (Compiles cat d filters' ↔ Compiles cat d filters)
  rows : ∀ filters' : List QueryFilter, filters'.Perm filters → ∀ clause clause' : WhereClause,
    buildWhereClause cat d filters = .ok clause →
      buildWhereClause cat d filters' = .ok clause' → ∀ rows : List LogRow,
        rows.filter (clause'.holds cat) = rows.filter (clause.holds cat)
  refused : ∀ ft ∈ filters, ¬ ft.Valid cat →
    ∀ filters' : List QueryFilter, filters'.Perm filters → ¬ Compiles cat d filters'

/-- **When the order of the filters does not matter.** -/
theorem order_irrelevant_iff (cat : DatabaseCatalog) (d : LookupTable)
    (filters : List QueryFilter) : OrderIrrelevant cat d filters ↔
      (∀ ft ∈ filters, ft.Valid cat) ∨
        ∀ ft ∈ filters, ft.Valid cat → ft.NoId cat d = false := by
  constructor
  · intro h
    by_contra hcond
    rw [not_or] at hcond
    obtain ⟨hinvalid, hstop⟩ := hcond
    push Not at hinvalid hstop
    obtain ⟨bad, hbad, hnot⟩ := hinvalid
    obtain ⟨stop, hmem, hvalid, hno⟩ := hstop
    obtain ⟨l, l', rfl⟩ := List.append_of_mem hmem
    -- with the filter that stops the loop in front, the invalid one is not seen
    have hcompiles := compiles_cons_of_noId hvalid (by simpa using hno) (l ++ l')
    exact h.refused bad hbad hnot _ List.perm_middle.symm hcompiles
  · intro hcond
    have hall : ∀ filters' : List QueryFilter, filters'.Perm filters →
        Compiles cat d filters' → ∀ ft ∈ filters, ft.Valid cat := by
      intro filters' hperm hc ft hft
      rcases hcond with hvalid | hids
      · exact hvalid ft hft
      · refine valid_of_compiles (fun f hf => hids f (hperm.mem_iff.mp hf)) hc ft ?_
        exact hperm.mem_iff.mpr hft
    refine ⟨?_, ?_, ?_⟩
    · intro filters' hperm
      constructor
      · exact fun hc => compiles_of_valid (hall filters' hperm hc)
      · intro hc
        have hvalid := hall filters (List.Perm.refl _) hc
        exact compiles_of_valid fun ft hft => hvalid ft (hperm.mem_iff.mp hft)
    · intro filters' hperm clause clause' h h' rows
      have hvalid := hall filters (List.Perm.refl _) ⟨clause, h⟩
      exact List.filter_congr fun r _ => holds_eq_of_perm hperm hvalid h h' r
    · intro ft hft hnot filters' hperm hc
      exact hnot (hall filters' hperm hc ft hft)

/-- With nothing in the dictionary a filter on `level` stops the loop before the
unknown field; the other way round the field is refused. -/
theorem order_matters_level :
    Compiles levelCatalog ∅
        [⟨lit "level", lit "=", .string (lit "x")⟩, ⟨lit "evil", lit "=", .string (lit "x")⟩] ∧
      ¬ Compiles levelCatalog ∅
        [⟨lit "evil", lit "=", .string (lit "x")⟩, ⟨lit "level", lit "=", .string (lit "x")⟩] := by
  refine ⟨⟨.never, rfl⟩, ?_⟩
  rintro ⟨clause, h⟩
  cases h

end LogLite
