import LogLite.Lib.Reading
import LogLite.Query.Pagination
import LogLite.Query.RoundTrip
import LogLite.Store.Moments

/-!
# A query while the writer works

`ReaderDatabase::Query` runs in a thread of the pool.  It takes the lock of the
dictionary once for every compressed column it filters and once for every value it
decodes, and its two statements each see what is committed when they start.  So it
looks at the writer's state many times, and the state moves on in between.

## Main definitions

* `readClause` — `build_where_clause`, with one look for each filter.
* `readTotal`, `readPage` — the two statements.
* `readRows` — the loop over the rows, with one look for each value.
* `readQuery` — `ReaderDatabase::Query`.

## Main results

* `readQuery_still` — while nothing changes, it is the query of the other modules.
-/

namespace LogLite

/-- A part of a query; an exception is an error. -/
abbrev Reader (α : Type) := Reading WriterDatabase (Except Bytes α)

/-- `PaginatedQueryResult`. -/
structure PaginatedQueryResult where
  total : ℤ
  offset : ℤ
  limit : ℤ
  results : List Json

/-- What `std::length_error` says of `results.reserve`. -/
def reserveRefused : Bytes := lit "vector::reserve"

/-- What the loop of `build_where_clause` found, as a clause. -/
def clauseOf : Option (List Condition) → WhereClause
  | none => .never
  | some [] => .always
  | some (c :: cs) => .all (c :: cs)

section
variable (cat : DatabaseCatalog)

/-- The loop of `build_where_clause`. -/
def readFilters : List QueryFilter → Reader (Option (List Condition))
  | [] => .done (.ok (some []))
  | ft :: fts =>
    if !cat.knows ft.field then .done (.error (unknownField ft.field))
    else if !allowedOps.contains ft.op then .done (.error (unknownOperator ft.op))
    else
      (Reading.now fun w => w.colDict).bind fun d =>
        if ft.NoId cat d then .done (.ok none)
        else (readFilters fts).map fun cs => cs.map fun cs => cs.map fun cs =>
          conditionOf cat d ft :: cs

/-- `Database::build_where_clause`. -/
def readClause (filters : List QueryFilter) : Reader WhereClause :=
  (readFilters cat filters).map fun cs => cs.map clauseOf

/-- The total: an estimate if there are no filters, else `SELECT COUNT(id)`. -/
def readTotal (filters : List QueryFilter) (clause : WhereClause) : Reading WriterDatabase ℤ :=
  Reading.now fun w =>
    if filters.isEmpty then toInt32 (estimateLogRowCount w.seen.log)
    else toInt32 (w.seen.log.filter (clause.holds cat)).length

/-- A page of the rows that meet a clause; rows with equal values of the column come
in any order. -/
def IsClausePage (orderBy : ColumnName) (clause : WhereClause) (limit offset : ℤ)
    (rows page : List LogRow) : Prop :=
  ∃ ci sorted, cat.column orderBy = some ci ∧ sorted.Perm (rows.filter (clause.holds cat)) ∧
    Descending ci sorted ∧ page = limited limit offset sorted

/-- The `SELECT`; all its rows are those of the moment of the first one. -/
def readPage (orderBy : ColumnName) (clause : WhereClause) (limit offset : ℤ) :
    Reading WriterDatabase (List LogRow) :=
  .look (fun w page => IsClausePage cat orderBy clause limit offset w.seen.log page) .done

/-- The loop over the fields of a row. -/
def readRow (r : LogRow) : List ColumnName → List (Bytes × Json) → Reader Json
  | [], row => .done (.ok (.object row))
  | f :: fs, row =>
    match cat.column f with
    | none => .done (.error (unknownField f))
    | some ci =>
      (Reading.now fun w => decodeValue cat w.colDict f (r.value ci)).andThen fun v =>
        readRow r fs (Json.assign f v row)

/-- The loop over the rows. -/
def readRows (fields : List ColumnName) : List LogRow → Reader (List Json)
  | [] => .done (.ok [])
  | r :: rs =>
    (readRow cat r fields []).andThen fun row =>
      (readRows fields rs).map fun rows => rows.map fun rows => row :: rows

section
variable (orderBy : ColumnName) (filters : List QueryFilter) (limit offset : ℤ)

/-- `Query` from the first statement on.  `results.reserve` throws if the limit is below
zero, as the length is a `size_t`. -/
def readAnswer (eff : List ColumnName) (clause : WhereClause) : Reader PaginatedQueryResult :=
  (readTotal cat filters clause).bind fun total =>
    if total = 0 then .done (.ok ⟨total, offset, limit, []⟩)
    else if limit < 0 then .done (.error reserveRefused)
    else
      (readPage cat orderBy clause limit offset).bind fun page =>
        (readRows cat eff page).map fun rows => rows.map fun rows => ⟨total, offset, limit, rows⟩

/-- `ReaderDatabase::Query`. -/
def readQuery (fields : List ColumnName) : Reader PaginatedQueryResult :=
  match effectiveFields cat fields with
  | .error e => .done (.error e)
  | .ok eff =>
    (readClause cat filters).andThen fun clause =>
      readAnswer cat orderBy filters limit offset eff clause

end

variable {cat}

/-! ### While nothing changes -/

theorem buildWhereClause_eq (d : LookupTable) (filters : List QueryFilter) :
    buildWhereClause cat d filters = (conditionsOf cat d filters).map clauseOf := by
  unfold buildWhereClause
  congr 1
  funext cs
  match cs with
  | none => rfl
  | some [] => rfl
  | some (c :: cs) => rfl

section
variable {ft : QueryFilter} {fts : List QueryFilter}

theorem readFilters_cons_of_valid (h : ft.Valid cat) :
    readFilters cat (ft :: fts) = (Reading.now fun w => w.colDict).bind fun d =>
      if ft.NoId cat d then .done (.ok none)
      else (readFilters cat fts).map fun cs => cs.map fun cs => cs.map fun cs =>
        conditionOf cat d ft :: cs := by
  rw [readFilters, h.1, h.2]
  rfl

theorem conditionsOf_cons_of_valid {d : LookupTable} (h : ft.Valid cat) :
    conditionsOf cat d (ft :: fts) =
      if ft.NoId cat d then .ok none
      else (conditionsOf cat d fts).map fun cs => cs.map fun cs => conditionOf cat d ft :: cs := by
  rw [conditionsOf, h.1, h.2]
  rfl

/-- A filter that is not valid ends the loop with an exception. -/
theorem conditions_cons_of_not_valid (h : ¬ ft.Valid cat) :
    ∃ e, readFilters cat (ft :: fts) = .done (.error e) ∧
      ∀ d, conditionsOf cat d (ft :: fts) = .error e := by
  by_cases hfield : cat.knows ft.field = true
  · have hop : allowedOps.contains ft.op = false := by
      by_contra hop
      exact h ⟨hfield, by simpa using hop⟩
    exact ⟨_, by rw [readFilters, hfield, hop]; rfl,
      fun d => by rw [conditionsOf, hfield, hop]; rfl⟩
  · rw [Bool.not_eq_true] at hfield
    exact ⟨_, by rw [readFilters, hfield]; rfl, fun d => by rw [conditionsOf, hfield]; rfl⟩

end

section
variable {w : WriterDatabase}

theorem readFilters_still : ∀ filters : List QueryFilter,
    (readFilters cat filters).Still w (conditionsOf cat w.colDict filters) := by
  intro filters
  induction filters with
  | nil => exact .done _
  | cons ft fts ih =>
    by_cases hvalid : ft.Valid cat
    · rw [readFilters_cons_of_valid hvalid, conditionsOf_cons_of_valid hvalid]
      refine (Reading.Still.now _).bind ?_
      split
      · exact .done _
      · exact ih.map _
    · obtain ⟨e, hread, he⟩ : ∃ e, readFilters cat (ft :: fts) = .done (.error e) ∧
          ∀ d, conditionsOf cat d (ft :: fts) = .error e := conditions_cons_of_not_valid hvalid
      rw [hread, he]
      exact .done _

theorem readClause_still (filters : List QueryFilter) :
    (readClause cat filters).Still w (buildWhereClause cat w.colDict filters) := by
  rw [buildWhereClause_eq]
  exact (readFilters_still filters).map _

theorem readRow_still {r : LogRow} : ∀ (fields : List ColumnName) (row : List (Bytes × Json)),
    (readRow cat r fields row).Still w (decodeRow cat w.colDict r fields row) := by
  intro fields
  induction fields with
  | nil => exact fun row => .done _
  | cons f fs ih =>
    intro row
    unfold readRow decodeRow
    cases cat.column f with
    | none => exact .done _
    | some ci => exact (Reading.Still.now _).andThen fun v => ih _

theorem readRows_still {fields : List ColumnName} : ∀ page : List LogRow,
    (readRows cat fields page).Still w (queryRows cat w.colDict fields page) := by
  intro page
  induction page with
  | nil => exact .done _
  | cons r rs ih => exact (readRow_still fields []).andThen fun row => ih.map _

theorem selects_of_clause {d : LookupTable} {filters : List QueryFilter} {clause : WhereClause}
    (h : buildWhereClause cat d filters = .ok clause) :
    selects cat d filters = clause.holds cat := by
  funext r
  unfold selects
  rw [h]

theorem readPage_still {orderBy : ColumnName} {filters : List QueryFilter} {clause : WhereClause}
    (h : buildWhereClause cat w.colDict filters = .ok clause) {limit offset : ℤ}
    {page : List LogRow} {w' : WriterDatabase} :
    (readPage cat orderBy clause limit offset).Ends Eq w page w' ↔
      IsPage cat w.colDict filters orderBy limit offset w.seen.log page ∧ w' = w := by
  unfold readPage IsPage IsClausePage matching
  rw [selects_of_clause h]
  constructor
  · rintro ⟨_, _, rfl, hpage, rfl, rfl⟩
    exact ⟨⟨⟨clause, h⟩, hpage⟩, rfl⟩
  · rintro ⟨⟨-, hpage⟩, rfl⟩
    exact ⟨w', page, rfl, hpage, rfl, rfl⟩

theorem readTotal_still {filters : List QueryFilter} {clause : WhereClause}
    (h : buildWhereClause cat w.colDict filters = .ok clause) :
    (readTotal cat filters clause).Still w (queryTotal cat w.colDict filters w.seen.log) := by
  have heq : queryTotal cat w.colDict filters w.seen.log =
      if filters.isEmpty then toInt32 (estimateLogRowCount w.seen.log)
      else toInt32 (w.seen.log.filter (clause.holds cat)).length := by
    unfold queryTotal countRows matching
    rw [selects_of_clause h]
  rw [heq]
  exact .now _

section
variable {orderBy : ColumnName} {filters : List QueryFilter} {limit offset : ℤ}
  {ans : PaginatedQueryResult} {w' : WriterDatabase}

/-- The two statements and the loop over the rows, while nothing changes. -/
theorem readAnswer_still {eff : List ColumnName} {clause : WhereClause}
    (h : buildWhereClause cat w.colDict filters = .ok clause) :
    (readAnswer cat orderBy filters limit offset eff clause).Ends Eq w (.ok ans) w' ↔
      w' = w ∧ ∃ page results,
        QueryReturns cat w.colDict filters orderBy limit offset w.seen.log page ∧
        queryRows cat w.colDict eff page = .ok results ∧
        ans = ⟨queryTotal cat w.colDict filters w.seen.log, offset, limit, results⟩ := by
  unfold readAnswer QueryReturns
  rw [(readTotal_still h).ends_bind]
  by_cases hzero : queryTotal cat w.colDict filters w.seen.log = 0
  · simp only [if_pos hzero, Reading.ends_done]
    constructor
    · rintro ⟨hans, rfl⟩
      cases hans
      exact ⟨rfl, [], [], ⟨⟨clause, h⟩, rfl⟩, rfl, rfl⟩
    · rintro ⟨rfl, _, results, ⟨-, rfl⟩, hresults, rfl⟩
      cases hresults
      exact ⟨rfl, rfl⟩
  by_cases hlimit : limit < 0
  · simp only [if_neg hzero, if_pos hlimit, Reading.ends_done]
    constructor
    · rintro ⟨hans, -⟩
      cases hans
    · rintro ⟨-, _, _, ⟨-, hnonneg, -⟩, -⟩
      omega
  · simp only [if_neg hzero, if_neg hlimit, Reading.ends_bind, readPage_still h]
    constructor
    · rintro ⟨page, w₁, ⟨hpage, rfl⟩, hrows⟩
      rw [((readRows_still page).map _) _ _] at hrows
      obtain ⟨hans, rfl⟩ := hrows
      cases hresults : queryRows cat w'.colDict eff page with
      | error e =>
        rw [hresults] at hans
        cases hans
      | ok results =>
        rw [hresults] at hans
        cases hans
        exact ⟨rfl, page, results, ⟨⟨clause, h⟩, not_lt.mp hlimit, hpage⟩, hresults, rfl⟩
    · rintro ⟨rfl, page, results, ⟨-, -, hpage⟩, hresults, rfl⟩
      refine ⟨page, w', ⟨hpage, rfl⟩, ((readRows_still page).map _ _ _).mpr ⟨?_, rfl⟩⟩
      rw [hresults]
      rfl

/-- **While nothing changes, `readQuery` answers as `Query` of the other modules.** -/
theorem readQuery_still {fields : List ColumnName} :
    (readQuery cat orderBy filters limit offset fields).Ends Eq w (.ok ans) w' ↔
      w' = w ∧ ∃ eff page results, effectiveFields cat fields = .ok eff ∧
        QueryReturns cat w.colDict filters orderBy limit offset w.seen.log page ∧
        queryRows cat w.colDict eff page = .ok results ∧
        ans = ⟨queryTotal cat w.colDict filters w.seen.log, offset, limit, results⟩ := by
  unfold readQuery
  cases heff : effectiveFields cat fields with
  | error e =>
    constructor
    · rintro ⟨h, -⟩
      cases h
    · rintro ⟨-, _, _, _, h, -⟩
      cases h
  | ok eff =>
    simp only [Except.ok.injEq]
    unfold Reading.andThen
    rw [(readClause_still filters).ends_bind]
    cases hclause : buildWhereClause cat w.colDict filters with
    | error e =>
      constructor
      · rintro ⟨h, -⟩
        cases h
      · rintro ⟨-, _, _, _, -, ⟨⟨clause, h⟩, -⟩, -⟩
        rw [hclause] at h
        cases h
    | ok clause =>
      refine (readAnswer_still hclause).trans (and_congr_right fun _ => ?_)
      constructor
      · rintro ⟨page, results, hpage⟩
        exact ⟨eff, page, results, rfl, hpage⟩
      · rintro ⟨_, page, results, rfl, hpage⟩
        exact ⟨page, results, hpage⟩

end

end

end

end LogLite
