import LogLite.Store.Catalog
import LogLite.Store.Writer

/-!
# Filters

A filter compares a field with a value.  `build_where_clause` turns a list of
filters into the text of a `WHERE` clause and its parameters: a filter on a
compressed column becomes an `IN` list of the ids whose strings match, computed
from the dictionary in memory; any other filter becomes a comparison or a `LIKE`.

The clause is kept as a list of conditions.  `WhereClause.sql` and
`WhereClause.params` are what the code hands to SQLite, and `WhereClause.holds` is
what SQLite makes of it, row by row.

## Main definitions

* `QueryFilter`, `valueMatches`, `queryCandidates` — filters on compressed columns.
* `Condition`, `WhereClause` — the clause; `.sql`, `.params`, `.holds`.
* `buildWhereClause` — `Database::build_where_clause`.
* `selects` — whether a row is selected by a list of filters.

## Main results

* `selects_iff` — for known fields and operators, a row is selected if and only if
  it meets the condition of every filter.
-/

namespace LogLite

/-- `QueryFilter`. -/
structure QueryFilter where
  field : ColumnName
  op : Bytes
  value : Json

/-- The comparison an operator stands for. -/
def comparisonOf (op : Bytes) : Option Cmp :=
  if op = lit "=" then some .eq
  else if op = lit "!=" then some .ne
  else if op = lit ">" then some .gt
  else if op = lit ">=" then some .ge
  else if op = lit "<" then some .lt
  else if op = lit "<=" then some .le
  else none

/-- `kAllowedOps`. -/
def allowedOps : List Bytes :=
  [lit "=", lit "!=", lit ">", lit ">=", lit "<", lit "<=", lit "~="]

/-! ### Compressed columns -/

/-- `value_matches`: `~=` looks for either string in the other one. -/
def valueMatches (op fval v : Bytes) : Bool :=
  if op = lit "~=" then contains fval v || contains v fval
  else
    match comparisonOf op with
    | some cmp => cmp.holds (compare v fval)
    | none => false

/-- `ColumnDictionary::QueryCandidates`. -/
def queryCandidates (P : Platform) (d : LookupTable) (filter : QueryFilter) : List ValueId :=
  match d.lookup filter.field with
  | none => []
  | some m =>
    (m.entries.filter fun e => valueMatches filter.op (dictText P filter.value) e.1).map
      fun e => e.2

/-- The candidates are the ids of the strings that match. -/
theorem mem_queryCandidates {P : Platform} {d : LookupTable} {filter : QueryFilter} {id : ValueId} :
    id ∈ queryCandidates P d filter ↔ ∃ v, d.get? filter.field v = some id ∧
      valueMatches filter.op (dictText P filter.value) v = true := by
  unfold queryCandidates LookupTable.get? LookupTable.colMap
  cases hcol : d.lookup filter.field with
  | none => simp
  | some m =>
    simp only [List.mem_map, List.mem_filter, Option.getD_some]
    constructor
    · rintro ⟨e, ⟨hmem, hmatch⟩, rfl⟩
      exact ⟨e.1, AList.mem_lookup_iff.mpr hmem, hmatch⟩
    · rintro ⟨v, hv, hmatch⟩
      exact ⟨⟨v, id⟩, ⟨AList.mem_lookup_iff.mp hv, hmatch⟩, rfl⟩

/-! ### The clause -/

/-- One condition of a `WHERE` clause, with its parameters. -/
inductive Condition where
  | inIds (field : ColumnName) (ids : List ValueId)
  | like (field : ColumnName) (pattern : Bytes)
  | compare (field : ColumnName) (op : Bytes) (value : Json)

/-- A `WHERE` clause: `1=1`, `1=0`, or conditions joined by `AND`. -/
inductive WhereClause where
  | always
  | never
  | all (conditions : List Condition)

/-- The text of a condition. -/
def Condition.sql : Condition → Bytes
  | .inIds field ids => field ++ lit " IN (" ++ (lit ",").intercalate (ids.map fun _ => lit "?") ++
      lit ")"
  | .like field _ => field ++ lit " LIKE ?"
  | .compare field op _ => field ++ lit " " ++ op ++ lit " ?"

/-- The parameters of a condition. -/
def Condition.params : Condition → List Json
  | .inIds _ ids => ids.map Json.integer
  | .like _ pattern => [.string pattern]
  | .compare _ _ value => [value]

/-- The text of the clause. -/
def WhereClause.sql : WhereClause → Bytes
  | .always => lit "1=1"
  | .never => lit "1=0"
  | .all cs => (lit " AND ").intercalate (cs.map Condition.sql)

/-- The parameters of the clause. -/
def WhereClause.params : WhereClause → List Json
  | .always => []
  | .never => []
  | .all cs => cs.flatMap Condition.params

/-- The message of `validate_field`. -/
def unknownField (name : ColumnName) : Bytes := lit "Unknown field name: '" ++ name ++ lit "'"

/-- The message of an operator that is not allowed. -/
def unknownOperator (op : Bytes) : Bytes := lit "Unknown query operator: '" ++ op ++ lit "'"

section
variable (cat : DatabaseCatalog)

/-- `validate_field`: the field is a column of the log table. -/
def DatabaseCatalog.knows (name : ColumnName) : Bool :=
  cat.logColumnInfo.any fun ci => ci.name == name

section
variable (d : LookupTable)

/-- The condition of one filter. -/
def conditionOf (ft : QueryFilter) : Condition :=
  if cat.compressedColumns.contains ft.field then
    .inIds ft.field (queryCandidates cat.platform d ft)
  else if ft.op = lit "~=" then
    .like ft.field (lit "%" ++ dictText cat.platform ft.value ++ lit "%")
  else .compare ft.field ft.op ft.value

/-- The loop of `build_where_clause`: the conditions, or `none` for the early
return of a filter that no id matches. -/
def conditionsOf : List QueryFilter → Except Bytes (Option (List Condition))
  | [] => .ok (some [])
  | ft :: fts =>
    if !cat.knows ft.field then .error (unknownField ft.field)
    else if !allowedOps.contains ft.op then .error (unknownOperator ft.op)
    else if cat.compressedColumns.contains ft.field &&
        (queryCandidates cat.platform d ft).isEmpty then .ok none
    else (conditionsOf fts).map fun cs => cs.map fun cs => conditionOf cat d ft :: cs

/-- `Database::build_where_clause`. -/
def buildWhereClause (filters : List QueryFilter) : Except Bytes WhereClause :=
  (conditionsOf cat d filters).map fun cs =>
    match cs with
    | none => .never
    | some [] => .always
    | some cs => .all cs

end

/-! ### What the clause means -/

/-- Whether a row meets a condition.  An `IN` list compares the column with every
parameter. -/
def Condition.holds (r : LogRow) : Condition → Bool
  | .inIds field ids =>
    match cat.column field with
    | none => false
    | some ci => ids.any fun id =>
        SqlValue.comparison cat.platform ci.affinity .eq (r.value ci)
          (bindParam cat.platform (.integer id))
  | .like field pattern =>
    match cat.column field with
    | none => false
    | some ci => r.value ci != .null && LogLite.like pattern (textOf cat.platform (r.value ci))
  | .compare field op value =>
    match cat.column field, comparisonOf op with
    | some ci, some cmp =>
      SqlValue.comparison cat.platform ci.affinity cmp (r.value ci) (bindParam cat.platform value)
    | _, _ => false

/-- Whether a row meets a clause. -/
def WhereClause.holds (r : LogRow) : WhereClause → Bool
  | .always => true
  | .never => false
  | .all cs => cs.all fun c => c.holds cat r

/-- Whether a row is selected by a list of filters; a list that is refused selects
nothing. -/
def selects (d : LookupTable) (filters : List QueryFilter) (r : LogRow) : Bool :=
  match buildWhereClause cat d filters with
  | .ok clause => clause.holds cat r
  | .error _ => false

variable {cat}

/-- A filter that can be evaluated: its field is a column and its operator is
allowed. -/
def QueryFilter.Valid (cat : DatabaseCatalog) (ft : QueryFilter) : Prop :=
  cat.knows ft.field = true ∧ allowedOps.contains ft.op = true

/-- No row meets the condition of a filter that no id matches. -/
theorem conditionOf_holds_of_isEmpty {d : LookupTable} {ft : QueryFilter} {r : LogRow}
    (h : (cat.compressedColumns.contains ft.field &&
      (queryCandidates cat.platform d ft).isEmpty) = true) :
    (conditionOf cat d ft).holds cat r = false := by
  rw [Bool.and_eq_true, List.isEmpty_iff] at h
  rw [conditionOf, if_pos h.1, h.2, Condition.holds]
  cases cat.column ft.field <;> rfl

/-- The meaning of the conditions, if all filters are valid. -/
theorem conditionsOf_holds {d : LookupTable} {r : LogRow} : ∀ filters : List QueryFilter,
    (∀ ft ∈ filters, ft.Valid cat) →
      ∃ cs, conditionsOf cat d filters = .ok cs ∧
        ((∃ l, cs = some l ∧ ∀ c ∈ l, c.holds cat r = true) ↔
          ∀ ft ∈ filters, (conditionOf cat d ft).holds cat r = true) := by
  intro filters
  induction filters with
  | nil => exact fun _ => ⟨some [], rfl, by simp⟩
  | cons ft fts ih =>
    intro hvalid
    obtain ⟨hfield, hop⟩ := hvalid ft List.mem_cons_self
    obtain ⟨cs, hcs, hiff⟩ := ih fun ft' h => hvalid ft' (List.mem_cons_of_mem ft h)
    simp only [conditionsOf, hfield, hop, Bool.not_true, Bool.false_eq_true, if_false]
    split
    · next hempty =>
      refine ⟨none, rfl, ?_⟩
      simp [conditionOf_holds_of_isEmpty hempty]
    · refine ⟨cs.map fun cs => conditionOf cat d ft :: cs, by rw [hcs]; rfl, ?_⟩
      rw [List.forall_mem_cons, ← hiff]
      cases cs with
      | none => simp
      | some l => simp

/-- **A row is selected if and only if it meets the condition of every filter.** -/
theorem selects_iff {d : LookupTable} {filters : List QueryFilter} {r : LogRow}
    (hvalid : ∀ ft ∈ filters, ft.Valid cat) :
    selects cat d filters r = true ↔
      ∀ ft ∈ filters, (conditionOf cat d ft).holds cat r = true := by
  obtain ⟨cs, hcs, hiff⟩ := conditionsOf_holds (d := d) (r := r) filters hvalid
  rw [← hiff, selects, buildWhereClause, hcs]
  cases cs with
  | none => simp [Except.map, WhereClause.holds]
  | some l =>
    cases l with
    | nil => simp [Except.map, WhereClause.holds]
    | cons c l => simp [Except.map, WhereClause.holds]

/-- A list with an invalid filter selects nothing. -/
theorem selects_of_not_valid {d : LookupTable} {filters : List QueryFilter} {r : LogRow}
    {ft : QueryFilter} (hmem : ft ∈ filters) (hft : ¬ ft.Valid cat) :
    selects cat d filters r = false := by
  have hnone : ∀ cs, conditionsOf cat d filters = .ok cs → cs = none := by
    induction filters with
    | nil => cases hmem
    | cons ft' fts ih =>
      intro cs h
      unfold conditionsOf at h
      split at h
      · cases h
      · next hfield =>
        split at h
        · cases h
        · next hop =>
          split at h
          · cases h
            rfl
          · have hmem' : ft ∈ fts := by
              rcases List.mem_cons.mp hmem with rfl | hmem'
              · exact absurd ⟨by simpa using hfield, by simpa using hop⟩ hft
              · exact hmem'
            cases hrest : conditionsOf cat d fts with
            | error e => simp [hrest, Except.map] at h
            | ok cs' =>
              rw [hrest, ih hmem' cs' hrest] at h
              cases h
              rfl
  unfold selects buildWhereClause
  cases hcs : conditionsOf cat d filters with
  | error e => rfl
  | ok cs =>
    rw [hnone cs hcs]
    rfl

/-! ### How far the loop goes -/

/-- A filter on a compressed column that no id matches. -/
def QueryFilter.NoId (cat : DatabaseCatalog) (d : LookupTable) (ft : QueryFilter) : Bool :=
  cat.compressedColumns.contains ft.field && (queryCandidates cat.platform d ft).isEmpty

/-- A filter the loop turns into a condition, and goes on. -/
def QueryFilter.Passes (cat : DatabaseCatalog) (d : LookupTable) (ft : QueryFilter) : Prop :=
  ft.Valid cat ∧ ft.NoId cat d = false

theorem conditionsOf_cons_of_not_valid {d : LookupTable} {ft : QueryFilter}
    {fts : List QueryFilter} (h : ¬ ft.Valid cat) :
    ∃ e, conditionsOf cat d (ft :: fts) = .error e := by
  unfold conditionsOf
  by_cases hfield : cat.knows ft.field = true
  · have hop : allowedOps.contains ft.op = false := by
      by_contra hop
      exact h ⟨hfield, by simpa using hop⟩
    exact ⟨_, by rw [hfield, hop]; rfl⟩
  · rw [Bool.not_eq_true] at hfield
    exact ⟨_, by rw [hfield]; rfl⟩

theorem conditionsOf_cons_of_noId {d : LookupTable} {ft : QueryFilter} {fts : List QueryFilter}
    (h : ft.Valid cat) (hno : ft.NoId cat d = true) :
    conditionsOf cat d (ft :: fts) = .ok none := by
  unfold QueryFilter.NoId at hno
  unfold conditionsOf
  rw [h.1, h.2, hno]
  rfl

theorem conditionsOf_cons_of_passes {d : LookupTable} {ft : QueryFilter} {fts : List QueryFilter}
    (h : ft.Passes cat d) : conditionsOf cat d (ft :: fts) =
      (conditionsOf cat d fts).map fun cs => cs.map fun cs => conditionOf cat d ft :: cs := by
  obtain ⟨hvalid, hno⟩ := h
  unfold QueryFilter.NoId at hno
  rw [conditionsOf, hvalid.1, hvalid.2, hno]
  rfl

variable (cat) in
/-- **How far the loop goes**: to the first filter that is refused; to the first one
that no id matches; or through the whole list. -/
theorem conditionsOf_cases (d : LookupTable) (filters : List QueryFilter) :
    (∃ fts ft fts', filters = fts ++ ft :: fts' ∧ (∀ f ∈ fts, f.Passes cat d) ∧ ¬ ft.Valid cat ∧
      ∃ e, conditionsOf cat d filters = .error e) ∨
    (∃ fts ft fts', filters = fts ++ ft :: fts' ∧ (∀ f ∈ fts, f.Passes cat d) ∧ ft.Valid cat ∧
      ft.NoId cat d = true ∧ conditionsOf cat d filters = .ok none) ∨
    ((∀ f ∈ filters, f.Passes cat d) ∧
      conditionsOf cat d filters = .ok (some (filters.map (conditionOf cat d)))) := by
  induction filters with
  | nil => exact .inr (.inr ⟨by simp, rfl⟩)
  | cons ft fts ih =>
    by_cases hvalid : ft.Valid cat
    · cases hno : ft.NoId cat d with
      | true =>
        exact .inr (.inl ⟨[], ft, fts, rfl, by simp, hvalid, hno,
          conditionsOf_cons_of_noId hvalid hno⟩)
      | false =>
        have hpass : ft.Passes cat d := ⟨hvalid, hno⟩
        rw [conditionsOf_cons_of_passes hpass]
        rcases ih with ⟨l, f, l', rfl, hl, hf, e, he⟩ | ⟨l, f, l', rfl, hl, hf, hno', h⟩ | ⟨hall, h⟩
        · refine .inl ⟨ft :: l, f, l', rfl, ?_, hf, e, by rw [he]; rfl⟩
          exact List.forall_mem_cons.mpr ⟨hpass, hl⟩
        · refine .inr (.inl ⟨ft :: l, f, l', rfl, ?_, hf, hno', by rw [h]; rfl⟩)
          exact List.forall_mem_cons.mpr ⟨hpass, hl⟩
        · refine .inr (.inr ⟨List.forall_mem_cons.mpr ⟨hpass, hall⟩, ?_⟩)
          rw [h]
          rfl
    · exact .inl ⟨[], ft, fts, rfl, by simp, hvalid, conditionsOf_cons_of_not_valid hvalid⟩

/-- **What a clause is made of.** -/
theorem buildWhereClause_cases {d : LookupTable} {filters : List QueryFilter} {clause : WhereClause}
    (h : buildWhereClause cat d filters = .ok clause) :
    (clause = .never ∧ ∃ fts ft fts', filters = fts ++ ft :: fts' ∧
      (∀ f ∈ fts, f.Passes cat d) ∧ ft.Valid cat ∧ ft.NoId cat d = true) ∨
    (filters = [] ∧ clause = .always) ∨
    (filters ≠ [] ∧ (∀ f ∈ filters, f.Passes cat d) ∧
      clause = .all (filters.map (conditionOf cat d))) := by
  unfold buildWhereClause at h
  rcases conditionsOf_cases cat d filters with ⟨-, -, -, -, -, -, e, he⟩ |
    ⟨fts, ft, fts', heq, hpass, hvalid, hno, hnone⟩ | ⟨hpass, hsome⟩
  · rw [he] at h
    cases h
  · rw [hnone] at h
    cases h
    exact .inl ⟨rfl, fts, ft, fts', heq, hpass, hvalid, hno⟩
  · rw [hsome] at h
    cases filters with
    | nil =>
      cases h
      exact .inr (.inl ⟨rfl, rfl⟩)
    | cons ft fts =>
      cases h
      exact .inr (.inr ⟨List.cons_ne_nil _ _, hpass, rfl⟩)

end

end LogLite
