import LogLite.Query.Decode
import LogLite.Query.Statement

/-!
# Compilation of filters

What `build_where_clause` promises to the statements that use it: a placeholder for
each parameter, the conjunction of the single filters, and a text that is put
together from the names of the columns and a fixed vocabulary, so that nothing of
a filter's value gets into it.

## Main definitions

* `SingleHolds` — a row meets the clause of one filter by itself.
* `WrittenFrom` — texts made of column names, operators and the words of a clause.
* `SameShape` — filters that differ in their values only.
* `countSql`, `selectSql`, `deleteSql` — the statements of `Query` and `DeleteLogs`.

## Main results

* `clause_holds_iff` — the list means the conjunction.
* `sql_of_sameShape` — the text does not depend on the values.
* `where_clause_sound` — **all of it, for columns with plain names.**
-/

namespace LogLite

open Placeholder

section
variable {cat : DatabaseCatalog} {d : LookupTable}

/-! ### The list means the conjunction -/

theorem buildWhereClause_singleton {ft : QueryFilter} (h : ft.Passes cat d) :
    buildWhereClause cat d [ft] = .ok (.all [conditionOf cat d ft]) := by
  unfold buildWhereClause
  rw [conditionsOf_cons_of_passes h]
  rfl

theorem buildWhereClause_singleton_of_noId {ft : QueryFilter} (h : ft.Valid cat)
    (hno : ft.NoId cat d = true) : buildWhereClause cat d [ft] = .ok .never := by
  unfold buildWhereClause
  rw [conditionsOf_cons_of_noId h hno]
  rfl

/-- A row meets a clause exactly if it meets the clause of every single filter. -/
theorem clause_holds_iff {filters : List QueryFilter} {clause : WhereClause}
    (h : buildWhereClause cat d filters = .ok clause) (r : LogRow) :
    clause.holds cat r = true ↔ ∀ ft ∈ filters,
      ∃ c, buildWhereClause cat d [ft] = .ok c ∧ c.holds cat r = true := by
  rcases buildWhereClause_cases h with ⟨rfl, fts, ft, fts', rfl, -, hvalid, hno⟩ | ⟨rfl, rfl⟩ |
    ⟨-, hpass, rfl⟩
  · refine iff_of_false Bool.false_ne_true fun hall => ?_
    obtain ⟨c, hc, hholds⟩ := hall ft (by simp)
    rw [buildWhereClause_singleton_of_noId hvalid hno] at hc
    cases hc
    cases hholds
  · exact iff_of_true rfl (by simp)
  · show ((filters.map (conditionOf cat d)).all fun c => c.holds cat r) = true ↔ _
    rw [List.all_eq_true, List.forall_mem_map]
    refine forall₂_congr fun ft hft => ?_
    rw [buildWhereClause_singleton (hpass ft hft)]
    constructor
    · intro hholds
      exact ⟨_, rfl, by rw [WhereClause.holds, List.all_cons, hholds]; rfl⟩
    · rintro ⟨c, hc, hholds⟩
      cases hc
      rw [WhereClause.holds, List.all_cons, List.all_nil, Bool.and_true] at hholds
      exact hholds

/-! ### The vocabulary of a clause -/

/-- The words of a clause, with their blanks, brackets and placeholders. -/
def clauseWords : List Bytes :=
  [lit " IN (", lit "?", lit ",", lit ")", lit " LIKE ?", lit " ", lit " ?", lit " AND ",
    lit "1=1", lit "1=0"]

/-- A piece of a clause: a column name, an operator or a word. -/
def IsPiece (cat : DatabaseCatalog) (p : Bytes) : Prop :=
  cat.knows p = true ∨ p ∈ allowedOps ∨ p ∈ clauseWords

/-- The text is made of pieces. -/
def WrittenFrom (cat : DatabaseCatalog) (text : Bytes) : Prop :=
  ∃ pieces : List Bytes, text = pieces.flatten ∧ ∀ p ∈ pieces, IsPiece cat p

theorem WrittenFrom.nil : WrittenFrom cat [] := ⟨[], rfl, by simp⟩

theorem WrittenFrom.append {s t : Bytes} (hs : WrittenFrom cat s) (ht : WrittenFrom cat t) :
    WrittenFrom cat (s ++ t) := by
  obtain ⟨ps, rfl, hps⟩ := hs
  obtain ⟨qs, rfl, hqs⟩ := ht
  refine ⟨ps ++ qs, by rw [List.flatten_append], ?_⟩
  exact List.forall_mem_append.mpr ⟨hps, hqs⟩

theorem WrittenFrom.piece {p : Bytes} (h : IsPiece cat p) : WrittenFrom cat p :=
  ⟨[p], by simp, by simpa using h⟩

theorem WrittenFrom.word {p : Bytes} (h : p ∈ clauseWords) : WrittenFrom cat p :=
  .piece (.inr (.inr h))

theorem WrittenFrom.intercalate {sep : Bytes} (hsep : WrittenFrom cat sep) :
    ∀ {texts : List Bytes}, (∀ t ∈ texts, WrittenFrom cat t) →
      WrittenFrom cat (sep.intercalate texts)
  | [], _ => .nil
  | [t], h => by
    rw [List.intercalate_singleton]
    exact h t List.mem_cons_self
  | t :: t' :: ts, h => by
    rw [List.intercalate_cons_cons]
    exact ((h t List.mem_cons_self).append hsep).append
      (WrittenFrom.intercalate hsep fun x hx => h x (List.mem_cons_of_mem t hx))

/-- The text of a condition is made of pieces, whatever its values are. -/
theorem writtenFrom_conditionOf {ft : QueryFilter} (h : ft.Valid cat) :
    WrittenFrom cat (conditionOf cat d ft).sql := by
  obtain ⟨hknows, hop⟩ := h
  have hfield : WrittenFrom cat ft.field := .piece (.inl hknows)
  unfold conditionOf
  split_ifs
  · rw [inIds_sql]
    refine ((hfield.append (.word (by simp [clauseWords]))).append ?_).append
      (.word (by simp [clauseWords]))
    refine WrittenFrom.intercalate (.word (by simp [clauseWords])) fun t ht => ?_
    rw [List.eq_of_mem_replicate ht]
    exact .word (by simp [clauseWords])
  · exact hfield.append (.word (by simp [clauseWords]))
  · exact ((hfield.append (.word (by simp [clauseWords]))).append
      (.piece (.inr (.inl (by simpa using hop))))).append (.word (by simp [clauseWords]))

theorem writtenFrom_clause {filters : List QueryFilter} {clause : WhereClause}
    (h : buildWhereClause cat d filters = .ok clause) : WrittenFrom cat clause.sql := by
  rcases buildWhereClause_cases h with ⟨rfl, -⟩ | ⟨-, rfl⟩ | ⟨-, hpass, rfl⟩
  · exact .word (by simp [clauseWords, WhereClause.sql])
  · exact .word (by simp [clauseWords, WhereClause.sql])
  · refine WrittenFrom.intercalate (.word (by simp [clauseWords])) fun t ht => ?_
    rw [List.map_map] at ht
    obtain ⟨ft, hft, rfl⟩ := List.mem_map.mp ht
    exact writtenFrom_conditionOf (hpass ft hft).1

/-! ### Values do not get into the text -/

/-- Two filters, with a dictionary each, that differ in their values only: a compressed
column has as many matching ids for one as for the other. -/
structure SameShape (cat : DatabaseCatalog) (d d' : LookupTable) (ft ft' : QueryFilter) :
    Prop where
  field : ft'.field = ft.field
  op : ft'.op = ft.op
  ids : cat.compressedColumns.contains ft.field = true →
    (queryCandidates cat.platform d' ft').length = (queryCandidates cat.platform d ft).length

/-- The text of the conditions, `none` for the early return. -/
def clauseText : Option (List Bytes) → Bytes
  | none => lit "1=0"
  | some [] => lit "1=1"
  | some texts => (lit " AND ").intercalate texts

/-- The text of a clause is put together from the texts of its conditions. -/
theorem buildWhereClause_sql (filters : List QueryFilter) :
    (buildWhereClause cat d filters).map WhereClause.sql =
      ((conditionsOf cat d filters).map fun cs => cs.map fun cs => cs.map Condition.sql).map
        clauseText := by
  unfold buildWhereClause
  rcases conditionsOf cat d filters with e | cs
  · rfl
  · rcases cs with - | cs
    · rfl
    · cases cs <;> rfl

variable {d' : LookupTable}

theorem SameShape.valid {ft ft' : QueryFilter} (h : SameShape cat d d' ft ft') :
    ft'.Valid cat ↔ ft.Valid cat := by
  unfold QueryFilter.Valid
  rw [h.field, h.op]

theorem SameShape.noId {ft ft' : QueryFilter} (h : SameShape cat d d' ft ft') :
    ft'.NoId cat d' = ft.NoId cat d := by
  unfold QueryFilter.NoId
  rw [h.field]
  cases hc : cat.compressedColumns.contains ft.field with
  | false => rfl
  | true =>
    have hlen := h.ids hc
    rw [Bool.true_and, Bool.true_and, Bool.eq_iff_iff, List.isEmpty_iff_length_eq_zero,
      List.isEmpty_iff_length_eq_zero, hlen]

theorem SameShape.sql {ft ft' : QueryFilter} (h : SameShape cat d d' ft ft') :
    (conditionOf cat d' ft').sql = (conditionOf cat d ft).sql := by
  unfold conditionOf
  rw [h.field, h.op]
  split_ifs with hc hop
  · rw [inIds_sql, inIds_sql, h.ids hc]
  · rfl
  · rfl

/-- A filter that is refused is refused with the same message. -/
theorem conditionsOf_error_eq {ft ft' : QueryFilter} (h : SameShape cat d d' ft ft')
    (hvalid : ¬ ft.Valid cat) (fts fts' : List QueryFilter) :
    conditionsOf cat d' (ft' :: fts') = conditionsOf cat d (ft :: fts) := by
  unfold conditionsOf
  rw [h.field, h.op]
  unfold QueryFilter.Valid at hvalid
  cases hknows : cat.knows ft.field with
  | false => rfl
  | true =>
    cases hop : allowedOps.contains ft.op with
    | false => rfl
    | true => exact absurd ⟨hknows, hop⟩ hvalid

/-- **The text of a clause does not depend on the values of the filters**, and neither
does whether they are refused. -/
theorem sql_of_sameShape {filters filters' : List QueryFilter}
    (h : List.Forall₂ (SameShape cat d d') filters filters') :
    (buildWhereClause cat d' filters').map WhereClause.sql =
      (buildWhereClause cat d filters).map WhereClause.sql := by
  rw [buildWhereClause_sql, buildWhereClause_sql]
  congr 1
  induction h with
  | nil => rfl
  | @cons ft ft' fts fts' hft _ ih =>
    by_cases hvalid : ft.Valid cat
    · cases hno : ft.NoId cat d with
      | true =>
        rw [conditionsOf_cons_of_noId hvalid hno,
          conditionsOf_cons_of_noId (hft.valid.mpr hvalid) (hft.noId.trans hno)]
      | false =>
        rw [conditionsOf_cons_of_passes ⟨hvalid, hno⟩,
          conditionsOf_cons_of_passes ⟨hft.valid.mpr hvalid, hft.noId.trans hno⟩]
        -- both loops go on, with the same text in front
        revert ih
        rcases conditionsOf cat d fts with e | cs <;> rcases conditionsOf cat d' fts' with e' | cs'
        · intro ih
          cases ih
          rfl
        · intro ih
          cases ih
        · intro ih
          cases ih
        · intro ih
          rcases cs with - | cs <;> rcases cs' with - | cs'
          · rfl
          · cases ih
          · cases ih
          · have htexts : cs'.map Condition.sql = cs.map Condition.sql :=
              Option.some.inj (Except.ok.inj ih)
            show Except.ok (some ((conditionOf cat d' ft').sql :: cs'.map Condition.sql)) =
              Except.ok (some ((conditionOf cat d ft).sql :: cs.map Condition.sql))
            rw [htexts, hft.sql]
    · rw [conditionsOf_error_eq hft hvalid fts fts']

/-! ### The statements -/

section
variable (table : Bytes) (clause : Bytes)

/-- The text `Query` counts with. -/
def countSql : Bytes := lit "SELECT COUNT(id) FROM " ++ table ++ lit " WHERE " ++ clause

/-- The text `Query` selects with, up to the clause. -/
def selectHead (fields : List ColumnName) : Bytes :=
  lit "SELECT " ++ (lit ",").intercalate fields ++ lit " FROM " ++ table ++ lit " WHERE "

/-- The text `Query` selects with. -/
def selectSql (fields : List ColumnName) (timestampField : ColumnName) : Bytes :=
  selectHead table fields ++ clause ++ lit " ORDER BY " ++ timestampField ++
    lit " DESC LIMIT ? OFFSET ?"

/-- The text of `DeleteLogs`. -/
def deleteSql : Bytes := lit "DELETE FROM " ++ table ++ lit " WHERE " ++ clause

end

/-- The parameters `Query` binds: those of the clause, the limit and the offset. -/
def selectParams (params : List Json) (limit offset : ℤ) : List Json :=
  params ++ [.integer limit, .integer offset]

/-- No name of a statement has a placeholder in it. -/
theorem holeByte_notMem_intercalate {sep : Bytes} (hsep : holeByte ∉ sep) :
    ∀ {fields : List Bytes}, (∀ f ∈ fields, holeByte ∉ f) → holeByte ∉ sep.intercalate fields
  | [], _ => by simp
  | [f], h => by
    rw [List.intercalate_singleton]
    exact h f List.mem_cons_self
  | f :: f' :: fs, h => by
    have ih := holeByte_notMem_intercalate hsep fun x hx => h x (List.mem_cons_of_mem f hx)
    rw [List.intercalate_cons_cons, List.mem_append, List.mem_append, not_or, not_or]
    exact ⟨⟨h f List.mem_cons_self, hsep⟩, ih⟩

/-- The statements bind the parameters of the clause to its placeholders, and `Query`
the limit and the offset to the two after them. -/
structure StatementsBind (cat : DatabaseCatalog) (table timestampField : Bytes)
    (clause : WhereClause) : Prop where
  count : placed (countSql table clause.sql) clause.params =
    plain (countSql table []) ++ placed clause.sql clause.params
  select : ∀ (fields : List ColumnName) (limit offset : ℤ),
    (∀ f ∈ fields, cat.knows f = true) →
      placed (selectSql table clause.sql fields timestampField)
          (selectParams clause.params limit offset) =
        plain (selectHead table fields) ++ placed clause.sql clause.params ++
          plain (lit " ORDER BY " ++ timestampField ++ lit " DESC LIMIT ") ++
            .inr (.integer limit) :: (plain (lit " OFFSET ") ++ [.inr (.integer offset)])
  delete : placed (deleteSql table clause.sql) clause.params =
    plain (deleteSql table []) ++ placed clause.sql clause.params

theorem placed_append_of_notMem {s : Bytes} (h : holeByte ∉ s) (t : Bytes) (ps : List Json) :
    placed (s ++ t) ps = plain s ++ placed t ps := fill_append_of_notMem h t ps

theorem statementsBind {reserved : Bytes → Bool} (hplain : cat.Plain reserved)
    {table timestampField : Bytes} (htable : holeByte ∉ table)
    (htimestamp : holeByte ∉ timestampField) {clause : WhereClause}
    (hcount : clause.sql.count holeByte = clause.params.length) :
    StatementsBind cat table timestampField clause where
  count := by
    have hhead : holeByte ∉ countSql table [] := by
      simp only [countSql, List.append_nil, List.mem_append, not_or]
      exact ⟨⟨by decide, htable⟩, by decide⟩
    rw [← placed_append_of_notMem hhead, countSql, countSql, List.append_nil]
  select := by
    intro fields limit offset hfields
    have hhead : holeByte ∉ selectHead table fields := by
      simp only [selectHead, List.mem_append, not_or]
      refine ⟨⟨⟨⟨by decide, ?_⟩, by decide⟩, htable⟩, by decide⟩
      refine holeByte_notMem_intercalate (by decide) fun f hf => ?_
      have hname := plainName_of_knows hplain (hfields f hf)
      exact holeByte_notMem_of_isWord (isWord_of_plainName hname).1
    have horder : holeByte ∉ lit " ORDER BY " ++ timestampField ++ lit " DESC LIMIT " := by
      simp only [List.mem_append, not_or]
      exact ⟨⟨by decide, htimestamp⟩, by decide⟩
    have htail : selectSql table clause.sql fields timestampField =
        selectHead table fields ++ (clause.sql ++
          ((lit " ORDER BY " ++ timestampField ++ lit " DESC LIMIT ") ++ lit "? OFFSET ?")) := by
      unfold selectSql
      simp only [List.append_assoc]
      rfl
    -- the clause takes its own parameters, so the last two are left for the tail
    rw [htail, selectParams, placed_append_of_notMem hhead]
    unfold placed
    rw [fill_append hcount, fill_append_of_notMem horder]
    simp only [List.append_assoc]
    rfl
  delete := by
    have hhead : holeByte ∉ deleteSql table [] := by
      simp only [deleteSql, List.append_nil, List.mem_append, not_or]
      exact ⟨⟨by decide, htable⟩, by decide⟩
    rw [← placed_append_of_notMem hhead, deleteSql, deleteSql, List.append_nil]

/-! ### The whole -/

/-- A row meets the clause of this filter by itself. -/
def SingleHolds (cat : DatabaseCatalog) (reserved : Bytes → Bool) (d : LookupTable)
    (ft : QueryFilter) (r : LogRow) : Prop :=
  ∃ c, buildWhereClause cat d [ft] = .ok c ∧
    sqlTruth cat reserved c.sql c.params r = some true

/-- What `build_where_clause` promises. -/
structure SoundClause (cat : DatabaseCatalog) (reserved : Bytes → Bool) (d : LookupTable)
    (table timestampField : Bytes) (filters : List QueryFilter) (clause : WhereClause) :
    Prop where
  /-- There is a placeholder for each parameter. -/
  count : clause.sql.count holeByte = clause.params.length
  /-- The text with its parameters can be read, and says of a row what the clauses of the
  single filters say together. -/
  conjunction : ∀ r, ∃ b, sqlTruth cat reserved clause.sql clause.params r = some b ∧
    (b = true ↔ ∀ ft ∈ filters, SingleHolds cat reserved d ft r)
  /-- The text is made of column names, operators and the words of a clause. -/
  written : WrittenFrom cat clause.sql
  /-- Filters with other values give the same text. -/
  values : ∀ d' filters', List.Forall₂ (SameShape cat d d') filters filters' →
    (buildWhereClause cat d' filters').map WhereClause.sql = .ok clause.sql
  /-- The statements bind the parameters where they belong. -/
  statements : StatementsBind cat table timestampField clause

/-- **Filter compilation is sound**, for names that need no quotes. -/
theorem where_clause_sound {reserved : Bytes → Bool} (hplain : cat.Plain reserved)
    {table timestampField : Bytes} (htable : plainName reserved table = true)
    (htimestamp : plainName reserved timestampField = true) {filters : List QueryFilter}
    {clause : WhereClause} (h : buildWhereClause cat d filters = .ok clause) :
    SoundClause cat reserved d table timestampField filters clause where
  count := count_clause hplain h
  conjunction := by
    intro r
    refine ⟨_, sqlTruth_clause hplain h r, ?_⟩
    rw [clause_holds_iff h r]
    refine forall₂_congr fun ft _ => exists_congr fun c => and_congr_right fun hc => ?_
    rw [sqlTruth_clause hplain hc r, Option.some.injEq]
  written := writtenFrom_clause h
  values := by
    intro d' filters' hshape
    rw [sql_of_sameShape hshape, h]
    rfl
  statements := statementsBind hplain (holeByte_notMem_of_isWord (isWord_of_plainName htable).1)
    (holeByte_notMem_of_isWord (isWord_of_plainName htimestamp).1) (count_clause hplain h)

end

/-- Some of the words SQLite reserves. -/
def someReserved (w : Bytes) : Bool :=
  [lit "AND", lit "FROM", lit "IN", lit "NOT", lit "ORDER", lit "SELECT", lit "WHERE"].contains w

/-- Two filters on the key of a small table. -/
theorem where_clause_sound_level :
    SoundClause levelCatalog someReserved ∅ (lit "Log") (lit "timestamp")
      [⟨lit "id", lit ">=", .integer 3⟩, ⟨lit "id", lit "<", .integer 9⟩]
      (.all [.compare (lit "id") (lit ">=") (.integer 3),
        .compare (lit "id") (lit "<") (.integer 9)]) := by
  refine where_clause_sound ?_ rfl rfl rfl
  intro ci hci
  simp only [levelCatalog, levelColumns, List.mem_cons, List.not_mem_nil, or_false] at hci
  rcases hci with rfl | rfl <;> rfl

theorem quotedName_noNul : 0 ∉ lit "a?b" := by decide

/-- A table with a column that every statement would have to quote. -/
def quotedCatalog : DatabaseCatalog where
  compressedColumns := []
  logColumnInfo := [⟨lit "a?b", lit "TEXT", false, false, quotedName_noNul⟩]
  accepts := fun _ _ => true
  platform := levelCatalog.platform
  names_nodup := List.nodup_singleton _

/-- Such a name brings a placeholder of its own. -/
theorem two_placeholders_for_one_parameter :
    ∃ clause, buildWhereClause quotedCatalog ∅ [⟨lit "a?b", lit "=", .string (lit "x")⟩] =
        .ok clause ∧
      clause.sql.count holeByte = 2 ∧ clause.params.length = 1 :=
  ⟨.all [.compare (lit "a?b") (lit "=") (.string (lit "x"))], rfl, rfl, rfl⟩

end LogLite
