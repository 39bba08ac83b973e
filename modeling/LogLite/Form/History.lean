import LogLite.Form.Payload
import LogLite.Http.IntParam
import LogLite.Lib.Run
import LogLite.Query.Order
import LogLite.Query.Pagination

/-!
# Looking at the logs of the past

The dashboard shows the rows that meet some filters, page by page.  Filters are added by a
form and taken away again, the size of a page can be changed, and two buttons lead to the
page before and to the page after.  The answer to a request tells how many rows there are;
the button to the next page is enabled by that number.

The rows are those of a table that does not change meanwhile.  An answer may come at any
time, or again.

## Main definitions

* `HistoricalQuery`, `HistoryStep` — the component and its handlers.
* `Fetches` — an answer to `fetchLogs`, from the request's text to the page.
* `Understood` — a filter that the server gets as it is, on a column that it knows.
* `ShowsHistory` — what is on the screen.
* `walk` — reading page after page by the button.

## Main results

* `Fetches.spec` — what the server makes of the request of the dashboard.
* `history_shows` — **the page that is shown is the page of the rows that meet the filters.**
* `history_walk` — **the button leads through all pages, once.**
-/

namespace LogLite

open Paging Transition

/-! ### The form of a filter -/

/-- `operatorsForKind`. -/
def operatorsForKind : LogColumnKind → List FilterOp
  | .integer => [.eq, .ne, .gt, .ge, .lt, .le]
  | .number => [.eq, .ne, .gt, .ge, .lt, .le]
  | .datetime => [.eq, .ne, .gt, .ge, .lt, .le]
  | .boolean => [.eq, .ne]
  | .text => [.eq, .ne, .contains]
  | .json => [.eq, .ne, .contains]
  | .blob => [.eq, .ne, .contains]

/-- `defaultOperator`: the first one. -/
def defaultOperator (kind : LogColumnKind) : FilterOp := (operatorsForKind kind).headD .eq

/-- `pickDefaultField`. -/
def pickDefaultField (columns : List LogSchemaColumn) : ColumnName :=
  if columns.any fun c => c.name == lit "level" then lit "level"
  else
    match columns.find? fun c => !c.primaryKey with
    | some c => c.name
    | none => (columns.head?.map (·.name)).getD (lit "level")

/-- `DEFAULT_COLUMNS`. -/
def defaultColumns : List ColumnName :=
  [lit "id", lit "timestamp", lit "level", lit "service", lit "message"]

/-! ### The component -/

/-- `PaginatedLogs`, with the rows as they are in the table. -/
structure PaginatedLogs where
  limit : ℤ
  offset : ℤ
  total : ℤ
  results : List LogRow

/-- The state of `HistoricalQuery`; `data` is what there is for the present query. -/
structure HistoricalQuery where
  limit : ℕ
  offset : ℕ
  activeFilters : List FormFilter
  newField : ColumnName
  newOp : FilterOp
  newValue : Bytes
  schemaColumns : List LogSchemaColumn
  data : Option PaginatedLogs

namespace HistoricalQuery

/-- The state at first. -/
def start : HistoricalQuery where
  limit := 20
  offset := 0
  activeFilters := []
  newField := lit "level"
  newOp := .eq
  newValue := []
  schemaColumns := []
  data := none

/-- `columnByName.get(field)?.kind ?? 'text'`. -/
def kindOf (q : HistoricalQuery) (field : ColumnName) : LogColumnKind :=
  ((q.schemaColumns.reverse.find? fun c => c.name == field).map (·.kind)).getD .text

/-- `allAvailableColumns`. -/
def allAvailableColumns (q : HistoricalQuery) : List ColumnName :=
  if q.schemaColumns.isEmpty then defaultColumns else q.schemaColumns.map (·.name)

/-- The value of the form when a field of that kind is chosen. -/
def freshValue (kind : LogColumnKind) (now : Bytes) : Bytes := if kind = .datetime then now else []

/-- The schema is loaded, and the effects run that bring the form into line with it. -/
def schemaLoaded (q : HistoricalQuery) (columns : List LogSchemaColumn) : HistoricalQuery :=
  let q := { q with schemaColumns := columns }
  if columns.isEmpty then q
  else
    let field :=
      if columns.any fun c => c.name == q.newField then q.newField else pickDefaultField columns
    let ops := operatorsForKind (q.kindOf field)
    { q with
      newField := field
      newOp := if ops.contains q.newOp then q.newOp else defaultOperator (q.kindOf field) }

/-- `handleFieldChange`; `now` is `formatLocalDatetimeInput()`. -/
def handleFieldChange (q : HistoricalQuery) (field : ColumnName) (now : Bytes) : HistoricalQuery :=
  let kind := q.kindOf field
  { q with newField := field, newOp := defaultOperator kind, newValue := freshValue kind now }

/-- `handleAddFilter`. -/
def handleAddFilter (js : JsRuntime) (q : HistoricalQuery) (now : Bytes) : HistoricalQuery :=
  let kind := q.kindOf q.newField
  match coerceFilterValue js kind q.newValue with
  | none => q
  | some coerced =>
    if coerced.isEmpty then q
    else
      { q with
        activeFilters := q.activeFilters ++ [⟨q.newField, q.newOp, coerced⟩]
        newValue := freshValue kind now
        offset := 0
        data := none }

/-- `handleRemoveFilter`. -/
def handleRemoveFilter (q : HistoricalQuery) (idx : ℕ) : HistoricalQuery :=
  { q with activeFilters := q.activeFilters.eraseIdx idx, offset := 0, data := none }

/-- `onLimitChange`. -/
def handleLimitChange (q : HistoricalQuery) (next : ℕ) : HistoricalQuery :=
  { q with limit := next, offset := 0, data := none }

/-- `handlePageChange('prev')`. -/
def prevPage (q : HistoricalQuery) : HistoricalQuery :=
  { q with offset := q.offset - q.limit, data := none }

/-- `handlePageChange('next')`. -/
def nextPage (q : HistoricalQuery) : HistoricalQuery :=
  match q.data with
  | some data =>
    if q.offset + q.limit < data.total then { q with offset := q.offset + q.limit, data := none }
    else q
  | none => q

end HistoricalQuery

/-! ### The request -/

section
variable (cat : DatabaseCatalog) (d : LookupTable) (rows : List LogRow) (orderBy : ColumnName)

/-- An answer to `fetchLogs`.  The parameters may be sent in any order, and the map of the
server has them in any order. -/
inductive Fetches (limit offset : ℕ) (filters : List FormFilter) : PaginatedLogs → Prop
  | mk {query sent params : List (Bytes × Bytes)} {request : QueryRequest} {page : List LogRow}
      (hquery : serializeQueryParams (lit "*") limit offset filters = .ok query)
      (hsent : sent.Perm query) (hparams : params.Perm (parseQueryString (formEncode sent)))
      (hrequest : queryRequest params = .ok request)
      (hpage : QueryReturns cat d request.filters orderBy request.limit request.offset rows page) :
      Fetches limit offset filters
        ⟨request.limit, request.offset, queryTotal cat d request.filters rows, page⟩

/-- What happens to the component: the schema comes, the form is used, a filter is added or
taken away, the size of a page is chosen, a button is pressed, an answer comes. -/
inductive HistoryAction where
  | schema
  | field (name : ColumnName) (now : Bytes)
  | op (op : FilterOp)
  | value (raw : Bytes)
  | add (now : Bytes)
  | remove (idx : ℕ)
  | limit (next : ℕ)
  | prev
  | next
  | loaded (data : PaginatedLogs)

/-- One step; the buttons are shown with the data if there are rows, and may be disabled. -/
inductive HistoryStep (js : JsRuntime) : HistoricalQuery → HistoryAction → HistoricalQuery → Prop
  | schema {q : HistoricalQuery} :
      HistoryStep js q .schema (q.schemaLoaded (buildSchemaPayload cat))
  | field {q : HistoricalQuery} {name : ColumnName} {now : Bytes}
      (hname : name ∈ q.allAvailableColumns) :
      HistoryStep js q (.field name now) (q.handleFieldChange name now)
  | op {q : HistoricalQuery} {op : FilterOp} (hop : op ∈ operatorsForKind (q.kindOf q.newField)) :
      HistoryStep js q (.op op) { q with newOp := op }
  | value {q : HistoricalQuery} {raw : Bytes} :
      HistoryStep js q (.value raw) { q with newValue := raw }
  | add {q : HistoricalQuery} {now : Bytes} : HistoryStep js q (.add now) (q.handleAddFilter js now)
  | remove {q : HistoricalQuery} {idx : ℕ} (hidx : idx < q.activeFilters.length) :
      HistoryStep js q (.remove idx) (q.handleRemoveFilter idx)
  | limit {q : HistoricalQuery} {next : ℕ} (hnext : next ∈ [20, 50, 100]) :
      HistoryStep js q (.limit next) (q.handleLimitChange next)
  | prev {q : HistoricalQuery} {data : PaginatedLogs} (hdata : q.data = some data)
      (hshown : 0 < data.total) (henabled : q.offset ≠ 0) : HistoryStep js q .prev q.prevPage
  | next {q : HistoricalQuery} {data : PaginatedLogs} (hdata : q.data = some data)
      (hshown : 0 < data.total) (henabled : q.offset + q.limit < data.total) :
      HistoryStep js q .next q.nextPage
  | loaded {q : HistoricalQuery} {data : PaginatedLogs}
      (hfetches : Fetches cat d rows orderBy q.limit q.offset q.activeFilters data) :
      HistoryStep js q (.loaded data) { q with data := some data }

end

/-! ### The parameters -/

/-- Lists are permutations of each other if they are so key by key. -/
theorem perm_of_filter_key {α κ : Type} [BEq κ] [ReflBEq κ] (key : α → κ) {l l' : List α}
    (h : ∀ k, (l.filter fun a => key a == k).Perm (l'.filter fun a => key a == k)) :
    l.Perm l' := by
  classical
  rw [List.perm_iff_count]
  intro a
  have hcount := (h (key a)).count_eq a
  rwa [List.count_filter (by simp), List.count_filter (by simp)] at hcount

/-- The members of some lists with a property, where all members of a list have it or none. -/
theorem filter_flatMap_of {α β : Type} {g : α → List β} {p : β → Bool} {q : α → Bool}
    {l : List α} (h : ∀ a ∈ l, ∀ b ∈ g a, p b = q a) :
    (l.flatMap g).filter p = (l.filter q).flatMap g := by
  induction l with
  | nil => rfl
  | cons a l ih =>
    obtain ⟨ha, hl⟩ := List.forall_mem_cons.mp h
    rw [List.flatMap_cons, List.filter_append, ih hl, List.filter_cons]
    split
    · next hq =>
      have hall : (g a).filter p = g a := List.filter_eq_self.mpr fun b hb => (ha b hb).trans hq
      rw [hall, List.flatMap_cons]
    · next hq =>
      have hnone : (g a).filter p = [] := by
        rw [List.filter_eq_nil_iff]
        intro b hb
        rw [ha b hb]
        exact hq
      rw [hnone, List.nil_append]

/-- A filter that the server gets as it is, on a column that it knows. -/
structure Understood (cat : DatabaseCatalog) (f : FormFilter) : Prop extends Transmissible f where
  notReserved : f.field ∉ reservedParams
  known : cat.knows f.field = true

/-- What the form makes of a value is not empty and does not end in a blank. -/
structure Filled (f : FormFilter) : Prop where
  nonempty : f.value ≠ []
  trimmed : f.value.getLast? ≠ some 32

section
variable {cat : DatabaseCatalog} {filters : List FormFilter}

/-- The filters that the server reads for a field are those of the dashboard. -/
theorem receivedFilters_of_understood {limit offset : ℤ} {query params : List (Bytes × Bytes)}
    (hfilters : ∀ f ∈ filters, Understood cat f) (hfilled : ∀ f ∈ filters, Filled f)
    (hquery : serializeQueryParams (lit "*") limit offset filters = .ok query)
    (hparams : params.Perm query) {field : ColumnName} (hfield : field ∉ reservedParams) :
    ((params.filter fun p => p.1 == field).flatMap fun p => parseQueryFilters field p.2) =
      (filters.filter fun f => f.field == field).map FormFilter.received := by
  obtain ⟨query', hquery', hread⟩ := receivedFilters_serialized (lit "*") limit offset
    fun f hf => (hfilters f hf).own
  obtain rfl := Except.ok.inj (hquery.symm.trans hquery')
  have hreceived := hread params hparams field hfield
  rw [receivedFilters, parseQueryString_formEncode] at hreceived
  rw [hreceived]
  have hmem : ∀ f ∈ filters.filter fun f => f.field == field, f ∈ filters ∧ f.field = field := by
    intro f hf
    obtain ⟨hf, hname⟩ := List.mem_filter.mp hf
    exact ⟨hf, beq_iff_eq.mp hname⟩
  refine (parseQueryFilters_eq_received_iff ?_ ?_ ?_).mpr ?_
  · exact fun f hf => (hmem f hf).2
  · exact fun f hf => (hfilled f (hmem f hf).1).nonempty
  · exact fun f hf => (hfilled f (hmem f hf).1).trimmed
  · exact fun f hf => ⟨(hfilters f (hmem f hf).1).comma, (hfilters f (hmem f hf).1).clash⟩

/-- The filters of the request are those of the dashboard, in some order. -/
theorem collectFilters_perm {limit offset : ℤ} {query params : List (Bytes × Bytes)}
    {fs : List QueryFilter} (hfilters : ∀ f ∈ filters, Understood cat f)
    (hfilled : ∀ f ∈ filters, Filled f)
    (hquery : serializeQueryParams (lit "*") limit offset filters = .ok query)
    (hparams : params.Perm query) (hfs : collectFilters params = .ok fs) :
    fs.Perm (filters.map FormFilter.received) := by
  obtain ⟨-, rfl⟩ := collectFilters_eq_ok_iff.mp hfs
  refine perm_of_filter_key QueryFilter.field fun k => .of_eq ?_
  -- every filter that is read from a parameter is on the column of its name
  have hname : ∀ p ∈ params.filter fun p => !reservedParams.contains p.1,
      ∀ ft ∈ parseQueryFilters p.1 p.2, (ft.field == k) = (p.1 == k) := by
    intro p _ ft hft
    obtain ⟨t, -, rfl⟩ := List.mem_map.mp hft
    rfl
  rw [filter_flatMap_of hname, List.filter_filter, List.filter_map]
  by_cases hk : k ∈ reservedParams
  · have hleft : (params.filter fun p => (p.1 == k) && !reservedParams.contains p.1) = [] := by
      rw [List.filter_eq_nil_iff]
      intro p _ hp
      obtain ⟨hpk, hp⟩ := Bool.and_eq_true_iff.mp hp
      rw [beq_iff_eq.mp hpk, List.contains_iff_mem.mpr hk] at hp
      cases hp
    have hright : filters.filter ((fun ft => ft.field == k) ∘ FormFilter.received) = [] := by
      rw [List.filter_eq_nil_iff]
      intro f hf hfk
      have hname : f.field = k := beq_iff_eq.mp hfk
      exact (hfilters f hf).notReserved (hname ▸ hk)
    rw [hleft, hright]
    rfl
  · refine Eq.trans ?_ (receivedFilters_of_understood hfilters hfilled hquery hparams hk)
    have hsame : (params.filter fun p => (p.1 == k) && !reservedParams.contains p.1) =
        params.filter fun p => p.1 == k := by
      refine List.filter_congr fun p _ => ?_
      by_cases hpk : p.1 = k
      · simp [hpk, hk]
      · simp [hpk]
    rw [hsame]
    refine List.flatMap_congr fun p hp => ?_
    rw [beq_iff_eq.mp (List.mem_filter.mp hp).2]

/-- The groups are those of the fields of the filters. -/
theorem mem_keys_groupFilters {fs : List FormFilter}
    {grouped grouped' : List (Bytes × List FormFilter)} (h : groupFilters fs grouped = .ok grouped')
    {k : Bytes} (hk : k ∈ grouped'.map Prod.fst) :
    k ∈ grouped.map Prod.fst ∨ ∃ f ∈ fs, f.field = k := by
  induction fs generalizing grouped with
  | nil =>
    cases h
    exact .inl hk
  | cons f fs ih =>
    unfold groupFilters at h
    split at h
    · cases h
    · rcases ih h with hold | ⟨f', hf', rfl⟩
      · rcases mem_keys_setProperty.mp hold with rfl | hold
        · exact .inr ⟨f, List.mem_cons_self, rfl⟩
        · exact .inl hold
      · exact .inr ⟨f', List.mem_cons_of_mem _ hf', rfl⟩

/-- The parameters of the component's own are sent as they are. -/
theorem lookup_own {limit offset : ℤ} {query params : List (Bytes × Bytes)}
    (hfilters : ∀ f ∈ filters, Understood cat f)
    (hquery : serializeQueryParams (lit "*") limit offset filters = .ok query)
    (hparams : params.Perm query) :
    params.lookup (lit "limit") = some (decimal limit) ∧
      params.lookup (lit "offset") = some (decimal offset) := by
  obtain ⟨grouped, hgrouped, hnodup, -⟩ := groupFilters_ok (fun f hf => (hfilters f hf).own)
    (show (([] : List (Bytes × List FormFilter)).map Prod.fst).Nodup from List.nodup_nil)
  rw [serializeQueryParams, hgrouped] at hquery
  cases hquery
  have hkeys := nodup_foldl_setProperty grouped [(lit "fields", lit "*"),
    (lit "limit", decimal limit), (lit "offset", decimal offset)]
    (show reservedParams.Nodup by decide)
  have hown : ∀ k ∈ reservedParams, params.lookup k = List.lookup k [(lit "fields", lit "*"),
      (lit "limit", decimal limit), (lit "offset", decimal offset)] := by
    intro k hk
    -- no filter has this name, so no group has replaced the parameter
    have hnone : grouped.lookup k = none := by
      rw [List.lookup_eq_none_iff]
      intro p hp
      rw [bne_iff_ne]
      rintro rfl
      rcases mem_keys_groupFilters hgrouped (List.mem_map_of_mem hp) with hnil | ⟨f, hf, hfield⟩
      · cases hnil
      · exact (hfilters f hf).notReserved (hfield ▸ hk)
    have hvalue := lookup_foldl_setProperty k grouped [(lit "fields", lit "*"),
      (lit "limit", decimal limit), (lit "offset", decimal offset)] hnodup
    rw [hnone, Option.map_none, Option.none_or] at hvalue
    rw [lookup_eq_of_perm hkeys hparams, hvalue]
  exact ⟨hown _ (by decide), hown _ (by decide)⟩

/-- A decimal number is read as the number. -/
theorem parseIntParam_decimal {m : ℕ} {n : ℤ} (h : parseIntParam (decimal m) = some n) :
    n = m := by
  obtain ⟨-, text, rest, htext, hint, hrest⟩ := parseIntParam_eq_some_iff_scan.mp h
  have hdigits : IntegerText (digitBytes m) m := by
    have htext := IntegerText.digits (digitBytes_ne_nil m)
      (isDigit_digitBytes m)
    rwa [digitsValue_digitBytes] at htext
  rw [← decimal_natCast, htext] at hdigits
  have hwhole : IntegerText ([] ++ (text ++ rest)) m := hdigits
  exact (hwhole.eq_of_append rfl hint.integer hrest).2.2.symm

/-- The filters of a request are those that are collected from its parameters. -/
theorem queryRequest_filters {params : List (Bytes × Bytes)} {request : QueryRequest}
    (h : queryRequest params = .ok request) : collectFilters params = .ok request.filters := by
  unfold queryRequest at h
  split at h
  · cases h
  · dsimp only at h
    split at h
    · cases hcollect : collectFilters params with
      | error failure =>
        rw [hcollect] at h
        cases h
      | ok filters =>
        rw [hcollect] at h
        cases h
        rfl
    · cases h

end

/-! ### The answer -/

section
variable {cat : DatabaseCatalog} {d : LookupTable} {rows : List LogRow} {orderBy : ColumnName}
  {filters filters' : List QueryFilter}

/-- Valid filters select the same rows in any order. -/
theorem matching_eq_of_perm (hperm : filters'.Perm filters)
    (hvalid : ∀ ft ∈ filters, ft.Valid cat) :
    matching cat d filters' rows = matching cat d filters rows := by
  refine List.filter_congr fun r _ => ?_
  have hvalid' : ∀ ft ∈ filters', ft.Valid cat := fun ft hft => hvalid ft (hperm.mem_iff.mp hft)
  rw [Bool.eq_iff_iff, selects_iff hvalid', selects_iff hvalid]
  exact forall_congr' fun ft => by rw [hperm.mem_iff]

/-- They have the same total. -/
theorem queryTotal_eq_of_perm (hperm : filters'.Perm filters)
    (hvalid : ∀ ft ∈ filters, ft.Valid cat) :
    queryTotal cat d filters' rows = queryTotal cat d filters rows := by
  have hempty : filters'.isEmpty = filters.isEmpty := by
    rw [Bool.eq_iff_iff, List.isEmpty_iff, List.isEmpty_iff]
    exact ⟨fun h => (h ▸ hperm).nil_eq.symm, fun h => (h ▸ hperm).eq_nil⟩
  rw [queryTotal, queryTotal, hempty, countRows, countRows, matching_eq_of_perm hperm hvalid]

/-- They have the same pages. -/
theorem QueryReturns.of_perm {limit offset : ℤ} {page : List LogRow}
    (hperm : filters'.Perm filters) (hvalid : ∀ ft ∈ filters, ft.Valid cat)
    (h : QueryReturns cat d filters' orderBy limit offset rows page) :
    QueryReturns cat d filters orderBy limit offset rows page := by
  obtain ⟨-, hpage⟩ := h
  refine ⟨compiles_of_valid hvalid, ?_⟩
  rw [queryTotal_eq_of_perm hperm hvalid] at hpage
  split
  · next hzero => rwa [if_pos hzero] at hpage
  · next hzero =>
    rw [if_neg hzero] at hpage
    obtain ⟨hlimit, -, ci, sorted, hci, hsorted, hdesc, hcut⟩ := hpage
    rw [matching_eq_of_perm hperm hvalid] at hsorted
    exact ⟨hlimit, compiles_of_valid hvalid, ci, sorted, hci, hsorted, hdesc, hcut⟩

end

/-- The filters as the server should read them. -/
def receivedAll (filters : List FormFilter) : List QueryFilter := filters.map FormFilter.received

theorem text_mem_allowedOps (op : FilterOp) : allowedOps.contains op.text = true := by
  cases op <;> decide

section
variable {cat : DatabaseCatalog} {d : LookupTable} {rows : List LogRow} {orderBy : ColumnName}
  {filters : List FormFilter} {limit offset : ℕ} {data : PaginatedLogs}

theorem valid_receivedAll (hfilters : ∀ f ∈ filters, Understood cat f) :
    ∀ ft ∈ receivedAll filters, ft.Valid cat := by
  intro ft hft
  obtain ⟨f, hf, rfl⟩ := List.mem_map.mp hft
  exact ⟨(hfilters f hf).known, text_mem_allowedOps f.op⟩

/-- **What the server makes of the request of the dashboard.** -/
theorem Fetches.spec (hfilters : ∀ f ∈ filters, Understood cat f)
    (hfilled : ∀ f ∈ filters, Filled f)
    (h : Fetches cat d rows orderBy limit offset filters data) :
    data.limit = limit ∧ data.offset = offset ∧
      data.total = queryTotal cat d (receivedAll filters) rows ∧
      QueryReturns cat d (receivedAll filters) orderBy limit offset rows data.results := by
  obtain ⟨hquery, hsent, hparams, hrequest, hpage⟩ := h
  rw [parseQueryString_formEncode] at hparams
  have hperm := hparams.trans hsent
  obtain ⟨hlimit, hoffset⟩ := lookup_own hfilters hquery hperm
  obtain ⟨hlimit', hoffset'⟩ := queryRequest_ints hrequest
  rw [hlimit] at hlimit'
  rw [hoffset] at hoffset'
  have hfs := collectFilters_perm hfilters hfilled hquery hperm (queryRequest_filters hrequest)
  have hvalid := valid_receivedAll hfilters
  rw [parseIntParam_decimal hlimit', parseIntParam_decimal hoffset'] at hpage
  exact ⟨parseIntParam_decimal hlimit', parseIntParam_decimal hoffset',
    queryTotal_eq_of_perm hfs hvalid, hpage.of_perm hfs hvalid⟩

end

/-! ### What the form makes of a value -/

/-- No blank is left at the end. -/
theorem jsTrim_getLast? (s : Bytes) : (jsTrim s).getLast? ≠ some 32 := by
  have hwords : [] ∉ jsWhiteSpace.map List.reverse := by decide
  have hnone := not_prefix_stripWords hwords (jsTrimStart s).length (jsTrimStart s).reverse
    (by rw [List.length_reverse]) [32] (by decide)
  intro hlast
  rw [jsTrim, jsTrimEnd, List.getLast?_reverse] at hlast
  obtain ⟨rest, hrest⟩ := List.head?_eq_some_iff.mp hlast
  rw [hrest] at hnone
  exact hnone (List.prefix_append [32] rest)

theorem blank_notMem_decimal (n : ℤ) : 32 ∉ decimal n := by
  have hdigits : ∀ m, 32 ∉ digitBytes m := by
    intro m hm
    exact absurd (List.all_eq_true.mp (isDigit_digitBytes m) _ hm) (by decide)
  cases n with
  | ofNat m =>
    rw [Int.ofNat_eq_natCast, decimal_natCast]
    exact hdigits m
  | negSucc m =>
    rw [decimal_negSucc, List.mem_cons, not_or]
    exact ⟨by decide, hdigits _⟩

theorem blank_notMem_pad2 (n : ℤ) : 32 ∉ pad2 n := by
  rw [pad2, List.leftpad, List.mem_append, not_or]
  refine ⟨fun h => ?_, blank_notMem_decimal n⟩
  exact absurd (List.eq_of_mem_replicate h) (by decide)

/-- A date of the form has no blanks. -/
theorem blank_notMem_datetimeLocal {js : JsRuntime} {raw v : Bytes}
    (h : datetimeLocalToFilterValue js raw = some v) : 32 ∉ v := by
  unfold datetimeLocalToFilterValue at h
  dsimp only at h
  split at h
  · cases h
  · obtain ⟨ms, -, rfl⟩ := Option.map_eq_some_iff.mp h
    have hsep : 32 ∉ lit "-" ∧ 32 ∉ lit "T" ∧ 32 ∉ lit ":" := by decide
    simp only [List.mem_append, blank_notMem_decimal, blank_notMem_pad2, hsep, or_self,
      not_false_eq_true]

/-- `String` of a number does not end in a blank. -/
def NumbersTrimmed (js : JsRuntime) : Prop := ∀ x, (js.numberText x).getLast? ≠ some 32

/-- **What the form makes of a value does not end in a blank.** -/
theorem coerceFilterValue_getLast? {js : JsRuntime} (hjs : NumbersTrimmed js)
    {kind : LogColumnKind} {raw v : Bytes} (h : coerceFilterValue js kind raw = some v) :
    v.getLast? ≠ some 32 := by
  have hnone : ∀ {v : Bytes}, 32 ∉ v → v.getLast? ≠ some 32 := by
    intro v hv hlast
    exact hv (List.mem_of_getLast? hlast)
  unfold coerceFilterValue at h
  dsimp only at h
  split at h
  · cases h
  · cases kind with
    | boolean =>
      obtain ⟨b, -, rfl⟩ := Option.map_eq_some_iff.mp h
      cases b <;> decide
    | integer =>
      obtain ⟨x, -, rfl⟩ := Option.map_eq_some_iff.mp h
      exact hjs x
    | number =>
      obtain ⟨x, -, rfl⟩ := Option.map_eq_some_iff.mp h
      exact hjs x
    | datetime =>
      dsimp only at h
      split at h
      · next hlocal =>
        cases h
        exact hnone (blank_notMem_datetimeLocal hlocal)
      · obtain ⟨ms, -, rfl⟩ := Option.map_eq_some_iff.mp h
        exact jsTrim_getLast? raw
    | text | json | blob =>
      cases h
      exact jsTrim_getLast? raw

/-! ### What is shown -/

namespace HistoricalQuery

/-- The number of the page, and of all pages, below the table. -/
def currentPage (q : HistoricalQuery) : ℤ := q.offset / q.limit + 1

/-- `Math.ceil(total / limit)`. -/
def totalPages (q : HistoricalQuery) (total : ℤ) : ℤ := -(-total / q.limit)

/-- The number of the last row that is shown. -/
def lastShown (q : HistoricalQuery) (total : ℤ) : ℤ := min (q.offset + q.limit) total

end HistoricalQuery

/-- The data are the answer to the query. -/
structure AnswersQuery (cat : DatabaseCatalog) (d : LookupTable) (rows : List LogRow)
    (orderBy : ColumnName) (q : HistoricalQuery) (data : PaginatedLogs) : Prop where
  limit : data.limit = q.limit
  offset : data.offset = q.offset
  total : data.total = queryTotal cat d (receivedAll q.activeFilters) rows
  page : QueryReturns cat d (receivedAll q.activeFilters) orderBy q.limit q.offset rows data.results

/-- What is on the screen: a page from the beginning of a page on, that the filters have, with
its number and the numbers of its rows. -/
structure ShowsHistory (cat : DatabaseCatalog) (d : LookupTable) (rows : List LogRow)
    (orderBy : ColumnName) (q : HistoricalQuery) : Prop where
  limit : q.limit ∈ [20, 50, 100]
  offset : q.limit ∣ q.offset
  within : (∀ f ∈ q.activeFilters, Understood cat f) →
    q.offset = 0 ∨ q.offset < queryTotal cat d (receivedAll q.activeFilters) rows
  answers : (∀ f ∈ q.activeFilters, Understood cat f) → ∀ data, q.data = some data →
    AnswersQuery cat d rows orderBy q data
  numbers : (∀ f ∈ q.activeFilters, Understood cat f) → ∀ data, q.data = some data →
    0 < data.total → q.currentPage ≤ q.totalPages data.total ∧
      (data.total = (matching cat d (receivedAll q.activeFilters) rows).length →
        data.results.length = q.lastShown data.total - q.offset)

/-- What every step keeps. -/
structure HistoryInv (cat : DatabaseCatalog) (d : LookupTable) (rows : List LogRow)
    (orderBy : ColumnName) (q : HistoricalQuery) : Prop where
  limit : q.limit ∈ [20, 50, 100]
  offset : q.limit ∣ q.offset
  filled : ∀ f ∈ q.activeFilters, Filled f
  within : (∀ f ∈ q.activeFilters, Understood cat f) →
    q.offset = 0 ∨ q.offset < queryTotal cat d (receivedAll q.activeFilters) rows
  fetched : ∀ data, q.data = some data →
    Fetches cat d rows orderBy q.limit q.offset q.activeFilters data

section
variable {cat : DatabaseCatalog} {d : LookupTable} {rows : List LogRow} {orderBy : ColumnName}
  {js : JsRuntime} {q t : HistoricalQuery} {act : HistoryAction} {data : PaginatedLogs}

theorem historyInv_start : HistoryInv cat d rows orderBy .start where
  limit := by decide
  offset := ⟨0, rfl⟩
  filled := nofun
  within := fun _ => .inl rfl
  fetched := nofun

/-- The form alone changes nothing of the query. -/
theorem HistoryInv.form (h : HistoryInv cat d rows orderBy q) (hlimit : t.limit = q.limit)
    (hoffset : t.offset = q.offset) (hfilters : t.activeFilters = q.activeFilters)
    (hdata : t.data = q.data) : HistoryInv cat d rows orderBy t := by
  constructor
  · rw [hlimit]
    exact h.limit
  · rw [hlimit, hoffset]
    exact h.offset
  · rw [hfilters]
    exact h.filled
  · rw [hoffset, hfilters]
    exact h.within
  · rw [hdata, hlimit, hoffset, hfilters]
    exact h.fetched

/-- A new query begins at its first page, and nothing is loaded for it. -/
theorem HistoryInv.query {q : HistoricalQuery} (hlimit : q.limit ∈ [20, 50, 100])
    (hfilled : ∀ f ∈ q.activeFilters, Filled f) (hoffset : q.offset = 0) (hdata : q.data = none) :
    HistoryInv cat d rows orderBy q where
  limit := hlimit
  offset := ⟨0, hoffset⟩
  filled := hfilled
  within := fun _ => .inl hoffset
  fetched := fun _ h => absurd (hdata.symm.trans h) nofun

/-- What is loaded is the answer to the query. -/
theorem HistoryInv.answers (h : HistoryInv cat d rows orderBy q)
    (hfilters : ∀ f ∈ q.activeFilters, Understood cat f) (hdata : q.data = some data) :
    AnswersQuery cat d rows orderBy q data := by
  obtain ⟨hlimit, hoffset, htotal, hpage⟩ := (h.fetched data hdata).spec hfilters h.filled
  exact ⟨hlimit, hoffset, htotal, hpage⟩

theorem HistoryInv.add (hjs : NumbersTrimmed js) (h : HistoryInv cat d rows orderBy q)
    (now : Bytes) : HistoryInv cat d rows orderBy (q.handleAddFilter js now) := by
  unfold HistoricalQuery.handleAddFilter
  dsimp only
  split
  · exact h
  · next coerced hcoerced =>
    split
    · exact h
    · next hne =>
      refine .query h.limit (fun f hf => ?_) rfl rfl
      rcases List.mem_append.mp hf with hf | hf
      · exact h.filled f hf
      · obtain rfl := List.mem_singleton.mp hf
        exact ⟨fun hnil => hne (List.isEmpty_iff.mpr hnil),
          coerceFilterValue_getLast? hjs hcoerced⟩

/-- The page before. -/
theorem HistoryInv.prev (h : HistoryInv cat d rows orderBy q) :
    HistoryInv cat d rows orderBy q.prevPage where
  limit := h.limit
  offset := Nat.dvd_sub h.offset (Nat.dvd_refl _)
  filled := h.filled
  within := by
    intro hfilters
    have hwithin := h.within hfilters
    show q.offset - q.limit = 0 ∨
      ((q.offset - q.limit : ℕ) : ℤ) < queryTotal cat d (receivedAll q.activeFilters) rows
    omega
  fetched := nofun

theorem nextPage_eq (hdata : q.data = some data) (henabled : q.offset + q.limit < data.total) :
    q.nextPage = { q with offset := q.offset + q.limit, data := none } := by
  rw [HistoricalQuery.nextPage, hdata]
  exact if_pos henabled

/-- The page after: there are rows on it, by the total that is loaded. -/
theorem HistoryInv.next (h : HistoryInv cat d rows orderBy q) (hdata : q.data = some data)
    (henabled : q.offset + q.limit < data.total) : HistoryInv cat d rows orderBy q.nextPage := by
  rw [nextPage_eq hdata henabled]
  refine ⟨h.limit, Nat.dvd_add h.offset (Nat.dvd_refl _), h.filled, fun hfilters => .inr ?_, nofun⟩
  have htotal := (h.answers hfilters hdata).total
  show ((q.offset + q.limit : ℕ) : ℤ) < _
  rw [← htotal]
  omega

/-- An answer comes. -/
theorem HistoryInv.loaded (h : HistoryInv cat d rows orderBy q)
    (hfetches : Fetches cat d rows orderBy q.limit q.offset q.activeFilters data) :
    HistoryInv cat d rows orderBy { q with data := some data } where
  limit := h.limit
  offset := h.offset
  filled := h.filled
  within := h.within
  fetched := by
    intro data' hdata
    obtain rfl := Option.some.inj hdata
    exact hfetches

/-- **Every step keeps the invariant.** -/
theorem HistoryInv.step (hjs : NumbersTrimmed js) (h : HistoryInv cat d rows orderBy q)
    (hstep : HistoryStep cat d rows orderBy js q act t) : HistoryInv cat d rows orderBy t := by
  cases hstep with
  | schema =>
    unfold HistoricalQuery.schemaLoaded
    dsimp only
    split
    · exact h.form rfl rfl rfl rfl
    · exact h.form rfl rfl rfl rfl
  | field | op | value => exact h.form rfl rfl rfl rfl
  | add => exact h.add hjs _
  | remove => exact .query h.limit (fun f hf => h.filled f (List.mem_of_mem_eraseIdx hf)) rfl rfl
  | limit hnext => exact .query hnext h.filled rfl rfl
  | prev => exact h.prev
  | next hdata _ henabled => exact h.next hdata henabled
  | loaded hfetches => exact h.loaded hfetches

theorem HistoryInv.run (hjs : NumbersTrimmed js) {acts : List HistoryAction}
    (h : Run (HistoryStep cat d rows orderBy js) .start acts q) :
    HistoryInv cat d rows orderBy q :=
  h.invariant (fun _ _ _ hs hstep => hs.step hjs hstep) historyInv_start

theorem HistoryInv.limit_pos (h : HistoryInv cat d rows orderBy q) : 0 < q.limit := by
  have hlimit := h.limit
  simp only [List.mem_cons, List.not_mem_nil, or_false] at hlimit
  omega

/-- A page has the rows between its offset and the next one, as far as there are any. -/
theorem length_of_queryReturns {filters : List QueryFilter} {limit offset : ℕ}
    {page : List LogRow} (h : QueryReturns cat d filters orderBy limit offset rows page)
    (htotal : queryTotal cat d filters rows = (matching cat d filters rows).length) :
    page.length = min limit ((matching cat d filters rows).length - offset) := by
  obtain ⟨-, hpage⟩ := h
  split at hpage
  · next hzero =>
    rw [hpage, List.length_nil]
    omega
  · obtain ⟨-, -, ci, sorted, -, hsorted, -, rfl⟩ := hpage
    rw [limited, if_neg (by omega), List.length_take, List.length_drop, hsorted.length_eq,
      Int.toNat_natCast, Int.toNat_natCast]

/-- The page is one of the pages. -/
theorem currentPage_le_totalPages (hlimit : 0 < q.limit) (hdvd : q.limit ∣ q.offset) {total : ℤ}
    (h : q.offset < total) : q.currentPage ≤ q.totalPages total := by
  obtain ⟨k, hk⟩ := hdvd
  have hpos : (0 : ℤ) < q.limit := by omega
  rw [HistoricalQuery.currentPage, HistoricalQuery.totalPages, hk, Int.natCast_mul,
    Int.mul_ediv_cancel_left _ (ne_of_gt hpos)]
  have hlt : -total / q.limit < -k := by
    refine Int.ediv_lt_of_lt_mul hpos ?_
    rw [hk, Int.natCast_mul] at h
    rw [Int.neg_mul, Int.mul_comm]
    omega
  omega

/-- **The page that is shown**: in every run of the component, while the table does not change,
the page begins where a page of that size begins and not behind the last row; what is loaded is
the answer to the filters, the size and the page that are set; and the numbers below the table
are those of the page and of its rows. -/
theorem history_shows (hjs : NumbersTrimmed js) {acts : List HistoryAction}
    (h : Run (HistoryStep cat d rows orderBy js) .start acts q) :
    ShowsHistory cat d rows orderBy q := by
  have hinv := HistoryInv.run hjs h
  refine ⟨hinv.limit, hinv.offset, hinv.within, fun hfilters data => hinv.answers hfilters, ?_⟩
  intro hfilters data hdata hpos
  have hanswers := hinv.answers hfilters hdata
  have hwithin : q.offset < data.total := by
    rcases hinv.within hfilters with hzero | hlt
    · rw [hzero]
      exact hpos
    · rw [hanswers.total]
      exact hlt
  refine ⟨currentPage_le_totalPages hinv.limit_pos hinv.offset hwithin, fun htotal => ?_⟩
  have hlength := length_of_queryReturns hanswers.page (hanswers.total.symm.trans htotal)
  rw [hlength, HistoricalQuery.lastShown]
  omega

end

/-! ### Page after page -/

/-- Page after page: each one is loaded, and then the button to the next one is pressed. -/
def walk (first : PaginatedLogs) : List PaginatedLogs → List HistoryAction
  | [] => [.loaded first]
  | data :: rest => .loaded first :: .next :: walk data rest

/-- Where a walk leads, and what is shown on the way. -/
structure Walked (cat : DatabaseCatalog) (d : LookupTable) (rows : List LogRow)
    (orderBy : ColumnName) (q : HistoricalQuery) (pages : List PaginatedLogs)
    (t : HistoricalQuery) : Prop where
  limit : t.limit = q.limit
  offset : t.offset + q.limit = q.offset + pages.length * q.limit
  data : ∃ data, t.data = some data ∧
    data.total = queryTotal cat d (receivedAll q.activeFilters) rows
  pages : ∀ k (hk : k < pages.length), QueryReturns cat d (receivedAll q.activeFilters) orderBy
    q.limit (q.offset + k * q.limit : ℕ) rows pages[k].results

section
variable {cat : DatabaseCatalog} {d : LookupTable} {rows : List LogRow} {orderBy : ColumnName}
  {js : JsRuntime} {q t : HistoricalQuery} {first : PaginatedLogs} {rest : List PaginatedLogs}

/-- **What is shown on the way.** -/
theorem walked_of_run (hinv : HistoryInv cat d rows orderBy q)
    (hfilters : ∀ f ∈ q.activeFilters, Understood cat f)
    (h : Run (HistoryStep cat d rows orderBy js) q (walk first rest) t) :
    Walked cat d rows orderBy q (first :: rest) t := by
  induction rest generalizing q first with
  | nil =>
    obtain _ | ⟨hloaded, hrest⟩ := h
    cases hrest
    cases hloaded with
    | loaded hfetches =>
      obtain ⟨-, -, htotal, hpage⟩ := hfetches.spec hfilters hinv.filled
      refine ⟨rfl, by simp, ⟨first, rfl, htotal⟩, fun k hk => ?_⟩
      obtain rfl : k = 0 := by simpa using hk
      simpa using hpage
  | cons data rest ih =>
    obtain _ | ⟨hloaded, hrest⟩ := h
    obtain _ | ⟨hnext, hrest⟩ := hrest
    cases hloaded with
    | loaded hfetches =>
      obtain ⟨-, -, htotal, hpage⟩ := hfetches.spec hfilters hinv.filled
      cases hnext with
      | next hdata _ henabled =>
        have hmoved := nextPage_eq hdata henabled
        have hinv' := (hinv.loaded hfetches).next hdata henabled
        rw [hmoved] at hrest hinv'
        have hwalked := ih hinv' hfilters hrest
        refine ⟨hwalked.limit, ?_, hwalked.data, fun k hk => ?_⟩
        · have hoffset : t.offset + q.limit =
            q.offset + q.limit + (data :: rest).length * q.limit := hwalked.offset
          have hlength : (first :: data :: rest).length = (data :: rest).length + 1 := rfl
          rw [hoffset, hlength, Nat.succ_mul]
          omega
        · cases k with
          | zero => simpa using hpage
          | succ k =>
            have hk' : k < (data :: rest).length := by simpa using hk
            have hnext : QueryReturns cat d (receivedAll q.activeFilters) orderBy q.limit
                (q.offset + q.limit + k * q.limit : ℕ) rows (data :: rest)[k].results :=
              hwalked.pages k hk'
            rw [Nat.succ_mul, ← Nat.add_assoc, Nat.add_right_comm]
            exact hnext

/-- The pages of a list that is cut elsewhere, too. -/
theorem firstPages_eq_flatMap {α β : Type} {f : α → List β} {l : List α} {p : ℕ → List β}
    (hp : ∀ k (hk : k < l.length), p k = f l[k]) : firstPages p l.length = l.flatMap f := by
  have htake : ∀ n ≤ l.length, firstPages p n = (l.take n).flatMap f := by
    intro n hn
    induction n with
    | zero => rfl
    | succ n ih =>
      rw [firstPages_succ, ih (by omega), List.take_succ_eq_append_getElem hn,
        List.flatMap_append, List.flatMap_singleton, hp n hn]
  rw [htake _ (Nat.le_refl _), List.take_length]

/-- **Page after page**: from the first page of a query on, the button to the next page leads,
until it is disabled, through pages that have every row that meets the filters once, latest
first, if no page boundary separates rows of one time and the total is not too small. -/
theorem history_walk (hjs : NumbersTrimmed js) {acts : List HistoryAction}
    (h : Run (HistoryStep cat d rows orderBy js) .start acts q)
    (hfilters : ∀ f ∈ q.activeFilters, Understood cat f) (hstart : q.offset = 0)
    (hwalk : Run (HistoryStep cat d rows orderBy js) q (walk first rest) t)
    (hend : ∀ data, t.data = some data → data.total ≤ t.offset + t.limit)
    (hcount : (matching cat d (receivedAll q.activeFilters) rows).length ≤
      queryTotal cat d (receivedAll q.activeFilters) rows)
    (hties : ∀ ci, cat.column orderBy = some ci → TiesOnOnePage (NotEarlier ci)
      (matching cat d (receivedAll q.activeFilters) rows) q.limit) :
    ((first :: rest).flatMap (·.results)).Perm
        (matching cat d (receivedAll q.activeFilters) rows) ∧
      ∀ ci, cat.column orderBy = some ci →
        Descending ci ((first :: rest).flatMap (·.results)) := by
  have hinv := HistoryInv.run hjs h
  have hwalked := walked_of_run hinv hfilters hwalk
  obtain ⟨data, hdata, htotal⟩ := hwalked.data
  have hdisabled := hend data hdata
  have hcompiles := compiles_of_valid (d := d) (valid_receivedAll hfilters)
  have hoffset := hwalked.offset
  rw [hwalked.limit, htotal] at hdisabled
  rw [hstart, Nat.zero_add] at hoffset
  have hroom : (matching cat d (receivedAll q.activeFilters) rows).length ≤
      (first :: rest).length * q.limit := by omega
  have hpages := hwalked.pages
  simp only [hstart, Nat.zero_add] at hpages
  by_cases hzero : queryTotal cat d (receivedAll q.activeFilters) rows = 0
  · -- there are no rows, and no page has any
    have hnil : matching cat d (receivedAll q.activeFilters) rows = [] :=
      List.length_eq_zero_iff.mp (by omega)
    have hshown : (first :: rest).flatMap (·.results) = [] := by
      rw [List.flatMap_eq_nil_iff]
      intro page hpage
      obtain ⟨k, hk, rfl⟩ := List.getElem_of_mem hpage
      have hresults := (hpages k hk).2
      rwa [if_pos hzero] at hresults
    rw [hnil, hshown]
    exact ⟨.refl _, fun ci _ => .nil⟩
  · -- each page is one of the rows in some order, and behind the last one there is nothing
    have hfirst := (hpages 0 (by simp)).2
    rw [if_neg hzero] at hfirst
    obtain ⟨-, -, ci, sorted, hci, hperm, hdesc, -⟩ := hfirst
    have hsorted : Ordered (NotEarlier ci)
        (matching cat d (receivedAll q.activeFilters) rows) sorted := ⟨hperm, hdesc⟩
    let shown : ℕ → List LogRow := fun k =>
      if hk : k < (first :: rest).length then (first :: rest)[k].results
      else page q.limit k sorted
    have hshown : ∀ k (hk : k < (first :: rest).length),
        shown k = (first :: rest)[k].results := fun k hk => dif_pos hk
    have hall : Pages (NotEarlier ci) (matching cat d (receivedAll q.activeFilters) rows) q.limit
        shown := by
      intro k
      by_cases hk : k < (first :: rest).length
      · rw [hshown k hk]
        have hresults := (hpages k hk).2
        rw [if_neg hzero] at hresults
        exact (isPage_iff hci hcompiles).mp hresults.2
      · exact ⟨sorted, hsorted, dif_neg hk⟩
    have htogether := firstPages_eq_flatMap hshown
    rw [← htogether]
    refine ⟨(hall.firstPages_perm (hties ci hci) _).trans (.of_eq ?_), fun ci' hci' => ?_⟩
    · refine List.filter_eq_self.mpr fun r hr => ?_
      have hahead := hsorted.ahead_lt_length hr
      rw [decide_eq_true_eq]
      omega
    · obtain rfl := Option.some.inj (hci.symm.trans hci')
      exact hall.firstPages_pairwise (hties ci hci) _

end

/-! ### The rows of eleven o'clock -/

theorem numbersTrimmed_integerRuntime : NumbersTrimmed integerRuntime := by
  intro x hlast
  exact blank_notMem_decimal x.num (List.mem_of_getLast? hlast)

/-- The filter `timestamp ~= 11`. -/
def elevenFilter : FormFilter := ⟨lit "timestamp", .contains, lit "11"⟩

theorem understood_elevenFilter : ∀ f ∈ [elevenFilter], Understood stampCatalog f := by
  intro f hf
  obtain rfl := List.mem_singleton.mp hf
  exact ⟨⟨by decide, by decide, by decide⟩, by decide, by decide⟩

/-- What it selects. -/
def elevenPage : PaginatedLogs := ⟨20, 0, 2, [stampRow 2 "11:00:00", stampRow 3 "11:00:00"]⟩

theorem matching_elevenFilter :
    matching stampCatalog ∅ (receivedAll [elevenFilter]) threeStamps = elevenPage.results := by
  have hnoon : selects stampCatalog ∅ (receivedAll [elevenFilter]) (stampRow 1 "12:00:00") =
      false := by decide
  have heleven : ∀ id ∈ [2, 3],
      selects stampCatalog ∅ (receivedAll [elevenFilter]) (stampRow id "11:00:00") = true := by
    decide
  simp [matching, threeStamps, elevenPage, hnoon, heleven]

theorem queryTotal_elevenFilter :
    queryTotal stampCatalog ∅ (receivedAll [elevenFilter]) threeStamps = 2 := by
  have hcount := congrArg List.length matching_elevenFilter
  rw [queryTotal, if_neg (by decide), countRows, hcount]
  decide

/-- An answer to a request with this filter. -/
theorem fetches_eleven (rows : List LogRow) (offset : ℕ) {sorted : List LogRow}
    {params : List (Bytes × Bytes)}
    (hquery : serializeQueryParams (lit "*") (20 : ℕ) offset [elevenFilter] = .ok params)
    (hrequest : queryRequest params = .ok ⟨[lit "*"], 20, offset, receivedAll [elevenFilter]⟩)
    (hperm : sorted.Perm (matching stampCatalog ∅ (receivedAll [elevenFilter]) rows))
    (hdesc : ∀ ci, stampCatalog.column (lit "timestamp") = some ci → Descending ci sorted)
    (htotal : queryTotal stampCatalog ∅ (receivedAll [elevenFilter]) rows ≠ 0) :
    Fetches stampCatalog ∅ rows (lit "timestamp") 20 offset [elevenFilter]
      ⟨20, offset, queryTotal stampCatalog ∅ (receivedAll [elevenFilter]) rows,
        limited 20 offset sorted⟩ := by
  have hparams : params.Perm (parseQueryString (formEncode params)) := by
    rw [parseQueryString_formEncode]
  have hcompiles : Compiles stampCatalog ∅ (receivedAll [elevenFilter]) :=
    compiles_of_valid (valid_receivedAll understood_elevenFilter)
  refine .mk hquery (.refl _) hparams hrequest ⟨hcompiles, ?_⟩
  rw [if_neg htotal]
  exact ⟨Int.natCast_nonneg 20, hcompiles, _, sorted, rfl, hperm, hdesc _ rfl, rfl⟩

theorem fetches_elevenPage :
    Fetches stampCatalog ∅ threeStamps (lit "timestamp") 20 0 [elevenFilter] elevenPage := by
  have hfetches := fetches_eleven threeStamps 0 rfl rfl (.of_eq matching_elevenFilter.symm)
    (fun ci hci => by
      obtain rfl := Option.some.inj hci
      unfold Descending
      decide) (by rw [queryTotal_elevenFilter]; decide)
  rw [queryTotal_elevenFilter] at hfetches
  exact hfetches

/-- The state after the filter is added in the form. -/
def elevenQuery : HistoricalQuery where
  limit := 20
  offset := 0
  activeFilters := [elevenFilter]
  newField := lit "timestamp"
  newOp := .contains
  newValue := []
  schemaColumns := buildSchemaPayload stampCatalog
  data := none

/-- How it is added. -/
def elevenActions : List HistoryAction := [.schema, .op .contains, .value (lit " 11 "), .add []]

theorem run_elevenQuery (rows : List LogRow) :
    Run (HistoryStep stampCatalog ∅ rows (lit "timestamp") integerRuntime) .start
      elevenActions elevenQuery :=
  .cons .schema <| .cons (.op (by decide)) <| .cons .value <| .single .add

/-- The two rows are on the first page. -/
theorem history_shows_eleven : ∃ acts,
    Run (HistoryStep stampCatalog ∅ threeStamps (lit "timestamp") integerRuntime) .start acts
        { elevenQuery with data := some elevenPage } ∧
      ShowsHistory stampCatalog ∅ threeStamps (lit "timestamp")
        { elevenQuery with data := some elevenPage } :=
  have hrun := (run_elevenQuery threeStamps).append (.single (.loaded fetches_elevenPage))
  ⟨_, hrun, history_shows numbersTrimmed_integerRuntime hrun⟩

/-! ### Two pages -/

/-- Twenty rows of half past eleven, one of noon, and two of eleven o'clock. -/
def lunchRows : List LogRow :=
  ((List.range 20).map fun k => stampRow (k + 1) "11:30:00") ++
    [stampRow 21 "12:00:00", stampRow 22 "11:00:00", stampRow 23 "11:00:00"]

/-- The first page that the filter has of them. -/
def halfPage : PaginatedLogs :=
  ⟨20, 0, 22, (List.range 20).map fun k => stampRow (k + 1) "11:30:00"⟩

/-- The second one. -/
def fullPage : PaginatedLogs :=
  ⟨20, 20, 22, [stampRow 23 "11:00:00", stampRow 22 "11:00:00"]⟩

theorem matching_lunchRows : matching stampCatalog ∅ (receivedAll [elevenFilter]) lunchRows =
    halfPage.results ++ [stampRow 22 "11:00:00", stampRow 23 "11:00:00"] := by
  have hhalf : ∀ id, selects stampCatalog ∅ (receivedAll [elevenFilter])
      (stampRow id "11:30:00") = true := fun id => rfl
  have hfull : ∀ id, selects stampCatalog ∅ (receivedAll [elevenFilter])
      (stampRow id "11:00:00") = true := fun id => rfl
  have hnoon : selects stampCatalog ∅ (receivedAll [elevenFilter]) (stampRow 21 "12:00:00") =
      false := by decide
  have hrows : halfPage.results.filter
      (selects stampCatalog ∅ (receivedAll [elevenFilter])) = halfPage.results := by
    refine List.filter_eq_self.mpr fun r hr => ?_
    obtain ⟨k, -, rfl⟩ := List.mem_map.mp hr
    exact hhalf _
  show (halfPage.results ++ _).filter _ = _
  rw [List.filter_append, hrows]
  simp [hfull, hnoon]

theorem queryTotal_lunchRows :
    queryTotal stampCatalog ∅ (receivedAll [elevenFilter]) lunchRows = 22 := by
  have hcount := congrArg List.length matching_lunchRows
  rw [queryTotal, if_neg (by decide), countRows, hcount]
  decide

/-- The rows as they are sorted. -/
theorem descending_lunchRows (ci : ColumnInfo)
    (hci : stampCatalog.column (lit "timestamp") = some ci) :
    Descending ci (halfPage.results ++ fullPage.results) := by
  obtain rfl := Option.some.inj hci
  unfold Descending
  decide

theorem perm_lunchRows : (halfPage.results ++ fullPage.results).Perm
    (matching stampCatalog ∅ (receivedAll [elevenFilter]) lunchRows) := by
  rw [matching_lunchRows]
  exact .append_left _ (.swap _ _ _)

theorem fetches_halfPage :
    Fetches stampCatalog ∅ lunchRows (lit "timestamp") 20 0 [elevenFilter] halfPage := by
  have hfetches := fetches_eleven lunchRows 0 rfl rfl perm_lunchRows descending_lunchRows
    (by rw [queryTotal_lunchRows]; decide)
  rw [queryTotal_lunchRows] at hfetches
  exact hfetches

theorem fetches_fullPage :
    Fetches stampCatalog ∅ lunchRows (lit "timestamp") 20 20 [elevenFilter] fullPage := by
  have hfetches := fetches_eleven lunchRows 20 rfl rfl perm_lunchRows descending_lunchRows
    (by rw [queryTotal_lunchRows]; decide)
  rw [queryTotal_lunchRows] at hfetches
  exact hfetches

/-- The second page has the two rows of eleven o'clock. -/
theorem history_walk_lunch :
    ([halfPage, fullPage].flatMap (·.results)).Perm
        (matching stampCatalog ∅ (receivedAll [elevenFilter]) lunchRows) ∧
      ∀ ci, stampCatalog.column (lit "timestamp") = some ci →
        Descending ci ([halfPage, fullPage].flatMap (·.results)) := by
  have hwalk : Run (HistoryStep stampCatalog ∅ lunchRows (lit "timestamp") integerRuntime)
      elevenQuery (walk halfPage [fullPage])
        { elevenQuery with offset := 20, data := some fullPage } :=
    .cons (.loaded fetches_halfPage) <| .cons (.next rfl (by decide) (by decide)) <|
      .single (.loaded fetches_fullPage)
  refine history_walk numbersTrimmed_integerRuntime (run_elevenQuery lunchRows)
    understood_elevenFilter rfl hwalk ?_ ?_ ?_
  · intro data hdata
    obtain rfl := Option.some.inj hdata
    decide
  · show ((matching stampCatalog ∅ (receivedAll [elevenFilter]) lunchRows).length : ℤ) ≤
      queryTotal stampCatalog ∅ (receivedAll [elevenFilter]) lunchRows
    rw [matching_lunchRows, queryTotal_lunchRows]
    decide
  · intro ci hci
    obtain rfl := Option.some.inj hci
    show TiesOnOnePage _ (matching stampCatalog ∅ (receivedAll [elevenFilter]) lunchRows) 20
    rw [matching_lunchRows]
    unfold TiesOnOnePage
    decide

end LogLite
