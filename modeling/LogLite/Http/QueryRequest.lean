import LogLite.Http.FilterGrammar

/-!
# Requests for logs

`GET /logs` has three parameters of its own, which it requires; every other one is taken
for filters on the column of its name.  A parameter from which no filter is read is
refused.

## Main definitions

* `parseIntParam` — `ParseIntParam`.
* `queryRequest`, `handleQuery` — `HandleQuery`, up to the query and with it.
* `ParsedExactly` — what is expected of `ParseQueryFilters`, and of the request.

## Main results

* `collectFilters_eq_ok_iff` — the filters of a request.
* `handleQuery_refused` — a request with a parameter without filters is refused.
* `parsed_exactly_iff` — **a text is parsed exactly, or it has tokens without being an
  expression.**
-/

namespace LogLite

/-! ### Integers -/

/-- `std::stoi` of a text that does not begin with a blank: a sign, and the digits up to the
next character that is none.  `none` if it throws. -/
def stoi (s : Bytes) : Option ℤ :=
  let p := splitSign s
  let digits := p.2.takeWhile isDigit
  let n : ℤ := if p.1 then -(digitsValue digits : ℤ) else digitsValue digits
  if digits.isEmpty then none
  else if -2 ^ 31 ≤ n ∧ n < 2 ^ 31 then some n
  else none

/-- `ParseIntParam`. -/
def parseIntParam (s : Bytes) : Option ℤ :=
  if s.isEmpty then none
  else if s.all fun c => isDigit c || c == 45 then stoi s
  else none

example : parseIntParam (lit "-1") = some (-1) ∧ parseIntParam (lit "12-a") = none := by decide

/-! ### `HandleQuery` -/

/-- What `Query` is called with. -/
structure QueryRequest where
  fields : List ColumnName
  limit : ℤ
  offset : ℤ
  filters : List QueryFilter

/-- The parameters `HandleQuery` requires, in the order it looks for them. -/
def requiredParams : List Bytes := [lit "fields", lit "limit", lit "offset"]

/-- The fields of a request: `std::views::split` at the commas. -/
def requestFields (s : Bytes) : List ColumnName :=
  if s = lit "*" then [lit "*"]
  else if s.isEmpty then []
  else s.splitOn 44

/-- The message of a parameter without filters. -/
def invalidFilter (key : Bytes) : Bytes :=
  lit "Invalid filter expression for field '" ++ key ++ lit "'"

/-- The loop that builds the filters from the parameters that are left. -/
def collectFilters : List (Bytes × Bytes) → Except (ℕ × Bytes) (List QueryFilter)
  | [] => .ok []
  | p :: params =>
    if reservedParams.contains p.1 then collectFilters params
    else if (parseQueryFilters p.1 p.2).isEmpty then .error (400, invalidFilter p.1)
    else (collectFilters params).map fun filters => parseQueryFilters p.1 p.2 ++ filters

/-- `HandleQuery` up to the query, or the status and the message of the failure.  The
parameters are in the order of the multimap. -/
def queryRequest (params : List (Bytes × Bytes)) : Except (ℕ × Bytes) QueryRequest :=
  match requiredParams.find? fun p => (params.lookup p).isNone with
  | some p => .error (400, missingParam p)
  | none =>
    let param := fun p => (params.lookup p).getD []
    match parseIntParam (param (lit "limit")), parseIntParam (param (lit "offset")) with
    | some limit, some offset => (collectFilters params).map fun filters =>
        ⟨requestFields (param (lit "fields")), limit, offset, filters⟩
    | _, _ => .error (400, lit "Parameters 'limit' and 'offset' must be integers")

/-- `HandleQuery`, with the query as it is on the connection of the reader. -/
def handleQuery (query : QueryRequest → Except Bytes Json) (params : List (Bytes × Bytes)) :
    Except (ℕ × Bytes) Json :=
  match queryRequest params with
  | .error failure => .error failure
  | .ok request =>
    match query request with
    | .error what => .error (500, what)
    | .ok result => .ok result

/-- The handler answers 400, whatever is in the database. -/
def Refused (params : List (Bytes × Bytes)) : Prop :=
  ∃ what, ∀ query, handleQuery query params = .error (400, what)

/-! ### The filters of a request -/

/-- **The filters of a request**: those of all parameters, and each has some. -/
theorem collectFilters_eq_ok_iff {params : List (Bytes × Bytes)} {filters : List QueryFilter} :
    collectFilters params = .ok filters ↔
      (∀ p ∈ params, p.1 ∉ reservedParams → parseQueryFilters p.1 p.2 ≠ []) ∧
        filters = (params.filter fun p => !reservedParams.contains p.1).flatMap
          fun p => parseQueryFilters p.1 p.2 := by
  induction params generalizing filters with
  | nil =>
    rw [collectFilters, Except.ok.injEq, eq_comm]
    simp
  | cons p params ih =>
    unfold collectFilters
    rw [List.forall_mem_cons, List.filter_cons]
    by_cases hreserved : p.1 ∈ reservedParams
    · have hcontains : reservedParams.contains p.1 = true := List.contains_iff_mem.mpr hreserved
      rw [if_pos hcontains, hcontains, ih]
      simp [hreserved]
    · have hcontains : reservedParams.contains p.1 = false := by simpa using hreserved
      rw [hcontains]
      simp only [Bool.false_eq_true, if_false, Bool.not_false, if_true, List.flatMap_cons]
      cases hparse : parseQueryFilters p.1 p.2 with
      | nil => simp [hreserved]
      | cons f fs =>
        cases hrest : collectFilters params with
        | error failure =>
          refine iff_of_false (fun h => by cases h) ?_
          rintro ⟨⟨-, hall⟩, -⟩
          cases hrest.symm.trans (ih.mpr ⟨hall, rfl⟩)
        | ok rest =>
          obtain ⟨hall, rfl⟩ := ih.mp hrest
          rw [List.isEmpty_cons, if_neg Bool.false_ne_true, Except.map, Except.ok.injEq, eq_comm]
          exact (and_iff_right ⟨fun _ => List.cons_ne_nil _ _, hall⟩).symm

/-- A failure names the parameter that has no filters. -/
theorem collectFilters_error {params : List (Bytes × Bytes)} {failure : ℕ × Bytes}
    (h : collectFilters params = .error failure) :
    ∃ p ∈ params, p.1 ∉ reservedParams ∧ parseQueryFilters p.1 p.2 = [] ∧
      failure = (400, invalidFilter p.1) := by
  induction params with
  | nil => cases h
  | cons p params ih =>
    unfold collectFilters at h
    split at h
    · obtain ⟨p', hp', hfailure⟩ := ih h
      exact ⟨p', List.mem_cons_of_mem _ hp', hfailure⟩
    · next hreserved =>
      split at h
      · next hempty =>
        cases h
        refine ⟨p, List.mem_cons_self, fun hmem => ?_, List.isEmpty_iff.mp hempty, rfl⟩
        exact hreserved (List.contains_iff_mem.mpr hmem)
      · cases hrest : collectFilters params with
        | ok rest =>
          rw [hrest] at h
          cases h
        | error failure' =>
          rw [hrest] at h
          cases h
          obtain ⟨p', hp', hfailure⟩ := ih hrest
          exact ⟨p', List.mem_cons_of_mem _ hp', hfailure⟩

/-- **A request with a parameter without filters is refused.** -/
theorem handleQuery_refused {params : List (Bytes × Bytes)} {p : Bytes × Bytes}
    (hp : p ∈ params) (hreserved : p.1 ∉ reservedParams) (hnil : parseQueryFilters p.1 p.2 = []) :
    Refused params := by
  have hrequest : ∃ what, queryRequest params = .error (400, what) := by
    unfold queryRequest
    split
    · exact ⟨_, rfl⟩
    · dsimp only
      split
      · cases hcollect : collectFilters params with
        | ok filters => exact absurd hnil ((collectFilters_eq_ok_iff.mp hcollect).1 p hp hreserved)
        | error failure =>
          obtain ⟨p', -, -, -, rfl⟩ := collectFilters_error hcollect
          exact ⟨_, rfl⟩
      · exact ⟨_, rfl⟩
  obtain ⟨what, hwhat⟩ := hrequest
  refine ⟨what, fun query => ?_⟩
  unfold handleQuery
  rw [hwhat]

/-! ### Exactness -/

/-- A text is parsed exactly: some filters are read if it is an expression, and they are
its tokens; none is read if it is not, and the request is refused. -/
structure ParsedExactly (field : ColumnName) (expr : Bytes) : Prop where
  nonempty : parseQueryFilters field expr ≠ [] ↔ ∃ ts, IsFilterExpr ts expr
  tokens : ∀ ts, IsFilterExpr ts expr → parseQueryFilters field expr =
    ts.map fun t => ⟨field, t.1.text, .string (t.2.rdropWhile (· == 32))⟩
  refused : (¬ ∃ ts, IsFilterExpr ts expr) → parseQueryFilters field expr = [] ∧
    ∀ params, (field, expr) ∈ params → field ∉ reservedParams → Refused params

theorem parseQueryFilters_ne_nil {field : ColumnName} {ts : List (FilterOp × Bytes)}
    {expr : Bytes} (h : IsFilterExpr ts expr) : parseQueryFilters field expr ≠ [] := by
  rw [parseQueryFilters_of_isFilterExpr h, ne_eq, List.map_eq_nil_iff]
  exact h.some_token

/-- **When a text is parsed exactly.** -/
theorem parsed_exactly_iff (field : ColumnName) (expr : Bytes) :
    ParsedExactly field expr ↔ (∃ ts, IsFilterExpr ts expr) ∨ ¬ HasToken expr := by
  constructor
  · intro h
    refine or_iff_not_imp_left.mpr fun hexpr => ?_
    exact parseQueryFilters_eq_nil_iff.mp (h.refused hexpr).1
  · intro h
    refine ⟨?_, fun ts hts => parseQueryFilters_of_isFilterExpr hts, fun hexpr => ?_⟩
    · constructor
      · intro hne
        refine h.resolve_right fun htoken => hne ?_
        exact parseQueryFilters_eq_nil_iff.mpr htoken
      · rintro ⟨ts, hts⟩
        exact parseQueryFilters_ne_nil hts
    · have hnil : parseQueryFilters field expr = [] :=
        parseQueryFilters_eq_nil_iff.mpr (h.resolve_left hexpr)
      exact ⟨hnil, fun params hp hreserved => handleQuery_refused hp hreserved hnil⟩

/-- `abc=1` is read as the filter `=1`. -/
theorem not_parsed_exactly_junk : ¬ ParsedExactly (lit "level") (lit "abc=1") := by
  intro h
  obtain ⟨ts, hts⟩ := h.nonempty.mp (by decide)
  cases ts with
  | nil => exact hts.some_token rfl
  | cons t ts =>
    have hhead : (lit "abc=1").head? = t.1.text.head? := by
      rw [hts.text, head?_filterExpr]
    revert hhead
    cases t.1 <;> decide

end LogLite
