import LogLite.Http.FilterExpr

/-!
# The filters of the dashboard

The dashboard groups its filters by field, writes the filters of a field into one query
parameter, and the server reads them back.  The syntax has no escapes: a value with a
comma ends early, and a value that begins with `=` makes `>` or `<` a longer operator.
The grouping is in a JavaScript object, which has some properties from the start.

## Main definitions

* `FormFilter`, `serializeQueryParams` — the dashboard's filters and their serializer.
* `receivedFilters` — what the server makes of the parameters of a field.
* `ReachesServer` — the server gets the filters of the dashboard.
* `Transmissible` — a filter that gets through.

## Main results

* `filters_reach_server_iff` — **the filters reach the server exactly if each one is
  transmissible.**
-/

namespace LogLite

/-! ### Objects with own properties -/

section
variable {α : Type}

/-- `object[key] = f(object[key])` for own properties; a new one comes last. -/
def setProperty (key : Bytes) (f : Option α → α) : List (Bytes × α) → List (Bytes × α)
  | [] => [(key, f none)]
  | (k, a) :: l => if k = key then (k, f (some a)) :: l else (k, a) :: setProperty key f l

theorem lookup_cons_eq (k k' : Bytes) (a : α) (l : List (Bytes × α)) :
    ((k', a) :: l).lookup k = if k = k' then some a else l.lookup k := by
  rw [List.lookup_cons]
  by_cases hk : k = k'
  · simp [hk]
  · have hne : (k == k') = false := by simpa using hk
    rw [hne, if_neg hk]

theorem lookup_setProperty (key k : Bytes) (f : Option α → α) (l : List (Bytes × α)) :
    (setProperty key f l).lookup k = if k = key then some (f (l.lookup key)) else l.lookup k := by
  induction l with
  | nil => exact lookup_cons_eq k key (f none) []
  | cons p l ih =>
    obtain ⟨k', a⟩ := p
    unfold setProperty
    by_cases hk' : k' = key
    · subst hk'
      rw [if_pos rfl, lookup_cons_eq, lookup_cons_eq, lookup_cons_eq, if_pos rfl]
      by_cases hk : k = k'
      · rw [if_pos hk, if_pos hk]
      · rw [if_neg hk, if_neg hk, if_neg hk]
    · rw [if_neg hk', lookup_cons_eq, lookup_cons_eq, lookup_cons_eq, ih, if_neg (Ne.symm hk')]
      by_cases hk : k = k'
      · rw [if_pos hk, if_pos hk, if_neg fun h => hk' (hk.symm.trans h)]
      · rw [if_neg hk, if_neg hk]

theorem mem_keys_setProperty {key k : Bytes} {f : Option α → α} {l : List (Bytes × α)} :
    k ∈ (setProperty key f l).map Prod.fst ↔ k = key ∨ k ∈ l.map Prod.fst := by
  induction l with
  | nil => simp [setProperty]
  | cons p l ih =>
    obtain ⟨k', a⟩ := p
    unfold setProperty
    by_cases hk' : k' = key
    · subst hk'
      simp
    · rw [if_neg hk', List.map_cons, List.mem_cons, ih, List.map_cons, List.mem_cons]
      exact or_left_comm

theorem nodup_setProperty {key : Bytes} {f : Option α → α} {l : List (Bytes × α)}
    (h : (l.map Prod.fst).Nodup) : ((setProperty key f l).map Prod.fst).Nodup := by
  induction l with
  | nil => simp [setProperty]
  | cons p l ih =>
    obtain ⟨k', a⟩ := p
    rw [List.map_cons, List.nodup_cons] at h
    unfold setProperty
    by_cases hk' : k' = key
    · rw [if_pos hk', List.map_cons, List.nodup_cons]
      exact h
    · rw [if_neg hk', List.map_cons, List.nodup_cons, mem_keys_setProperty]
      refine ⟨?_, ih h.2⟩
      rintro (heq | hmem)
      · exact hk' heq
      · exact h.1 hmem

end

/-! ### The dashboard -/

/-- `QueryFilter` of the dashboard.  Strings are their UTF-8 bytes. -/
structure FormFilter where
  field : Bytes
  op : FilterOp
  value : Bytes

/-- The properties an object inherits from `Object.prototype`. -/
def inheritedNames : List Bytes :=
  [lit "constructor", lit "hasOwnProperty", lit "isPrototypeOf", lit "propertyIsEnumerable",
    lit "toLocaleString", lit "toString", lit "valueOf", lit "__proto__", lit "__defineGetter__",
    lit "__defineSetter__", lit "__lookupGetter__", lit "__lookupSetter__"]

/-- The message of the `TypeError` of `grouped[f.field].push(f)`. -/
def pushIsNotAFunction : Bytes := lit "grouped[f.field].push is not a function"

/-- The loop that groups the filters.  An inherited property is there before its group
would be created, and is no array. -/
def groupFilters : List FormFilter → List (Bytes × List FormFilter) →
    Except Bytes (List (Bytes × List FormFilter))
  | [], grouped => .ok grouped
  | f :: fs, grouped =>
    if inheritedNames.contains f.field then .error pushIsNotAFunction
    else groupFilters fs (setProperty f.field (fun group => group.getD [] ++ [f]) grouped)

/-- `serializeQueryParams`: the properties of `query`, but for their order. -/
def serializeQueryParams (fields : Bytes) (limit offset : ℤ) (filters : List FormFilter) :
    Except Bytes (List (Bytes × Bytes)) :=
  let query := [(lit "fields", if fields.isEmpty then lit "*" else fields),
    (lit "limit", decimal limit), (lit "offset", decimal offset)]
  (groupFilters filters []).map fun grouped =>
    grouped.foldl (fun query g =>
      setProperty g.1 (fun _ => filterExpr (g.2.map fun f => (f.op, f.value))) query) query

/-! ### The server -/

/-- The parameters `HandleQuery` does not take for filters. -/
def reservedParams : List Bytes := [lit "fields", lit "limit", lit "offset"]

/-- The filters the server reads from the parameters with this name. -/
def receivedFilters (qs field : Bytes) : List QueryFilter :=
  ((parseQueryString qs).filter fun p => p.1 == field).flatMap fun p => parseQueryFilters field p.2

/-- The filter as the server should read it. -/
def FormFilter.received (f : FormFilter) : QueryFilter := ⟨f.field, f.op.text, .string f.value⟩

/-- The filters are serialized, and the server reads for each field the filters of the
field, in order, however `Object.entries` orders the parameters. -/
def ReachesServer (fields : Bytes) (limit offset : ℤ) (filters : List FormFilter) : Prop :=
  ∃ query, serializeQueryParams fields limit offset filters = .ok query ∧
    ∀ sent, sent.Perm query → ∀ field ∉ reservedParams,
      receivedFilters (formEncode sent) field =
        (filters.filter fun f => f.field == field).map FormFilter.received

/-- The field is not a property of every object, the value has no comma, and the operator
does not take the beginning of the value for its own. -/
structure Transmissible (f : FormFilter) : Prop where
  own : f.field ∉ inheritedNames
  comma : 44 ∉ f.value
  clash : ¬ Clashes f.op f.value

/-! ### The grouping -/

theorem groupFilters_error {fs : List FormFilter} {grouped : List (Bytes × List FormFilter)}
    (h : ∃ f ∈ fs, f.field ∈ inheritedNames) :
    groupFilters fs grouped = .error pushIsNotAFunction := by
  induction fs generalizing grouped with
  | nil =>
    obtain ⟨f, hf, -⟩ := h
    cases hf
  | cons f fs ih =>
    unfold groupFilters
    by_cases hf : f.field ∈ inheritedNames
    · rw [if_pos (List.contains_iff_mem.mpr hf)]
    · rw [if_neg (by rwa [List.contains_iff_mem])]
      refine ih ?_
      obtain ⟨f', hmem, hinherited⟩ := h
      rcases List.mem_cons.mp hmem with rfl | hmem
      · exact absurd hinherited hf
      · exact ⟨f', hmem, hinherited⟩

/-- The groups are the filters of a field, in order. -/
theorem groupFilters_ok {fs : List FormFilter} {grouped : List (Bytes × List FormFilter)}
    (h : ∀ f ∈ fs, f.field ∉ inheritedNames) (hnodup : (grouped.map Prod.fst).Nodup) :
    ∃ grouped', groupFilters fs grouped = .ok grouped' ∧ (grouped'.map Prod.fst).Nodup ∧
      ∀ k, (grouped'.lookup k).getD [] =
        (grouped.lookup k).getD [] ++ fs.filter fun f => f.field == k := by
  induction fs generalizing grouped with
  | nil => exact ⟨grouped, rfl, hnodup, fun k => by simp⟩
  | cons f fs ih =>
    have hf := h f List.mem_cons_self
    have hnodup' : ((setProperty f.field (fun group => group.getD [] ++ [f]) grouped).map
        Prod.fst).Nodup := nodup_setProperty hnodup
    obtain ⟨grouped', hok, hkeys, hlookup⟩ :=
      ih (fun f' hf' => h f' (List.mem_cons_of_mem _ hf')) hnodup'
    refine ⟨grouped', ?_, hkeys, fun k => ?_⟩
    · rw [groupFilters, if_neg (by rwa [List.contains_iff_mem])]
      exact hok
    · rw [hlookup, lookup_setProperty]
      by_cases hk : k = f.field
      · simp [hk]
      · simp [hk, Ne.symm hk]

/-! ### The parameters -/

/-- The expression of each group becomes the parameter of its field. -/
theorem lookup_foldl_setProperty (k : Bytes) :
    ∀ (grouped : List (Bytes × List FormFilter)) (query : List (Bytes × Bytes)),
      (grouped.map Prod.fst).Nodup →
      (grouped.foldl (fun query g =>
        setProperty g.1 (fun _ => filterExpr (g.2.map fun f => (f.op, f.value))) query)
          query).lookup k =
        ((grouped.lookup k).map fun fs => filterExpr (fs.map fun f => (f.op, f.value))).or
          (query.lookup k) := by
  intro grouped
  induction grouped with
  | nil => exact fun query _ => rfl
  | cons g grouped ih =>
    intro query hnodup
    obtain ⟨key, fs⟩ := g
    rw [List.map_cons, List.nodup_cons] at hnodup
    rw [List.foldl_cons, ih _ hnodup.2, lookup_setProperty, lookup_cons_eq]
    by_cases hk : k = key
    · have hnone : grouped.lookup k = none := by
        rw [List.lookup_eq_none_iff]
        intro p hp
        rw [bne_iff_ne]
        intro heq
        exact hnodup.1 (List.mem_map.mpr ⟨p, hp, heq.symm.trans hk⟩)
      rw [if_pos hk, if_pos hk, hnone]
      rfl
    · rw [if_neg hk, if_neg hk]

theorem nodup_foldl_setProperty : ∀ (grouped : List (Bytes × List FormFilter))
    (query : List (Bytes × Bytes)), (query.map Prod.fst).Nodup →
      ((grouped.foldl (fun query g =>
        setProperty g.1 (fun _ => filterExpr (g.2.map fun f => (f.op, f.value))) query)
          query).map Prod.fst).Nodup := by
  intro grouped
  induction grouped with
  | nil => exact fun query h => h
  | cons g grouped ih => exact fun query h => ih _ (nodup_setProperty h)

/-- A name that occurs once has one parameter, in whatever order they are sent. -/
theorem filter_key_eq {query sent : List (Bytes × Bytes)} (hnodup : (query.map Prod.fst).Nodup)
    (hperm : sent.Perm query) (k : Bytes) :
    (sent.filter fun p => p.1 == k) = ((query.lookup k).map fun v => (k, v)).toList := by
  have hquery : (query.filter fun p => p.1 == k) =
      ((query.lookup k).map fun v => (k, v)).toList := by
    clear hperm
    induction query with
    | nil => rfl
    | cons p query ih =>
      obtain ⟨key, v⟩ := p
      rw [List.map_cons, List.nodup_cons] at hnodup
      rw [lookup_cons_eq]
      by_cases hk : k = key
      · subst hk
        have hrest : (query.filter fun p => p.1 == k) = [] := by
          refine List.filter_eq_nil_iff.mpr fun p hp heq => hnodup.1 ?_
          exact List.mem_map.mpr ⟨p, hp, beq_iff_eq.mp heq⟩
        rw [List.filter_cons_of_pos (by simp), hrest, if_pos rfl]
        rfl
      · rw [List.filter_cons_of_neg (by simpa using Ne.symm hk), ih hnodup.2, if_neg hk]
  have hsent := hperm.filter fun p => p.1 == k
  rw [hquery] at hsent
  cases hv : query.lookup k with
  | none =>
    rw [hv] at hsent
    exact hsent.eq_nil
  | some v =>
    rw [hv] at hsent
    exact List.perm_singleton.mp hsent

theorem lookup_filter_key (k : Bytes) : ∀ params : List (Bytes × Bytes),
    (params.filter fun p => p.1 == k).lookup k = params.lookup k
  | [] => rfl
  | (name, v) :: params => by
    rw [List.filter_cons, lookup_cons_eq]
    by_cases hk : k = name
    · rw [if_pos (beq_iff_eq.mpr hk.symm), lookup_cons_eq, if_pos hk, if_pos hk]
    · rw [if_neg (by simpa using Ne.symm hk), if_neg hk, lookup_filter_key k params]

/-- A name that occurs once is looked up in any order. -/
theorem lookup_eq_of_perm {query sent : List (Bytes × Bytes)}
    (hnodup : (query.map Prod.fst).Nodup) (hperm : sent.Perm query) (k : Bytes) :
    sent.lookup k = query.lookup k := by
  rw [← lookup_filter_key, filter_key_eq hnodup hperm]
  cases query.lookup k with
  | none => rfl
  | some v => exact (lookup_cons_eq k k v []).trans (if_pos rfl)

/-- What the server reads for a field. -/
theorem receivedFilters_serialized (fields : Bytes) (limit offset : ℤ)
    {filters : List FormFilter} (h : ∀ f ∈ filters, f.field ∉ inheritedNames) :
    ∃ query, serializeQueryParams fields limit offset filters = .ok query ∧
      ∀ sent, sent.Perm query → ∀ field ∉ reservedParams,
        receivedFilters (formEncode sent) field = parseQueryFilters field (filterExpr
          ((filters.filter fun f => f.field == field).map fun f => (f.op, f.value))) := by
  have hempty : (([] : List (Bytes × List FormFilter)).map Prod.fst).Nodup := List.nodup_nil
  obtain ⟨grouped, hok, hnodup, hlookup⟩ := groupFilters_ok h hempty
  -- the three reserved names come first, and no group has one of them
  refine ⟨_, by rw [serializeQueryParams, hok]; rfl, fun sent hperm field hfield => ?_⟩
  have hquery := nodup_foldl_setProperty grouped
    [(lit "fields", if fields.isEmpty then lit "*" else fields), (lit "limit", decimal limit),
      (lit "offset", decimal offset)] (by
        show reservedParams.Nodup
        decide)
  unfold receivedFilters
  rw [parseQueryString_formEncode, filter_key_eq hquery hperm,
    lookup_foldl_setProperty _ _ _ hnodup]
  have hbase : List.lookup field [(lit "fields", if fields.isEmpty then lit "*" else fields),
      (lit "limit", decimal limit), (lit "offset", decimal offset)] = none := by
    simp only [reservedParams, List.mem_cons, List.not_mem_nil, or_false, not_or] at hfield
    rw [lookup_cons_eq, if_neg hfield.1, lookup_cons_eq, if_neg hfield.2.1, lookup_cons_eq,
      if_neg hfield.2.2]
    rfl
  have hgroup := hlookup field
  rw [List.lookup_nil, Option.getD_none, List.nil_append] at hgroup
  rw [hbase, Option.or_none, ← hgroup]
  cases grouped.lookup field with
  | none => rfl
  | some fs => simp

/-! ### The filters of a field -/

theorem parseQueryFilters_eq_map {field : ColumnName} {fs : List (FilterOp × Bytes)}
    (h : ∀ f ∈ fs, f.2 ≠ [] ∧ 44 ∉ f.2) :
    parseQueryFilters field (filterExpr fs) = fs.map fun f =>
      ⟨field, (readToken f.1 f.2).1, .string (trimTrailing (readToken f.1 f.2).2)⟩ := by
  unfold parseQueryFilters
  rw [filterTokens_expr h, List.map_map]
  rfl

/-- No filter that was read has a comma in its value. -/
theorem comma_notMem_of_mem_parseQueryFilters {field : ColumnName} {expr : Bytes}
    {q : QueryFilter} (h : q ∈ parseQueryFilters field expr) :
    ∃ v, q.value = .string v ∧ 44 ∉ v := by
  obtain ⟨t, ht, rfl⟩ := List.mem_map.mp h
  refine ⟨_, rfl, fun hcomma => comma_notMem_of_mem_filterTokens _ _ ht ?_⟩
  exact (List.rdropWhile_prefix _ t.2).subset hcomma

theorem trimTrailing_eq_self {v : Bytes} (h : v.getLast? ≠ some 32) : trimTrailing v = v := by
  unfold trimTrailing
  rw [List.rdropWhile_eq_self_iff]
  intro hne hlast
  rw [List.getLast?_eq_some_getLast hne] at h
  exact h (congrArg some (beq_iff_eq.mp hlast))

/-- The filters of one field are read as they are written exactly if each of them is. -/
theorem parseQueryFilters_eq_received_iff {field : ColumnName} {fs : List FormFilter}
    (hfield : ∀ f ∈ fs, f.field = field) (hne : ∀ f ∈ fs, f.value ≠ [])
    (hlast : ∀ f ∈ fs, f.value.getLast? ≠ some 32) :
    parseQueryFilters field (filterExpr (fs.map fun f => (f.op, f.value))) =
        fs.map FormFilter.received ↔
      ∀ f ∈ fs, 44 ∉ f.value ∧ ¬ Clashes f.op f.value := by
  have hexpr : (∀ f ∈ fs, 44 ∉ f.value) →
      ∀ p ∈ fs.map fun f => (f.op, f.value), p.2 ≠ [] ∧ 44 ∉ p.2 := by
    intro hcomma p hp
    obtain ⟨f, hf, rfl⟩ := List.mem_map.mp hp
    exact ⟨hne f hf, hcomma f hf⟩
  constructor
  · intro heq
    -- what is read has no comma, so what was written has none
    have hcomma : ∀ f ∈ fs, 44 ∉ f.value := by
      intro f hf
      have hmem : f.received ∈
          parseQueryFilters field (filterExpr (fs.map fun f => (f.op, f.value))) :=
        heq ▸ List.mem_map_of_mem hf
      obtain ⟨v, hv, hnotMem⟩ := comma_notMem_of_mem_parseQueryFilters hmem
      cases hv
      exact hnotMem
    rw [parseQueryFilters_eq_map (hexpr hcomma), List.map_map, List.map_inj_left] at heq
    intro f hf
    refine ⟨hcomma f hf, fun hclash => ?_⟩
    have hop := congrArg QueryFilter.op (heq f hf)
    dsimp only [Function.comp_apply, FormFilter.received] at hop
    rw [readToken, if_pos hclash] at hop
    simp at hop
  · intro h
    rw [parseQueryFilters_eq_map (hexpr fun f hf => (h f hf).1), List.map_map]
    refine List.map_congr_left fun f hf => ?_
    rw [Function.comp_apply, readToken_eq_iff.mpr (h f hf).2, trimTrailing_eq_self (hlast f hf),
      ← hfield f hf]
    rfl

/-- **Filters with non-empty values that do not end in a blank reach the server exactly if
each one is transmissible.** -/
theorem filters_reach_server_iff {fields : Bytes} {limit offset : ℤ} {filters : List FormFilter}
    (hreserved : ∀ f ∈ filters, f.field ∉ reservedParams)
    (hne : ∀ f ∈ filters, f.value ≠ [])
    (hlast : ∀ f ∈ filters, f.value.getLast? ≠ some 32) :
    ReachesServer fields limit offset filters ↔ ∀ f ∈ filters, Transmissible f := by
  have hgroup : ∀ k, (∀ f ∈ filters.filter fun f => f.field == k, f.field = k) ∧
      (∀ f ∈ filters.filter fun f => f.field == k, f.value ≠ []) ∧
      ∀ f ∈ filters.filter fun f => f.field == k, f.value.getLast? ≠ some 32 := by
    intro k
    refine ⟨fun f hf => beq_iff_eq.mp (List.mem_filter.mp hf).2, ?_, ?_⟩
    · exact fun f hf => hne f (List.mem_filter.mp hf).1
    · exact fun f hf => hlast f (List.mem_filter.mp hf).1
  constructor
  · rintro ⟨query, hok, hsent⟩
    have hown : ∀ f ∈ filters, f.field ∉ inheritedNames := by
      intro f hf hinherited
      rw [serializeQueryParams, groupFilters_error ⟨f, hf, hinherited⟩] at hok
      cases hok
    obtain ⟨query', hok', hread⟩ := receivedFilters_serialized fields limit offset hown
    cases hok.symm.trans hok'
    intro f hf
    have heq := (hread query (.refl _) f.field (hreserved f hf)).symm.trans
      (hsent query (.refl _) f.field (hreserved f hf))
    obtain ⟨hfield, hne', hlast'⟩ := hgroup f.field
    obtain ⟨hcomma, hclash⟩ := (parseQueryFilters_eq_received_iff hfield hne' hlast').mp heq f
      (List.mem_filter.mpr ⟨hf, beq_self_eq_true _⟩)
    exact ⟨hown f hf, hcomma, hclash⟩
  · intro h
    obtain ⟨query, hok, hread⟩ :=
      receivedFilters_serialized fields limit offset fun f hf => (h f hf).own
    refine ⟨query, hok, fun sent hperm k hk => ?_⟩
    obtain ⟨hfield, hne', hlast'⟩ := hgroup k
    rw [hread sent hperm k hk]
    refine (parseQueryFilters_eq_received_iff hfield hne' hlast').mpr fun f hf => ?_
    have htransmissible := h f (List.mem_filter.mp hf).1
    exact ⟨htransmissible.comma, htransmissible.clash⟩

/-- Two filters of one field. -/
theorem filters_reach_server_two :
    (∀ f ∈ [FormFilter.mk (lit "ts") .ge (lit "2024"), ⟨lit "ts", .lt, lit "2025=x"⟩],
        f.field ∉ reservedParams ∧ f.value ≠ [] ∧ f.value.getLast? ≠ some 32) ∧
      ReachesServer (lit "*") 10 0
        [⟨lit "ts", .ge, lit "2024"⟩, ⟨lit "ts", .lt, lit "2025=x"⟩] := by
  have hfilters :
      ∀ f ∈ [FormFilter.mk (lit "ts") .ge (lit "2024"), ⟨lit "ts", .lt, lit "2025=x"⟩],
        f.field ∉ reservedParams ∧ f.value ≠ [] ∧ f.value.getLast? ≠ some 32 := by
    decide
  refine ⟨hfilters, (filters_reach_server_iff (fun f hf => (hfilters f hf).1)
    (fun f hf => (hfilters f hf).2.1) fun f hf => (hfilters f hf).2.2).mpr fun f hf => ?_⟩
  simp only [List.mem_cons, List.not_mem_nil, or_false] at hf
  obtain rfl | rfl := hf
  · exact ⟨by decide, by decide, by decide⟩
  · exact ⟨by decide, by decide, by decide⟩

/-- The value `a,=b` is read as two filters. -/
theorem filters_reach_server_comma :
    ¬ ReachesServer (lit "*") 10 0 [⟨lit "message", .eq, lit "a,=b"⟩] := by
  rintro ⟨query, hok, hsent⟩
  cases hok
  exact absurd (congrArg List.length (hsent _ (.refl _) (lit "message") (by decide))) (by decide)

end LogLite
