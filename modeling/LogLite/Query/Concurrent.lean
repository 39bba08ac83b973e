import LogLite.Query.Reader

/-!
# What a query answers while the writer works

A row keeps its ids, and ids are never taken away.  So a value can be decoded by any
dictionary from the moment on in which its row was read, always to the same string;
and a list of ids that was made for a filter before a row was read has the row's id
if the row was committed when the query began.

## Main definitions

* `Fits` — the cells of a row have their ids in a dictionary.
* `SelectedSince` — rows that a query that began at one moment may select at another.
* `AnswersSince`, `AnswersOrRefuses` — the answers a query may give.

## Main results

* `readQuery_decodes` — **a query never fails on a value it cannot decode, and
  answers with the values that were logged.**
* `readQuery_selects` — **its rows are rows of one committed moment that meet the
  filters, and none is missing that was there when the query began.**
-/

namespace LogLite

section
variable (cat : DatabaseCatalog)

/-- The cells of the row are those of its log, given the ids of `d`. -/
def Fits (d : LookupTable) (r : LogRow) : Prop :=
  RowCells cat d r.source cat.insertColumns r.cells

variable {cat}

theorem Readable.fits {w : WriterDatabase} (h : Readable cat w) {r : LogRow}
    (hr : r ∈ w.seen.log) : Fits cat w.colDict r := h.rows r hr

theorem Fits.later {w w' : WriterDatabase} (h : Later cat w w') {r : LogRow}
    (hr : Fits cat w.colDict r) : Fits cat w'.colDict r := RowCells.mono h.extends hr

/-- A row that fits, as the only row of a sound database. -/
theorem Fits.sound {w : WriterDatabase} (hw : Readable cat w) {r : LogRow}
    (hr : Fits cat w.colDict r) : Sound cat ⟨⟨⟨[r], []⟩, none⟩, w.colDict⟩ := by
  refine ⟨hw.sound.dict, hw.sound.columns, fun r' hr' => ?_⟩
  rw [List.mem_singleton.mp hr']
  exact hr

/-! ### One filter, at two moments -/

/-- A condition holds of no fewer rows later on. -/
theorem conditionOf_later {w w' : WriterDatabase} (h : Later cat w w') {ft : QueryFilter}
    {r : LogRow} (hr : (conditionOf cat w.colDict ft).holds cat r = true) :
    (conditionOf cat w'.colDict ft).holds cat r = true := by
  unfold conditionOf at hr ⊢
  split at hr
  · next hcomp =>
    rw [if_pos hcomp]
    unfold Condition.holds at hr ⊢
    cases hci : cat.column ft.field with
    | none => simp [hci] at hr
    | some ci =>
      simp only [hci, List.any_eq_true] at hr ⊢
      obtain ⟨id, hid, heq⟩ := hr
      obtain ⟨v, hv, hmatch⟩ := mem_queryCandidates.mp hid
      exact ⟨id, mem_queryCandidates.mpr ⟨v, h.extends _ hv, hmatch⟩, heq⟩
  · next hcomp =>
    rw [if_neg hcomp]
    exact hr

/-- A row meets the condition of a filter on a compressed column exactly if its string
stands in the relation to the filter's value; which dictionary is asked does not
matter, if it has the string. -/
theorem conditionOf_compressed_iff (hint : CompressedAreIntegers cat) {w : WriterDatabase}
    (hw : Sound cat w) {r : LogRow} (hr : r ∈ w.log) {ft : QueryFilter}
    (hcomp : cat.compressedColumns.contains ft.field = true) :
    (conditionOf cat w.colDict ft).holds cat r = true ↔
      ∃ ci ∈ cat.insertColumns, ci.name = ft.field ∧ (r.source.find ft.field).isNull = false ∧
        valueMatches ft.op (dictText cat.platform ft.value)
          (dictText cat.platform
            (serializeValue cat.platform (r.source.find ft.field))) = true := by
  have hcond : conditionOf cat w.colDict ft =
      .inIds ft.field (queryCandidates cat.platform w.colDict ft) := if_pos hcomp
  rw [hcond, Condition.holds]
  constructor
  · intro h
    cases hci : cat.column ft.field with
    | none => simp [hci] at h
    | some ci =>
      simp only [hci, List.any_eq_true] at h
      obtain ⟨i, hi, heq⟩ := h
      obtain ⟨v, hv, hmatch⟩ := mem_queryCandidates.mp hi
      obtain ⟨hmem, hfield⟩ := column_mem hci
      -- only columns that `Insert` writes are in the dictionary
      obtain ⟨ci', hins, hname⟩ := hw.columns ft.field v (by rw [hv]; rfl)
      have hsame : ci = ci' := List.inj_on_of_nodup_map cat.names_nodup hmem
        (List.mem_of_mem_filter hins) (hfield.trans hname.symm)
      subst hsame
      rw [value_of_mem_insertColumns hins, hint ci hins (hfield ▸ hcomp), hfield] at heq
      cases hnull : (r.source.find ft.field).isNull with
      | true =>
        rw [← hfield] at hnull
        rw [← hfield, hw.cell_null hr hins hnull] at heq
        simp at heq
      | false =>
        refine ⟨ci, hins, hfield, rfl, ?_⟩
        obtain ⟨id, hid, hcell⟩ := hw.cell_id hr hins (hfield ▸ hcomp) (hfield ▸ hnull)
        rw [hint ci hins (hfield ▸ hcomp), apply_integer_integer, hfield] at hcell
        rw [hcell, bindParam, comparison_integer_eq, hw.toInt64_id hv] at heq
        rw [hfield, heq] at hid
        rw [hw.dict.numbering _ hid hv]
        exact hmatch
  · rintro ⟨ci, hins, hfield, hnull, hmatch⟩
    have hci : cat.column ft.field = some ci := by
      rw [← hfield]
      exact column_eq_some (List.mem_of_mem_filter hins)
    obtain ⟨id, hid, hcell⟩ := hw.cell_id hr hins (hfield ▸ hcomp) (hfield ▸ hnull)
    rw [hfield] at hid
    simp only [hci, List.any_eq_true]
    refine ⟨id, mem_queryCandidates.mpr ⟨_, hid, hmatch⟩, ?_⟩
    rw [value_of_mem_insertColumns hins, hcell, hint ci hins (hfield ▸ hcomp),
      apply_integer_integer, bindParam, comparison_integer_eq, hw.toInt64_id hid]

/-- What a filter says of a row does not change any more once the row's strings have
their ids. -/
theorem conditionOf_stable (hint : CompressedAreIntegers cat) {w w' : WriterDatabase}
    (hw : Readable cat w) (h : Later cat w w') {ft : QueryFilter} {r : LogRow}
    (hfit : Fits cat w.colDict r) :
    (conditionOf cat w'.colDict ft).holds cat r = true ↔
      (conditionOf cat w.colDict ft).holds cat r = true := by
  cases hcomp : cat.compressedColumns.contains ft.field with
  | true =>
    have hhere := conditionOf_compressed_iff hint (hfit.sound hw) List.mem_cons_self hcomp
    have hthere := conditionOf_compressed_iff hint ((hfit.later h).sound (h.readable hw))
      List.mem_cons_self hcomp
    exact hthere.trans hhere.symm
  | false =>
    unfold conditionOf
    rw [hcomp]
    exact Iff.rfl

/-! ### The clause -/

variable (cat) in
/-- What a query has read of the filters from `w` to `w'`: it is met by no row that later
fails a filter, and by every row that fits at the beginning and meets the filters. -/
structure ReadFor (filters : List QueryFilter) (w w' : WriterDatabase) (met : LogRow → Prop) :
    Prop where
  sound : ∀ r, met r → ∀ ft ∈ filters, (conditionOf cat w'.colDict ft).holds cat r = true
  complete : ∀ r, Fits cat w.colDict r →
    (∀ ft ∈ filters, (conditionOf cat w.colDict ft).holds cat r = true) → met r

theorem later_trans (w w' w'' : WriterDatabase) (h : Later cat w w') (h' : Later cat w' w'') :
    Later cat w w'' := h.trans h'

theorem Later.of_ends {α : Type} {p : Reading WriterDatabase α} {w w' : WriterDatabase} {a : α}
    (h : p.Ends (Later cat) w a w') : Later cat w w' :=
  h.moves Later.refl later_trans

/-- The loop over the filters, while the writer works. -/
theorem readFilters_later : ∀ filters : List QueryFilter, (∀ ft ∈ filters, ft.Valid cat) →
    ∀ (w w' : WriterDatabase) (a : Except Bytes (Option (List Condition))),
      (readFilters cat filters).Ends (Later cat) w a w' → ∃ cs, a = .ok cs ∧
        ReadFor cat filters w w' fun r => ∃ l, cs = some l ∧ ∀ c ∈ l, c.holds cat r = true := by
  intro filters
  induction filters with
  | nil =>
    rintro - w w' a ⟨rfl, rfl⟩
    exact ⟨some [], rfl, by simp, fun r _ _ => ⟨[], rfl, by simp⟩⟩
  | cons ft fts ih =>
    intro hvalid w w' a h
    rw [List.forall_mem_cons] at hvalid
    rw [readFilters_cons_of_valid hvalid.1, Reading.ends_bind] at h
    obtain ⟨d, w₁, hd, h⟩ := h
    obtain ⟨hlater, rfl⟩ := Reading.ends_now.mp hd
    split at h
    · next hno =>
      -- no id matches: the row of an early string would have had one
      obtain ⟨rfl, rfl⟩ := h
      refine ⟨none, rfl, by simp, fun r _ hr => ?_⟩
      have hfalse := conditionOf_holds_of_isEmpty (r := r) hno
      rw [conditionOf_later hlater (hr ft List.mem_cons_self)] at hfalse
      cases hfalse
    · obtain ⟨_, hrest, rfl⟩ := Reading.ends_map.mp h
      obtain ⟨cs, rfl, hsound, hcomplete⟩ := ih hvalid.2 w₁ w' _ hrest
      refine ⟨_, rfl, ?_, ?_⟩
      · rintro r ⟨l, hl, hall⟩
        obtain ⟨l', rfl, rfl⟩ := Option.map_eq_some_iff.mp hl
        rw [List.forall_mem_cons] at hall ⊢
        exact ⟨conditionOf_later (.of_ends hrest) hall.1, hsound r ⟨l', rfl, hall.2⟩⟩
      · intro r hfit hr
        rw [List.forall_mem_cons] at hr
        obtain ⟨l', rfl, hl'⟩ := hcomplete r (hfit.later hlater)
          fun ft' hft' => conditionOf_later hlater (hr.2 ft' hft')
        exact ⟨_, rfl, List.forall_mem_cons.mpr ⟨conditionOf_later hlater hr.1, hl'⟩⟩

theorem clauseOf_holds {cs : Option (List Condition)} {r : LogRow} :
    (clauseOf cs).holds cat r = true ↔ ∃ l, cs = some l ∧ ∀ c ∈ l, c.holds cat r = true := by
  match cs with
  | none => simp [clauseOf, WhereClause.holds]
  | some [] => simp [clauseOf, WhereClause.holds]
  | some (c :: cs) => simp [clauseOf, WhereClause.holds]

/-- The clause of a query, while the writer works. -/
theorem readClause_later {filters : List QueryFilter} (hvalid : ∀ ft ∈ filters, ft.Valid cat)
    {w w' : WriterDatabase} {a : Except Bytes WhereClause}
    (h : (readClause cat filters).Ends (Later cat) w a w') : ∃ clause, a = .ok clause ∧
      ReadFor cat filters w w' fun r => clause.holds cat r = true := by
  obtain ⟨_, hcs, rfl⟩ := Reading.ends_map.mp h
  obtain ⟨cs, rfl, hread⟩ := readFilters_later filters hvalid w w' _ hcs
  refine ⟨clauseOf cs, rfl, ?_⟩
  simpa only [clauseOf_holds] using hread

/-! ### The rows -/

/-- A value of a row that fits is decoded in the same way ever after. -/
theorem decodeValue_stable (hint : CompressedAreIntegers cat) {w w' : WriterDatabase}
    (hw : Readable cat w) (h : Later cat w w') {r : LogRow} (hfit : Fits cat w.colDict r)
    {ci : ColumnInfo} (hci : ci ∈ cat.logColumnInfo)
    (hkey : ci.isPk = true → cat.compressedColumns.contains ci.name = false) :
    decodeValue cat w'.colDict ci.name (r.value ci) =
      decodeValue cat w.colDict ci.name (r.value ci) := by
  cases hcomp : cat.compressedColumns.contains ci.name with
  | false => rw [decodeValue_plain hcomp, decodeValue_plain hcomp]
  | true =>
    have hins : ci ∈ cat.insertColumns := by
      refine List.mem_filter.mpr ⟨hci, ?_⟩
      cases hpk : ci.isPk with
      | false => rfl
      | true => exact absurd (hcomp.symm.trans (hkey hpk)) (by decide)
    have hhere := decodeValue_compressed hint (hfit.sound hw) List.mem_cons_self hins hcomp
    have hthere := decodeValue_compressed hint ((hfit.later h).sound (h.readable hw))
      List.mem_cons_self hins hcomp
    exact hthere.trans hhere.symm

variable (cat) in
/-- Every value of the row is decoded in the same way from the moment `w` on. -/
def DecodesAlike (w : WriterDatabase) (fields : List ColumnName) (r : LogRow) : Prop :=
  ∀ f ∈ fields, ∀ ci, cat.column f = some ci → ∀ w', Later cat w w' →
    decodeValue cat w'.colDict f (r.value ci) = decodeValue cat w.colDict f (r.value ci)

theorem readRow_settled {w : WriterDatabase} {r : LogRow} : ∀ (fields : List ColumnName)
    (row : List (Bytes × Json)), DecodesAlike cat w fields r →
      (readRow cat r fields row).Settled (Later cat) w (decodeRow cat w.colDict r fields row) := by
  intro fields
  induction fields with
  | nil => exact fun row _ => .done _
  | cons f fs ih =>
    intro row h
    obtain ⟨hf, hfs⟩ := List.forall_mem_cons.mp h
    unfold readRow decodeRow
    cases hci : cat.column f with
    | none => exact .done _
    | some ci =>
      have hnow : (Reading.now fun v : WriterDatabase =>
          decodeValue cat v.colDict f (r.value ci)).Settled (Later cat) w
            (decodeValue cat w.colDict f (r.value ci)) :=
        .now later_trans (hf ci hci)
      exact hnow.andThen Later.refl later_trans fun v => ih _ hfs

theorem readRows_settled {w : WriterDatabase} {fields : List ColumnName} : ∀ page : List LogRow,
    (∀ r ∈ page, DecodesAlike cat w fields r) →
      (readRows cat fields page).Settled (Later cat) w (queryRows cat w.colDict fields page) := by
  intro page
  induction page with
  | nil => exact fun _ => .done _
  | cons r rs ih =>
    intro h
    obtain ⟨hr, hrs⟩ := List.forall_mem_cons.mp h
    exact (readRow_settled fields [] hr).andThen Later.refl later_trans
      fun row => (ih hrs).map _

/-! ### The answer -/

variable (cat) in
/-- Of the rows that the filters select at the moment `u`, `sel` has those that were
there at the moment `w`, and maybe others. -/
structure SelectedSince (filters : List QueryFilter) (w u : WriterDatabase)
    (sel : List LogRow) : Prop where
  sublist : sel.Sublist (matching cat u.colDict filters u.seen.log)
  complete : ∀ r ∈ matching cat u.colDict filters u.seen.log, r ∈ w.seen.log → r ∈ sel

/-- What a clause selects at a later moment. -/
theorem ReadFor.selected (hint : CompressedAreIntegers cat) {filters : List QueryFilter}
    (hvalid : ∀ ft ∈ filters, ft.Valid cat) {w w' u : WriterDatabase} (hw : Readable cat w)
    (hww' : Later cat w w') (hu : Later cat w' u) {clause : WhereClause}
    (h : ReadFor cat filters w w' fun r => clause.holds cat r = true) :
    SelectedSince cat filters w u (u.seen.log.filter (clause.holds cat)) where
  sublist := by
    refine List.monotone_filter_right _ fun r hr => ?_
    rw [selects_iff hvalid]
    exact fun ft hft => conditionOf_later hu (h.sound r hr ft hft)
  complete := by
    intro r hr hstart
    rw [matching, List.mem_filter, selects_iff hvalid] at hr
    refine List.mem_filter.mpr ⟨hr.1, h.complete r (hw.fits hstart) fun ft hft => ?_⟩
    exact (conditionOf_stable hint hw (hww'.trans hu) (hw.fits hstart)).mp (hr.2 ft hft)

section
variable {w w' : WriterDatabase} {orderBy : ColumnName} {filters : List QueryFilter}
  {limit offset : ℤ} {fields eff : List ColumnName} {a : Except Bytes PaginatedQueryResult}

variable (cat orderBy limit offset) in
/-- The rows of the `SELECT` may be these: a page of some of the matching rows of the
moment `u`, among them all that were there at the moment `w`. -/
def PageSince (filters : List QueryFilter) (w u : WriterDatabase) (page : List LogRow) : Prop :=
  ∃ ci sel sorted, cat.column orderBy = some ci ∧ SelectedSince cat filters w u sel ∧
    sorted.Perm sel ∧ Descending ci sorted ∧ page = limited limit offset sorted

variable (cat orderBy limit offset) in
/-- The answer of a query that began at the moment `w`: there is a total, read at the
moment `v`; and if it is not zero, there are rows of a moment `u`, decoded by the
dictionary of this moment. -/
def AnswersSince (filters : List QueryFilter) (eff : List ColumnName) (w v u : WriterDatabase)
    (ans : PaginatedQueryResult) : Prop :=
  ∃ counted page, SelectedSince cat filters w v counted ∧
    ans.total = (if filters.isEmpty then toInt32 (estimateLogRowCount v.seen.log)
      else toInt32 counted.length) ∧
    (if ans.total = 0 then page = [] else PageSince cat orderBy limit offset filters w u page) ∧
    queryRows cat u.colDict eff page = .ok ans.results

/-- The fields of a page of committed rows are decoded alike from that moment on. -/
theorem decodesAlike_of_seen (hint : CompressedAreIntegers cat)
    (hkey : ∀ ci ∈ cat.logColumnInfo, ci.name ∈ eff → ci.isPk = true →
      cat.compressedColumns.contains ci.name = false)
    {u : WriterDatabase} (hu : Readable cat u) {r : LogRow} (hr : r ∈ u.seen.log) :
    DecodesAlike cat u eff r := by
  intro f hf ci hci u' hlater
  obtain ⟨hmem, rfl⟩ := column_mem hci
  exact decodeValue_stable hint hu hlater (hu.fits hr) hmem (hkey ci hmem hf)

theorem PageSince.subset {u : WriterDatabase} {page : List LogRow}
    (h : PageSince cat orderBy limit offset filters w u page) :
    page ⊆ matching cat u.colDict filters u.seen.log := by
  obtain ⟨ci, sel, sorted, -, hsel, hperm, -, rfl⟩ := h
  intro r hr
  have hdrop : r ∈ sorted.drop offset.toNat := by
    unfold limited at hr
    split at hr
    · exact hr
    · exact List.mem_of_mem_take hr
  exact hsel.sublist.subset (hperm.mem_iff.mp (List.mem_of_mem_drop hdrop))

variable (cat orderBy limit offset) in
/-- The query answers so, or its limit is below zero and refused. -/
def AnswersOrRefuses (filters : List QueryFilter) (eff : List ColumnName) (w w' : WriterDatabase)
    (a : Except Bytes PaginatedQueryResult) : Prop :=
  (limit < 0 ∧ a = .error reserveRefused) ∨
    ∃ v u ans, Later cat w v ∧ Later cat v u ∧ Later cat u w' ∧ a = .ok ans ∧
      AnswersSince cat orderBy limit offset filters eff w v u ans

/-- The two statements and the loop over the rows, while the writer works. -/
theorem readAnswer_later (hint : CompressedAreIntegers cat)
    (hvalid : ∀ ft ∈ filters, ft.Valid cat) (heff : effectiveFields cat fields = .ok eff)
    (hkey : ∀ ci ∈ cat.logColumnInfo, ci.name ∈ eff → ci.isPk = true →
      cat.compressedColumns.contains ci.name = false)
    {w₁ : WriterDatabase} (hw : Readable cat w) (hww₁ : Later cat w w₁) {clause : WhereClause}
    (hread : ReadFor cat filters w w₁ fun r => clause.holds cat r = true)
    (h : (readAnswer cat orderBy filters limit offset eff clause).Ends (Later cat) w₁ a w') :
    AnswersOrRefuses cat orderBy limit offset filters eff w w' a := by
  obtain ⟨total, v, htotal, h⟩ := Reading.ends_bind.mp h
  obtain ⟨hv, htotal⟩ := Reading.ends_now.mp htotal
  have hcounted := hread.selected hint hvalid hw hww₁ hv
  split at h
  · next hzero =>
    obtain ⟨rfl, rfl⟩ := h
    refine .inr ⟨w', w', _, hww₁.trans hv, .refl w', .refl w', rfl, _, [], hcounted, htotal, ?_,
      rfl⟩
    exact (if_pos hzero).mpr rfl
  split at h
  · next hlimit =>
    obtain ⟨rfl, rfl⟩ := h
    exact .inl ⟨hlimit, rfl⟩
  · next hzero _ =>
    obtain ⟨page, u, hpage, h⟩ := Reading.ends_bind.mp h
    obtain ⟨u', page', hu, ⟨ci, sorted, hci, hperm, hdesc, hlimited⟩, hpage', hu'⟩ := hpage
    obtain rfl := hpage'
    obtain rfl := hu'
    have hsel : PageSince cat orderBy limit offset filters w u page :=
      ⟨ci, _, sorted, hci, hread.selected hint hvalid hw hww₁ (hv.trans hu), hperm, hdesc, hlimited⟩
    obtain ⟨rows, hrows, rfl⟩ := Reading.ends_map.mp h
    have hu_readable : Readable cat u := ((hww₁.trans hv).trans hu).readable hw
    have hseen : ∀ r ∈ page, r ∈ u.seen.log := fun r hr =>
      (List.mem_filter.mp (hsel.subset hr)).1
    have hsettled := readRows_settled page fun r hr =>
      decodesAlike_of_seen hint hkey hu_readable (hseen r hr)
    obtain rfl := hsettled u rows w' (.refl u) hrows
    obtain ⟨results, hresults, -⟩ := queryRows_forall₂ (P := fun _ _ => True) page fun r hr => by
      obtain ⟨obj, hobj, -⟩ := exists_decodeRow hint hu_readable.seen (hseen r hr) heff hkey
      exact ⟨obj, hobj, trivial⟩
    rw [show queryRows cat u.colDict eff page = .ok results from hresults]
    refine .inr ⟨v, u, _, hww₁.trans hv, hu, .of_ends hrows, rfl, _, page, hcounted, htotal, ?_,
      hresults⟩
    exact (if_neg hzero).mpr hsel

/-- A query with valid filters and fields, while the writer works. -/
theorem readQuery_later (hint : CompressedAreIntegers cat)
    (hvalid : ∀ ft ∈ filters, ft.Valid cat) (heff : effectiveFields cat fields = .ok eff)
    (hkey : ∀ ci ∈ cat.logColumnInfo, ci.name ∈ eff → ci.isPk = true →
      cat.compressedColumns.contains ci.name = false) (hw : Readable cat w)
    (h : (readQuery cat orderBy filters limit offset fields).Ends (Later cat) w a w') :
    AnswersOrRefuses cat orderBy limit offset filters eff w w' a := by
  simp only [readQuery, heff] at h
  rcases Reading.ends_andThen.mp h with ⟨clause, w₁, hclause, h⟩ | ⟨e, he, -⟩
  · obtain ⟨clause', heq, hread⟩ := readClause_later hvalid hclause
    obtain rfl := Except.ok.inj heq
    exact readAnswer_later hint hvalid heff hkey hw (.of_ends hclause) hread h
  · obtain ⟨clause', heq, -⟩ := readClause_later hvalid he
    cases heq

variable (cat) in
/-- In the compressed columns the object has the values of the log of the row. -/
def AsLogged (eff : List ColumnName) (r : LogRow) (obj : Json) : Prop :=
  ∀ ci ∈ cat.insertColumns, ci.name ∈ eff → cat.compressedColumns.contains ci.name = true →
    obj.find ci.name = returnedValue cat ci (r.source.find ci.name)

/-- **A query never fails on a value that it cannot decode, whatever the writer does in
the meantime, and in the compressed columns it answers with the values that were
logged.**  The one way to fail is a limit below zero. -/
theorem readQuery_decodes (hint : CompressedAreIntegers cat)
    (hvalid : ∀ ft ∈ filters, ft.Valid cat) (heff : effectiveFields cat fields = .ok eff)
    (hkey : ∀ ci ∈ cat.logColumnInfo, ci.name ∈ eff → ci.isPk = true →
      cat.compressedColumns.contains ci.name = false) (hw : Later cat .fresh w)
    (h : (readQuery cat orderBy filters limit offset fields).Ends (Later cat) w a w') :
    (limit < 0 ∧ a = .error reserveRefused) ∨
      ∃ u ans page, Later cat w u ∧ Later cat u w' ∧ a = .ok ans ∧ page ⊆ u.seen.log ∧
        List.Forall₂ (AsLogged cat eff) page ans.results := by
  have hreadable : Readable cat w := hw.readable (sound_fresh.readable rfl)
  rcases readQuery_later hint hvalid heff hkey hreadable h with
    hrefused | ⟨v, u, ans, hv, hu, hw', rfl, counted, page, -, -, hpage, hrows⟩
  · exact .inl hrefused
  have hseen : page ⊆ u.seen.log := by
    split at hpage
    · rw [hpage]
      exact List.nil_subset _
    · exact fun r hr => (List.mem_filter.mp (hpage.subset hr)).1
  refine .inr ⟨u, ans, page, hv.trans hu, hw', rfl, hseen, ?_⟩
  have husound := ((hv.trans hu).readable hreadable).seen
  obtain ⟨results, hresults, hall⟩ := queryRows_forall₂ (P := AsLogged cat eff) page fun r hr => by
    obtain ⟨obj, hobj, hfind⟩ := exists_decodeRow hint husound (hseen hr) heff hkey
    refine ⟨obj, hobj, fun ci hci hmem hcomp => ?_⟩
    have hvalue := hfind ci (List.mem_of_mem_filter hci) hmem
    exact Except.ok.inj (hvalue.symm.trans
      (decodeValue_compressed hint husound (hseen hr) hci hcomp))
  obtain rfl := Except.ok.inj (hrows.symm.trans hresults)
  exact hall

/-- **The rows of a query are rows of one committed moment, decoded by the dictionary of
that moment; all of them meet the filters, and none is missing that was there when the
query began.**  A limit below zero may be refused. -/
theorem readQuery_selects (hint : CompressedAreIntegers cat)
    (hvalid : ∀ ft ∈ filters, ft.Valid cat) (heff : effectiveFields cat fields = .ok eff)
    (hkey : ∀ ci ∈ cat.logColumnInfo, ci.name ∈ eff → ci.isPk = true →
      cat.compressedColumns.contains ci.name = false) (hw : Later cat .fresh w)
    (h : (readQuery cat orderBy filters limit offset fields).Ends (Later cat) w a w') :
    AnswersOrRefuses cat orderBy limit offset filters eff w w' a :=
  readQuery_later hint hvalid heff hkey (hw.readable (sound_fresh.readable rfl)) h

end

end

/-! ### A row inserted in the middle -/

/-- The row of the log of this level, whose id is also that of the string. -/
def levelRow (id : ℤ) (s : String) : LogRow := ⟨id, [(lit "level", .integer id)], levelLog s⟩

/-- The entry of this level. -/
def levelEntry (s : String) (id : ValueId) : DictRow :=
  persistedRow levelCatalog.platform (lit "level") (lit s) id

/-- The database with one log. -/
def infoDb : WriterDatabase :=
  ⟨⟨⟨[levelRow 1 "INFO"], [levelEntry "INFO" 1]⟩, none⟩,
    ((∅ : LookupTable).touch (lit "level")).put (lit "level") (lit "INFO") 1⟩

/-- The database with one more. -/
def bothDb : WriterDatabase :=
  ⟨⟨⟨[levelRow 1 "INFO", levelRow 2 "ERROR"], [levelEntry "INFO" 1, levelEntry "ERROR" 2]⟩, none⟩,
    (infoDb.colDict.touch (lit "level")).put (lit "level") (lit "ERROR") 2⟩

theorem infoDb_later : Later levelCatalog .fresh infoDb :=
  have hstep : WriterStep levelCatalog .fresh (.insert .none [levelLog "INFO"]) infoDb :=
    .inl ⟨_, rfl⟩
  hstep.later

theorem bothDb_later : Later levelCatalog infoDb bothDb :=
  have hstep : WriterStep levelCatalog infoDb (.insert .none [levelLog "ERROR"]) bothDb :=
    .inl ⟨_, rfl⟩
  hstep.later

/-- All levels but `WARN`. -/
def notWarn : QueryFilter := ⟨lit "level", lit "!=", .string (lit "WARN")⟩

/-- The second log comes between the look at the dictionary and the statements. -/
theorem notWarn_ends :
    (readQuery levelCatalog (lit "level") [notWarn] 10 0 [lit "level"]).Ends (Later levelCatalog)
      infoDb (.ok ⟨1, 0, 10, [levelLog "INFO"]⟩) bothDb := by
  refine ⟨infoDb, infoDb.colDict, .refl _, rfl, ?_⟩
  refine ⟨bothDb, 1, bothDb_later, by decide, ?_⟩
  refine ⟨bothDb, [levelRow 1 "INFO"], .refl _,
    ⟨_, [levelRow 1 "INFO"], rfl, .refl _, List.pairwise_singleton _ _, rfl⟩, ?_⟩
  exact ⟨bothDb, .ok (.string (lit "INFO")), .refl _, rfl, rfl, rfl⟩

theorem compressedAreIntegers_level : CompressedAreIntegers levelCatalog := by
  intro ci hci _
  have hmem : ci ∈ [(⟨lit "level", lit "INTEGER", false, false, by decide⟩ : ColumnInfo)] := hci
  rw [List.mem_singleton.mp hmem]
  decide

theorem notWarn_valid : ∀ ft ∈ [notWarn], ft.Valid levelCatalog := by
  intro ft hft
  rw [List.mem_singleton.mp hft]
  exact ⟨by decide, by decide⟩

theorem plainKeys_level : ∀ ci ∈ levelCatalog.logColumnInfo, ci.name ∈ [lit "level"] →
    ci.isPk = true → levelCatalog.compressedColumns.contains ci.name = false := by
  intro ci hci hname hpk
  simp only [levelCatalog, levelColumns, List.mem_cons, List.not_mem_nil, or_false] at hci
  rcases hci with rfl | rfl
  · exact absurd (List.mem_singleton.mp hname) (by decide)
  · cases hpk

/-- The row that was there is decoded. -/
theorem readQuery_decodes_notWarn : ((10 : ℤ) < 0 ∧
      (.ok ⟨1, 0, 10, [levelLog "INFO"]⟩ : Except Bytes PaginatedQueryResult) =
        .error reserveRefused) ∨
    ∃ u ans page, Later levelCatalog infoDb u ∧ Later levelCatalog u bothDb ∧
      (.ok ⟨1, 0, 10, [levelLog "INFO"]⟩ : Except Bytes PaginatedQueryResult) = .ok ans ∧
      page ⊆ u.seen.log ∧ List.Forall₂ (AsLogged levelCatalog [lit "level"]) page ans.results :=
  readQuery_decodes compressedAreIntegers_level notWarn_valid rfl plainKeys_level infoDb_later
    notWarn_ends

/-- It is selected, and the new one, which matches as well, is not. -/
theorem readQuery_selects_notWarn : AnswersOrRefuses levelCatalog (lit "level") 10 0 [notWarn]
    [lit "level"] infoDb bothDb (.ok ⟨1, 0, 10, [levelLog "INFO"]⟩) :=
  readQuery_selects compressedAreIntegers_level notWarn_valid rfl plainKeys_level infoDb_later
    notWarn_ends

end LogLite
