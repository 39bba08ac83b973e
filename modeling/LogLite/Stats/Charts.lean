import LogLite.Base.SqlOrder
import LogLite.Http.Filters
import LogLite.Stats.Prune

/-!
# The charts of the statistics

The dashboard asks for the statistics of the last hours and draws what it gets in the order of
time.  Its window ends now and begins one to twenty-four hours earlier; the server refuses a
window of more than a day, and compares times as texts.  The dashboard writes times as
`format_utc` does, so the texts sort as the times.

## Main definitions

* `toISOString` — how the dashboard writes a time.
* `getStatsTimeWindow`, `fetchStatsParams` — the request.
* `transformRows` — `transformStats`, for either table.
* `recordedFrom` — the rows that were recorded from one millisecond to another.
* `Charted` — records of these rows, in the order of time.

## Main results

* `toISOString_eq` — the dashboard and the server write times alike.
* `stats_charts_exact` — **the server never refuses the request, and the charts have the rows
  of the window in the order of time.**
-/

namespace LogLite

/-! ### The request -/

/-- The year in `toISOString`: four digits, or a sign and six. -/
def isoYear (year : ℤ) : Bytes :=
  if 0 ≤ year ∧ year ≤ 9999 then padded 4 year
  else (if year < 0 then lit "-" else lit "+") ++ padded 6 |year|

/-- `Date.prototype.toISOString`, of milliseconds since 1970. -/
def toISOString (ms : ℤ) : Bytes :=
  let date := Calendar.date (ms / 86400000)
  isoYear date.year ++ lit "-" ++ padded 2 date.month ++ lit "-" ++ padded 2 date.day ++ lit "T" ++
    timeOfDay (ms % 86400000 / 1000) ++ lit "." ++ padded 3 (ms % 1000) ++ lit "Z"

example : toISOString 1704067200000 = lit "2024-01-01T00:00:00.000Z" := by decide

/-- `TimeRange`. -/
inductive TimeRange where
  | oneHour
  | threeHours
  | sixHours
  | twelveHours
  | oneDay
  deriving DecidableEq

/-- `RANGE_MS`. -/
def TimeRange.ms : TimeRange → ℤ
  | .oneHour => 60 * 60 * 1000
  | .threeHours => 3 * 60 * 60 * 1000
  | .sixHours => 6 * 60 * 60 * 1000
  | .twelveHours => 12 * 60 * 60 * 1000
  | .oneDay => 24 * 60 * 60 * 1000

/-- `getStatsTimeWindow`. -/
def getStatsTimeWindow (range : TimeRange) (now : ℤ) : Bytes × Bytes :=
  (toISOString (now - range.ms), toISOString now)

/-- The parameters of `fetchStats`. -/
def fetchStatsParams (window : Bytes × Bytes) : List (Bytes × Bytes) :=
  [(lit "since", window.1), (lit "until", window.2), (lit "activity_stats_fields", lit "*"),
    (lit "database_stats_fields", lit "*"), (lit "ordering", lit "desc")]

/-! ### The answer -/

/-- `record[field] = row[idx]`, for each field; a row has a value for each. -/
def statRecord (fields : List ColumnName) (row : List Json) : List (Bytes × Json) :=
  (fields.zip row).foldl (fun record p => setProperty p.1 (fun _ => p.2) record) []

/-- `transformStats`, for one of the tables. -/
def transformRows (result : StatsQueryResult) : List (List (Bytes × Json)) :=
  (result.data.map (statRecord result.fields)).reverse

open Classical in
/-- The rows that were recorded from one millisecond to another. -/
noncomputable def recordedFrom (P : Platform) (t : StatsTable) (first last : ℤ) : List StatsRow :=
  t.rows.filter fun r => decide (∃ tp, fitsInt64 tp = true ∧
    r.value t.timeColumn = storedTime P tp ∧ first ≤ tp / 1000000 ∧ tp / 1000000 ≤ last)

/-- The record has the row's values, by the names of the columns. -/
def RecordOf (t : StatsTable) (r : StatsRow) (record : List (Bytes × Json)) : Prop :=
  ∀ col ∈ t.columns, record.lookup col = some (columnToJson (r.value col))

/-- A row was recorded no later than another one. -/
def NoLater (P : Platform) (t : StatsTable) (a b : StatsRow) : Prop :=
  ∀ tp tp', fitsInt64 tp = true → fitsInt64 tp' = true → a.value t.timeColumn = storedTime P tp →
    b.value t.timeColumn = storedTime P tp' → tp / 1000000 ≤ tp' / 1000000

/-- The records are those of the rows of the window, each once, in the order of time. -/
def Charted (P : Platform) (t : StatsTable) (first last : ℤ)
    (records : List (List (Bytes × Json))) : Prop :=
  ∃ shown : List StatsRow, shown.Perm (recordedFrom P t first last) ∧
    shown.Pairwise (NoLater P t) ∧ List.Forall₂ (RecordOf t) shown records

/-- `from_stream` reads a time in UTC with a fraction of its second. -/
def ReadsMilliseconds (lib : DateLib) : Prop :=
  ∀ k, firstMs < k → k ≤ lastMs → lib.fromStream (lit "%FT%TZ") (msText k) = some (k * 1000000, [])

/-! ### Times -/

section
variable {k : ℤ}

/-- **The dashboard and the server write times alike.** -/
theorem toISOString_eq (hk : firstMs ≤ k ∧ k ≤ lastMs) : toISOString k = msText k := by
  have hyear := FourDigits.year (s := k / 1000) (by unfold FourDigits firstMs lastMs at *; omega)
  rw [show k / 1000 / 86400 = k / 86400000 by omega] at hyear
  have hdate : isoYear (Calendar.date (k / 86400000)).year =
      padded 4 (Calendar.date (k / 86400000)).year := if_pos (by omega)
  unfold toISOString msText formatUtc isoSeconds dateText
  dsimp only
  rw [hdate, show k * 1000000 / 1000000000 / 86400 = k / 86400000 by omega,
    show k * 1000000 / 1000000000 % 86400 = k % 86400000 / 1000 by omega,
    show k * 1000000 % 1000000000 / 1000000 = k % 1000 by omega]

theorem mem_digits {w : ℕ} {n : ℤ} {b : UInt8} (hb : b ∈ padded w n) :
    ∃ d : ℤ, 0 ≤ d ∧ d < 10 ∧ b = digitByte d := by
  unfold padded at hb
  induction w generalizing n with
  | zero => cases hb
  | succ w ih =>
    rw [FixedWidth.digits, List.mem_append, List.mem_singleton] at hb
    rcases hb with hb | rfl
    · exact ih hb
    · exact ⟨n % 10, by omega, by omega, rfl⟩

theorem isSpace_padded {w : ℕ} {n : ℤ} {b : UInt8} (hb : b ∈ padded w n) : isSpace b = false := by
  obtain ⟨d, hlow, hhigh, rfl⟩ := mem_digits hb
  have hdigits : ∀ d ∈ List.range 10, isSpace (digitByte (d : ℕ)) = false := by decide
  have hd := hdigits d.toNat (List.mem_range.mpr (by omega))
  rwa [Int.toNat_of_nonneg hlow] at hd

theorem isSpace_separator {s : Bytes} (h : s.any isSpace = false) : ∀ b ∈ s, isSpace b = false := by
  intro b hb
  rw [List.any_eq_false] at h
  exact Bool.eq_false_iff.mpr (h b hb)

/-- A time has no blanks. -/
theorem isSpace_msText : ∀ b ∈ msText k, isSpace b = false := by
  simp only [msText, formatUtc, isoSeconds, dateText, timeOfDay, List.forall_mem_append]
  and_intros
  all_goals first | exact fun b hb => isSpace_padded hb | exact isSpace_separator (by decide)

theorem stripSpaces_of_no_blanks {s : Bytes} (h : ∀ b ∈ s, isSpace b = false) :
    stripSpaces s = s := by
  have hdrop : ∀ s : Bytes, (∀ b ∈ s, isSpace b = false) → s.dropWhile isSpace = s := by
    intro s hs
    cases s with
    | nil => rfl
    | cons b s => rw [List.dropWhile_cons_of_neg (by simp [hs b List.mem_cons_self])]
  have hreverse : ∀ b ∈ s.reverse, isSpace b = false := fun b hb => h b (List.mem_reverse.mp hb)
  rw [stripSpaces, hdrop s h, hdrop _ hreverse, List.reverse_reverse]

variable {lib : DateLib}

/-- The server reads the time. -/
theorem parseIso8601_msText (hlib : ReadsMilliseconds lib) (hk : firstMs < k ∧ k ≤ lastMs) :
    parseIso8601 lib (msText k) = some (k * 1000000) := by
  unfold parseIso8601
  dsimp only
  rw [stripSpaces_of_no_blanks isSpace_msText,
    if_pos (List.contains_iff_mem.mpr (mem_msText k)), isoFormats, List.findSome?_cons,
    hlib k hk.1 hk.2]
  rfl

variable {range : TimeRange} {now : ℤ}

theorem TimeRange.ms_pos (range : TimeRange) : 0 < range.ms ∧ range.ms ≤ 86400000 := by
  cases range <;> decide

/-- **The window is accepted.** -/
theorem statsWindow_msText (hlib : ReadsMilliseconds lib) (hfirst : firstMs < now - range.ms)
    (hlast : now ≤ lastMs) : statsWindow lib (msText (now - range.ms)) (msText now) =
      .ok ((now - range.ms) * 1000000, now * 1000000) := by
  obtain ⟨hpos, hday⟩ := range.ms_pos
  have hwrap : toInt64 (now * 1000000 - (now - range.ms) * 1000000) = range.ms * 1000000 := by
    rw [show now * 1000000 - (now - range.ms) * 1000000 = range.ms * 1000000 by omega,
      toInt64_eq_self_iff, fitsInt64_iff]
    omega
  unfold statsWindow
  rw [parseIso8601_msText hlib ⟨hfirst, by omega⟩, parseIso8601_msText hlib ⟨by omega, hlast⟩]
  dsimp only
  rw [if_neg (by omega), hwrap, if_neg (by omega)]

end

/-! ### Rows -/

section
variable {P : Platform} {t : StatsTable} {first last : ℤ}

/-- All columns are asked for. -/
theorem queryStats_all (sinceStr untilStr ordering : Bytes) :
    queryStats P t sinceStr untilStr [lit "*"] ordering = .ok ⟨t.columns,
      (statsRows P t sinceStr untilStr ordering).map fun r =>
        t.columns.map fun col => columnToJson (r.value col)⟩ := by
  have hknown : (t.columns.find? fun f => !t.columns.contains f) = none := by
    rw [List.find?_eq_none]
    intro col hcol
    rw [List.contains_iff_mem.mpr hcol]
    decide
  unfold queryStats StatsTable.resolved
  dsimp only
  rw [if_pos (.inr rfl), hknown]

/-- The members of a record, in any order they are assigned. -/
theorem lookup_foldl_assign {col : Bytes} : ∀ {members record : List (Bytes × Json)},
    (members.map Prod.fst).Nodup →
      (members.foldl (fun record p => setProperty p.1 (fun _ => p.2) record) record).lookup col =
        (members.lookup col).or (record.lookup col)
  | [], _, _ => rfl
  | (name, v) :: members, record, hnodup => by
    obtain ⟨hnew, hrest⟩ := List.nodup_cons.mp hnodup
    rw [List.foldl_cons, lookup_foldl_assign hrest, lookup_setProperty, lookup_cons_eq]
    by_cases hcol : col = name
    · have hnone : members.lookup col = none := by
        rw [List.lookup_eq_none_iff]
        intro p hp
        rw [bne_iff_ne]
        intro heq
        exact hnew (List.mem_map.mpr ⟨p, hp, heq.symm.trans hcol⟩)
      rw [if_pos hcol, if_pos hcol, hnone]
      rfl
    · rw [if_neg hcol, if_neg hcol]

/-- **The record of a row.** -/
theorem recordOf_statRecord (hnodup : t.columns.Nodup) (r : StatsRow) :
    RecordOf t r (statRecord t.columns (t.columns.map fun col => columnToJson (r.value col))) := by
  have hzip : ∀ columns : List ColumnName,
      columns.zip (columns.map fun col => columnToJson (r.value col)) =
        columns.map fun col => (col, columnToJson (r.value col)) := by
    intro columns
    induction columns with
    | nil => rfl
    | cons col columns ih => rw [List.map_cons, List.zip_cons_cons, ih, List.map_cons]
  have hlookup : ∀ columns : List ColumnName, ∀ col ∈ columns,
      (columns.map fun col => (col, columnToJson (r.value col))).lookup col =
        some (columnToJson (r.value col)) := by
    intro columns
    induction columns with
    | nil =>
      intro col hcol
      cases hcol
    | cons name columns ih =>
      intro col hcol
      rw [List.map_cons, lookup_cons_eq]
      by_cases heq : col = name
      · rw [if_pos heq, heq]
      · rw [if_neg heq]
        exact ih col ((List.mem_cons.mp hcol).resolve_left heq)
  have hkeys : ((t.columns.map fun col => (col, columnToJson (r.value col))).map Prod.fst).Nodup :=
    by simpa [Function.comp_def] using hnodup
  intro col hcol
  rw [statRecord, hzip, lookup_foldl_assign hkeys, hlookup _ col hcol]
  rfl

/-- **The statement selects the rows of the window.** -/
theorem filter_inWindow (hfirst : firstMs < first) (hle : first ≤ last) (hlast : last ≤ lastMs)
    (hrows : ∀ r ∈ t.rows, Recorded P t.timeColumn r) :
    (t.rows.filter fun r => inWindow P (msText first) (msText last) (r.value t.timeColumn)) =
      recordedFrom P t first last := by
  classical
  apply List.filter_congr
  intro r hr
  obtain ⟨tp, htp, hvalue⟩ := hrows r hr
  have hms : firstMs ≤ tp / 1000000 ∧ tp / 1000000 ≤ lastMs := by
    rw [fitsInt64_iff] at htp
    unfold firstMs lastMs
    omega
  have hbounds : inWindow P (msText first) (msText last) (r.value t.timeColumn) = true ↔
      first ≤ tp / 1000000 ∧ tp / 1000000 ≤ last := by
    rw [hvalue, inWindow_storedTime (mem_msText first) (mem_msText last),
      compare_msText ⟨hfirst.le, by omega⟩ hms, compare_msText hms ⟨by omega, hlast⟩,
      Std.isLE_compare, Std.isLE_compare]
  rw [Bool.eq_iff_iff, hbounds, decide_eq_true_iff]
  constructor
  · intro h
    exact ⟨tp, htp, hvalue, h⟩
  · rintro ⟨tp', htp', hvalue', h⟩
    rwa [storedTime_inj htp htp' (hvalue.symm.trans hvalue')]

/-- The later rows come first. -/
theorem pairwise_statsRows (sinceStr untilStr : Bytes) :
    (statsRows P t sinceStr untilStr (lit "desc")).Pairwise fun a b =>
      (SqlValue.compareWith (a.value t.timeColumn) (b.value t.timeColumn)).isGE = true := by
  have hbefore : ∀ a b, t.before (lit "desc") a b =
      (SqlValue.compareWith (a.value t.timeColumn) (b.value t.timeColumn)).isGE := by
    intro a b
    have hdesc : lit "desc" ≠ lit "asc" := by decide
    unfold StatsTable.before
    rw [if_neg hdesc]
  have htrans : ∀ a b c, t.before (lit "desc") a b = true → t.before (lit "desc") b c = true →
      t.before (lit "desc") a c = true := by
    intro a b c hab hbc
    rw [hbefore] at hab hbc ⊢
    exact Std.TransCmp.isGE_trans hab hbc
  have htotal : ∀ a b, (t.before (lit "desc") a b || t.before (lit "desc") b a) = true := by
    intro a b
    rw [hbefore, hbefore, SqlValue.compareWith_swap]
    cases SqlValue.compareWith (b.value t.timeColumn) (a.value t.timeColumn) <;> decide
  have hsorted := List.pairwise_mergeSort htrans htotal
    (t.rows.filter fun r => inWindow P sinceStr untilStr (r.value t.timeColumn))
  refine hsorted.imp fun {a b} h => ?_
  rwa [hbefore] at h

/-- Rows that sort by their times were recorded in this order. -/
theorem noLater_of_isGE {a b : StatsRow}
    (h : (SqlValue.compareWith (b.value t.timeColumn) (a.value t.timeColumn)).isGE = true) :
    NoLater P t a b := by
  intro tp tp' htp htp' ha hb
  rw [fitsInt64_iff] at htp htp'
  have htexts : SqlValue.compareWith (b.value t.timeColumn) (a.value t.timeColumn) =
      compare (tp' / 1000000) (tp / 1000000) := by
    rw [ha, hb, storedTime_eq, storedTime_eq, ← compare_msText (by unfold firstMs lastMs; omega)
      (by unfold firstMs lastMs; omega)]
    rfl
  rwa [htexts, Std.isGE_compare] at h

/-- **What one of the charts shows.** -/
theorem charted_statsRows (hnodup : t.columns.Nodup) (hfirst : firstMs < first)
    (hle : first ≤ last) (hlast : last ≤ lastMs)
    (hrows : ∀ r ∈ t.rows, Recorded P t.timeColumn r) :
    Charted P t first last (transformRows ⟨t.columns,
      (statsRows P t (msText first) (msText last) (lit "desc")).map fun r =>
        t.columns.map fun col => columnToJson (r.value col)⟩) := by
  refine ⟨(statsRows P t (msText first) (msText last) (lit "desc")).reverse, ?_, ?_, ?_⟩
  · rw [← filter_inWindow hfirst hle hlast hrows]
    exact (List.reverse_perm _).trans (List.mergeSort_perm _ _)
  · rw [List.pairwise_reverse]
    exact (pairwise_statsRows _ _).imp noLater_of_isGE
  · rw [transformRows, List.map_map, ← List.map_reverse, List.forall₂_map_right_iff,
      List.forall₂_same]
    intro r hr
    exact recordOf_statRecord hnodup r

theorem nodup_columns_activityStats (rows : List StatsRow) :
    (activityStats rows).columns.Nodup := by
  show (activityStats []).columns.Nodup
  decide

theorem nodup_columns_databaseStats (rows : List StatsRow) :
    (databaseStats rows).columns.Nodup := by
  show (databaseStats []).columns.Nodup
  decide

end

/-! ### The charts -/

section
variable {P : Platform} {lib : DateLib} {range : TimeRange} {now : ℤ}
  {activity database : List StatsRow} {params : List (Bytes × Bytes)}

/-- What the server reads of the request. -/
theorem lookup_fetchStats {since until_ : Bytes} (hparams : params.Perm
    (parseQueryString (formEncode (fetchStatsParams (since, until_))))) (k : Bytes) :
    params.lookup k = (fetchStatsParams (since, until_)).lookup k := by
  rw [parseQueryString_formEncode] at hparams
  have hkeys : ((fetchStatsParams (since, until_)).map Prod.fst).Nodup := by
    show [lit "since", lit "until", lit "activity_stats_fields", lit "database_stats_fields",
      lit "ordering"].Nodup
    decide
  exact lookup_eq_of_perm hkeys hparams k

/-- **The charts of the statistics.**  Where the window is inside the range of the clock, the
server accepts it, and each chart has the rows that were recorded in it, in the order of
time. -/
theorem stats_charts_exact (hlib : ReadsMilliseconds lib) (hfirst : firstMs < now - range.ms)
    (hlast : now ≤ lastMs) (hactivity : ∀ r ∈ activity, Recorded P (lit "until") r)
    (hdatabase : ∀ r ∈ database, Recorded P (lit "timestamp") r)
    (hparams : params.Perm
      (parseQueryString (formEncode (fetchStatsParams (getStatsTimeWindow range now))))) :
    ∃ activities databases,
      handleStats P lib (activityStats activity) (databaseStats database) params =
        .ok (activities, databases) ∧
      Charted P (activityStats activity) (now - range.ms) now (transformRows activities) ∧
      Charted P (databaseStats database) (now - range.ms) now (transformRows databases) := by
  obtain ⟨hpos, -⟩ := range.ms_pos
  have hlookup := lookup_fetchStats hparams
  rw [toISOString_eq ⟨hfirst.le, by omega⟩, toISOString_eq ⟨by omega, hlast⟩] at hlookup
  have hsince : params.lookup (lit "since") = some (msText (now - range.ms)) := hlookup _
  have huntil : params.lookup (lit "until") = some (msText now) := hlookup _
  have hactivities : params.lookup (lit "activity_stats_fields") = some (lit "*") := hlookup _
  have hdatabases : params.lookup (lit "database_stats_fields") = some (lit "*") := hlookup _
  have hordering : params.lookup (lit "ordering") = some (lit "desc") := hlookup _
  have hrequired : ([lit "since", lit "until", lit "activity_stats_fields",
      lit "database_stats_fields"].find? fun p => (params.lookup p).isNone) = none := by
    rw [List.find?_eq_none]
    intro p hp
    rw [List.mem_cons, List.mem_cons, List.mem_cons, List.mem_singleton] at hp
    rcases hp with rfl | rfl | rfl | rfl
    · rw [hsince]
      exact Bool.false_ne_true
    · rw [huntil]
      exact Bool.false_ne_true
    · rw [hactivities]
      decide
    · rw [hdatabases]
      decide
  refine ⟨_, _, ?_, charted_statsRows (nodup_columns_activityStats _) hfirst (by omega) hlast
    hactivity, charted_statsRows (nodup_columns_databaseStats _) hfirst (by omega) hlast hdatabase⟩
  unfold handleStats
  dsimp only
  rw [hrequired, hsince, huntil, hactivities, hdatabases, hordering]
  dsimp only [Option.getD_some]
  rw [if_neg (by decide), statsWindow_msText hlib hfirst hlast]
  dsimp only
  rw [show splitFields (lit "*") = [lit "*"] from if_pos rfl, queryStats_all, queryStats_all]

end

/-! ### The first hour of New Year's Day -/

open Classical in
/-- A library that reads what the dashboard writes. -/
noncomputable def millisecondLib : DateLib where
  fromStream := fun fmt t =>
    if h : fmt = lit "%FT%TZ" ∧ ∃ k, firstMs < k ∧ k ≤ lastMs ∧ t = msText k then
      some (h.2.choose * 1000000, [])
    else none
  fits := by
    intro fmt t tp rest h
    split at h
    · next hread =>
      cases h
      obtain ⟨hfirst, hlast, -⟩ := hread.2.choose_spec
      rw [fitsInt64_iff]
      unfold firstMs lastMs at *
      omega
    · cases h

theorem readsMilliseconds_millisecondLib : ReadsMilliseconds millisecondLib := by
  intro k hfirst hlast
  have hread : lit "%FT%TZ" = lit "%FT%TZ" ∧
      ∃ k', firstMs < k' ∧ k' ≤ lastMs ∧ msText k = msText k' := ⟨rfl, k, hfirst, hlast, rfl⟩
  obtain ⟨hfirst', hlast', htext⟩ := hread.2.choose_spec
  have hsame : hread.2.choose = k := by
    have hcompare : compare (msText k) (msText hread.2.choose) = .eq :=
      (congrArg (compare (msText k)) htext).symm.trans Std.ReflCmp.compare_self
    rw [compare_msText ⟨hfirst.le, hlast⟩ ⟨hfirst'.le, hlast'⟩, compare_eq_iff_eq] at hcompare
    exact hcompare.symm
  unfold millisecondLib
  dsimp only
  rw [dif_pos hread, hsame]

/-- A row of half past midnight, and one of noon. -/
def newYearRows : List StatsRow :=
  [[(lit "until", storedTime levelCatalog.platform 1704069000000000000)],
    [(lit "until", storedTime levelCatalog.platform 1704110400000000000)]]

theorem recorded_newYearRows :
    ∀ r ∈ newYearRows, Recorded levelCatalog.platform (lit "until") r := by
  intro r hr
  rcases List.mem_cons.mp hr with rfl | hr
  · exact ⟨1704069000000000000, by decide, rfl⟩
  · cases List.mem_singleton.mp hr
    exact ⟨1704110400000000000, by decide, rfl⟩

theorem stats_charts_newYear : ∃ activities databases,
    handleStats levelCatalog.platform millisecondLib (activityStats newYearRows) (databaseStats [])
      (parseQueryString (formEncode
        (fetchStatsParams (getStatsTimeWindow .oneHour 1704070800000)))) =
      .ok (activities, databases) ∧
    Charted levelCatalog.platform (activityStats newYearRows)
      (1704070800000 - TimeRange.oneHour.ms) 1704070800000 (transformRows activities) ∧
    Charted levelCatalog.platform (databaseStats []) (1704070800000 - TimeRange.oneHour.ms)
      1704070800000 (transformRows databases) :=
  stats_charts_exact readsMilliseconds_millisecondLib (by decide) (by decide) recorded_newYearRows
    (fun r hr => absurd hr List.not_mem_nil) (List.Perm.refl _)

end LogLite
