import LogLite.Lib.Rounding
import LogLite.Vacuum.Stale
import Mathlib.Data.Rat.Floor
import Mathlib.Tactic.FieldSimp
import Mathlib.Tactic.Linarith

/-!
# Deleting logs of a database that is too large

`remove_excessive_logs` takes the part of the database that should go, `(size - target) /
size`, for the part of the span of ids that should go, counted from the smallest id; a
pass with a budget stops at as many rows as the budget divided by the average size of a
row.  What is deleted is every row up to the id computed so.

The code computes the ratio in doubles.  How the result of an operation is rounded is a
parameter here, so that a statement can be made of exact ratios too.  The ids are 64-bit
integers, and where an operation on them leaves that range the behaviour of the pass is
undefined.

## Main definitions

* `exactly`, `toBinary64` — exact results, and those of doubles.
* `excessMaxId` — the last id a pass deletes, if it is defined.
* `removeExcessiveLogs` — `remove_excessive_logs`.
* `NoOverflow` — all operations on ids stay in range.

## Main results

* `excessMaxId_eq_some_iff` — the id, as the smaller one of two bounds.
* `removeExcessiveLogs_of_some` — what a pass deletes.
-/

namespace LogLite

/-! ### Numbers -/

/-- No rounding. -/
def exactly (q : ℚ) : ℚ := q

/-- The double nearest to the exact result of an operation.  The numbers here are far from
where doubles overflow or are subnormal. -/
def toBinary64 (q : ℚ) : ℚ := Rounding.nearest 53 q

theorem toBinary64_mono {x y : ℚ} (h : x ≤ y) : toBinary64 x ≤ toBinary64 y :=
  Rounding.nearest_mono (by decide) h

/-- An integer of at most 53 bits is a double. -/
theorem toBinary64_intCast {n : ℤ} (h : n.natAbs < 2 ^ 53) : toBinary64 n = n :=
  Rounding.nearest_intCast h

/-- `static_cast<int64_t>` of a rational: towards zero. -/
def truncate (q : ℚ) : ℤ := if 0 ≤ q then ⌊q⌋ else ⌈q⌉

theorem truncate_nonpos {q : ℚ} (h : q ≤ 0) : truncate q ≤ 0 := by
  unfold truncate
  split_ifs
  · exact Int.floor_nonpos h
  · exact Int.ceil_nonpos.mpr h

theorem truncate_lt {q : ℚ} {n : ℤ} (h : q < n) (hn : 0 < n) : truncate q < n := by
  unfold truncate
  split_ifs with hq
  · exact Int.floor_lt.mpr h
  · exact (Int.ceil_nonpos.mpr (not_le.mp hq).le).trans_lt hn

theorem one_le_truncate_iff {q : ℚ} : 1 ≤ truncate q ↔ 1 ≤ q := by
  unfold truncate
  split_ifs with hq
  · rw [Int.le_floor, Int.cast_one]
  · have hceil := Int.ceil_nonpos.mpr (not_le.mp hq).le
    refine iff_of_false (by omega) ?_
    linarith [not_le.mp hq]

/-- A signed 64-bit result. -/
def checked (n : ℤ) : Option ℤ := if fitsInt64 n then some n else none

theorem checked_bind_eq_some {α : Type} {n : ℤ} {f : ℤ → Option α} {a : α} :
    (checked n).bind f = some a ↔ fitsInt64 n = true ∧ f n = some a := by
  unfold checked
  by_cases h : fitsInt64 n = true <;> simp [h]

section
variable (rnd : ℚ → ℚ)

/-- `bytes_to_mb`. -/
def bytesToMb (bytes : ℤ) : ℚ := rnd (rnd bytes / (1024 * 1024))

/-- The part of the database that should go. -/
def excessRatio (dbMb targetMb : ℚ) : ℚ := rnd (rnd (dbMb - targetMb) / dbMb)

/-- The part of the span that should go. -/
def excessRows (dbSize : ℕ) (target rowcnt : ℤ) : ℚ :=
  rnd (rnd rowcnt * excessRatio rnd (bytesToMb rnd dbSize) (bytesToMb rnd target))

end

/-- A larger size is not fewer megabytes. -/
theorem bytesToMb_mono {m n : ℤ} (h : m ≤ n) : bytesToMb toBinary64 m ≤ bytesToMb toBinary64 n := by
  have hle : (m : ℚ) ≤ n := by exact_mod_cast h
  refine toBinary64_mono ?_
  rw [div_le_div_iff_of_pos_right (by norm_num)]
  exact toBinary64_mono hle

/-! ### The pass -/

section
variable (rnd : ℚ → ℚ) (dbSize : ℕ) (target limitMb : ℤ) (rows : List LogRow)

/-- The span of the ids. -/
def idSpan : ℤ := getMaxLogId rows - getMinLogId rows + 1

/-- How many ids of the span should go. -/
def cutRows : ℤ := truncate (excessRows rnd dbSize target (idSpan rows))

/-- How many rows the budget is good for. -/
def budgetRows : ℤ := (limitMb * 1024 * 1024).tdiv (estimateAvgRowBytes dbSize rows)

/-- The last id the pass deletes.  The ratio is not a number if the size is zero. -/
def excessMaxId : Option ℤ :=
  if dbSize = 0 then none
  else
    (checked (getMaxLogId rows - getMinLogId rows)).bind fun difference =>
    (checked (difference + 1)).bind fun rowcnt =>
    (checked (truncate (excessRows rnd dbSize target rowcnt))).bind fun cut =>
    (checked (getMinLogId rows + cut)).bind fun next =>
    (checked (next - 1)).bind fun removeMaxId =>
      if 0 < limitMb then
        (checked (getMinLogId rows + budgetRows dbSize limitMb rows)).bind fun next =>
        (checked (next - 1)).bind fun budgetMaxId => some (min removeMaxId budgetMaxId)
      else some removeMaxId

/-- The operations on ids stay in range. -/
structure NoOverflow : Prop where
  size : dbSize ≠ 0
  difference : fitsInt64 (getMaxLogId rows - getMinLogId rows) = true
  span : fitsInt64 (idSpan rows) = true
  cut : fitsInt64 (cutRows rnd dbSize target rows) = true
  next : fitsInt64 (getMinLogId rows + cutRows rnd dbSize target rows) = true
  last : fitsInt64 (getMinLogId rows + cutRows rnd dbSize target rows - 1) = true
  budget : 0 < limitMb → fitsInt64 (getMinLogId rows + budgetRows dbSize limitMb rows) = true ∧
    fitsInt64 (getMinLogId rows + budgetRows dbSize limitMb rows - 1) = true

/-- The last id of a pass, if nothing overflows. -/
def lastId : ℤ :=
  if 0 < limitMb then
    min (getMinLogId rows + cutRows rnd dbSize target rows - 1)
      (getMinLogId rows + budgetRows dbSize limitMb rows - 1)
  else getMinLogId rows + cutRows rnd dbSize target rows - 1

variable {rnd dbSize target limitMb rows}

/-- **The last id of a pass** is the smaller one of its bounds, if nothing overflows. -/
theorem excessMaxId_eq_some_iff {id : ℤ} : excessMaxId rnd dbSize target limitMb rows = some id ↔
    NoOverflow rnd dbSize target limitMb rows ∧ id = lastId rnd dbSize target limitMb rows := by
  unfold excessMaxId lastId
  by_cases hsize : dbSize = 0
  · rw [if_pos hsize]
    exact iff_of_false (by simp) fun h => h.1.size hsize
  rw [if_neg hsize]
  simp only [checked_bind_eq_some]
  by_cases hlimit : 0 < limitMb
  · simp only [if_pos hlimit, checked_bind_eq_some, Option.some.injEq]
    constructor
    · rintro ⟨hdiff, hspan, hcut, hnext, hlast, hbnext, hblast, rfl⟩
      exact ⟨⟨hsize, hdiff, hspan, hcut, hnext, hlast, fun _ => ⟨hbnext, hblast⟩⟩, rfl⟩
    · rintro ⟨h, rfl⟩
      exact ⟨h.difference, h.span, h.cut, h.next, h.last, (h.budget hlimit).1,
        (h.budget hlimit).2, rfl⟩
  · simp only [if_neg hlimit, Option.some.injEq]
    constructor
    · rintro ⟨hdiff, hspan, hcut, hnext, hlast, rfl⟩
      exact ⟨⟨hsize, hdiff, hspan, hcut, hnext, hlast, fun h => absurd h hlimit⟩, rfl⟩
    · rintro ⟨h, rfl⟩
      exact ⟨h.difference, h.span, h.cut, h.next, h.last, rfl⟩

theorem fitsInt64_lastId (h : NoOverflow rnd dbSize target limitMb rows) :
    fitsInt64 (lastId rnd dbSize target limitMb rows) = true := by
  unfold lastId
  split_ifs with hlimit
  · rcases min_choice (getMinLogId rows + cutRows rnd dbSize target rows - 1)
      (getMinLogId rows + budgetRows dbSize limitMb rows - 1) with hmin | hmin
    · rw [hmin]
      exact h.last
    · rw [hmin]
      exact (h.budget hlimit).2
  · exact h.last

theorem lastId_le : lastId rnd dbSize target limitMb rows ≤
    getMinLogId rows + cutRows rnd dbSize target rows - 1 := by
  unfold lastId
  split_ifs
  · exact min_le_left _ _
  · exact le_rfl

theorem getMinLogId_le {r : LogRow} (h : r ∈ rows) : getMinLogId rows ≤ r.id := by
  unfold getMinLogId
  have hmem : r.id ∈ rows.map (·.id) := List.mem_map_of_mem h
  cases hmin : (rows.map (·.id)).min? with
  | none =>
    rw [List.min?_eq_none_iff] at hmin
    rw [hmin] at hmem
    cases hmem
  | some m => exact (List.min?_eq_some_iff.mp hmin).2 _ hmem

/-- The smallest id is the id of a row, if there is a row. -/
theorem exists_eq_getMinLogId (h : rows ≠ []) : ∃ r ∈ rows, r.id = getMinLogId rows := by
  unfold getMinLogId
  cases hmin : (rows.map (·.id)).min? with
  | none =>
    rw [List.min?_eq_none_iff, List.map_eq_nil_iff] at hmin
    exact absurd hmin h
  | some m =>
    obtain ⟨r, hr, hid⟩ := List.mem_map.mp (List.min?_eq_some_iff.mp hmin).1
    exact ⟨r, hr, hid⟩

theorem idSpan_pos : 0 < idSpan rows := by
  have hle : getMinLogId rows ≤ getMaxLogId rows := by
    by_cases h : rows = []
    · rw [h]
      decide
    · obtain ⟨r, hr, heq⟩ := exists_eq_getMaxLogId h
      exact heq ▸ getMinLogId_le hr
  unfold idSpan
  omega

theorem estimateAvgRowBytes_pos : 0 < estimateAvgRowBytes dbSize rows := by
  unfold estimateAvgRowBytes
  have hnonneg : 0 ≤ (dbSize : ℤ).tdiv (max 1 (estimateLogRowCount rows)) :=
    Int.tdiv_nonneg (Int.natCast_nonneg _) (le_max_of_le_left Int.one_nonneg)
  dsimp only
  split_ifs with h
  · exact Int.one_pos
  · omega

/-- The budget is good for a row. -/
theorem one_le_budgetRows_iff (hlimit : 0 < limitMb) : 1 ≤ budgetRows dbSize limitMb rows ↔
    estimateAvgRowBytes dbSize rows ≤ limitMb * 1024 * 1024 := by
  unfold budgetRows
  rw [Int.tdiv_eq_ediv_of_nonneg (by omega), Int.le_ediv_iff_mul_le estimateAvgRowBytes_pos,
    one_mul]

end

/-! ### What a pass deletes -/

section
variable (rnd : ℚ → ℚ) (cat : DatabaseCatalog) (fault : Option DeleteFault) (dbSize : ℕ)
  (maxSize target limitMb : ℤ) (w : WriterDatabase)

/-- `remove_excessive_logs`, of a database of this size: the number of deleted rows. -/
def removeExcessiveLogs : Outcome WriterDatabase Bytes ℕ :=
  if bytesToMb rnd dbSize ≤ bytesToMb rnd maxSize then .ret w 0
  else
    match excessMaxId rnd dbSize target limitMb w.log with
    | none => .undefined
    | some id => deleteLogs cat fault [⟨lit "id", lit "<=", .integer id⟩] w

variable {rnd cat fault dbSize maxSize target limitMb w}

theorem removeExcessiveLogs_of_le (h : bytesToMb rnd dbSize ≤ bytesToMb rnd maxSize) :
    removeExcessiveLogs rnd cat fault dbSize maxSize target limitMb w = .ret w 0 := by
  unfold removeExcessiveLogs
  rw [if_pos h]

theorem removeExcessiveLogs_of_lt (h : bytesToMb rnd maxSize < bytesToMb rnd dbSize) :
    removeExcessiveLogs rnd cat fault dbSize maxSize target limitMb w =
      match excessMaxId rnd dbSize target limitMb w.log with
      | none => .undefined
      | some id => deleteLogs cat fault [⟨lit "id", lit "<=", .integer id⟩] w := by
  unfold removeExcessiveLogs
  rw [if_neg (not_le.mpr h)]

/-- The behaviour of a pass with an overflow is not defined. -/
theorem removeExcessiveLogs_of_overflow (h : bytesToMb rnd maxSize < bytesToMb rnd dbSize)
    (hover : ¬ NoOverflow rnd dbSize target limitMb w.log) :
    removeExcessiveLogs rnd cat fault dbSize maxSize target limitMb w = .undefined := by
  rw [removeExcessiveLogs_of_lt h]
  cases hid : excessMaxId rnd dbSize target limitMb w.log with
  | none => rfl
  | some id => exact absurd (excessMaxId_eq_some_iff.mp hid).1 hover

theorem idFilter_valid (hid : cat.HasRowId) (id : ℤ) :
    ∀ ft ∈ [(⟨lit "id", lit "<=", .integer id⟩ : QueryFilter)], ft.Valid cat := by
  have hop : allowedOps.contains (lit "<=") = true := by decide
  intro ft hft
  obtain rfl := List.mem_singleton.mp hft
  exact ⟨hid.knows, hop⟩

/-- The filter of the pass selects the rows up to the id. -/
theorem selects_idFilter (hid : cat.HasRowId) {d : LookupTable} {id : ℤ}
    (hfits : fitsInt64 id = true) (r : LogRow) :
    selects cat d [⟨lit "id", lit "<=", .integer id⟩] r = decide (r.id ≤ id) := by
  rw [Bool.eq_iff_iff, selects_iff (idFilter_valid hid id), List.forall_mem_singleton,
    holds_id_iff hid rfl (by decide) hfits]
  simp only [Cmp.holds, bne_iff_ne, ne_eq, compare_gt_iff_gt, not_lt, decide_eq_true_eq]

/-- **What a pass deletes**: the rows up to its last id, unless the `DELETE` fails. -/
theorem removeExcessiveLogs_of_some (hid : cat.HasRowId)
    (h : bytesToMb rnd maxSize < bytesToMb rnd dbSize)
    (hover : NoOverflow rnd dbSize target limitMb w.log) :
    removeExcessiveLogs rnd cat none dbSize maxSize target limitMb w =
      .ret { w with conn.db.log :=
          w.log.filter fun r => lastId rnd dbSize target limitMb w.log < r.id }
        (w.log.filter fun r => r.id ≤ lastId rnd dbSize target limitMb w.log).length := by
  rw [removeExcessiveLogs_of_lt h, excessMaxId_eq_some_iff.mpr ⟨hover, rfl⟩]
  dsimp only
  rw [deleteLogs_valid (idFilter_valid hid _)]
  simp only [selects_idFilter hid (fitsInt64_lastId hover), ← decide_not, not_le]

theorem removeExcessiveLogs_of_fault (hid : cat.HasRowId)
    (h : bytesToMb rnd maxSize < bytesToMb rnd dbSize)
    (hover : NoOverflow rnd dbSize target limitMb w.log) (fault : DeleteFault) :
    ∃ what, removeExcessiveLogs rnd cat (some fault) dbSize maxSize target limitMb w =
      .throw w what := by
  rw [removeExcessiveLogs_of_lt h, excessMaxId_eq_some_iff.mpr ⟨hover, rfl⟩]
  exact deleteLogs_fault (idFilter_valid hid _)

end

/-- A table with rows of these ids. -/
def tableOf (ids : List ℤ) : WriterDatabase :=
  ⟨⟨⟨ids.map fun id => stampRow id "2024-01-01T00:00:00", []⟩, none⟩, ∅⟩

end LogLite
