import LogLite.Vacuum.Excess

/-!
# Size vacuum makes progress

A pass deletes a row if a whole row of the span should go and the budget is good for one.
Both are quotients that may be below one.  The share of the span is computed in doubles:
for a database of at most `2 ^ 52` bytes this makes a difference only where the exact share is one
row, and the doubles may then come to less.

## Main definitions

* `MakesProgress` — a pass deletes a row.
* `WholeRow` — a whole row of the span should go.

## Main results

* `one_le_excessRows_iff` — the share in doubles, in terms of integers.
* `makes_progress_iff` — **when a pass over a database that is too large deletes a row.**
-/

namespace LogLite

/-! ### The share in doubles -/

/-- A whole row of the span should go: more than one, or exactly one that the doubles do
not miss. -/
def WholeRow (dbSize : ℕ) (target rowcnt : ℤ) : Prop :=
  dbSize < rowcnt * (dbSize - target) ∨
    (dbSize = rowcnt * (dbSize - target) ∧ 1 ≤ toBinary64 (rowcnt * toBinary64 (1 / rowcnt)))

instance (dbSize : ℕ) (target rowcnt : ℤ) : Decidable (WholeRow dbSize target rowcnt) :=
  inferInstanceAs (Decidable (_ ∨ _))

-- 49 times the double nearest to 1/49 is less than one
example : ¬ WholeRow 200704 196608 49 := by decide +kernel

theorem toBinary64_zero : toBinary64 0 = 0 := by
  simpa using toBinary64_intCast (n := 0) (by decide)

theorem toBinary64_one : toBinary64 1 = 1 := by
  simpa using toBinary64_intCast (n := 1) (by decide)

/-- An integer of at most 53 bits, in megabytes. -/
theorem toBinary64_div {n : ℤ} (h : n.natAbs < 2 ^ 53) :
    toBinary64 (n / (1024 * 1024)) = n / (1024 * 1024) := by
  have hdyadic : (n : ℚ) / (1024 * 1024) = n * 2 ^ (-20 : ℤ) := by
    rw [zpow_neg, ← div_eq_mul_inv]
    norm_num
  rw [hdyadic]
  exact Rounding.nearest_eq h

theorem bytesToMb_of_small {n : ℤ} (h : n.natAbs < 2 ^ 53) :
    bytesToMb toBinary64 n = n / (1024 * 1024) := by
  rw [bytesToMb, toBinary64_intCast h, toBinary64_div h]

section
variable {dbSize : ℕ} {target rowcnt : ℤ}

/-- No row should go if the target is not below the size. -/
theorem excessRows_lt_one_of_le (h : (dbSize : ℤ) ≤ target) (hrows : 0 < rowcnt) :
    excessRows toBinary64 dbSize target rowcnt < 1 := by
  have hmb : 0 ≤ bytesToMb toBinary64 dbSize := by
    have hzero : bytesToMb toBinary64 0 = 0 := by
      simpa using bytesToMb_of_small (n := 0) (by decide)
    rw [← hzero]
    exact bytesToMb_mono (by omega)
  have hdiff : toBinary64 (bytesToMb toBinary64 dbSize - bytesToMb toBinary64 target) ≤ 0 := by
    rw [← toBinary64_zero]
    exact toBinary64_mono (by linarith [bytesToMb_mono h])
  have hratio : excessRatio toBinary64 (bytesToMb toBinary64 dbSize)
      (bytesToMb toBinary64 target) ≤ 0 := by
    rw [← toBinary64_zero]
    exact toBinary64_mono (div_nonpos_of_nonpos_of_nonneg hdiff hmb)
  have hspan : 0 ≤ toBinary64 rowcnt := by
    rw [← toBinary64_zero]
    exact toBinary64_mono (by exact_mod_cast hrows.le)
  have hprod : excessRows toBinary64 dbSize target rowcnt ≤ 0 := by
    rw [← toBinary64_zero]
    exact toBinary64_mono (mul_nonpos_of_nonneg_of_nonpos hspan hratio)
  exact hprod.trans_lt one_pos

/-- At least the whole span should go if the target is not above zero. -/
theorem one_le_excessRows_of_nonpos (hsize : dbSize ≠ 0) (hle : dbSize ≤ 2 ^ 52)
    (h : target ≤ 0) (hrows : 0 < rowcnt) : 1 ≤ excessRows toBinary64 dbSize target rowcnt := by
  have hpos : (0 : ℚ) < dbSize := by exact_mod_cast Nat.pos_of_ne_zero hsize
  have hmb : bytesToMb toBinary64 dbSize = (dbSize : ℤ) / (1024 * 1024) :=
    bytesToMb_of_small (by simpa using by omega)
  have hmb_pos : 0 < bytesToMb toBinary64 dbSize := by
    rw [hmb, Int.cast_natCast]
    positivity
  have htarget : bytesToMb toBinary64 target ≤ 0 := by
    have hzero : bytesToMb toBinary64 0 = 0 := by
      simpa using bytesToMb_of_small (n := 0) (by decide)
    rw [← hzero]
    exact bytesToMb_mono h
  have hdiff : bytesToMb toBinary64 dbSize ≤
      toBinary64 (bytesToMb toBinary64 dbSize - bytesToMb toBinary64 target) := by
    calc bytesToMb toBinary64 dbSize = toBinary64 (bytesToMb toBinary64 dbSize) := by
          rw [hmb]
          exact (toBinary64_div (by simpa using by omega)).symm
      _ ≤ _ := toBinary64_mono (by linarith)
  have hratio : 1 ≤ excessRatio toBinary64 (bytesToMb toBinary64 dbSize)
      (bytesToMb toBinary64 target) := by
    rw [← toBinary64_one]
    exact toBinary64_mono ((one_le_div hmb_pos).mpr hdiff)
  have hspan : 1 ≤ toBinary64 rowcnt := by
    rw [← toBinary64_one]
    exact toBinary64_mono (by exact_mod_cast hrows)
  calc (1 : ℚ) = toBinary64 1 := toBinary64_one.symm
    _ ≤ excessRows toBinary64 dbSize target rowcnt :=
      toBinary64_mono (one_le_mul_of_one_le_of_one_le hspan hratio)

/-- With a target between zero and the size, only the quotient and the product are
rounded. -/
theorem excessRows_eq_of_between (hle : dbSize ≤ 2 ^ 52) (hpos : 0 < target)
    (hlt : target < dbSize) : excessRows toBinary64 dbSize target rowcnt =
      toBinary64 (toBinary64 rowcnt * toBinary64 (((dbSize : ℚ) - target) / dbSize)) := by
  have hsize : (0 : ℚ) < dbSize := by exact_mod_cast (by omega : 0 < dbSize)
  have hdiff : toBinary64 (((dbSize : ℤ) : ℚ) / (1024 * 1024) - target / (1024 * 1024)) =
      ((dbSize - target : ℤ) : ℚ) / (1024 * 1024) := by
    rw [← sub_div, ← Int.cast_sub]
    exact toBinary64_div (by omega)
  unfold excessRows excessRatio
  rw [bytesToMb_of_small (by simpa using by omega), bytesToMb_of_small (by omega), hdiff,
    Int.cast_sub, Int.cast_natCast]
  congr 3
  field_simp

/-- More rows than doubles tell apart: some of them should go. -/
theorem one_le_share_of_many {q : ℚ} (hq : 1 / 2 ^ 52 ≤ q) (hmany : 2 ^ 53 ≤ rowcnt) :
    1 ≤ toBinary64 (toBinary64 rowcnt * toBinary64 q) := by
  have hspan : 2 ^ 53 ≤ toBinary64 rowcnt := by
    have hpow : toBinary64 (2 ^ 53) = 2 ^ 53 := by
      simpa [toBinary64] using Rounding.nearest_eq (p := 53) (m := 1) (e := 53) (by decide)
    rw [← hpow]
    exact toBinary64_mono (by exact_mod_cast hmany)
  have hshare : 1 / 2 ^ 52 ≤ toBinary64 q := by
    have hpow : toBinary64 (1 / 2 ^ 52) = 1 / 2 ^ 52 := by
      simpa [toBinary64, zpow_neg] using
        Rounding.nearest_eq (p := 53) (m := 1) (e := -52) (by decide)
    rw [← hpow]
    exact toBinary64_mono hq
  calc (1 : ℚ) = toBinary64 1 := toBinary64_one.symm
    _ ≤ toBinary64 (toBinary64 rowcnt * toBinary64 q) := toBinary64_mono ?_
  calc (1 : ℚ) ≤ 2 ^ 53 * (1 / 2 ^ 52) := by norm_num
    _ ≤ toBinary64 rowcnt * toBinary64 q := mul_le_mul hspan hshare (by norm_num) (by linarith)

/-- A share of more than one row stays above one, and one of less below. -/
theorem share_rounded {q n size : ℚ} (hq : 0 < q) (hn : 0 < n) (hsize : 0 < size)
    (hle : size ≤ 2 ^ 52) :
    (1 + 1 / size ≤ n * q → 1 ≤ toBinary64 (n * toBinary64 q)) ∧
      (n * q ≤ 1 - 1 / size → toBinary64 (n * toBinary64 q) < 1) := by
  have herror := abs_le.mp (Rounding.abs_nearest_sub_le (p := 53) hq)
  have hinv : 1 / 2 ^ 52 ≤ 1 / size := one_div_le_one_div_of_le hsize hle
  have hlow : q * (1 - 1 / 2 ^ 53) ≤ toBinary64 q := by
    unfold toBinary64
    linarith [herror.1]
  have hhigh : toBinary64 q ≤ q * (1 + 1 / 2 ^ 53) := by
    unfold toBinary64
    linarith [herror.2]
  constructor
  · intro hmore
    rw [← toBinary64_one]
    refine toBinary64_mono ?_
    calc (1 : ℚ) ≤ (1 + 1 / 2 ^ 52) * (1 - 1 / 2 ^ 53) := by norm_num
      _ ≤ n * q * (1 - 1 / 2 ^ 53) := by
        refine mul_le_mul_of_nonneg_right ?_ (by norm_num)
        linarith
      _ = n * (q * (1 - 1 / 2 ^ 53)) := mul_assoc _ _ _
      _ ≤ n * toBinary64 q := mul_le_mul_of_nonneg_left hlow hn.le
  · intro hless
    -- the largest double below one
    have hbelow : toBinary64 (1 - 1 / 2 ^ 53) = 1 - 1 / 2 ^ 53 := by
      have hdyadic : (1 : ℚ) - 1 / 2 ^ 53 = ((2 ^ 53 - 1 : ℤ) : ℚ) * 2 ^ (-53 : ℤ) := by
        norm_num
      rw [hdyadic]
      exact Rounding.nearest_eq (by decide)
    calc toBinary64 (n * toBinary64 q) ≤ toBinary64 (1 - 1 / 2 ^ 53) := toBinary64_mono ?_
      _ < 1 := by
        rw [hbelow]
        norm_num
    calc n * toBinary64 q ≤ n * (q * (1 + 1 / 2 ^ 53)) := mul_le_mul_of_nonneg_left hhigh hn.le
      _ = n * q * (1 + 1 / 2 ^ 53) := (mul_assoc _ _ _).symm
      _ ≤ (1 - 1 / 2 ^ 52) * (1 + 1 / 2 ^ 53) := by
        refine mul_le_mul_of_nonneg_right ?_ (by norm_num)
        linarith
      _ ≤ 1 - 1 / 2 ^ 53 := by norm_num

/-- The share, with a target between zero and the size. -/
theorem one_le_share_iff (hle : dbSize ≤ 2 ^ 52) (hpos : 0 < target) (hlt : target < dbSize)
    (hrows : 0 < rowcnt) :
    1 ≤ toBinary64 (toBinary64 rowcnt * toBinary64 (((dbSize : ℚ) - target) / dbSize)) ↔
      WholeRow dbSize target rowcnt := by
  have hsize : (0 : ℚ) < dbSize := by exact_mod_cast (by omega : 0 < dbSize)
  have hsize_le : (dbSize : ℚ) ≤ 2 ^ 52 := by exact_mod_cast hle
  have hn : (0 : ℚ) < rowcnt := by exact_mod_cast hrows
  have hless : (1 : ℚ) ≤ dbSize - target := by
    have hstep : target + 1 ≤ dbSize := hlt
    have hcast : (target : ℚ) + 1 ≤ dbSize := by exact_mod_cast hstep
    linarith
  have hq : 0 < ((dbSize : ℚ) - target) / dbSize := div_pos (by linarith) hsize
  have hproduct : (rowcnt : ℚ) * (((dbSize : ℚ) - target) / dbSize) =
      ((rowcnt * (dbSize - target) : ℤ) : ℚ) / dbSize := by
    push_cast
    rw [mul_div_assoc]
  rcases Int.lt_or_le rowcnt (2 ^ 53) with hfew | hmany
  · rw [toBinary64_intCast (n := rowcnt) (by omega)]
    obtain ⟨hmore, hfewer⟩ := share_rounded hq hn hsize hsize_le
    unfold WholeRow
    rcases lt_trichotomy (dbSize : ℤ) (rowcnt * (dbSize - target)) with habove | hone | hbelow
    · refine iff_of_true (hmore ?_) (.inl habove)
      have hcast : (dbSize : ℚ) + 1 ≤ ((rowcnt * (dbSize - target) : ℤ) : ℚ) := by
        exact_mod_cast habove
      rw [hproduct, le_div_iff₀ hsize, add_mul, one_mul, one_div, inv_mul_cancel₀ hsize.ne']
      exact hcast
    · have hinv : ((dbSize : ℚ) - target) / dbSize = 1 / rowcnt := by
        rw [eq_div_iff hn.ne', mul_comm, hproduct, ← hone, Int.cast_natCast, div_self hsize.ne']
      rw [hinv]
      exact ⟨fun h => .inr ⟨hone, h⟩, fun h => (h.resolve_left (by omega)).2⟩
    · refine iff_of_false (not_le.mpr (hfewer ?_)) ?_
      · have hcast : ((rowcnt * (dbSize - target) : ℤ) : ℚ) + 1 ≤ dbSize := by
          exact_mod_cast hbelow
        rw [hproduct, div_le_iff₀ hsize, sub_mul, one_mul, one_div, inv_mul_cancel₀ hsize.ne']
        linarith
      · rintro (habove | ⟨hone, -⟩) <;> omega
  · refine iff_of_true (one_le_share_of_many ?_ hmany) (.inl ?_)
    · calc (1 : ℚ) / 2 ^ 52 ≤ 1 / dbSize := one_div_le_one_div_of_le hsize hsize_le
        _ ≤ ((dbSize : ℚ) - target) / dbSize := by
          rw [div_le_div_iff_of_pos_right hsize]
          exact hless
    · have hmul : rowcnt * 1 ≤ rowcnt * (dbSize - target) :=
        mul_le_mul_of_nonneg_left (by omega) hrows.le
      omega

/-- **The share in doubles, in terms of integers.** -/
theorem one_le_excessRows_iff (hsize : dbSize ≠ 0) (hle : dbSize ≤ 2 ^ 52) (hrows : 0 < rowcnt) :
    1 ≤ excessRows toBinary64 dbSize target rowcnt ↔ WholeRow dbSize target rowcnt := by
  rcases Int.lt_or_le target dbSize with hlt | hge
  · rcases Int.lt_or_le 0 target with hpos | hneg
    · rw [excessRows_eq_of_between hle hpos hlt]
      exact one_le_share_iff hle hpos hlt hrows
    · refine iff_of_true (one_le_excessRows_of_nonpos hsize hle hneg hrows) ?_
      have hmul : 1 * ((dbSize : ℤ) - target) ≤ rowcnt * (dbSize - target) :=
        mul_le_mul_of_nonneg_right hrows (by omega)
      rcases Int.lt_or_le (dbSize : ℤ) (rowcnt * (dbSize - target)) with hmore | hsame
      · exact .inl hmore
      · -- the only row, and a target of zero
        refine .inr ⟨by omega, ?_⟩
        have hone : rowcnt = 1 := by
          have htarget : target = 0 := by omega
          rw [htarget, sub_zero] at hsame
          have hdb : (0 : ℤ) < dbSize := by omega
          nlinarith
        rw [hone]
        norm_num [toBinary64_one]
  · refine iff_of_false (not_le.mpr (excessRows_lt_one_of_le hge hrows)) ?_
    have hmul : rowcnt * ((dbSize : ℤ) - target) ≤ 0 :=
      mul_nonpos_of_nonneg_of_nonpos hrows.le (by omega)
    rintro (habove | ⟨hone, -⟩) <;> omega

end

/-! ### Progress -/

section
variable (cat : DatabaseCatalog) (dbSize : ℕ) (maxSize target limitMb : ℤ) (w : WriterDatabase)

/-- A pass whose `DELETE` does not fail deletes a row. -/
def MakesProgress : Prop :=
  ∃ w' n, removeExcessiveLogs toBinary64 cat none dbSize maxSize target limitMb w = .ret w' n ∧
    0 < n ∧ w'.log.length < w.log.length

variable {cat dbSize maxSize target limitMb w}

/-- The row with the smallest id is up to the last id of the pass. -/
theorem getMinLogId_le_lastId_iff {rows : List LogRow} :
    getMinLogId rows ≤ lastId toBinary64 dbSize target limitMb rows ↔
      1 ≤ excessRows toBinary64 dbSize target (idSpan rows) ∧
        (0 < limitMb → estimateAvgRowBytes dbSize rows ≤ limitMb * 1024 * 1024) := by
  rw [← one_le_truncate_iff]
  unfold lastId cutRows
  by_cases hlimit : 0 < limitMb
  · rw [if_pos hlimit, ← one_le_budgetRows_iff hlimit, le_min_iff]
    have hcut : getMinLogId rows ≤ getMinLogId rows +
        truncate (excessRows toBinary64 dbSize target (idSpan rows)) - 1 ↔
          1 ≤ truncate (excessRows toBinary64 dbSize target (idSpan rows)) := by omega
    have hbudget : getMinLogId rows ≤ getMinLogId rows + budgetRows dbSize limitMb rows - 1 ↔
        1 ≤ budgetRows dbSize limitMb rows := by omega
    rw [hcut, hbudget]
    exact and_congr_right fun _ => (imp_iff_right hlimit).symm
  · rw [if_neg hlimit]
    constructor
    · exact fun h => ⟨by omega, fun hpos => absurd hpos hlimit⟩
    · exact fun h => by omega

/-- A pass deletes a row exactly if it deletes the one with the smallest id. -/
theorem makesProgress_iff_of_noOverflow (hid : cat.HasRowId) (hrows : w.log ≠ [])
    (hlt : bytesToMb toBinary64 maxSize < bytesToMb toBinary64 dbSize)
    (hover : NoOverflow toBinary64 dbSize target limitMb w.log) :
    MakesProgress cat dbSize maxSize target limitMb w ↔
      getMinLogId w.log ≤ lastId toBinary64 dbSize target limitMb w.log := by
  obtain ⟨first, hfirst, hmin⟩ := exists_eq_getMinLogId hrows
  unfold MakesProgress
  rw [removeExcessiveLogs_of_some hid hlt hover]
  constructor
  · rintro ⟨w', n, hret, hn, -⟩
    obtain ⟨-, rfl⟩ := Outcome.ret.inj hret
    obtain ⟨r, hr⟩ := List.exists_mem_of_length_pos hn
    rw [List.mem_filter, decide_eq_true_eq] at hr
    exact (getMinLogId_le hr.1).trans hr.2
  · intro hle
    refine ⟨_, _, rfl, List.length_pos_of_mem (List.mem_filter.mpr ⟨hfirst, ?_⟩), ?_⟩
    · exact decide_eq_true (hmin.trans_le hle)
    · rw [List.length_filter_lt_length_iff_exists]
      exact ⟨first, hfirst, by simpa [hmin] using hle⟩

/-- A pass with an overflow deletes no row that could be told of. -/
theorem not_makesProgress_of_overflow
    (hlt : bytesToMb toBinary64 maxSize < bytesToMb toBinary64 dbSize)
    (hover : ¬ NoOverflow toBinary64 dbSize target limitMb w.log) :
    ¬ MakesProgress cat dbSize maxSize target limitMb w := by
  rintro ⟨w', n, hret, -⟩
  rw [removeExcessiveLogs_of_overflow hlt hover] at hret
  cases hret

/-- When a pass deletes a row, with all the roundings. -/
theorem makesProgress_iff (hid : cat.HasRowId) (hrows : w.log ≠ []) :
    MakesProgress cat dbSize maxSize target limitMb w ↔
      NoOverflow toBinary64 dbSize target limitMb w.log ∧
        bytesToMb toBinary64 maxSize < bytesToMb toBinary64 dbSize ∧
        1 ≤ excessRows toBinary64 dbSize target (idSpan w.log) ∧
          (0 < limitMb → estimateAvgRowBytes dbSize w.log ≤ limitMb * 1024 * 1024) := by
  rcases le_or_gt (bytesToMb toBinary64 dbSize) (bytesToMb toBinary64 maxSize) with hle | hlt
  · refine iff_of_false ?_ fun h => absurd h.2.1 (not_lt.mpr hle)
    rintro ⟨w', n, hret, hn, -⟩
    rw [removeExcessiveLogs_of_le hle] at hret
    obtain ⟨-, rfl⟩ := Outcome.ret.inj hret
    exact absurd hn (Nat.lt_irrefl 0)
  by_cases hover : NoOverflow toBinary64 dbSize target limitMb w.log
  · rw [and_iff_right hover, and_iff_right hlt,
      makesProgress_iff_of_noOverflow hid hrows hlt hover, getMinLogId_le_lastId_iff]
  · exact iff_of_false (not_makesProgress_of_overflow hlt hover) fun h => hover h.1

/-- A size of at most 53 bits is told apart from a smaller one. -/
theorem bytesToMb_lt_of_lt (hle : dbSize ≤ 2 ^ 52) (hlt : maxSize < dbSize) :
    bytesToMb toBinary64 maxSize < bytesToMb toBinary64 dbSize := by
  have hmax : bytesToMb toBinary64 maxSize ≤ bytesToMb toBinary64 ((dbSize : ℤ) - 1) :=
    bytesToMb_mono (by omega)
  refine hmax.trans_lt ?_
  rw [bytesToMb_of_small (by omega), bytesToMb_of_small (by omega),
    div_lt_div_iff_of_pos_right (by norm_num)]
  have hless : (dbSize : ℤ) - 1 < dbSize := by omega
  exact_mod_cast hless

/-- **When a pass over a database that is too large makes progress**: with all the
roundings, and for a database of at most `2 ^ 52` bytes in terms of integers. -/
theorem makes_progress_iff (hid : cat.HasRowId) (hrows : w.log ≠ []) (hlt : maxSize < dbSize) :
    (MakesProgress cat dbSize maxSize target limitMb w ↔
      NoOverflow toBinary64 dbSize target limitMb w.log ∧
        bytesToMb toBinary64 maxSize < bytesToMb toBinary64 dbSize ∧
        1 ≤ excessRows toBinary64 dbSize target (idSpan w.log) ∧
          (0 < limitMb → estimateAvgRowBytes dbSize w.log ≤ limitMb * 1024 * 1024)) ∧
    (dbSize ≤ 2 ^ 52 → (MakesProgress cat dbSize maxSize target limitMb w ↔
      NoOverflow toBinary64 dbSize target limitMb w.log ∧
        WholeRow dbSize target (idSpan w.log) ∧
          (0 < limitMb → estimateAvgRowBytes dbSize w.log ≤ limitMb * 1024 * 1024))) := by
  refine ⟨makesProgress_iff hid hrows, fun hle => ?_⟩
  rw [makesProgress_iff hid hrows]
  refine and_congr_right fun hover => ?_
  rw [and_iff_right (bytesToMb_lt_of_lt hle hlt), one_le_excessRows_iff hover.size hle idSpan_pos]

end

/-- Half of the span of the ids 2, 5 and 9 goes. -/
theorem makes_progress_half : MakesProgress stampCatalog 8192 4096 4096 1 (tableOf [2, 5, 9]) := by
  have hmin : getMinLogId (tableOf [2, 5, 9]).log = 2 := by decide
  have hspan : idSpan (tableOf [2, 5, 9]).log = 8 := by decide
  have hcut : cutRows toBinary64 8192 4096 (tableOf [2, 5, 9]).log = 4 := by
    unfold cutRows
    rw [hspan]
    decide +kernel
  have hbudget : budgetRows 8192 1 (tableOf [2, 5, 9]).log = 1024 := by decide
  have hover : NoOverflow toBinary64 8192 4096 1 (tableOf [2, 5, 9]).log := by
    refine ⟨by decide, by decide, by rw [hspan]; decide, by rw [hcut]; decide,
      by rw [hmin, hcut]; decide, by rw [hmin, hcut]; decide, fun _ => ?_⟩
    rw [hmin, hbudget]
    decide
  have hwhole : WholeRow 8192 4096 (idSpan (tableOf [2, 5, 9]).log) := by
    rw [hspan]
    exact .inl (by decide)
  exact ((makes_progress_iff stampCatalog_hasRowId (by decide) (by decide)).2 (by decide)).mpr
    ⟨hover, hwhole, fun _ => by decide⟩

/-- Half of one row is no row: the only log stays, whatever the size is. -/
theorem no_progress_one_row :
    ¬ MakesProgress stampCatalog 8192 4096 4096 0 (tableOf [1]) := by
  intro h
  have hspan : idSpan (tableOf [1]).log = 1 := by decide
  obtain ⟨-, -, hone, -⟩ := (makesProgress_iff stampCatalog_hasRowId (by decide)).mp h
  rw [hspan, one_le_excessRows_iff (by decide) (by decide) (by decide)] at hone
  rcases hone with hmore | ⟨hsame, -⟩
  · exact absurd hmore (by decide)
  · exact absurd hsame (by decide)

end LogLite
