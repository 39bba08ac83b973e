import LogLite.Vacuum.Excess

/-!
# Size vacuum keeps the newest rows

With exact ratios, as far as the operations on ids stay in range: a pass deletes the rows
up to some id, none if none should go, and never the newest one if the target is above
zero.

## Main definitions

* `KeepsNewest` — what is expected of a pass.

## Main results

* `cutRows_eq_tdiv` — how many ids of the span go, without fractions.
* `keeps_newest_iff` — **a pass keeps the newest rows, exactly if nothing overflows.**
-/

namespace LogLite

/-! ### Exact shares -/

section
variable {dbSize : ℕ} {target limitMb : ℤ} {rows : List LogRow}

theorem bytesToMb_le_iff {m n : ℤ} : bytesToMb exactly m ≤ bytesToMb exactly n ↔ m ≤ n := by
  unfold bytesToMb exactly
  rw [div_le_div_iff_of_pos_right (by norm_num), Int.cast_le]

theorem bytesToMb_lt_iff {m n : ℤ} : bytesToMb exactly m < bytesToMb exactly n ↔ m < n := by
  rw [← not_le, bytesToMb_le_iff, not_le]

/-- The part of the span, without the megabytes. -/
theorem excessRows_eq (hsize : dbSize ≠ 0) (rowcnt : ℤ) : excessRows exactly dbSize target rowcnt =
    rowcnt * (((dbSize : ℚ) - target) / dbSize) := by
  have hne : (dbSize : ℚ) ≠ 0 := by exact_mod_cast hsize
  unfold excessRows excessRatio bytesToMb exactly
  push_cast
  field_simp

/-- The cast of a quotient is the quotient towards zero. -/
theorem truncate_div (n : ℤ) (hsize : dbSize ≠ 0) :
    truncate ((n : ℚ) / dbSize) = n.tdiv dbSize := by
  have hpos : (0 : ℚ) < dbSize := by exact_mod_cast Nat.pos_of_ne_zero hsize
  unfold truncate
  rcases Int.lt_or_le n 0 with hn | hn
  · have hq : (n : ℚ) < 0 := by exact_mod_cast hn
    rw [if_neg (not_le.mpr (div_neg_of_neg_of_pos hq hpos)), Rat.ceil_intCast_div_natCast,
      ← Int.tdiv_eq_ediv_of_nonneg (by omega), Int.neg_tdiv, neg_neg]
  · have hq : (0 : ℚ) ≤ n := by exact_mod_cast hn
    rw [if_pos (div_nonneg hq hpos.le), Rat.floor_intCast_div_natCast,
      Int.tdiv_eq_ediv_of_nonneg hn]

/-- How many ids of the span should go, without fractions. -/
theorem cutRows_eq_tdiv (hsize : dbSize ≠ 0) :
    cutRows exactly dbSize target rows = (idSpan rows * (dbSize - target)).tdiv dbSize := by
  unfold cutRows
  rw [excessRows_eq hsize, ← mul_div_assoc, ← truncate_div _ hsize]
  push_cast
  rfl

/-- Nothing should go if the target is not below the size. -/
theorem cutRows_nonpos (hsize : dbSize ≠ 0) (h : (dbSize : ℤ) ≤ target) :
    cutRows exactly dbSize target rows ≤ 0 := by
  have hpos : (0 : ℚ) < dbSize := by exact_mod_cast Nat.pos_of_ne_zero hsize
  have hle : (dbSize : ℚ) ≤ target := by exact_mod_cast h
  have hspan : (0 : ℚ) < idSpan rows := by exact_mod_cast idSpan_pos
  unfold cutRows
  rw [excessRows_eq hsize]
  exact truncate_nonpos (mul_nonpos_of_nonneg_of_nonpos hspan.le
    (div_nonpos_of_nonpos_of_nonneg (by linarith) hpos.le))

/-- Not the whole span should go if the target is above zero. -/
theorem cutRows_lt (hsize : dbSize ≠ 0) (h : 0 < target) :
    cutRows exactly dbSize target rows < idSpan rows := by
  have hpos : (0 : ℚ) < dbSize := by exact_mod_cast Nat.pos_of_ne_zero hsize
  have htarget : (0 : ℚ) < target := by exact_mod_cast h
  have hspan : (0 : ℚ) < idSpan rows := by exact_mod_cast idSpan_pos
  have hratio : ((dbSize : ℚ) - target) / dbSize < 1 := by
    rw [div_lt_one hpos]
    linarith
  refine truncate_lt ?_ idSpan_pos
  rw [excessRows_eq hsize]
  calc (idSpan rows : ℚ) * (((dbSize : ℚ) - target) / dbSize)
      < idSpan rows * 1 := mul_lt_mul_of_pos_left hratio hspan
    _ = idSpan rows := mul_one _

end

/-! ### The newest rows -/

section
variable (cat : DatabaseCatalog) (fault : Option DeleteFault) (dbSize : ℕ)
  (maxSize target limitMb : ℤ) (w : WriterDatabase)

/-- A pass keeps the newest rows: it is defined; it deletes rows up to some id, and none
if the database is not too large or the target is not below its size; and the row with
the largest id stays, if the target is above zero. -/
structure KeepsNewest : Prop where
  defined : ∃ w', (removeExcessiveLogs exactly cat fault dbSize maxSize target limitMb w).Ends w'
  oldest : ∀ w', (removeExcessiveLogs exactly cat fault dbSize maxSize target limitMb w).Ends w' →
    ∃ keep : LogRow → Bool, w'.log = w.log.filter keep ∧
      ∀ r ∈ w.log, ∀ r' ∈ w.log, r'.id ≤ r.id → keep r = false → keep r' = false
  nothing : (dbSize : ℤ) ≤ maxSize ∨ (dbSize : ℤ) ≤ target →
    ∀ w', (removeExcessiveLogs exactly cat fault dbSize maxSize target limitMb w).Ends w' →
      w'.log = w.log
  newest : 0 < target → ∀ w',
    (removeExcessiveLogs exactly cat fault dbSize maxSize target limitMb w).Ends w' →
      ∀ r ∈ w.log, r.id = getMaxLogId w.log → r ∈ w'.log

variable {cat fault dbSize maxSize target limitMb w}

/-- A pass that changes nothing keeps the newest rows. -/
theorem keepsNewest_of_same
    (h : ∀ w',
      (removeExcessiveLogs exactly cat fault dbSize maxSize target limitMb w).Ends w' ↔ w' = w) :
    KeepsNewest cat fault dbSize maxSize target limitMb w where
  defined := ⟨w, (h w).mpr rfl⟩
  oldest := by
    intro w' hends
    obtain rfl := (h w').mp hends
    refine ⟨fun _ => true, by rw [List.filter_true], ?_⟩
    intro r _ r' _ _ hkeep
    cases hkeep
  nothing := by
    intro _ w' hends
    rw [(h w').mp hends]
  newest := by
    intro _ w' hends r hr _
    rw [(h w').mp hends]
    exact hr

/-- A pass without an overflow keeps the newest rows. -/
theorem keepsNewest_of_noOverflow (hid : cat.HasRowId) (hlt : maxSize < dbSize)
    (hover : NoOverflow exactly dbSize target limitMb w.log) :
    KeepsNewest cat none dbSize maxSize target limitMb w := by
  have hrun := removeExcessiveLogs_of_some hid (bytesToMb_lt_iff.mpr hlt) hover
  have hlast : lastId exactly dbSize target limitMb w.log ≤ _ := lastId_le
  refine ⟨⟨_, by rw [hrun]; rfl⟩, ?_, ?_, ?_⟩ <;> rw [hrun]
  · rintro w' rfl
    refine ⟨fun r => lastId exactly dbSize target limitMb w.log < r.id, rfl, ?_⟩
    intro r _ r' _ hle hkeep
    simp only [decide_eq_false_iff_not, not_lt] at hkeep ⊢
    exact hle.trans hkeep
  · rintro hnothing w' rfl
    -- nothing should go, so the last id is below all ids
    have hcut : cutRows exactly dbSize target w.log ≤ 0 :=
      cutRows_nonpos hover.size (hnothing.resolve_left (by omega))
    refine List.filter_eq_self.mpr fun r hr => ?_
    have hmin := getMinLogId_le hr
    exact decide_eq_true (by omega)
  · rintro htarget w' rfl r hr hmax
    have hcut : cutRows exactly dbSize target w.log < idSpan w.log := cutRows_lt hover.size htarget
    unfold idSpan at hcut
    exact List.mem_filter.mpr ⟨hr, decide_eq_true (by omega)⟩

/-- **When a pass keeps the newest rows.** -/
theorem keeps_newest_iff (hid : cat.HasRowId) :
    KeepsNewest cat fault dbSize maxSize target limitMb w ↔
      (dbSize : ℤ) ≤ maxSize ∨ NoOverflow exactly dbSize target limitMb w.log := by
  rcases Int.lt_or_le maxSize dbSize with hlt | hle
  · rw [or_iff_right (by omega)]
    constructor
    · intro h
      by_contra hover
      obtain ⟨w', hends⟩ := h.defined
      rw [removeExcessiveLogs_of_overflow (bytesToMb_lt_iff.mpr hlt) hover] at hends
      exact hends
    · intro hover
      cases fault with
      | none => exact keepsNewest_of_noOverflow hid hlt hover
      | some fault =>
        obtain ⟨what, hthrow⟩ :=
          removeExcessiveLogs_of_fault hid (bytesToMb_lt_iff.mpr hlt) hover fault
        refine keepsNewest_of_same fun w' => ?_
        rw [hthrow, Outcome.ends_throw, eq_comm]
  · refine iff_of_true (keepsNewest_of_same fun w' => ?_) (.inl hle)
    rw [removeExcessiveLogs_of_le (bytesToMb_le_iff.mpr hle), Outcome.ends_ret, eq_comm]

end

/-- Half of the span of the ids 2, 5 and 9 may go: the ids up to 5. -/
theorem keeps_newest_half :
    KeepsNewest stampCatalog none 8192 4096 4096 1 (tableOf [2, 5, 9]) := by
  have hmin : getMinLogId (tableOf [2, 5, 9]).log = 2 := by decide
  have hspan : idSpan (tableOf [2, 5, 9]).log = 8 := by decide
  have hcut : cutRows exactly 8192 4096 (tableOf [2, 5, 9]).log = 4 := by
    rw [cutRows_eq_tdiv (by decide), hspan]
    decide
  have hbudget : budgetRows 8192 1 (tableOf [2, 5, 9]).log = 1024 := by decide
  have hover : NoOverflow exactly 8192 4096 1 (tableOf [2, 5, 9]).log := by
    refine ⟨by decide, by decide, by rw [hspan]; decide, by rw [hcut]; decide,
      by rw [hmin, hcut]; decide, by rw [hmin, hcut]; decide, fun _ => ?_⟩
    rw [hmin, hbudget]
    decide
  exact (keeps_newest_iff stampCatalog_hasRowId).mpr (.inr hover)

/-- The target is far above the size: the share is not a 64-bit number. -/
theorem newest_of_high_target :
    ¬ KeepsNewest stampCatalog none 8192 4096 (2 ^ 62) 0 (tableOf [1, 32768]) := by
  intro h
  obtain ⟨w', hends⟩ := h.defined
  have hspan : idSpan (tableOf [1, 32768]).log = 32768 := by decide
  have hover : ¬ NoOverflow exactly 8192 (2 ^ 62) 0 (tableOf [1, 32768]).log := by
    intro hno
    have hcut := hno.cut
    rw [cutRows_eq_tdiv (by decide), hspan] at hcut
    revert hcut
    decide
  rw [removeExcessiveLogs_of_overflow (bytesToMb_lt_iff.mpr (by decide)) hover] at hends
  exact hends

end LogLite
