import Mathlib.Order.Compare
import Mathlib.Tactic.Ring
import Mathlib.Data.Int.Notation
import Mathlib.Algebra.Order.Ring.Int

/-!
# The Gregorian calendar

Days are counted from 1970-01-01, and the calendar goes on in both directions.  A
year is counted from March here, so that the leap day is its last day; January and
February belong to the next year of the calendar.

## Main definitions

* `yearStart` — the first of March of a year.
* `yearDay` — the year of a day and its place in the year.
* `date` — year, month and day of a day.

## Main results

* `yearDay_spec` — a day lies in its year.
* `compare_date` — **days compare as their dates do.**
* `year_mono` — the year does not decrease.
-/

namespace Calendar

/-! ### Years -/

/-- The days from 0000-03-01 to the first of March of a year. -/
def yearStart (y : ℤ) : ℤ := 365 * y + y / 4 - y / 100 + y / 400

theorem yearStart_mono {x y : ℤ} (h : x ≤ y) : yearStart x ≤ yearStart y := by
  unfold yearStart
  omega

/-- The start of a year given by its place in the cycles of 400, 100 and 4 years. -/
theorem yearStart_cycles (a : ℤ) {b c d : ℤ} (hb : 0 ≤ b ∧ b ≤ 3) (hc : 0 ≤ c ∧ c ≤ 24)
    (hd : 0 ≤ d ∧ d ≤ 3) :
    yearStart (400 * a + 100 * b + 4 * c + d) = 146097 * a + 36524 * b + 1461 * c + 365 * d := by
  have h4 : (400 * a + 100 * b + 4 * c + d) / 4 = 100 * a + 25 * b + c := by omega
  have h100 : (400 * a + 100 * b + 4 * c + d) / 100 = 4 * a + b := by omega
  have h400 : (400 * a + 100 * b + 4 * c + d) / 400 = a := by omega
  unfold yearStart
  rw [h4, h100, h400]
  ring

/-- A year, and a day of it counted from `0`. -/
structure YearDay where
  year : ℤ
  day : ℤ

/-- The year of a day counted from 0000-03-01. -/
def yearDay (z : ℤ) : YearDay :=
  let n100 := min (z % 146097 / 36524) 3
  let r := z % 146097 - n100 * 36524
  let n1 := min (r % 1461 / 365) 3
  ⟨400 * (z / 146097) + 100 * n100 + 4 * (r / 1461) + n1, r % 1461 - 365 * n1⟩

/-- **A day lies in its year.** -/
theorem yearDay_spec (z : ℤ) :
    yearStart (yearDay z).year + (yearDay z).day = z ∧
      (0 ≤ (yearDay z).day ∧ (yearDay z).day ≤ 365) ∧ z < yearStart ((yearDay z).year + 1) := by
  obtain ⟨b, hb⟩ : ∃ b, b = min (z % 146097 / 36524) 3 := ⟨_, rfl⟩
  obtain ⟨r, hr⟩ : ∃ r, r = z % 146097 - b * 36524 := ⟨_, rfl⟩
  obtain ⟨d, hd⟩ : ∃ d, d = min (r % 1461 / 365) 3 := ⟨_, rfl⟩
  have heq : yearDay z =
      ⟨400 * (z / 146097) + 100 * b + 4 * (r / 1461) + d, r % 1461 - 365 * d⟩ := by
    subst hb hr hd
    rfl
  have hb' : 0 ≤ b ∧ b ≤ 3 := by omega
  have hr' : 0 ≤ r ∧ r ≤ 36524 := by omega
  have hc' : 0 ≤ r / 1461 ∧ r / 1461 ≤ 24 := by omega
  have hd' : 0 ≤ d ∧ d ≤ 3 := by omega
  have hzero : 0 ≤ (0 : ℤ) ∧ (0 : ℤ) ≤ 3 := by omega
  have hstart := yearStart_cycles (z / 146097) hb' hc' hd'
  rw [heq]
  refine ⟨by dsimp only; omega, by dsimp only; omega, ?_⟩
  dsimp only
  -- the next year begins a cycle of 400, 100 or 4 years, or it goes on with one
  by_cases hlast : d = 3
  · by_cases hlast4 : r / 1461 = 24
    · by_cases hlast100 : b = 3
      · have hnext := yearStart_cycles (z / 146097 + 1) hzero (c := 0) (by omega) hzero
        rw [show 400 * (z / 146097) + 100 * b + 4 * (r / 1461) + d + 1 =
          400 * (z / 146097 + 1) + 100 * 0 + 4 * 0 + 0 by omega]
        omega
      · have hnext := yearStart_cycles (z / 146097) (b := b + 1) (by omega) (c := 0) (by omega)
          hzero
        rw [show 400 * (z / 146097) + 100 * b + 4 * (r / 1461) + d + 1 =
          400 * (z / 146097) + 100 * (b + 1) + 4 * 0 + 0 by omega]
        omega
    · have hnext := yearStart_cycles (z / 146097) hb' (c := r / 1461 + 1) (by omega) hzero
      rw [show 400 * (z / 146097) + 100 * b + 4 * (r / 1461) + d + 1 =
        400 * (z / 146097) + 100 * b + 4 * (r / 1461 + 1) + 0 by omega]
      omega
  · have hnext := yearStart_cycles (z / 146097) hb' hc' (d := d + 1) (by omega)
    rw [show 400 * (z / 146097) + 100 * b + 4 * (r / 1461) + d + 1 =
      400 * (z / 146097) + 100 * b + 4 * (r / 1461) + (d + 1) by omega]
    omega

/-- A later day has a later year, or the same year and a later place in it. -/
theorem yearDay_lt {z z' : ℤ} (h : z < z') : (yearDay z).year < (yearDay z').year ∨
    (yearDay z).year = (yearDay z').year ∧ (yearDay z).day < (yearDay z').day := by
  obtain ⟨hz, -, -⟩ := yearDay_spec z
  obtain ⟨hz', -, hnext⟩ := yearDay_spec z'
  rcases Int.lt_trichotomy (yearDay z).year (yearDay z').year with hlt | heq | hgt
  · exact .inl hlt
  · rw [heq] at hz
    exact .inr ⟨heq, by omega⟩
  · have hle := yearStart_mono (show (yearDay z').year + 1 ≤ (yearDay z).year by omega)
    obtain ⟨-, ⟨hnonneg, -⟩, -⟩ := yearDay_spec z
    omega

/-! ### Dates -/

/-- Year, month and day. -/
structure Date where
  year : ℤ
  month : ℤ
  day : ℤ
  deriving DecidableEq, Repr

/-- The date of a day of a year, with the months counted from March: they have 31, 30,
31, 30 and 31 days in turn. -/
def YearDay.date (yd : YearDay) : Date :=
  let m := (5 * yd.day + 2) / 153
  { year := if m < 10 then yd.year else yd.year + 1
    month := if m < 10 then m + 3 else m - 9
    day := yd.day - (153 * m + 2) / 5 + 1 }

/-- The date of a day counted from 1970-01-01. -/
def date (z : ℤ) : Date := (yearDay (z + 719468)).date

example : date 19782 = ⟨2024, 2, 29⟩ := by decide

/-- The months count on over the years. -/
theorem YearDay.months {yd : YearDay} (h : 0 ≤ yd.day ∧ yd.day ≤ 365) :
    12 * yd.date.year + yd.date.month = 12 * yd.year + (5 * yd.day + 2) / 153 + 3 ∧
      (1 ≤ yd.date.month ∧ yd.date.month ≤ 12) ∧ (1 ≤ yd.date.day ∧ yd.date.day ≤ 31) := by
  unfold YearDay.date
  dsimp only
  by_cases hm : (5 * yd.day + 2) / 153 < 10
  · rw [if_pos hm, if_pos hm]
    omega
  · rw [if_neg hm, if_neg hm]
    omega

theorem date_month (z : ℤ) : 1 ≤ (date z).month ∧ (date z).month ≤ 12 :=
  (YearDay.months (yearDay_spec _).2.1).2.1

theorem date_day (z : ℤ) : 1 ≤ (date z).day ∧ (date z).day ≤ 31 :=
  (YearDay.months (yearDay_spec _).2.1).2.2

/-- How two dates compare. -/
def Date.compareWith (a b : Date) : Ordering :=
  (compare a.year b.year).then ((compare a.month b.month).then (compare a.day b.day))

theorem date_lt {z z' : ℤ} (h : z < z') : (date z).compareWith (date z') = .lt := by
  have hlt := yearDay_lt (show z + 719468 < z' + 719468 by omega)
  obtain ⟨-, hrange, -⟩ := yearDay_spec (z + 719468)
  obtain ⟨-, hrange', -⟩ := yearDay_spec (z' + 719468)
  obtain ⟨hmonths, hmonth, -⟩ := YearDay.months hrange
  obtain ⟨hmonths', hmonth', -⟩ := YearDay.months hrange'
  have hday : (date z).day = (yearDay (z + 719468)).day -
    (153 * ((5 * (yearDay (z + 719468)).day + 2) / 153) + 2) / 5 + 1 := rfl
  have hday' : (date z').day = (yearDay (z' + 719468)).day -
    (153 * ((5 * (yearDay (z' + 719468)).day + 2) / 153) + 2) / 5 + 1 := rfl
  change 12 * (date z).year + (date z).month = _ at hmonths
  change 12 * (date z').year + (date z').month = _ at hmonths'
  change 1 ≤ (date z).month ∧ (date z).month ≤ 12 at hmonth
  change 1 ≤ (date z').month ∧ (date z').month ≤ 12 at hmonth'
  have hcases : (date z).year < (date z').year ∨ (date z).year = (date z').year ∧
      ((date z).month < (date z').month ∨
        (date z).month = (date z').month ∧ (date z).day < (date z').day) := by
    omega
  unfold Date.compareWith
  obtain hyear | ⟨hyear, hmonth | ⟨hmonth, hday⟩⟩ := hcases
  · rw [compare_lt_iff_lt.mpr hyear]
    rfl
  · rw [compare_eq_iff_eq.mpr hyear, compare_lt_iff_lt.mpr hmonth]
    rfl
  · rw [compare_eq_iff_eq.mpr hyear, compare_eq_iff_eq.mpr hmonth, compare_lt_iff_lt.mpr hday]
    rfl

theorem Date.compareWith_swap (a b : Date) : a.compareWith b = (b.compareWith a).swap := by
  unfold Date.compareWith
  rw [Ordering.swap_then, Ordering.swap_then, ← Std.OrientedOrd.eq_swap,
    ← Std.OrientedOrd.eq_swap, ← Std.OrientedOrd.eq_swap]

/-- **Days compare as their dates do.** -/
theorem compare_date (z z' : ℤ) : (date z).compareWith (date z') = compare z z' := by
  rcases Int.lt_trichotomy z z' with hlt | rfl | hgt
  · rw [date_lt hlt, compare_lt_iff_lt.mpr hlt]
  · unfold Date.compareWith
    rw [Std.ReflOrd.compare_self, Std.ReflOrd.compare_self, Std.ReflOrd.compare_self,
      Std.ReflOrd.compare_self]
    rfl
  · rw [Date.compareWith_swap, date_lt hgt, compare_gt_iff_gt.mpr hgt]
    rfl

/-- The year does not decrease. -/
theorem year_mono {z z' : ℤ} (h : z ≤ z') : (date z).year ≤ (date z').year := by
  by_contra hlt
  have hcompare := compare_date z z'
  rw [Date.compareWith, compare_gt_iff_gt.mpr (not_le.mp hlt)] at hcompare
  exact (compare_gt_iff_gt.mp hcompare.symm).not_ge h

end Calendar
