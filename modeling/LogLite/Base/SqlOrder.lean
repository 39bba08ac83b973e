import LogLite.Base.Sqlite

/-!
# The order of SQLite values

`ORDER BY`, `MIN` and the comparison operators use one order: NULL first, numbers
by value, then texts byte by byte.  It is a total preorder; an integer and a double
of the same value tie.

## Main definitions

* `SqlValue.asReal` — an integer as the double of its value, taken exactly.

## Main results

* `compareWith_asReal` — the order does not see the difference.
* Instances of `Std.TransCmp` for `Real64.compareWith` and `SqlValue.compareWith`.
-/

namespace LogLite

/-! ### Numbers -/

theorem Real64.compareWith_swap (x y : Real64) :
    Real64.compareWith x y = (Real64.compareWith y x).swap := by
  match x, y with
  | .finite x, .finite y => exact Std.OrientedOrd.eq_swap
  | .finite x, .infinite true => rfl
  | .finite x, .infinite false => rfl
  | .infinite true, .finite y => rfl
  | .infinite false, .finite y => rfl
  | .infinite true, .infinite true => rfl
  | .infinite true, .infinite false => rfl
  | .infinite false, .infinite true => rfl
  | .infinite false, .infinite false => rfl

instance : Std.OrientedCmp Real64.compareWith where
  eq_swap := Real64.compareWith_swap _ _

instance : Std.TransCmp Real64.compareWith where
  isLE_trans {x y z} hxy hyz := by
    match x, y, z with
    | .infinite true, _, .infinite true => rfl
    | .infinite true, _, .infinite false => rfl
    | .infinite true, _, .finite z => rfl
    | .finite x, _, .infinite false => rfl
    | .infinite false, _, .infinite false => rfl
    | .finite x, .finite y, .finite z => exact Std.TransOrd.isLE_trans hxy hyz
    | .infinite false, .infinite true, _ => cases hxy
    | .infinite false, .finite y, _ => cases hxy
    | .finite x, .infinite true, _ => cases hxy
    | _, .infinite false, .infinite true => cases hyz
    | _, .infinite false, .finite z => cases hyz
    | _, .finite y, .infinite true => cases hyz

theorem compare_intCast (m n : ℤ) : compare (m : ℚ) (n : ℚ) = compare m n := by
  rcases Int.lt_trichotomy m n with hlt | rfl | hgt
  · rw [compare_lt_iff_lt.mpr hlt, compare_lt_iff_lt.mpr (Rat.intCast_lt_intCast.mpr hlt)]
  · rw [compare_eq_iff_eq.mpr rfl, compare_eq_iff_eq.mpr rfl]
  · rw [compare_gt_iff_gt.mpr hgt, compare_gt_iff_gt.mpr (Rat.intCast_lt_intCast.mpr hgt)]

/-! ### Values -/

/-- An integer as a double of the same value, exact as in a comparison. -/
def SqlValue.asReal : SqlValue → SqlValue
  | .integer n => .real (.finite n)
  | v => v

/-- Integers compare as doubles of the same value do. -/
theorem compareWith_asReal (v w : SqlValue) :
    SqlValue.compareWith v.asReal w.asReal = SqlValue.compareWith v w := by
  match v, w with
  | .integer m, .integer n => exact compare_intCast m n
  | .integer m, .real y => rfl
  | .integer m, .null => rfl
  | .integer m, .text t => rfl
  | .real x, .integer n => rfl
  | .null, .integer n => rfl
  | .text s, .integer n => rfl
  | .null, .null => rfl
  | .null, .real y => rfl
  | .null, .text t => rfl
  | .real x, .null => rfl
  | .real x, .real y => rfl
  | .real x, .text t => rfl
  | .text s, .null => rfl
  | .text s, .real y => rfl
  | .text s, .text t => rfl

theorem SqlValue.asReal_cases (v : SqlValue) :
    v.asReal = .null ∨ (∃ x, v.asReal = .real x) ∨ ∃ s, v.asReal = .text s := by
  cases v with
  | null => exact .inl rfl
  | integer n => exact .inr (.inl ⟨_, rfl⟩)
  | real x => exact .inr (.inl ⟨x, rfl⟩)
  | text s => exact .inr (.inr ⟨s, rfl⟩)

theorem SqlValue.compareWith_swap (v w : SqlValue) :
    SqlValue.compareWith v w = (SqlValue.compareWith w v).swap := by
  rw [← compareWith_asReal v w, ← compareWith_asReal w v]
  obtain hv | ⟨x, hv⟩ | ⟨s, hv⟩ := v.asReal_cases <;>
    obtain hw | ⟨y, hw⟩ | ⟨t, hw⟩ := w.asReal_cases <;> rw [hv, hw]
  · rfl
  · rfl
  · rfl
  · rfl
  · exact Real64.compareWith_swap x y
  · rfl
  · rfl
  · rfl
  · exact Std.OrientedOrd.eq_swap

instance : Std.OrientedCmp SqlValue.compareWith where
  eq_swap := SqlValue.compareWith_swap _ _

instance : Std.TransCmp SqlValue.compareWith where
  isLE_trans {u v w} huv hvw := by
    rw [← compareWith_asReal] at huv hvw ⊢
    obtain hu | ⟨x, hu⟩ | ⟨s, hu⟩ := u.asReal_cases
    · rw [hu]
      cases w.asReal <;> rfl
    · obtain hv | ⟨y, hv⟩ | ⟨t, hv⟩ := v.asReal_cases <;> rw [hv] at huv hvw <;>
        rw [hu] at huv ⊢
      · cases huv
      · obtain hw | ⟨z, hw⟩ | ⟨r, hw⟩ := w.asReal_cases <;> rw [hw] at hvw ⊢
        · cases hvw
        · exact (inferInstance : Std.TransCmp Real64.compareWith).isLE_trans huv hvw
        · rfl
      · obtain hw | ⟨z, hw⟩ | ⟨r, hw⟩ := w.asReal_cases <;> rw [hw] at hvw ⊢
        · cases hvw
        · cases hvw
        · rfl
    · obtain hv | ⟨y, hv⟩ | ⟨t, hv⟩ := v.asReal_cases <;> rw [hv] at huv hvw <;>
        rw [hu] at huv ⊢
      · cases huv
      · cases huv
      · obtain hw | ⟨z, hw⟩ | ⟨r, hw⟩ := w.asReal_cases <;> rw [hw] at hvw ⊢
        · cases hvw
        · cases hvw
        · exact Std.TransOrd.isLE_trans (α := Bytes) huv hvw

end LogLite
