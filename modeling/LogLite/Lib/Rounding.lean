import Mathlib.Data.Int.Log
import Mathlib.Data.Rat.Floor
import Mathlib.Algebra.Order.Field.Power
import Mathlib.Tactic.FieldSimp
import Mathlib.Tactic.GCongr
import Mathlib.Tactic.Linarith
import Mathlib.Tactic.Ring

/-!
# Rounding to a number of significant bits

A binary floating-point operation computes the exact result and rounds it to the
nearest number with `p` significant bits, a tie to the one whose last bit is zero.
Exponents are not bounded here, so nothing overflows and nothing is subnormal.

## Main definitions

* `halfEven` — the nearest integer, of two the even one.
* `nearest p x` — the nearest number with `p` significant bits.

## Main results

* `nearest_eq` — numbers with `p` significant bits stay what they are.
* `nearest_mono` — rounding keeps the order.
* `abs_nearest_sub_le` — the error is at most half a bit of the last place.
-/

namespace Rounding

/-! ### Integers -/

/-- The nearest integer; of two that are equally near, the even one. -/
def halfEven (q : ℚ) : ℤ :=
  if q - ⌊q⌋ < 1 / 2 ∨ (q - ⌊q⌋ = 1 / 2 ∧ ⌊q⌋ % 2 = 0) then ⌊q⌋ else ⌊q⌋ + 1

@[simp] theorem halfEven_intCast (n : ℤ) : halfEven n = n := by
  unfold halfEven
  rw [Int.floor_intCast, if_pos]
  left
  norm_num

theorem halfEven_le {q : ℚ} {n : ℤ} (h : q ≤ n) : halfEven q ≤ n := by
  unfold halfEven
  split
  · exact_mod_cast (Int.floor_le q).trans h
  · next hup =>
    rcases eq_or_lt_of_le h with rfl | hlt
    · exact absurd (.inl (by norm_num)) hup
    · exact Int.add_one_le_iff.mpr (Int.floor_lt.mpr hlt)

theorem le_halfEven {q : ℚ} {n : ℤ} (h : n ≤ q) : n ≤ halfEven q := by
  have hfloor := Int.le_floor.mpr h
  unfold halfEven
  split
  · exact hfloor
  · omega

/-- Rounding to an integer keeps the order. -/
theorem halfEven_mono {q q' : ℚ} (h : q ≤ q') : halfEven q ≤ halfEven q' := by
  rcases eq_or_lt_of_le (Int.floor_mono h) with heq | hlt
  · -- both lie between the same two integers
    unfold halfEven
    rw [heq]
    by_cases hdown : q' - ⌊q'⌋ < 1 / 2 ∨ (q' - ⌊q'⌋ = 1 / 2 ∧ ⌊q'⌋ % 2 = 0)
    · rw [if_pos hdown, if_pos]
      rcases hdown with hlow | ⟨htie, heven⟩
      · left
        linarith
      · rcases eq_or_lt_of_le h with rfl | hless
        · exact .inr ⟨htie, heven⟩
        · left
          linarith
    · rw [if_neg hdown]
      split <;> omega
  · have hup : q ≤ (⌊q'⌋ : ℤ) := by
      have hnext : (⌊q⌋ : ℚ) + 1 ≤ ⌊q'⌋ := by exact_mod_cast hlt
      linarith [Int.lt_floor_add_one q]
    exact (halfEven_le hup).trans (le_halfEven (Int.floor_le q'))

theorem abs_halfEven_sub_le (q : ℚ) : |(halfEven q : ℚ) - q| ≤ 1 / 2 := by
  have hlow := Int.floor_le q
  have hhigh := Int.lt_floor_add_one q
  unfold halfEven
  split
  · next hdown =>
    have hhalf : q - ⌊q⌋ ≤ 1 / 2 := hdown.elim (fun h => h.le) fun h => h.1.le
    rw [abs_le]
    exact ⟨by linarith, by linarith⟩
  · next hup =>
    have hhalf : 1 / 2 ≤ q - ⌊q⌋ := by
      rw [not_or, not_lt] at hup
      exact hup.1
    push_cast
    rw [abs_le]
    exact ⟨by linarith, by linarith⟩

/-! ### Significant bits -/

section
variable {p : ℕ} {x y : ℚ}

/-- The value of the last of `p` significant bits. -/
def ulp (p : ℕ) (x : ℚ) : ℚ := 2 ^ (Int.log 2 x - (p - 1))

theorem ulp_pos : 0 < ulp p x := zpow_pos (by norm_num) _

/-- The nearest number with `p` significant bits to one that is not negative. -/
def nearestNonneg (p : ℕ) (x : ℚ) : ℚ := halfEven (x / ulp p x) * ulp p x

/-- The nearest number with `p` significant bits. -/
def nearest (p : ℕ) (x : ℚ) : ℚ :=
  if x < 0 then -nearestNonneg p (-x) else nearestNonneg p x

theorem nearestNonneg_nonneg (hx : 0 ≤ x) : 0 ≤ nearestNonneg p x := by
  refine mul_nonneg ?_ ulp_pos.le
  have hhalf : 0 ≤ halfEven (x / ulp p x) := le_halfEven (by simpa using div_nonneg hx ulp_pos.le)
  exact_mod_cast hhalf

/-- A multiple of a power of two with few enough bits is a multiple of its last bit. -/
theorem exists_mul_ulp {m : ℕ} {e : ℤ} (hpos : 0 < m) (hle : m < 2 ^ p) :
    ∃ k : ℤ, (m : ℚ) * 2 ^ e = k * ulp p (m * 2 ^ e) := by
  have htwo : (0 : ℚ) < 2 ^ e := zpow_pos (by norm_num) _
  have hm : (0 : ℚ) < m := by exact_mod_cast hpos
  have hlog : Int.log 2 ((m : ℚ) * 2 ^ e) < p + e := by
    have hlt : (m : ℚ) * 2 ^ e < ((2 : ℕ) : ℚ) ^ ((p : ℤ) + e) := by
      rw [Nat.cast_ofNat, zpow_add₀ (by norm_num)]
      refine mul_lt_mul_of_pos_right ?_ htwo
      rw [zpow_natCast]
      exact_mod_cast hle
    exact (Int.lt_zpow_iff_log_lt (by norm_num) (mul_pos hm htwo)).mp hlt
  have hexp : 0 ≤ e - (Int.log 2 ((m : ℚ) * 2 ^ e) - (p - 1)) := by omega
  refine ⟨m * 2 ^ (e - (Int.log 2 ((m : ℚ) * 2 ^ e) - (p - 1))).toNat, ?_⟩
  unfold ulp
  push_cast
  rw [mul_assoc, ← zpow_natCast, Int.toNat_of_nonneg hexp, ← zpow_add₀ (by norm_num)]
  congr 2
  omega

theorem nearestNonneg_eq {m : ℕ} {e : ℤ} (hle : m < 2 ^ p) :
    nearestNonneg p (m * 2 ^ e) = m * 2 ^ e := by
  rcases Nat.eq_zero_or_pos m with rfl | hpos
  · unfold nearestNonneg
    rw [Nat.cast_zero, zero_mul, zero_div]
    have hzero : halfEven 0 = 0 := by simpa using halfEven_intCast 0
    rw [hzero, Int.cast_zero, zero_mul]
  · obtain ⟨k, hk⟩ := exists_mul_ulp (e := e) hpos hle
    unfold nearestNonneg
    have hdiv : (m : ℚ) * 2 ^ e / ulp p (m * 2 ^ e) = k := by
      rw [div_eq_iff ulp_pos.ne']
      exact hk
    rw [hdiv, halfEven_intCast]
    exact hk.symm

/-- **A number with `p` significant bits stays what it is.** -/
theorem nearest_eq {m e : ℤ} (hle : m.natAbs < 2 ^ p) : nearest p (m * 2 ^ e) = m * 2 ^ e := by
  have htwo : (0 : ℚ) < 2 ^ e := zpow_pos (by norm_num) _
  unfold nearest
  rcases Int.natAbs_eq m with hm | hm
  · have hcast : (m : ℚ) = (m.natAbs : ℚ) := by
      rw [← Int.cast_natCast, ← hm]
    have hnonneg : 0 ≤ (m.natAbs : ℚ) * 2 ^ e := by positivity
    rw [hcast, if_neg (not_lt.mpr hnonneg), nearestNonneg_eq hle]
  · have hcast : (m : ℚ) = -(m.natAbs : ℚ) := by exact_mod_cast hm
    rw [hcast, neg_mul, neg_neg]
    split
    · rw [nearestNonneg_eq hle]
    · next hneg =>
      -- zero
      have hprod : 0 ≤ (m.natAbs : ℚ) * 2 ^ e := by positivity
      have hzero : (m.natAbs : ℚ) * 2 ^ e = 0 := le_antisymm (by linarith) hprod
      rw [hzero, neg_zero]
      simpa using nearestNonneg_eq (m := 0) (e := e) (p := p) (Nat.two_pow_pos p)

theorem nearest_intCast {n : ℤ} (hle : n.natAbs < 2 ^ p) : nearest p n = n := by
  simpa using nearest_eq (e := 0) hle

/-- What lies between two powers of two is rounded to something between them. -/
theorem nearestNonneg_bounds (hp : 0 < p) (hx : 0 < x) :
    2 ^ Int.log 2 x ≤ nearestNonneg p x ∧ nearestNonneg p x ≤ 2 ^ (Int.log 2 x + 1) := by
  have hlow : (2 : ℚ) ^ Int.log 2 x ≤ x := by
    simpa using Int.zpow_log_le_self (R := ℚ) (b := 2) (by norm_num) hx
  have hhigh : x < (2 : ℚ) ^ (Int.log 2 x + 1) := by
    simpa using Int.lt_zpow_succ_log_self (R := ℚ) (b := 2) (by norm_num) x
  have hulp : ∀ k : ℤ, 0 ≤ k → (2 : ℚ) ^ (Int.log 2 x - (p - 1) + k) =
      ((2 ^ k.toNat : ℤ) : ℚ) * ulp p x := by
    intro k hk
    unfold ulp
    push_cast
    rw [← zpow_natCast, Int.toNat_of_nonneg hk, ← zpow_add₀ (by norm_num)]
    congr 1
    omega
  have hfirst : (2 : ℚ) ^ Int.log 2 x = ((2 ^ ((p : ℤ) - 1).toNat : ℤ) : ℚ) * ulp p x := by
    rw [← hulp _ (by omega)]
    congr 1
    omega
  have hlast : (2 : ℚ) ^ (Int.log 2 x + 1) = ((2 ^ (p : ℤ).toNat : ℤ) : ℚ) * ulp p x := by
    rw [← hulp _ (by omega)]
    congr 1
    omega
  unfold nearestNonneg
  constructor
  · rw [hfirst] at hlow ⊢
    refine mul_le_mul_of_nonneg_right ?_ ulp_pos.le
    exact_mod_cast le_halfEven ((le_div_iff₀ ulp_pos).mpr hlow)
  · rw [hlast] at hhigh ⊢
    refine mul_le_mul_of_nonneg_right ?_ ulp_pos.le
    exact_mod_cast halfEven_le ((div_le_iff₀ ulp_pos).mpr hhigh.le)

theorem nearestNonneg_mono (hp : 0 < p) (hx : 0 ≤ x) (h : x ≤ y) :
    nearestNonneg p x ≤ nearestNonneg p y := by
  rcases eq_or_lt_of_le hx with rfl | hpos
  · have hzero : nearestNonneg p 0 = 0 := by
      simpa using nearestNonneg_eq (m := 0) (e := 0) (p := p) (Nat.two_pow_pos p)
    rw [hzero]
    exact nearestNonneg_nonneg h
  rcases eq_or_lt_of_le (Int.log_mono_right (b := 2) hpos h) with hsame | hless
  · -- the same last bit
    have hulp : ulp p x = ulp p y := by rw [ulp, ulp, hsame]
    unfold nearestNonneg
    rw [hulp]
    refine mul_le_mul_of_nonneg_right ?_ ulp_pos.le
    exact_mod_cast halfEven_mono ((div_le_div_iff_of_pos_right ulp_pos).mpr h)
  · -- a power of two lies between them
    calc nearestNonneg p x ≤ 2 ^ (Int.log 2 x + 1) := (nearestNonneg_bounds hp hpos).2
      _ ≤ 2 ^ Int.log 2 y := zpow_le_zpow_right₀ (by norm_num) (by omega)
      _ ≤ nearestNonneg p y := (nearestNonneg_bounds hp (hpos.trans_le h)).1

/-- **Rounding keeps the order.** -/
theorem nearest_mono (hp : 0 < p) (h : x ≤ y) : nearest p x ≤ nearest p y := by
  unfold nearest
  by_cases hx : x < 0
  · rw [if_pos hx]
    by_cases hy : y < 0
    · rw [if_pos hy, neg_le_neg_iff]
      exact nearestNonneg_mono hp (by linarith) (by linarith)
    · rw [if_neg hy]
      have hneg : 0 ≤ nearestNonneg p (-x) := nearestNonneg_nonneg (by linarith)
      have hpos : 0 ≤ nearestNonneg p y := nearestNonneg_nonneg (not_lt.mp hy)
      linarith
  · rw [if_neg hx, if_neg (by linarith)]
    exact nearestNonneg_mono hp (not_lt.mp hx) h

/-- **The error of rounding**, relative to the number. -/
theorem abs_nearest_sub_le (hx : 0 < x) : |nearest p x - x| ≤ x / 2 ^ p := by
  have hlow : (2 : ℚ) ^ Int.log 2 x ≤ x := by
    simpa using Int.zpow_log_le_self (R := ℚ) (b := 2) (by norm_num) hx
  have hulp : ulp p x = 2 ^ Int.log 2 x * 2 / 2 ^ p := by
    unfold ulp
    rw [zpow_sub₀ (by norm_num), zpow_sub₀ (by norm_num), zpow_natCast, zpow_one]
    field_simp
  have hsplit : nearest p x - x = (halfEven (x / ulp p x) - x / ulp p x) * ulp p x := by
    rw [nearest, if_neg (not_lt.mpr hx.le), nearestNonneg, sub_mul, div_mul_cancel₀ _ ulp_pos.ne']
  calc |nearest p x - x|
      = |(halfEven (x / ulp p x) : ℚ) - x / ulp p x| * ulp p x := by
        rw [hsplit, abs_mul, abs_of_pos ulp_pos]
    _ ≤ 1 / 2 * ulp p x := mul_le_mul_of_nonneg_right (abs_halfEven_sub_le _) ulp_pos.le
    _ = 2 ^ Int.log 2 x / 2 ^ p := by
        rw [hulp]
        ring
    _ ≤ x / 2 ^ p := by gcongr

end

end Rounding
