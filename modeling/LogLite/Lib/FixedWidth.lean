import Mathlib.Order.Compare
import Mathlib.Data.Int.Notation
import Mathlib.Data.Nat.Notation
import Mathlib.Algebra.Order.Ring.Int

/-!
# Texts of a fixed layout

Texts whose fields have fixed widths compare as their fields do, the first one first.
A number written with a fixed count of digits is such a field: it compares as the
number.

## Main definitions

* `digits enc b w n` — `n` in base `b`, with `w` digits.
* `Increasing enc b` — larger digits below `b` have larger symbols.

## Main results

* `compare_append` — the first field decides, unless it is the same.
* `compare_divMod` — numbers compare as their quotients, and then as their remainders.
* `compare_digits` — **digits of a fixed count compare as the number.**
-/

namespace FixedWidth

variable {α : Type*}

/-- A number in base `b`, with `w` digits. -/
def digits (enc : ℤ → α) (b : ℤ) : ℕ → ℤ → List α
  | 0, _ => []
  | w + 1, n => digits enc b w (n / b) ++ [enc (n % b)]

@[simp] theorem length_digits (enc : ℤ → α) (b : ℤ) (w : ℕ) (n : ℤ) :
    (digits enc b w n).length = w := by
  induction w generalizing n with
  | zero => rfl
  | succ w ih => rw [digits, List.length_append, ih, List.length_singleton]

/-! ### The order of texts -/

variable [Ord α]

theorem compare_append : ∀ {u v : List α}, u.length = v.length → ∀ s t : List α,
    compare (u ++ s) (v ++ t) = (compare u v).then (compare s t)
  | [], [], _, _, _ => rfl
  | a :: u, b :: v, h, s, t => by
    have ih := compare_append (Nat.succ.inj h) s t
    rw [List.cons_append, List.cons_append, List.compare_cons_cons, List.compare_cons_cons, ih,
      Ordering.then_assoc]

/-- Texts with the same beginning. -/
theorem compare_append_left [Std.ReflOrd α] (u s t : List α) :
    compare (u ++ s) (u ++ t) = compare s t := by
  rw [compare_append rfl, Std.ReflOrd.compare_self, Ordering.eq_then]

/-- A function that is increasing, and sees nothing else, compares as its arguments. -/
theorem compare_eq_of_lt [Std.OrientedOrd α] {f : ℤ → α} {p : ℤ → Prop}
    (h : ∀ m n, p m → p n → m < n → compare (f m) (f n) = .lt) {m n : ℤ} (hm : p m) (hn : p n) :
    compare (f m) (f n) = compare m n := by
  rcases Int.lt_trichotomy m n with hlt | rfl | hgt
  · rw [h m n hm hn hlt, compare_lt_iff_lt.mpr hlt]
  · rw [Std.ReflOrd.compare_self, Std.ReflOrd.compare_self]
  · rw [Std.OrientedOrd.eq_swap (a := f m), h n m hn hm hgt, compare_gt_iff_gt.mpr hgt]
    rfl

theorem compare_divMod {b : ℤ} (hb : 0 < b) (m n : ℤ) :
    compare m n = (compare (m / b) (n / b)).then (compare (m % b) (n % b)) := by
  have hm := Int.mul_ediv_add_emod m b
  have hn := Int.mul_ediv_add_emod n b
  rcases Int.lt_trichotomy (m / b) (n / b) with hlt | heq | hgt
  · have hmn : m < n := lt_of_not_ge fun hge => hlt.not_ge (Int.ediv_le_ediv hb hge)
    rw [compare_lt_iff_lt.mpr hlt, compare_lt_iff_lt.mpr hmn]
    rfl
  · rw [heq] at hm
    rw [compare_eq_iff_eq.mpr heq, Ordering.eq_then]
    rcases Int.lt_trichotomy (m % b) (n % b) with hlt | heq' | hgt
    · rw [compare_lt_iff_lt.mpr hlt, compare_lt_iff_lt.mpr (by omega)]
    · rw [compare_eq_iff_eq.mpr heq', compare_eq_iff_eq.mpr (by omega)]
    · rw [compare_gt_iff_gt.mpr hgt, compare_gt_iff_gt.mpr (by omega)]
  · have hmn : n < m := lt_of_not_ge fun hge => hgt.not_ge (Int.ediv_le_ediv hb hge)
    rw [compare_gt_iff_gt.mpr hgt, compare_gt_iff_gt.mpr hmn]
    rfl

/-! ### The order of digits -/

/-- Larger digits have larger symbols. -/
def Increasing (enc : ℤ → α) (b : ℤ) : Prop :=
  ∀ i j, 0 ≤ i → i < j → j < b → compare (enc i) (enc j) = .lt

/-- **Digits of a fixed count compare as the number.** -/
theorem compare_digits [Std.OrientedOrd α] {enc : ℤ → α} {b : ℤ} (hb : 0 < b)
    (henc : Increasing enc b) : ∀ {w : ℕ} {m n : ℤ}, 0 ≤ m → m < b ^ w → 0 ≤ n → n < b ^ w →
      compare (digits enc b w m) (digits enc b w n) = compare m n
  | 0, m, n, hm, hm', hn, hn' => by
    rw [pow_zero] at hm' hn'
    have heq : m = n := by omega
    rw [heq, Std.ReflOrd.compare_self, Std.ReflOrd.compare_self]
  | w + 1, m, n, hm, hm', hn, hn' => by
    rw [pow_succ] at hm' hn'
    have hquot := compare_digits hb henc (Int.ediv_nonneg hm hb.le)
      (Int.ediv_lt_of_lt_mul hb hm') (Int.ediv_nonneg hn hb.le) (Int.ediv_lt_of_lt_mul hb hn')
    have hrem : compare (enc (m % b)) (enc (n % b)) = compare (m % b) (n % b) := by
      refine compare_eq_of_lt (p := fun i => 0 ≤ i ∧ i < b) ?_
        ⟨Int.emod_nonneg m hb.ne', Int.emod_lt_of_pos m hb⟩
        ⟨Int.emod_nonneg n hb.ne', Int.emod_lt_of_pos n hb⟩
      exact fun i j hi hj hlt => henc i j hi.1 hlt hj.2
    have hsymbol : compare [enc (m % b)] [enc (n % b)] = compare (m % b) (n % b) := by
      rw [List.compare_cons_cons, hrem]
      cases compare (m % b) (n % b) <;> rfl
    rw [digits, digits, compare_append (by simp), hquot, hsymbol, ← compare_divMod hb]

/-- A field of digits, and what follows it. -/
theorem compare_digits_append [Std.OrientedOrd α] {enc : ℤ → α} {b : ℤ} (hb : 0 < b)
    (henc : Increasing enc b) {w : ℕ} {m n : ℤ} (hm : 0 ≤ m ∧ m < b ^ w) (hn : 0 ≤ n ∧ n < b ^ w)
    (s t : List α) : compare (digits enc b w m ++ s) (digits enc b w n ++ t) =
      (compare m n).then (compare s t) := by
  rw [compare_append (by simp), compare_digits hb henc hm.1 hm.2 hn.1 hn.2]

end FixedWidth
