import Mathlib.Data.List.Basic
import Mathlib.Data.List.Count
import Mathlib.Tactic.TypeStar
import Mathlib.Tactic.Common

/-!
# Texts with placeholders

A prepared text is a list of symbols in which one symbol `q` stands for a value
that is given later.  Values are bound from left to right: the first to the first
`q`, and so on.  A `q` for which there is no value is left as it is.

## Main definitions

* `fill q text vs` — the text with the values in place of the placeholders.

## Main results

* `fill_append` — values are bound in the order of the parts of a text.
-/

namespace Placeholder

variable {α β : Type*} [DecidableEq α] {q : α}

/-- The text with its placeholders replaced by the values, from left to right. -/
def fill (q : α) : List α → List β → List (α ⊕ β)
  | [], _ => []
  | a :: text, vs =>
    if a = q then
      match vs with
      | [] => .inl a :: fill q text []
      | v :: vs => .inr v :: fill q text vs
    else .inl a :: fill q text vs

@[simp] theorem fill_nil (vs : List β) : fill q [] vs = [] := rfl

@[simp] theorem fill_placeholder (text : List α) (v : β) (vs : List β) :
    fill q (q :: text) (v :: vs) = .inr v :: fill q text vs := by
  simp [fill]

theorem fill_cons_of_ne {a : α} (h : a ≠ q) (text : List α) (vs : List β) :
    fill q (a :: text) vs = .inl a :: fill q text vs := by
  simp [fill, h]

/-- A text without placeholders binds nothing. -/
theorem fill_of_notMem {text : List α} (h : q ∉ text) (vs : List β) :
    fill q text vs = text.map .inl := by
  induction text with
  | nil => rfl
  | cons a text ih =>
    rw [List.mem_cons, not_or] at h
    rw [fill_cons_of_ne (Ne.symm h.1), ih h.2, List.map_cons]

/-- **The values of a text are bound part by part**, if the first part has one
placeholder for each of its values. -/
theorem fill_append {text : List α} {vs : List β} (h : text.count q = vs.length)
    (text' : List α) (vs' : List β) :
    fill q (text ++ text') (vs ++ vs') = fill q text vs ++ fill q text' vs' := by
  induction text generalizing vs with
  | nil =>
    obtain rfl : vs = [] := List.length_eq_zero_iff.mp h.symm
    rfl
  | cons a text ih =>
    by_cases ha : a = q
    · subst ha
      rw [List.count_cons_self] at h
      cases vs with
      | nil => cases h
      | cons v vs =>
        rw [List.length_cons, Nat.add_right_cancel_iff] at h
        rw [List.cons_append, List.cons_append, fill_placeholder, fill_placeholder, ih h,
          List.cons_append]
    · rw [List.count_cons_of_ne ha] at h
      rw [List.cons_append, fill_cons_of_ne ha, fill_cons_of_ne ha, ih h, List.cons_append]

/-- A first part without placeholders. -/
theorem fill_append_of_notMem {text : List α} (h : q ∉ text) (text' : List α) (vs : List β) :
    fill q (text ++ text') vs = text.map .inl ++ fill q text' vs := by
  have hcount : text.count q = ([] : List β).length := List.count_eq_zero_of_not_mem h
  rw [← fill_of_notMem h ([] : List β)]
  exact fill_append hcount text' vs

end Placeholder
