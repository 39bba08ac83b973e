import Mathlib.Data.List.Basic
import Mathlib.Tactic.TypeStar
import Mathlib.Tactic.Common

/-!
# Segments of a stream

A separator cuts a stream into the segments before each occurrence of it, and the
rest after the last one, which is not terminated yet.

## Main definitions

* `segments sep l` — the terminated segments of `l`, and the rest.

## Main results

* `segments_append_sep`, `segments_of_notMem` — the first segment, and a stream without a
  separator.
* `segments_append` — a stream in two parts.
* `segments_spec` — the stream is its segments with their separators, and its rest; no
  separator is left in them.
* `segments_eq` — there is no other way to cut it.
-/

namespace Segments

variable {α : Type*} [DecidableEq α] {sep : α}

/-- The terminated segments of a stream, and the rest. -/
def segments (sep : α) : List α → List (List α) × List α
  | [] => ([], [])
  | a :: l =>
    let p := segments sep l
    if a = sep then ([] :: p.1, p.2)
    else
      match p.1 with
      | [] => ([], a :: p.2)
      | s :: ss => ((a :: s) :: ss, p.2)

@[simp] theorem segments_nil : segments sep [] = ([], []) := rfl

/-- A separator ends the empty segment. -/
theorem segments_sep (l : List α) :
    segments sep (sep :: l) = ([] :: (segments sep l).1, (segments sep l).2) := by
  simp [segments]

theorem segments_cons_of_ne {a : α} (h : a ≠ sep) (l : List α) :
    segments sep (a :: l) =
      match (segments sep l).1 with
      | [] => ([], a :: (segments sep l).2)
      | s :: ss => ((a :: s) :: ss, (segments sep l).2) := by
  simp [segments, h]

/-- A stream without separators is not terminated. -/
theorem segments_of_notMem {l : List α} (h : sep ∉ l) : segments sep l = ([], l) := by
  induction l with
  | nil => rfl
  | cons a l ih =>
    rw [List.mem_cons, not_or] at h
    rw [segments_cons_of_ne (Ne.symm h.1), ih h.2]

/-- The first segment goes up to the first separator. -/
theorem segments_append_sep {s : List α} (h : sep ∉ s) (l : List α) :
    segments sep (s ++ sep :: l) = (s :: (segments sep l).1, (segments sep l).2) := by
  induction s with
  | nil => exact segments_sep l
  | cons a s ih =>
    rw [List.mem_cons, not_or] at h
    rw [List.cons_append, segments_cons_of_ne (Ne.symm h.1), ih h.2]

/-- What comes later only continues the rest. -/
theorem segments_append (l l' : List α) :
    segments sep (l ++ l') =
      ((segments sep l).1 ++ (segments sep ((segments sep l).2 ++ l')).1,
        (segments sep ((segments sep l).2 ++ l')).2) := by
  induction l with
  | nil => simp
  | cons a l ih =>
    by_cases ha : a = sep
    · subst ha
      rw [List.cons_append, segments_sep, segments_sep, ih, List.cons_append]
    · rw [List.cons_append, segments_cons_of_ne ha, segments_cons_of_ne ha, ih]
      cases hs : (segments sep l).1 with
      | nil =>
        -- the first segment is the one that the rest of `l` begins
        rw [List.nil_append, List.nil_append, List.cons_append, segments_cons_of_ne ha]
      | cons s ss => rfl

/-- **A stream is its segments, each with its separator, and its rest.** -/
theorem segments_spec (sep : α) (l : List α) :
    l = ((segments sep l).1.flatMap fun s => s ++ [sep]) ++ (segments sep l).2 ∧
      (∀ s ∈ (segments sep l).1, sep ∉ s) ∧ sep ∉ (segments sep l).2 := by
  induction l with
  | nil => simp
  | cons a l ih =>
    obtain ⟨heq, hsegs, hrest⟩ := ih
    by_cases ha : a = sep
    · subst ha
      rw [segments_sep]
      refine ⟨by rw [List.flatMap_cons, List.nil_append, List.append_assoc, ← heq]; rfl, ?_, hrest⟩
      exact List.forall_mem_cons.mpr ⟨List.not_mem_nil, hsegs⟩
    · rw [segments_cons_of_ne ha]
      cases hs : (segments sep l).1 with
      | nil =>
        rw [hs, List.flatMap_nil, List.nil_append] at heq
        refine ⟨by rw [List.flatMap_nil, List.nil_append, ← heq], by simp, ?_⟩
        rw [List.mem_cons, not_or]
        exact ⟨Ne.symm ha, hrest⟩
      | cons s ss =>
        rw [hs] at heq hsegs
        rw [List.forall_mem_cons] at hsegs
        refine ⟨?_, ?_, hrest⟩
        · rw [List.flatMap_cons] at heq ⊢
          rw [List.cons_append, List.cons_append, List.cons_append, ← heq]
        · refine List.forall_mem_cons.mpr ⟨?_, hsegs.2⟩
          rw [List.mem_cons, not_or]
          exact ⟨Ne.symm ha, hsegs.1⟩

/-- There is no other way to cut it. -/
theorem segments_eq {ss : List (List α)} {rest : List α} (hss : ∀ s ∈ ss, sep ∉ s)
    (hrest : sep ∉ rest) :
    segments sep ((ss.flatMap fun s => s ++ [sep]) ++ rest) = (ss, rest) := by
  induction ss with
  | nil => exact segments_of_notMem hrest
  | cons s ss ih =>
    obtain ⟨hs, hss⟩ := List.forall_mem_cons.mp hss
    rw [List.flatMap_cons, List.append_assoc, List.append_assoc, List.singleton_append,
      segments_append_sep hs, ih hss]

end Segments
