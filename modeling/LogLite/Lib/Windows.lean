import Mathlib.Order.Lattice
import Mathlib.Data.List.Forall2
import Mathlib.Data.List.Nodup

/-!
# Batches from windows that only move forward

A consumer takes batches of items out of a store that may change in any way between
two batches.  Each batch comes from a window of keys, open below and closed above,
and every window starts where the one before it ended, or later.  That alone keeps
the batches apart.

## Main definitions

* `Series key lo hi batches windows` — the batches come from these windows, between
  `lo` and `hi`.

## Main results

* `Series.push`, `Series.mono` — a batch from the next window, and moving on without
  one.
* `Series.nodup`, `Series.lt` — no key is taken twice, and none up to `lo`.
-/

namespace Windows

variable {α K : Type*} [LinearOrder K] {key : α → K} {lo hi hi' : K} {batches : List (List α)}
  {windows : List (K × K)}

/-- The key lies in the window. -/
def Inside (w : K × K) (k : K) : Prop := w.1 < k ∧ k ≤ w.2

/-- The batches come from windows that increase and lie between `lo` and `hi`. -/
structure Series (key : α → K) (lo hi : K) (batches : List (List α)) (windows : List (K × K)) :
    Prop where
  le : lo ≤ hi
  increasing : windows.Pairwise fun w w' => w.2 ≤ w'.1
  proper : ∀ w ∈ windows, w.1 < w.2
  bounded : ∀ w ∈ windows, lo ≤ w.1 ∧ w.2 ≤ hi
  inside : List.Forall₂ (fun batch w => ∀ a ∈ batch, Inside w (key a)) batches windows
  distinct : ∀ batch ∈ batches, (batch.map key).Nodup

/-- The window a batch comes from. -/
theorem exists_window {β : Type*} {R : List α → β → Prop} {windows : List β}
    (h : List.Forall₂ R batches windows) {batch : List α} (hbatch : batch ∈ batches) :
    ∃ w ∈ windows, R batch w := by
  obtain ⟨i, hi, rfl⟩ := List.getElem_of_mem hbatch
  have hi' : i < windows.length := h.length_eq ▸ hi
  exact ⟨windows[i], List.getElem_mem hi', h.get hi hi'⟩

namespace Series

theorem nil (key : α → K) (lo : K) : Series key lo lo [] [] where
  le := le_rfl
  increasing := .nil
  proper := by simp
  bounded := by simp
  inside := .nil
  distinct := by simp

/-- Moving on without a batch. -/
theorem mono (h : Series key lo hi batches windows) (hle : hi ≤ hi') :
    Series key lo hi' batches windows where
  le := h.le.trans hle
  increasing := h.increasing
  proper := h.proper
  bounded := fun w hw => ⟨(h.bounded w hw).1, (h.bounded w hw).2.trans hle⟩
  inside := h.inside
  distinct := h.distinct

/-- A batch from the next window. -/
theorem push (h : Series key lo hi batches windows) (hlt : hi < hi') {batch : List α}
    (hbatch : ∀ a ∈ batch, Inside (hi, hi') (key a)) (hnodup : (batch.map key).Nodup) :
    Series key lo hi' (batches ++ [batch]) (windows ++ [(hi, hi')]) where
  le := h.le.trans hlt.le
  increasing := by
    refine List.pairwise_append.mpr ⟨h.increasing, List.pairwise_singleton _ _, ?_⟩
    intro w hw w' hw'
    rw [List.mem_singleton.mp hw']
    exact (h.bounded w hw).2
  proper := by
    intro w hw
    rcases List.mem_append.mp hw with hw | hw
    · exact h.proper w hw
    · rw [List.mem_singleton.mp hw]
      exact hlt
  bounded := by
    intro w hw
    rcases List.mem_append.mp hw with hw | hw
    · exact (h.mono hlt.le).bounded w hw
    · rw [List.mem_singleton.mp hw]
      exact ⟨h.le, le_rfl⟩
  inside := List.rel_append h.inside (.cons hbatch .nil)
  distinct := by
    intro b hb
    rcases List.mem_append.mp hb with hb | hb
    · exact h.distinct b hb
    · rw [List.mem_singleton.mp hb]
      exact hnodup

/-- Every item taken lies in one of the windows. -/
theorem exists_inside (h : Series key lo hi batches windows) {a : α} (ha : a ∈ batches.flatten) :
    ∃ w ∈ windows, Inside w (key a) := by
  obtain ⟨batch, hbatch, ha⟩ := List.mem_flatten.mp ha
  obtain ⟨w, hw, hin⟩ := exists_window h.inside hbatch
  exact ⟨w, hw, hin a ha⟩

/-- Nothing up to `lo` is taken. -/
theorem lt (h : Series key lo hi batches windows) {a : α} (ha : a ∈ batches.flatten) :
    lo < key a := by
  obtain ⟨w, hw, hin⟩ := h.exists_inside ha
  exact (h.bounded w hw).1.trans_lt hin.1

/-- **No key is taken twice.** -/
theorem nodup (h : Series key lo hi batches windows) : (batches.flatten.map key).Nodup := by
  obtain ⟨-, hinc, -, -, hinside, hdistinct⟩ := h
  induction hinside with
  | nil => exact .nil
  | @cons b w batches windows hw hrest ih =>
    rw [List.pairwise_cons] at hinc
    rw [List.flatten_cons, List.map_append, List.nodup_append]
    refine ⟨hdistinct b List.mem_cons_self,
      ih hinc.2 fun b' hb' => hdistinct b' (List.mem_cons_of_mem b hb'), ?_⟩
    intro k hk k' hk' heq
    obtain ⟨a, ha, rfl⟩ := List.mem_map.mp hk
    obtain ⟨a', ha', rfl⟩ := List.mem_map.mp hk'
    -- the later item lies in a window that starts where this one has ended
    obtain ⟨batch, hbatch, ha'⟩ := List.mem_flatten.mp ha'
    obtain ⟨w', hw', hin⟩ := exists_window hrest hbatch
    have hlow := (hin a' ha').1
    have hhigh := (hw a ha).2
    rw [heq] at hhigh
    exact absurd (hhigh.trans (hinc.1 w' hw')) (not_le.mpr hlow)

end Series

end Windows
