import Mathlib.Algebra.Order.Group.Defs
import Mathlib.Algebra.Order.Group.Unbundled.Basic
import Mathlib.Data.List.Basic

/-!
# Queues over a sliding time window

A queue holds stamped items in the order of their stamps.  At any time the items
that are older than a window are dropped from its front.  Since time only goes
on, it does not matter when and how often that is done: a queue `Represents` the
list of all items ever pushed, in the sense that from now on both have the same
live items.

## Main definitions

* `live`, `prune` — the items inside the window, and dropping the others.
* `Represents` — the queue has the live items of a list, at all later times.

## Main results

* `prune_eq_filter` — pruning keeps the live items.
* `Represents.push`, `Represents.prune`, `Represents.prune_eq` — what the queue
  does is done to the list it represents.
-/

namespace SlidingWindow

variable {α T : Type*} [LinearOrder T] {stamp : α → T} {now later : T} {q l : List α}

/-- The stamps do not decrease along the queue, and none is later than `now`. -/
def SortedUpTo (stamp : α → T) (now : T) (q : List α) : Prop :=
  q.Pairwise (fun a b => stamp a ≤ stamp b) ∧ ∀ a ∈ q, stamp a ≤ now

theorem SortedUpTo.mono (hq : SortedUpTo stamp now q) (h : now ≤ later) :
    SortedUpTo stamp later q :=
  ⟨hq.1, fun a ha => (hq.2 a ha).trans h⟩

theorem SortedUpTo.push (hq : SortedUpTo stamp now q) {a : α} (ha : stamp a = now) :
    SortedUpTo stamp now (q ++ [a]) := by
  refine ⟨List.pairwise_append.mpr ⟨hq.1, by simp, ?_⟩, ?_⟩
  · intro b hb c hc
    rw [List.mem_singleton.mp hc, ha]
    exact hq.2 b hb
  · intro b hb
    rcases List.mem_append.mp hb with hb | hb
    · exact hq.2 b hb
    · rw [List.mem_singleton.mp hb, ha]

variable [AddCommGroup T] {window : T}

/-- The item is younger than the window. -/
def live (stamp : α → T) (window now : T) (a : α) : Bool := now - stamp a < window

/-- Drop the items that are not live from the front. -/
def prune (stamp : α → T) (window now : T) (q : List α) : List α :=
  q.dropWhile fun a => !live stamp window now a

/-- From `now` on, the queue has the live items of `l`. -/
structure Represents (stamp : α → T) (window now : T) (q l : List α) : Prop where
  sorted : SortedUpTo stamp now q
  agree : ∀ later, now ≤ later → q.filter (live stamp window later) =
    l.filter (live stamp window later)

namespace Represents

theorem nil (stamp : α → T) (window now : T) : Represents stamp window now [] [] where
  sorted := ⟨.nil, by simp⟩
  agree := fun _ _ => rfl

/-- Time goes on. -/
theorem mono (hr : Represents stamp window now q l) (h : now ≤ later) :
    Represents stamp window later q l where
  sorted := hr.sorted.mono h
  agree := fun t ht => hr.agree t (h.trans ht)

/-- Pushing an item stamped now pushes it to the list. -/
theorem push (hr : Represents stamp window now q l) {a : α} (ha : stamp a = now) :
    Represents stamp window now (q ++ [a]) (l ++ [a]) where
  sorted := hr.sorted.push ha
  agree := by
    intro t ht
    rw [List.filter_append, List.filter_append, hr.agree t ht]

end Represents

variable [IsOrderedAddMonoid T]

/-- An item that is live later is live now. -/
theorem live_of_le {a : α} (h : now ≤ later) (ha : live stamp window later a = true) :
    live stamp window now a = true := by
  unfold live at *
  rw [decide_eq_true_eq] at *
  exact lt_of_le_of_lt (sub_le_sub_right h _) ha

/-- An item with a later stamp is live whenever the earlier one is. -/
theorem live_of_stamp_le {a b : α} (h : stamp a ≤ stamp b) (ha : live stamp window now a = true) :
    live stamp window now b = true := by
  unfold live at *
  rw [decide_eq_true_eq] at *
  exact lt_of_le_of_lt (sub_le_sub_left h _) ha

/-- **Pruning keeps the live items.** -/
theorem prune_eq_filter (h : q.Pairwise fun a b => stamp a ≤ stamp b) :
    prune stamp window now q = q.filter (live stamp window now) := by
  unfold prune
  induction q with
  | nil => rfl
  | cons a q ih =>
    rw [List.pairwise_cons] at h
    cases ha : live stamp window now a with
    | false =>
      rw [List.dropWhile_cons_of_pos (by rw [ha]; rfl), List.filter_cons_of_neg (by simp [ha])]
      exact ih h.2
    | true =>
      -- the items behind a live one are all live
      rw [List.dropWhile_cons_of_neg (by simp [ha]), eq_comm, List.filter_eq_self]
      intro b hb
      rcases List.mem_cons.mp hb with rfl | hb
      · exact ha
      · exact live_of_stamp_le (h.1 b hb) ha

theorem filter_live_filter_live (h : now ≤ later) (l : List α) :
    (l.filter (live stamp window now)).filter (live stamp window later) =
      l.filter (live stamp window later) := by
  rw [List.filter_filter]
  refine List.filter_congr fun a _ => ?_
  cases ha : live stamp window later a with
  | false => rfl
  | true => rw [live_of_le h ha, Bool.and_self]

/-- Pruning changes the queue but not what it represents. -/
theorem Represents.prune (hr : Represents stamp window now q l) :
    Represents stamp window now (prune stamp window now q) l where
  sorted := by
    rw [prune_eq_filter hr.sorted.1]
    exact ⟨hr.sorted.1.sublist List.filter_sublist,
      fun a ha => hr.sorted.2 a (List.mem_of_mem_filter ha)⟩
  agree := by
    intro t ht
    rw [prune_eq_filter hr.sorted.1, filter_live_filter_live ht, hr.agree t ht]

/-- **What is left of the queue after pruning: the live items of the list.** -/
theorem Represents.prune_eq (hr : Represents stamp window now q l) :
    SlidingWindow.prune stamp window now q = l.filter (live stamp window now) := by
  rw [prune_eq_filter hr.sorted.1, hr.agree now le_rfl]

end SlidingWindow
