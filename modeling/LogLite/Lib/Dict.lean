import Mathlib.Data.List.Nodup

/-!
# A dictionary that keeps the order of its keys

A dictionary is the list of its items, in the order in which their keys were assigned for
the first time.  An assignment to a key that is there replaces the value where it stands.

## Main definitions

* `set m k v` — `m[k] = v`.
* `assignAll m as` — a sequence of assignments.

## Main results

* `assignAll_eq_append` — assignments to new keys are all kept, in their order.
* `forall_mem_assignAll_iff` — **of assignments with different values all are kept exactly
  if no two are to the same key.**
-/

namespace Dict

variable {κ α : Type*} [DecidableEq κ]

/-- `m[k] = v`. -/
def set (m : List (κ × α)) (k : κ) (v : α) : List (κ × α) :=
  match m with
  | [] => [(k, v)]
  | p :: m => if p.1 = k then (k, v) :: m else p :: set m k v

/-- A sequence of assignments. -/
def assignAll (m as : List (κ × α)) : List (κ × α) :=
  as.foldl (fun m a => set m a.1 a.2) m

variable {m as : List (κ × α)} {k : κ} {v : α} {p : κ × α}

@[simp] theorem set_nil : set [] k v = [(k, v)] := rfl

theorem set_cons_self (h : p.1 = k) : set (p :: m) k v = (k, v) :: m := if_pos h

theorem set_cons_of_ne (h : p.1 ≠ k) : set (p :: m) k v = p :: set m k v := if_neg h

@[simp] theorem assignAll_nil : assignAll m [] = m := rfl

@[simp] theorem assignAll_cons : assignAll m (p :: as) = assignAll (set m p.1 p.2) as := rfl

/-- A new key goes to the end. -/
theorem set_of_notMem (h : k ∉ m.map Prod.fst) : set m k v = m ++ [(k, v)] := by
  induction m with
  | nil => rfl
  | cons q m ih =>
    rw [List.map_cons, List.mem_cons, not_or] at h
    rw [set_cons_of_ne (Ne.symm h.1), ih h.2]
    rfl

/-- A key that is there keeps its place. -/
theorem keys_set_of_mem (h : k ∈ m.map Prod.fst) :
    (set m k v).map Prod.fst = m.map Prod.fst := by
  induction m with
  | nil => exact absurd h List.not_mem_nil
  | cons q m ih =>
    by_cases hq : q.1 = k
    · rw [set_cons_self hq, List.map_cons, List.map_cons, hq]
    · rw [List.map_cons, List.mem_cons] at h
      rw [set_cons_of_ne hq, List.map_cons, List.map_cons, ih (h.resolve_left (Ne.symm hq))]

theorem nodup_keys_set (h : (m.map Prod.fst).Nodup) : ((set m k v).map Prod.fst).Nodup := by
  by_cases hk : k ∈ m.map Prod.fst
  · rwa [keys_set_of_mem hk]
  · rw [set_of_notMem hk, List.map_append, List.nodup_append]
    refine ⟨h, by simp, ?_⟩
    rintro a ha b hb rfl
    rw [List.map_singleton, List.mem_singleton] at hb
    subst hb
    exact hk ha

theorem mem_set (h : p ∈ set m k v) : p = (k, v) ∨ p ∈ m := by
  induction m with
  | nil => exact .inl (List.mem_singleton.mp h)
  | cons q m ih =>
    by_cases hq : q.1 = k
    · rw [set_cons_self hq, List.mem_cons] at h
      exact h.imp_right (List.mem_cons_of_mem _)
    · rw [set_cons_of_ne hq, List.mem_cons] at h
      rcases h with rfl | h
      · exact .inr List.mem_cons_self
      · exact (ih h).imp_right (List.mem_cons_of_mem _)

/-! ### A sequence of assignments -/

theorem nodup_keys_assignAll (h : (m.map Prod.fst).Nodup) :
    ((assignAll m as).map Prod.fst).Nodup := by
  induction as generalizing m with
  | nil => exact h
  | cons a as ih => exact ih (nodup_keys_set h)

/-- What is there afterwards was there or was assigned. -/
theorem mem_assignAll (h : p ∈ assignAll m as) : p ∈ m ∨ p ∈ as := by
  induction as generalizing m with
  | nil => exact .inl h
  | cons a as ih =>
    rcases ih h with hset | has
    · rcases mem_set hset with rfl | hm
      · exact .inr List.mem_cons_self
      · exact .inl hm
    · exact .inr (List.mem_cons_of_mem _ has)

/-- Assignments to new keys, no two to the same one. -/
theorem assignAll_eq_append (h : ((m ++ as).map Prod.fst).Nodup) : assignAll m as = m ++ as := by
  induction as generalizing m with
  | nil => exact (List.append_nil m).symm
  | cons a as ih =>
    have hsplit : m ++ a :: as = (m ++ [a]) ++ as := by simp
    have ha : a.1 ∉ m.map Prod.fst := by
      intro hmem
      rw [List.map_append, List.nodup_append] at h
      exact h.2.2 _ hmem _ List.mem_cons_self rfl
    rw [assignAll_cons, set_of_notMem ha, hsplit]
    exact ih (hsplit ▸ h)

/-- **Of assignments with different values all are kept exactly if no two are to the same
key.** -/
theorem forall_mem_assignAll_iff (has : (as.map Prod.snd).Nodup) :
    (∀ a ∈ as, a ∈ assignAll [] as) ↔ (as.map Prod.fst).Nodup := by
  constructor
  · intro hkept
    have hkeys : ((assignAll [] as).map Prod.fst).Nodup := nodup_keys_assignAll List.nodup_nil
    -- the keys tell apart what was kept
    refine has.of_map.map_on fun a ha b hb hab => ?_
    exact List.inj_on_of_nodup_map hkeys (hkept a ha) (hkept b hb) hab
  · intro hkeys a ha
    rw [assignAll_eq_append hkeys]
    exact ha

end Dict
