import Mathlib.Data.List.Nodup
import Mathlib.Data.List.Perm.Basic

/-!
# Resources that are lent

A pool owns some resources; each of them is either out on a lease or free.

## Main definitions

* `Divided all leased free` — the resources are the leased ones and the free ones, each
  of them once.

## Main results

* `Divided.lend`, `Divided.giveBack` — what a pool may do.
* `Divided.nodup_leased` — no resource is lent twice.
* `Divided.free_perm` — without leases, every resource is free.
-/

namespace Pool

variable {R : Type*} {all leased free : List R} {r : R}

/-- The resources are the leased and the free ones, without duplicates. -/
structure Divided (all leased free : List R) : Prop where
  nodup : all.Nodup
  perm : (leased ++ free).Perm all

/-- At first, every resource is free. -/
theorem Divided.start (h : all.Nodup) : Divided all [] all := ⟨h, .refl all⟩

/-- A free resource is lent. -/
theorem Divided.lend (h : Divided all leased (r :: free)) : Divided all (r :: leased) free :=
  ⟨h.nodup, List.perm_middle.symm.trans h.perm⟩

/-- A leased resource comes back, to the end of the free ones. -/
theorem Divided.giveBack {before after : List R} (h : Divided all (before ++ r :: after) free) :
    Divided all (before ++ after) (free ++ [r]) := by
  refine ⟨h.nodup, List.Perm.trans ?_ h.perm⟩
  have hlast : (before ++ after ++ (free ++ [r])).Perm (r :: (before ++ after ++ free)) := by
    rw [← List.append_assoc]
    exact List.perm_append_singleton r _
  have hfirst : (before ++ r :: after ++ free).Perm (r :: (before ++ after ++ free)) :=
    List.perm_middle.append_right free
  exact hlast.trans hfirst.symm

/-- No resource is lent twice. -/
theorem Divided.nodup_leased (h : Divided all leased free) : leased.Nodup :=
  (h.perm.nodup_iff.mpr h.nodup).of_append_left

/-- What is lent belongs to the pool. -/
theorem Divided.mem_all (h : Divided all leased free) (hr : r ∈ leased) : r ∈ all :=
  h.perm.mem_iff.mp (List.mem_append_left free hr)

/-- Without leases, every resource is free. -/
theorem Divided.free_perm (h : Divided all [] free) : free.Perm all := h.perm

end Pool
