import Mathlib.Data.List.Nodup
import Mathlib.Logic.Function.Basic

/-!
# A record that is loaded member by member

A record is a function on its members.  A loader goes through a list of them; for each one
it finds a value, finds none, or gives up.  A member without a value keeps the one it had.

## Main definitions

* `loadAll find ms r` — the record after the members `ms`.

## Main results

* `loadAll_eq_ok_iff` — **the loader gives up on no member, and each has the value found
  for it, or its old one.**
-/

namespace Memberwise

variable {ι ε : Type*} {β : ι → Type*} [DecidableEq ι]

/-- Give each of the members the value found for it. -/
def loadAll (find : (i : ι) → Except ε (Option (β i))) : List ι → ((i : ι) → β i) →
    Except ε ((i : ι) → β i)
  | [], r => .ok r
  | i :: is, r =>
    match find i with
    | .error e => .error e
    | .ok none => loadAll find is r
    | .ok (some v) => loadAll find is (Function.update r i v)

variable {find : (i : ι) → Except ε (Option (β i))} {ms : List ι} {r r' : (i : ι) → β i}

@[simp] theorem loadAll_nil : loadAll find [] r = .ok r := rfl

theorem loadAll_cons_error {i : ι} {e : ε} (h : find i = .error e) :
    loadAll find (i :: ms) r = .error e := by
  rw [loadAll, h]

/-- One member, with the value found for it or its old one. -/
theorem loadAll_cons_ok {i : ι} {v : Option (β i)} (h : find i = .ok v) :
    loadAll find (i :: ms) r = loadAll find ms (Function.update r i (v.getD (r i))) := by
  rw [loadAll, h]
  cases v with
  | none => simp
  | some v => rfl

/-- **A record is loaded exactly if no member is given up on; each member then has the
value found for it, or its old one.** -/
theorem loadAll_eq_ok_iff (hms : ms.Nodup) :
    loadAll find ms r = .ok r' ↔
      (∀ i ∈ ms, ∃ v, find i = .ok v ∧ r' i = v.getD (r i)) ∧ ∀ i ∉ ms, r' i = r i := by
  induction ms generalizing r with
  | nil =>
    rw [loadAll_nil, Except.ok.injEq]
    exact ⟨fun h => ⟨by simp, fun i _ => h ▸ rfl⟩, fun h => funext fun i => (h.2 i (by simp)).symm⟩
  | cons i ms ih =>
    obtain ⟨hi, hms⟩ := List.nodup_cons.mp hms
    rw [List.forall_mem_cons]
    cases hfind : find i with
    | error e =>
      rw [loadAll_cons_error hfind]
      simp
    | ok v =>
      rw [loadAll_cons_ok hfind, ih hms]
      -- the members behind `i` are not touched by its value
      have hne : ∀ j ∈ ms, Function.update r i (v.getD (r i)) j = r j := by
        intro j hj
        have hji : j ≠ i := by
          rintro rfl
          exact hi hj
        exact Function.update_of_ne hji _ _
      constructor
      · rintro ⟨hall, hrest⟩
        refine ⟨⟨⟨v, rfl, ?_⟩, ?_⟩, ?_⟩
        · rw [hrest i hi, Function.update_self]
        · intro j hj
          obtain ⟨w, hw, hwj⟩ := hall j hj
          exact ⟨w, hw, by rw [hwj, hne j hj]⟩
        · intro j hj
          rw [List.mem_cons, not_or] at hj
          rw [hrest j hj.2, Function.update_of_ne hj.1]
      · rintro ⟨⟨⟨w, hw, hwi⟩, hall⟩, hrest⟩
        obtain rfl : v = w := by simpa using hw
        refine ⟨?_, ?_⟩
        · intro j hj
          obtain ⟨w, hw, hwj⟩ := hall j hj
          exact ⟨w, hw, by rw [hwj, hne j hj]⟩
        · intro j hj
          by_cases hji : j = i
          · subst hji
            rw [hwi, Function.update_self]
          · rw [hrest j (by simp [hji, hj]), Function.update_of_ne hji]

/-- A loader fails only on a member. -/
theorem exists_error_of_loadAll {e : ε} (h : loadAll find ms r = .error e) :
    ∃ i ∈ ms, find i = .error e := by
  induction ms generalizing r with
  | nil => cases h
  | cons i ms ih =>
    cases hfind : find i with
    | error e' =>
      rw [loadAll_cons_error hfind] at h
      cases h
      exact ⟨i, List.mem_cons_self, hfind⟩
    | ok v =>
      rw [loadAll_cons_ok hfind] at h
      obtain ⟨j, hj, hfindj⟩ := ih h
      exact ⟨j, List.mem_cons_of_mem i hj, hfindj⟩

end Memberwise
