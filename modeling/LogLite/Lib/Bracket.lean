import Mathlib.Data.Int.Notation
import Mathlib.Order.Basic

/-!
# Bracketing an interval by two tests

The integers from `first` to `last` are given in their order.  One test holds from some
place on, another one up to some place, and the elements that meet both are taken.  They
are the elements of an interval that is not empty exactly if the tests change where the
interval begins and ends; that is a matter of four elements.

## Main results

* `bracket_iff` — **all elements inside an interval and none outside it are taken exactly
  if the tests are right at the ends of the interval and just outside them.**
-/

namespace Bracket

variable {fromHere upToHere : ℤ → Prop} {first last : ℤ}

/-- The first test goes on to hold, the second one held before. -/
structure Monotone (fromHere upToHere : ℤ → Prop) (first last : ℤ) : Prop where
  up : ∀ k k', first ≤ k → k ≤ k' → k' ≤ last → fromHere k → fromHere k'
  down : ∀ k k', first ≤ k → k ≤ k' → k' ≤ last → upToHere k' → upToHere k

/-- The interval goes from `lo` to `hi`; the elements up to `before` and those from `after` on
are outside. -/
theorem bracket_iff (h : Monotone fromHere upToHere first last) {before lo hi after : ℤ}
    (hfirst : first ≤ before) (hlo : before < lo) (hlohi : lo ≤ hi) (hhi : hi < after)
    (hlast : hi ≤ last) :
    (∀ k, first ≤ k → k ≤ last →
        (lo ≤ k → k ≤ hi → fromHere k ∧ upToHere k) ∧
          (k ≤ before ∨ after ≤ k → ¬ (fromHere k ∧ upToHere k))) ↔
      (¬ fromHere before ∧ fromHere lo) ∧ upToHere hi ∧ (after ≤ last → ¬ upToHere after) := by
  constructor
  · intro hall
    have hlo' := (hall lo (by omega) (by omega)).1 (Int.le_refl lo) hlohi
    have hhi' := (hall hi (by omega) hlast).1 hlohi (Int.le_refl hi)
    refine ⟨⟨fun hfrom => ?_, hlo'.1⟩, hhi'.2, fun hafter hupTo => ?_⟩
    · refine (hall before hfirst (by omega)).2 (.inl (Int.le_refl before)) ⟨hfrom, ?_⟩
      exact h.down before lo hfirst (by omega) (by omega) hlo'.2
    · refine (hall after (by omega) hafter).2 (.inr (Int.le_refl after)) ⟨?_, hupTo⟩
      exact h.up lo after (by omega) (by omega) hafter hlo'.1
  · rintro ⟨⟨hbefore, hfrom⟩, hupTo, hafter⟩ k hk hk'
    refine ⟨fun hlok hkhi => ⟨?_, ?_⟩, ?_⟩
    · exact h.up lo k (by omega) hlok hk' hfrom
    · exact h.down k hi hk hkhi hlast hupTo
    · rintro (hle | hge) ⟨hkfrom, hkupTo⟩
      · exact hbefore (h.up k before hk hle (by omega) hkfrom)
      · exact hafter (by omega) (h.down after k (by omega) hge hk' hkupTo)

end Bracket
