import Mathlib.Logic.Function.Basic
import Mathlib.Tactic.Common

/-!
# Interning: partial injective numberings

An interning table numbers some of the values of a type, no two of them alike,
and only ever grows.  Here it is a partial function `f : α → Option ι`; a data
structure that implements such a table says which partial function it stands
for.

## Main definitions

* `Numbering f` — different values have different numbers.
* `Extends f g` — `g` numbers everything `f` numbers, and alike.

## Main results

* `Numbering.update` — numbering one more value with an unused number.
-/

namespace Interning

variable {α ι : Type*} {f g h : α → Option ι}

/-- No two values have the same number. -/
def Numbering (f : α → Option ι) : Prop :=
  ∀ ⦃a b : α⦄ ⦃i : ι⦄, f a = some i → f b = some i → a = b

/-- Whatever `f` numbers, `g` numbers in the same way. -/
def Extends (f g : α → Option ι) : Prop :=
  ∀ ⦃a : α⦄ ⦃i : ι⦄, f a = some i → g a = some i

theorem Extends.refl (f : α → Option ι) : Extends f f := fun _ _ h => h

theorem Extends.trans (hfg : Extends f g) (hgh : Extends g h) : Extends f h :=
  fun _ _ h => hgh (hfg h)

theorem numbering_none : Numbering fun _ : α => (none : Option ι) := by
  intro a b i ha
  cases ha

variable [DecidableEq α]

/-- One more value may be numbered with a number that is not used. -/
theorem Numbering.update (hf : Numbering f) {a : α} {i : ι} (hi : ∀ b, f b ≠ some i) :
    Numbering (Function.update f a (some i)) := by
  have hother : ∀ b, b ≠ a → Function.update f a (some i) b ≠ some i := by
    intro b hb
    rw [Function.update_of_ne hb]
    exact hi b
  intro b c j hb hc
  by_cases hba : b = a
  · by_cases hca : c = a
    · rw [hba, hca]
    · rw [hba, Function.update_self] at hb
      exact absurd (hb ▸ hc) (hother c hca)
  · by_cases hca : c = a
    · rw [hca, Function.update_self] at hc
      exact absurd (hc ▸ hb) (hother b hba)
    · rw [Function.update_of_ne hba] at hb
      rw [Function.update_of_ne hca] at hc
      exact hf hb hc

end Interning
