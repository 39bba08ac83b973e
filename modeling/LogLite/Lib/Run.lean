import Mathlib.Tactic.TypeStar
import Mathlib.Tactic.Common

/-!
# Runs of a labelled transition relation

A system is a relation `step s l t`: in the state `s` the step labelled `l` may
lead to `t`.  A `Run` is a finite sequence of steps, recorded by its labels.
Every safety statement is proved by one induction, `Run.invariant`; a statement
that holds only while some side condition is met is an invariant of the
`Guarded` relation, and `Run.guarded_or_break` cuts a run at the first step that
breaks the condition.

## Main definitions

* `Run step s ls t` — the steps labelled `ls` lead from `s` to `t`.
* `Guarded step C` — the steps of `step` taken in a state where `C` allows them.

## Main results

* `Run.invariant` — what every step keeps, every run keeps.
* `Run.guarded_congr` — conditions that agree where an invariant holds.
* `Run.guarded_or_break` — a run meets a condition throughout or breaks it at
  some step.
* `Run.exists_break` — what is lost in a run is lost at some step.
-/

namespace Transition

variable {σ ℓ : Type*}

/-- `Run step s ls t`: steps labelled by `ls`, in this order, lead from `s` to `t`. -/
inductive Run (step : σ → ℓ → σ → Prop) : σ → List ℓ → σ → Prop
  | nil (s : σ) : Run step s [] s
  | cons {s t u : σ} {l : ℓ} {ls : List ℓ} :
      step s l t → Run step t ls u → Run step s (l :: ls) u

/-- The steps that are taken in a state and with a label that `C` allows. -/
def Guarded (step : σ → ℓ → σ → Prop) (C : σ → ℓ → Prop) (s : σ) (l : ℓ) (t : σ) : Prop :=
  step s l t ∧ C s l

variable {step step' : σ → ℓ → σ → Prop} {C : σ → ℓ → Prop}

theorem Run.single {s t : σ} {l : ℓ} (h : step s l t) : Run step s [l] t :=
  .cons h (.nil t)

theorem Run.append {s t u : σ} {ls ls' : List ℓ} (h : Run step s ls t) (h' : Run step t ls' u) :
    Run step s (ls ++ ls') u := by
  induction h with
  | nil s => exact h'
  | cons hs _ ih => exact .cons hs (ih h')

theorem Run.mono (h : ∀ s l t, step s l t → step' s l t) {s t : σ} {ls : List ℓ}
    (hr : Run step s ls t) : Run step' s ls t := by
  induction hr with
  | nil s => exact .nil s
  | cons hs _ ih => exact .cons (h _ _ _ hs) ih

theorem Run.of_guarded {s t : σ} {ls : List ℓ} (h : Run (Guarded step C) s ls t) :
    Run step s ls t :=
  h.mono fun _ _ _ hs => hs.1

/-- **What every step keeps, every run keeps.** -/
theorem Run.invariant {I : σ → Prop} (hstep : ∀ s l t, I s → step s l t → I t)
    {s t : σ} {ls : List ℓ} (h : Run step s ls t) (hs : I s) : I t := by
  induction h with
  | nil s => exact hs
  | cons h₁ _ ih => exact ih (hstep _ _ _ hs h₁)

/-- Two conditions that agree wherever an invariant holds guard the same runs. -/
theorem Run.guarded_congr {I : σ → Prop} {C' : σ → ℓ → Prop}
    (hstep : ∀ s l t, I s → step s l t → I t)
    (hC : ∀ s l t, I s → step s l t → (C s l ↔ C' s l)) {s t : σ} {ls : List ℓ} (hs : I s) :
    Run (Guarded step C) s ls t ↔ Run (Guarded step C') s ls t := by
  constructor
  · intro h
    induction h with
    | nil s => exact .nil s
    | cons h₁ _ ih =>
      exact .cons ⟨h₁.1, (hC _ _ _ hs h₁.1).mp h₁.2⟩ (ih (hstep _ _ _ hs h₁.1))
  · intro h
    induction h with
    | nil s => exact .nil s
    | cons h₁ _ ih =>
      exact .cons ⟨h₁.1, (hC _ _ _ hs h₁.1).mpr h₁.2⟩ (ih (hstep _ _ _ hs h₁.1))

/-- A run meets the condition `C` at every step, or it breaks it at some step,
and up to there it meets it. -/
theorem Run.guarded_or_break (C : σ → ℓ → Prop) {s u : σ} {ls : List ℓ} (h : Run step s ls u) :
    Run (Guarded step C) s ls u ∨
      ∃ ls₁ l ls₂ a b, ls = ls₁ ++ l :: ls₂ ∧ Run (Guarded step C) s ls₁ a ∧
        step a l b ∧ ¬ C a l ∧ Run step b ls₂ u := by
  induction h with
  | nil s => exact .inl (.nil s)
  | @cons s t u l ls hs hrest ih =>
    by_cases hC : C s l
    · rcases ih with hg | ⟨ls₁, l', ls₂, a, b, rfl, hg, hb⟩
      · exact .inl (.cons ⟨hs, hC⟩ hg)
      · exact .inr ⟨l :: ls₁, l', ls₂, a, b, rfl, .cons ⟨hs, hC⟩ hg, hb⟩
    · exact .inr ⟨[], l, ls, s, t, rfl, .nil s, hs, hC, hrest⟩

/-- What holds at the start of a run and not at its end, some step ends. -/
theorem Run.exists_break {P : σ → Prop} {s u : σ} {ls : List ℓ} (h : Run step s ls u)
    (hs : P s) (hu : ¬ P u) : ∃ ls₁ l ls₂ a b, ls = ls₁ ++ l :: ls₂ ∧ Run step s ls₁ a ∧
      step a l b ∧ Run step b ls₂ u ∧ P a ∧ ¬ P b := by
  induction h with
  | nil s => exact absurd hs hu
  | @cons s t u l ls hstep hrest ih =>
    by_cases ht : P t
    · obtain ⟨ls₁, l', ls₂, a, b, rfl, hrun, hab, hlast, ha, hb⟩ := ih ht hu
      exact ⟨l :: ls₁, l', ls₂, a, b, rfl, .cons hstep hrun, hab, hlast, ha, hb⟩
    · exact ⟨[], l, ls, s, t, rfl, .nil s, hstep, hrest, hs, ht⟩

end Transition
