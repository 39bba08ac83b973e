import LogLite.Lib.Run

/-!
# Simulations

A system simulates another one if each step of the second is a run of the first, between
states that are related.  Then whole runs are.

## Main definitions

* `Simulates R step step'` — the steps of `step` are runs of `step'`.

## Main results

* `Simulates.run` — runs are runs.
-/

namespace Transition

variable {σ τ ℓ ℓ' : Type*}

/-- Each step of `step` is a run of `step'`, between related states. -/
def Simulates (R : σ → τ → Prop) (step : σ → ℓ → σ → Prop) (step' : τ → ℓ' → τ → Prop) : Prop :=
  ∀ s l t a, R s a → step s l t → ∃ ls b, Run step' a ls b ∧ R t b

section
variable {R : σ → τ → Prop} {step : σ → ℓ → σ → Prop} {step' : τ → ℓ' → τ → Prop}
  {s t : σ} {ls : List ℓ} {a : τ}

/-- **Runs of the one system are runs of the other.** -/
theorem Simulates.run (h : Simulates R step step') (hrun : Run step s ls t) (hs : R s a) :
    ∃ ls' b, Run step' a ls' b ∧ R t b := by
  induction hrun generalizing a with
  | nil s => exact ⟨[], a, .nil a, hs⟩
  | cons hstep _ ih =>
    obtain ⟨ls₁, b, hfirst, hb⟩ := h _ _ _ _ hs hstep
    obtain ⟨ls₂, c, hrest, hc⟩ := ih hb
    exact ⟨ls₁ ++ ls₂, c, hfirst.append hrest, hc⟩

end

end Transition
