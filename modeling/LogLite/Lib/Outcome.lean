import Mathlib.Tactic.TypeStar
import Mathlib.Tactic.Common

/-!
# Outcomes of calls that change a state and may throw

A call of the modelled language starts in a state and ends in one of three
ways: it returns a value, it throws, or its behaviour is not defined.  An
exception carries the state it leaves behind, because what a failed call did to
the state is exactly what error-handling statements are about.

## Main definitions

* `Outcome σ ε α` — how a call ends.
* `Outcome.bind` — sequencing; `Outcome.onThrow` — a `catch` that rethrows;
  `Outcome.handle` — one that does not.
* `Outcome.Ends o t` — the call returns or throws in the state `t`.
* `Outcome.Leaves I o` — the state left behind satisfies `I`, however the call
  ended.
* `Outcome.Fails I o` — the call does not return, and an exception leaves `I`.

## Main results

* `Outcome.bind_eq_ret`, `Outcome.bind_eq_throw` — a sequence is taken apart.
* `Outcome.Leaves.bind` — the rule for sequencing.
-/

/-- How a call ends: it returns, it throws, or its behaviour is undefined. -/
inductive Outcome (σ ε α : Type*) where
  /-- The call returns `a` and leaves the state `s`. -/
  | ret (s : σ) (a : α)
  /-- The call throws `e` and leaves the state `s`. -/
  | throw (s : σ) (e : ε)
  /-- The language does not define what happens. -/
  | undefined

namespace Outcome

variable {σ ε α β : Type*}

/-- Continue with `f` after a return; pass on everything else. -/
def bind (o : Outcome σ ε α) (f : σ → α → Outcome σ ε β) : Outcome σ ε β :=
  match o with
  | ret s a => f s a
  | throw s e => throw s e
  | undefined => undefined

/-- Run `handler` on the state of an exception and throw it again. -/
def onThrow (o : Outcome σ ε α) (handler : σ → σ) : Outcome σ ε α :=
  match o with
  | ret s a => ret s a
  | throw s e => throw (handler s) e
  | undefined => undefined

/-- Continue with `handler` after an exception: a `catch` that does not rethrow. -/
def handle (o : Outcome σ ε α) (handler : σ → ε → Outcome σ ε α) : Outcome σ ε α :=
  match o with
  | ret s a => ret s a
  | throw s e => handler s e
  | undefined => undefined

/-- View the state of an outcome as a state of another kind. -/
def mapState {τ : Type*} (g : σ → τ) : Outcome σ ε α → Outcome τ ε α
  | ret s a => ret (g s) a
  | throw s e => throw (g s) e
  | undefined => undefined

/-- The call returns or throws, and leaves this state behind. -/
def Ends (o : Outcome σ ε α) (t : σ) : Prop :=
  match o with
  | ret s _ => s = t
  | throw s _ => s = t
  | undefined => False

/-- The state left behind, by a return or by an exception, satisfies `I`. -/
def Leaves (I : σ → Prop) : Outcome σ ε α → Prop
  | ret s _ => I s
  | throw s _ => I s
  | undefined => True

/-- The call does not return, and the state an exception leaves satisfies `I`. -/
def Fails (I : σ → Prop) : Outcome σ ε α → Prop
  | ret _ _ => False
  | throw s _ => I s
  | undefined => True

@[simp] theorem bind_ret (s : σ) (a : α) (f : σ → α → Outcome σ ε β) :
    (ret s a : Outcome σ ε α).bind f = f s a := rfl

@[simp] theorem bind_throw (s : σ) (e : ε) (f : σ → α → Outcome σ ε β) :
    (throw s e : Outcome σ ε α).bind f = throw s e := rfl

@[simp] theorem bind_undefined (f : σ → α → Outcome σ ε β) :
    (undefined : Outcome σ ε α).bind f = undefined := rfl

@[simp] theorem onThrow_ret (s : σ) (a : α) (g : σ → σ) :
    (ret s a : Outcome σ ε α).onThrow g = ret s a := rfl

@[simp] theorem onThrow_throw (s : σ) (e : ε) (g : σ → σ) :
    (throw s e : Outcome σ ε α).onThrow g = throw (g s) e := rfl

@[simp] theorem onThrow_undefined (g : σ → σ) :
    (undefined : Outcome σ ε α).onThrow g = undefined := rfl

@[simp] theorem handle_ret (s : σ) (a : α) (h : σ → ε → Outcome σ ε α) :
    (ret s a : Outcome σ ε α).handle h = ret s a := rfl

@[simp] theorem handle_throw (s : σ) (e : ε) (h : σ → ε → Outcome σ ε α) :
    (throw s e : Outcome σ ε α).handle h = h s e := rfl

@[simp] theorem mapState_ret {τ : Type*} (g : σ → τ) (s : σ) (a : α) :
    (ret s a : Outcome σ ε α).mapState g = ret (g s) a := rfl

@[simp] theorem mapState_throw {τ : Type*} (g : σ → τ) (s : σ) (e : ε) :
    (throw s e : Outcome σ ε α).mapState g = throw (g s) e := rfl

@[simp] theorem mapState_undefined {τ : Type*} (g : σ → τ) :
    (undefined : Outcome σ ε α).mapState g = undefined := rfl

theorem bind_eq_ret {o : Outcome σ ε α} {f : σ → α → Outcome σ ε β} {t : σ} {b : β} :
    o.bind f = ret t b ↔ ∃ s a, o = ret s a ∧ f s a = ret t b := by
  cases o <;> simp

theorem bind_eq_throw {o : Outcome σ ε α} {f : σ → α → Outcome σ ε β} {t : σ} {e : ε} :
    o.bind f = throw t e ↔ o = throw t e ∨ ∃ s a, o = ret s a ∧ f s a = throw t e := by
  cases o <;> simp

theorem onThrow_eq_ret {o : Outcome σ ε α} {g : σ → σ} {t : σ} {a : α} :
    o.onThrow g = ret t a ↔ o = ret t a := by
  cases o <;> simp

theorem onThrow_eq_throw {o : Outcome σ ε α} {g : σ → σ} {t : σ} {e : ε} :
    o.onThrow g = throw t e ↔ ∃ s, o = throw s e ∧ g s = t := by
  cases o with
  | ret s a => simp
  | throw s e' =>
    simp only [onThrow_throw, throw.injEq]
    constructor
    · rintro ⟨rfl, rfl⟩
      exact ⟨s, ⟨rfl, rfl⟩, rfl⟩
    · rintro ⟨s', ⟨rfl, rfl⟩, rfl⟩
      exact ⟨rfl, rfl⟩
  | undefined => simp

@[simp] theorem ends_ret {s t : σ} {a : α} : (ret s a : Outcome σ ε α).Ends t ↔ s = t := Iff.rfl

@[simp] theorem ends_throw {s t : σ} {e : ε} : (throw s e : Outcome σ ε α).Ends t ↔ s = t :=
  Iff.rfl

theorem ends_of_ret {o : Outcome σ ε α} {t : σ} {a : α} (h : o = ret t a) : o.Ends t := by
  rw [h]
  rfl

theorem ends_mapState {τ : Type*} {g : σ → τ} {o : Outcome σ ε α} {t : τ} :
    (o.mapState g).Ends t ↔ ∃ s, o.Ends s ∧ g s = t := by
  cases o <;> simp [Ends]

/-- A sequence ends where its first call throws, or where its second one ends. -/
theorem ends_bind {o : Outcome σ ε α} {f : σ → α → Outcome σ ε β} {t : σ} :
    (o.bind f).Ends t ↔ (∃ e, o = throw t e) ∨ ∃ s a, o = ret s a ∧ (f s a).Ends t := by
  cases o with
  | ret s a => simp
  | throw s e => simp
  | undefined => simp [Ends]

@[simp] theorem leaves_ret {I : σ → Prop} {s : σ} {a : α} :
    (ret s a : Outcome σ ε α).Leaves I ↔ I s := Iff.rfl

@[simp] theorem leaves_throw {I : σ → Prop} {s : σ} {e : ε} :
    (throw s e : Outcome σ ε α).Leaves I ↔ I s := Iff.rfl

@[simp] theorem leaves_undefined {I : σ → Prop} :
    (undefined : Outcome σ ε α).Leaves I := trivial

/-- **The rule for sequencing**: the second call may rely on what the first one
leaves behind when it returns. -/
theorem Leaves.bind {I : σ → Prop} {o : Outcome σ ε α} {f : σ → α → Outcome σ ε β}
    (ho : o.Leaves I) (hf : ∀ s a, o = ret s a → I s → (f s a).Leaves I) :
    (o.bind f).Leaves I := by
  cases o with
  | ret s a => exact hf s a rfl ho
  | throw s e => exact ho
  | undefined => trivial

/-- After a call that fails, nothing more is done. -/
theorem Fails.bind {I : σ → Prop} {o : Outcome σ ε α} (ho : o.Fails I)
    (f : σ → α → Outcome σ ε β) : (o.bind f).Fails I := by
  cases o with
  | ret s a => exact ho.elim
  | throw s e => exact ho
  | undefined => trivial

theorem Fails.mono {I J : σ → Prop} (h : ∀ s, I s → J s) {o : Outcome σ ε α} (ho : o.Fails I) :
    o.Fails J := by
  cases o with
  | ret s a => exact ho.elim
  | throw s e => exact h s ho
  | undefined => trivial

theorem Fails.leaves {I : σ → Prop} {o : Outcome σ ε α} (ho : o.Fails I) : o.Leaves I := by
  cases o with
  | ret s a => exact ho.elim
  | throw s e => exact ho
  | undefined => trivial

theorem Leaves.mono {I J : σ → Prop} (h : ∀ s, I s → J s) {o : Outcome σ ε α}
    (ho : o.Leaves I) : o.Leaves J := by
  cases o with
  | ret s a => exact h s ho
  | throw s e => exact h s ho
  | undefined => trivial

/-- A handler that keeps `I` may stand around a call that keeps it. -/
theorem Leaves.onThrow {I : σ → Prop} {o : Outcome σ ε α} (ho : o.Leaves I) {g : σ → σ}
    (hg : ∀ s, I s → I (g s)) : (o.onThrow g).Leaves I := by
  cases o with
  | ret s a => exact ho
  | throw s e => exact hg s ho
  | undefined => trivial

end Outcome
