import Mathlib.Tactic.TypeStar
import Mathlib.Tactic.Common

/-!
# Programs that read a state others change

A reader takes one look after another at a state that it does not own.  Each look
is answered by the state of that moment, and between two looks the owners of the
state may have moved it on.  All the reader may rely on is a preorder `later`: what
the owners can make of a state.

## Main definitions

* `Reading σ α` — a reader of states `σ` with results `α`.
* `Reading.bind`, `Reading.map`, `Reading.andThen` — sequencing.
* `Reading.Ends` — a reader that starts in one state may end with a result in
  another.
* `Reading.Still` — what it ends with while nothing changes.
* `Reading.Settled` — what it ends with, whatever changes from now on.

## Main results

* `Reading.ends_bind`, `Reading.ends_andThen` — a sequence is taken apart.
* `Reading.Ends.moves` — the last moment is later than the first.
* `Reading.Still.bind`, `Reading.Settled.bind` — the rules for sequencing.
-/

universe u v w

/-- A program that reads a state: it is done, or it takes a look, whose answers the
state of the moment allows, and goes on with the answer. -/
inductive Reading (σ : Type u) (α : Type v) : Type (max u v 1) where
  | done (a : α)
  | look {β : Type} (answer : σ → β → Prop) (next : β → Reading σ α)

namespace Reading

variable {σ : Type u} {α : Type v} {β : Type w}

/-- Continue with `f`. -/
def bind : Reading σ α → (α → Reading σ β) → Reading σ β
  | done a, f => f a
  | look answer next, f => look answer fun x => (next x).bind f

/-- Change the result. -/
def map (g : α → β) (p : Reading σ α) : Reading σ β := p.bind fun a => done (g a)

/-- Continue with `f`, unless the result is an error. -/
def andThen {ε γ : Type*} (p : Reading σ (Except ε γ)) (f : γ → Reading σ (Except ε β)) :
    Reading σ (Except ε β) :=
  p.bind fun r =>
    match r with
    | .ok a => f a
    | .error e => done (.error e)

/-- One look at a function of the state. -/
def now {γ : Type} (get : σ → γ) : Reading σ γ := look (fun s x => x = get s) done

@[simp] theorem done_bind (a : α) (f : α → Reading σ β) : (done a).bind f = f a := rfl

@[simp] theorem look_bind {γ : Type} (answer : σ → γ → Prop) (next : γ → Reading σ α)
    (f : α → Reading σ β) :
    (look answer next).bind f = look answer fun x => (next x).bind f := rfl

section
variable (later : σ → σ → Prop)

/-- A reader that starts in the first state may end with this result in the second
one; before every look the state may become a later one. -/
def Ends : Reading σ α → σ → α → σ → Prop
  | done a, s, b, t => b = a ∧ t = s
  | look answer next, s, b, t => ∃ s' x, later s s' ∧ answer s' x ∧ (next x).Ends s' b t

variable {later}

@[simp] theorem ends_done {a b : α} {s t : σ} :
    (done a).Ends later s b t ↔ b = a ∧ t = s := Iff.rfl

theorem ends_look {γ : Type} {answer : σ → γ → Prop} {next : γ → Reading σ α} {s t : σ} {b : α} :
    (look answer next).Ends later s b t ↔
      ∃ s' x, later s s' ∧ answer s' x ∧ (next x).Ends later s' b t := Iff.rfl

/-- A sequence is taken apart. -/
theorem ends_bind {f : α → Reading σ β} {b : β} {t : σ} : ∀ {p : Reading σ α} {s : σ},
    (p.bind f).Ends later s b t ↔
      ∃ a s', p.Ends later s a s' ∧ (f a).Ends later s' b t := by
  intro p
  induction p with
  | done a =>
    intro s
    constructor
    · intro h
      exact ⟨a, s, ⟨rfl, rfl⟩, h⟩
    · rintro ⟨a', s', ⟨rfl, rfl⟩, h⟩
      exact h
  | look answer next ih =>
    intro s
    constructor
    · rintro ⟨s₁, x, hlater, hx, h⟩
      obtain ⟨a, s', hnext, hf⟩ := ih x |>.mp h
      exact ⟨a, s', ⟨s₁, x, hlater, hx, hnext⟩, hf⟩
    · rintro ⟨a, s', ⟨s₁, x, hlater, hx, hnext⟩, hf⟩
      exact ⟨s₁, x, hlater, hx, ih x |>.mpr ⟨a, s', hnext, hf⟩⟩

theorem ends_map {g : α → β} {p : Reading σ α} {s t : σ} {b : β} :
    (p.map g).Ends later s b t ↔ ∃ a, p.Ends later s a t ∧ b = g a := by
  unfold map
  rw [ends_bind]
  constructor
  · rintro ⟨a, s', h, rfl, rfl⟩
    exact ⟨a, h, rfl⟩
  · rintro ⟨a, h, rfl⟩
    exact ⟨a, t, h, rfl, rfl⟩

/-- A sequence without an error is taken apart. -/
theorem ends_andThen {ε γ : Type*} {p : Reading σ (Except ε γ)} {f : γ → Reading σ (Except ε β)}
    {s t : σ} {r : Except ε β} :
    (p.andThen f).Ends later s r t ↔
      (∃ a s', p.Ends later s (.ok a) s' ∧ (f a).Ends later s' r t) ∨
        ∃ e, p.Ends later s (.error e) t ∧ r = .error e := by
  unfold andThen
  rw [ends_bind]
  constructor
  · rintro ⟨a | a, s', h, hrest⟩
    · obtain ⟨rfl, rfl⟩ := hrest
      exact .inr ⟨a, h, rfl⟩
    · exact .inl ⟨a, s', h, hrest⟩
  · rintro (⟨a, s', h, hrest⟩ | ⟨e, h, rfl⟩)
    · exact ⟨.ok a, s', h, hrest⟩
    · exact ⟨.error e, t, h, rfl, rfl⟩

theorem ends_now {γ : Type} {get : σ → γ} {s t : σ} {x : γ} :
    (now get).Ends later s x t ↔ later s t ∧ x = get t := by
  constructor
  · rintro ⟨s', y, hlater, rfl, rfl, rfl⟩
    exact ⟨hlater, rfl⟩
  · rintro ⟨hlater, rfl⟩
    exact ⟨t, _, hlater, rfl, rfl, rfl⟩

/-- The last moment is later than the first. -/
theorem Ends.moves (hrefl : ∀ s, later s s) (htrans : ∀ s t u, later s t → later t u → later s u)
    {b : α} {t : σ} : ∀ {p : Reading σ α} {s : σ}, p.Ends later s b t → later s t := by
  intro p
  induction p with
  | done a =>
    rintro s ⟨-, rfl⟩
    exact hrefl t
  | look answer next ih =>
    rintro s ⟨s', x, hlater, -, h⟩
    exact htrans _ _ _ hlater (ih x h)

end

/-! ### While nothing changes -/

/-- If the state stays as it is, the reader ends with this result and no other. -/
def Still (p : Reading σ α) (s : σ) (r : α) : Prop :=
  ∀ a t, p.Ends Eq s a t ↔ a = r ∧ t = s

section
variable {s : σ}

theorem Still.done (a : α) : (Reading.done a).Still s a := fun _ _ => Iff.rfl

theorem Still.now {γ : Type} (get : σ → γ) : (Reading.now get).Still s (get s) := by
  intro x t
  rw [ends_now]
  constructor
  · rintro ⟨rfl, rfl⟩
    exact ⟨rfl, rfl⟩
  · rintro ⟨rfl, rfl⟩
    exact ⟨rfl, rfl⟩

/-- A sequence goes on with the result of its first part. -/
theorem Still.ends_bind {p : Reading σ α} {f : α → Reading σ β} {a : α} {b : β} {t : σ}
    (hp : p.Still s a) : (p.bind f).Ends Eq s b t ↔ (f a).Ends Eq s b t := by
  rw [Reading.ends_bind]
  constructor
  · rintro ⟨a', s', hfirst, hrest⟩
    obtain ⟨rfl, rfl⟩ := (hp a' s').mp hfirst
    exact hrest
  · exact fun hrest => ⟨a, s, (hp a s).mpr ⟨rfl, rfl⟩, hrest⟩

theorem Still.bind {p : Reading σ α} {f : α → Reading σ β} {a : α} {b : β} (hp : p.Still s a)
    (hf : (f a).Still s b) : (p.bind f).Still s b :=
  fun _ _ => hp.ends_bind.trans (hf _ _)

theorem Still.map {p : Reading σ α} {a : α} (hp : p.Still s a) (g : α → β) :
    (p.map g).Still s (g a) := hp.bind (Still.done _)

theorem Still.andThen {ε γ : Type*} {p : Reading σ (Except ε γ)}
    {f : γ → Reading σ (Except ε β)} {r : Except ε γ} {g : γ → Except ε β} (hp : p.Still s r)
    (hf : ∀ a, (f a).Still s (g a)) : (p.andThen f).Still s (r.bind g) := by
  refine hp.bind ?_
  cases r with
  | ok a => exact hf a
  | error e => exact Still.done _

end

/-! ### Results that no longer change -/

/-- From the state `s` on the reader can only end with `r`, whatever happens. -/
def Settled (later : σ → σ → Prop) (p : Reading σ α) (s : σ) (r : α) : Prop :=
  ∀ s' a t, later s s' → p.Ends later s' a t → a = r

section
variable {later : σ → σ → Prop} {s : σ}

theorem Settled.done (a : α) : (Reading.done a).Settled later s a := fun _ _ _ _ h => h.1

theorem Settled.now {γ : Type} (htrans : ∀ s t u, later s t → later t u → later s u)
    {get : σ → γ} {x : γ} (h : ∀ t, later s t → get t = x) :
    (Reading.now get).Settled later s x := by
  intro s' a t hs' hend
  obtain ⟨hlater, rfl⟩ := ends_now.mp hend
  exact h t (htrans _ _ _ hs' hlater)

theorem Settled.bind (hrefl : ∀ s, later s s) (htrans : ∀ s t u, later s t → later t u → later s u)
    {p : Reading σ α} {f : α → Reading σ β} {a : α} {b : β} (hp : p.Settled later s a)
    (hf : (f a).Settled later s b) : (p.bind f).Settled later s b := by
  intro s' b' t hs' hend
  obtain ⟨a', s₁, hfirst, hrest⟩ := Reading.ends_bind.mp hend
  obtain rfl := hp s' a' s₁ hs' hfirst
  exact hf s₁ b' t (htrans _ _ _ hs' (hfirst.moves hrefl htrans)) hrest

theorem Settled.map {p : Reading σ α} {a : α} (hp : p.Settled later s a) (g : α → β) :
    (p.map g).Settled later s (g a) := by
  intro s' b t hs' hend
  obtain ⟨a', ha', rfl⟩ := ends_map.mp hend
  rw [hp s' a' t hs' ha']

theorem Settled.andThen (hrefl : ∀ s, later s s)
    (htrans : ∀ s t u, later s t → later t u → later s u) {ε γ : Type*}
    {p : Reading σ (Except ε γ)} {f : γ → Reading σ (Except ε β)} {r : Except ε γ}
    {g : γ → Except ε β} (hp : p.Settled later s r)
    (hf : ∀ a, (f a).Settled later s (g a)) : (p.andThen f).Settled later s (r.bind g) := by
  refine hp.bind hrefl htrans ?_
  cases r with
  | ok a => exact hf a
  | error e => exact Settled.done _

end

end Reading
