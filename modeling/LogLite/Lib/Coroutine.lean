import LogLite.Lib.Run
import Mathlib.Data.Int.Notation
import Mathlib.Data.List.Basic

/-!
# Coroutines that are asked to stop

A coroutine computes, tests a flag, waits at its timer, and makes calls that are carried
out elsewhere.  A request to stop raises the flag, and then cancels the wait of the
coroutine.  That ends a wait that is pending and does nothing else, so a request that comes
at another point must be noticed by a test of the flag.

The steps of the coroutine, of the request, and of whatever else there is may come in any
order.

## Main definitions

* `Instr`, `Step` — the code of a coroutine, and its steps.
* `Heeded` — neither a wait nor a call will begin, and the coroutine is over soon.
* `NeverMissed` — after every request it is so.
* `WindsDown` — points from which the code ends if the flag is up.

## Main results

* `WindsDown.heeded` — a coroutine that goes on at such a point.
* `heeds_exactly` — **which requests are heeded**, where all other points lead to a wait or
  a call.
-/

namespace Coroutine

open Transition

/-- What the code does at a point. -/
inductive Instr (ε P : Type*) where
  /-- It computes, and goes on at another point. -/
  | compute (next : ε → ε × P)
  /-- It tests the flag. -/
  | test (raised lowered : P)
  /-- It waits at its timer. -/
  | wait (nanoseconds : ℤ) (next : P)
  /-- It makes a call, and waits until that returns. -/
  | call (next : P)
  | ret

/-- How the coroutine stands: it goes on at a point, or will when its wait or its call is
over. -/
inductive Status (P : Type*) where
  | ready (p : P)
  | waiting (next : P)
  | calling (next : P)
  | finished

/-- The coroutine, the flag, and what the coroutine shares with others. -/
structure State (ε P : Type*) where
  env : ε
  raised : Bool
  status : Status P

/-- The labels of the steps. -/
inductive Label where
  /-- Others change what is shared. -/
  | other
  /-- The two parts of a request. -/
  | raise
  | cancel
  /-- The timer expires. -/
  | expire
  | compute
  | test
  | wait (nanoseconds : ℤ)
  | call
  /-- The call returns. -/
  | returns
  /-- The call throws, which ends the coroutine. -/
  | throws
  | ret
  deriving DecidableEq

/-- A wait or a call begins. -/
def Label.starts : Label → Bool
  | .wait _ | .call => true
  | _ => false

/-- The steps with which the coroutine goes on. -/
def Label.own : Label → Bool
  | .other | .raise | .cancel | .expire => false
  | _ => true

section
variable {ε P : Type*}

/-- The point at which the coroutine goes on. -/
def Status.point : Status P → Option P
  | .ready p | .waiting p | .calling p => some p
  | .finished => none

/-- The status after the wait was cancelled. -/
def Status.cancelled : Status P → Status P
  | .waiting p => .ready p
  | s => s

/-- A coroutine that begins. -/
def State.start (e : ε) (p : P) : State ε P := ⟨e, false, .ready p⟩

/-- One step of a coroutine with this code, where others change what is shared by `other`. -/
inductive Step (code : P → Instr ε P) (other : ε → ε → Prop) :
    State ε P → Label → State ε P → Prop
  | other {s : State ε P} {e : ε} : other s.env e → Step code other s .other { s with env := e }
  | raise {s : State ε P} : Step code other s .raise { s with raised := true }
  | cancel {s : State ε P} : s.raised = true →
      Step code other s .cancel { s with status := s.status.cancelled }
  | expire {s : State ε P} {p : P} : s.status = .waiting p →
      Step code other s .expire { s with status := .ready p }
  | compute {s : State ε P} {p : P} {next : ε → ε × P} : s.status = .ready p →
      code p = .compute next → Step code other s .compute
        { s with env := (next s.env).1, status := .ready (next s.env).2 }
  | test {s : State ε P} {p raised lowered : P} : s.status = .ready p →
      code p = .test raised lowered →
        Step code other s .test { s with status := .ready (if s.raised then raised else lowered) }
  | wait {s : State ε P} {p next : P} {nanoseconds : ℤ} : s.status = .ready p →
      code p = .wait nanoseconds next →
        Step code other s (.wait nanoseconds) { s with status := .waiting next }
  | call {s : State ε P} {p next : P} : s.status = .ready p → code p = .call next →
      Step code other s .call { s with status := .calling next }
  | returns {s : State ε P} {p : P} : s.status = .calling p →
      Step code other s .returns { s with status := .ready p }
  | throws {s : State ε P} {p : P} : s.status = .calling p →
      Step code other s .throws { s with status := .finished }
  | ret {s : State ε P} {p : P} : s.status = .ready p → code p = .ret →
      Step code other s .ret { s with status := .finished }

variable (code : P → Instr ε P) (other : ε → ε → Prop)

/-- The coroutine begins neither a wait nor a call from here on, and is over after some
steps; until then it can go on, but for a call that is still carried out. -/
structure Heeded (s : State ε P) : Prop where
  quiet : ∀ ls t, Run (Step code other) s ls t → ∀ l ∈ ls, l.starts = false
  awake : ∀ ls t, Run (Step code other) s ls t →
    t.status = .finished ∨ ∃ l u, l.own = true ∧ Step code other t l u
  brief : ∃ n, ∀ ls t, Run (Step code other) s ls t → ls.countP Label.own ≤ n

/-- After every request it is so. -/
def NeverMissed (start : State ε P) : Prop :=
  ∀ ls s, Run (Step code other) start ls s → .cancel ∈ ls → Heeded code other s

/-- The point at which the coroutine goes on is a good one, if it is not over. -/
def InTime (Good : P → Prop) (s : State ε P) : Prop := ∀ p, s.status.point = some p → Good p

/-- The step is not the end of a request, or the request comes in time. -/
def CancelsInTime (Good : P → Prop) (s : State ε P) (l : Label) : Prop :=
  l = .cancel → InTime Good s

/-- The requests that are heeded are those that come in time. -/
structure HeedsExactly (Good : P → Prop) (start : State ε P) : Prop where
  /-- Each request, in any run. -/
  each : ∀ ls s t, Run (Step code other) start ls s → Step code other s .cancel t →
    (Heeded code other t ↔ InTime Good s)
  /-- All of a run in which all come in time. -/
  all : ∀ ls s, Run (Guarded (Step code other) (CancelsInTime Good)) start ls s →
    .cancel ∈ ls → Heeded code other s

/-- Points from which the code ends if the flag is up: each step leads to another of them,
with a smaller rank, and none begins a wait or a call. -/
structure WindsDown (Good : P → Prop) (rank : P → ℕ) : Prop where
  compute : ∀ p next, Good p → code p = .compute next → ∀ e,
    Good (next e).2 ∧ rank (next e).2 < rank p
  test : ∀ p raised lowered, Good p → code p = .test raised lowered →
    Good raised ∧ rank raised < rank p
  wait : ∀ p nanoseconds next, Good p → code p ≠ .wait nanoseconds next
  call : ∀ p next, Good p → code p ≠ .call next

variable {code other} {Good : P → Prop} {rank : P → ℕ} {s t : State ε P} {l : Label}
  {ls : List Label}

/-- A computation, with what it comes to. -/
theorem Step.compute_eq {p q : P} {e : ε} {next : ε → ε × P} (hst : s.status = .ready p)
    (hcode : code p = .compute next) (hnext : next s.env = (e, q)) :
    Step code other s .compute { s with env := e, status := .ready q } := by
  have hstep : Step code other s .compute _ := .compute hst hcode
  rwa [hnext] at hstep

theorem Step.test_raised {p raised lowered : P} (hst : s.status = .ready p)
    (hcode : code p = .test raised lowered) (hraised : s.raised = true) :
    Step code other s .test { s with status := .ready raised } := by
  have hstep : Step code other s .test _ := .test hst hcode
  rwa [if_pos hraised] at hstep

theorem Step.test_lowered {p raised lowered : P} (hst : s.status = .ready p)
    (hcode : code p = .test raised lowered) (hraised : s.raised = false) :
    Step code other s .test { s with status := .ready lowered } := by
  have hstep : Step code other s .test _ := .test hst hcode
  rwa [if_neg (Bool.eq_false_iff.mp hraised)] at hstep

/-! ### From a good point on -/

/-- The coroutine is over, or goes on at a good point without waiting for its timer. -/
def Status.Settles (Good : P → Prop) : Status P → Prop
  | .ready p | .calling p => Good p
  | .waiting _ => False
  | .finished => True

/-- A bound on the steps that are left. -/
def Status.left (rank : P → ℕ) : Status P → ℕ
  | .ready p => rank p + 1
  | .calling p => rank p + 2
  | _ => 0

/-- What a step does to a settled coroutine. -/
structure SettledStep (Good : P → Prop) (rank : P → ℕ) (s : State ε P) (l : Label)
    (t : State ε P) : Prop where
  raised : t.raised = true
  settles : t.status.Settles Good
  quiet : l.starts = false
  left : t.status.left rank + [l].countP Label.own ≤ s.status.left rank

/-- A settled coroutine stays so, begins nothing, and has one step less left. -/
theorem WindsDown.step (h : WindsDown code Good rank) (hraised : s.raised = true)
    (hs : s.status.Settles Good) (hstep : Step code other s l t) : SettledStep Good rank s l t := by
  cases hstep with
  | other => exact ⟨hraised, hs, rfl, Nat.le_refl _⟩
  | raise => exact ⟨rfl, hs, rfl, Nat.le_refl _⟩
  | cancel =>
    have hstatus : s.status.cancelled = s.status := by
      cases hst : s.status with
      | waiting p => rw [hst] at hs; exact hs.elim
      | _ => rfl
    refine ⟨hraised, ?_, rfl, ?_⟩ <;> dsimp only <;> rw [hstatus]
    · exact hs
    · exact Nat.le_refl _
  | expire hst => rw [hst] at hs; exact hs.elim
  | @compute p next hst hcode =>
    rw [hst] at hs
    obtain ⟨hgood, hrank⟩ := h.compute p next hs hcode s.env
    refine ⟨hraised, hgood, rfl, ?_⟩
    rw [hst]
    exact Nat.succ_le_succ hrank
  | @test p raised lowered hst hcode =>
    rw [hst] at hs
    obtain ⟨hgood, hrank⟩ := h.test p raised lowered hs hcode
    rw [if_pos hraised]
    refine ⟨hraised, hgood, rfl, ?_⟩
    rw [hst]
    exact Nat.succ_le_succ hrank
  | @wait p next nanoseconds hst hcode =>
    rw [hst] at hs
    exact absurd hcode (h.wait p nanoseconds next hs)
  | @call p next hst hcode =>
    rw [hst] at hs
    exact absurd hcode (h.call p next hs)
  | returns hst =>
    rw [hst] at hs
    exact ⟨hraised, hs, rfl, by rw [hst]; exact Nat.le_refl _⟩
  | throws hst => exact ⟨hraised, trivial, rfl, by rw [hst]; exact Nat.le_add_left _ _⟩
  | ret hst => exact ⟨hraised, trivial, rfl, by rw [hst]; exact Nat.le_add_left _ _⟩

/-- A run of a settled coroutine. -/
theorem WindsDown.run (h : WindsDown code Good rank) (hrun : Run (Step code other) s ls t)
    (hraised : s.raised = true) (hs : s.status.Settles Good) :
    (t.raised = true ∧ t.status.Settles Good) ∧ (∀ l ∈ ls, l.starts = false) ∧
      t.status.left rank + ls.countP Label.own ≤ s.status.left rank := by
  induction hrun with
  | nil s => exact ⟨⟨hraised, hs⟩, by simp, Nat.le_refl _⟩
  | @cons s t u l ls hstep _ ih =>
    obtain ⟨hraised', hs', hquiet, hleft⟩ := h.step hraised hs hstep
    obtain ⟨hu, hquiets, hlefts⟩ := ih hraised' hs'
    refine ⟨hu, List.forall_mem_cons.mpr ⟨hquiet, hquiets⟩, ?_⟩
    have hcount : ([l] ++ ls).countP Label.own = [l].countP Label.own + ls.countP Label.own :=
      List.countP_append
    rw [List.singleton_append] at hcount
    omega

/-- A settled coroutine is not held up. -/
theorem WindsDown.awake (h : WindsDown code Good rank) (hs : s.status.Settles Good) :
    s.status = .finished ∨ ∃ l u, l.own = true ∧ Step code other s l u := by
  cases hst : s.status with
  | finished => exact .inl rfl
  | waiting p => rw [hst] at hs; exact hs.elim
  | calling p => exact .inr ⟨.returns, _, rfl, .returns hst⟩
  | ready p =>
    rw [hst] at hs
    cases hcode : code p with
    | compute next => exact .inr ⟨.compute, _, rfl, .compute hst hcode⟩
    | test raised lowered => exact .inr ⟨.test, _, rfl, .test hst hcode⟩
    | ret => exact .inr ⟨.ret, _, rfl, .ret hst hcode⟩
    | wait nanoseconds next => exact absurd hcode (h.wait p nanoseconds next hs)
    | call next => exact absurd hcode (h.call p next hs)

/-- **A coroutine that goes on at a good point heeds the request.** -/
theorem WindsDown.heeded (h : WindsDown code Good rank) (hraised : s.raised = true)
    (hs : s.status.Settles Good) : Heeded code other s where
  quiet _ _ hrun := (h.run hrun hraised hs).2.1
  awake _ _ hrun := h.awake (h.run hrun hraised hs).1.2
  brief := ⟨s.status.left rank, fun _ _ hrun =>
    Nat.le_trans (Nat.le_add_left _ _) (h.run hrun hraised hs).2.2⟩

/-! ### From the other points on -/

variable (code other) in
/-- A wait or a call may begin. -/
def MayBegin (s : State ε P) : Prop :=
  ∃ ls t l u, Run (Step code other) s ls t ∧ Step code other t l u ∧ l.starts = true

theorem MayBegin.not_heeded (h : MayBegin code other s) : ¬ Heeded code other s := by
  obtain ⟨ls, t, l, u, hrun, hstep, hstarts⟩ := h
  intro hheeded
  have hquiet := hheeded.quiet _ _ (hrun.append (.single hstep)) l (by simp)
  exact Bool.false_ne_true (hquiet.symm.trans hstarts)

theorem MayBegin.of_step (hstep : Step code other s l t) (h : MayBegin code other t) :
    MayBegin code other s := by
  obtain ⟨ls, u, l', v, hrun, hstart⟩ := h
  exact ⟨l :: ls, u, l', v, .cons hstep hrun, hstart⟩

theorem MayBegin.now (hstep : Step code other s l t) (hstarts : l.starts = true) :
    MayBegin code other s :=
  ⟨[], s, l, t, .nil s, hstep, hstarts⟩

/-! ### Requests -/

/-- What heeds a request goes on to heed it. -/
theorem Heeded.run (h : Heeded code other s) (hrun : Run (Step code other) s ls t) :
    Heeded code other t where
  quiet ls' u hrun' l hl := h.quiet _ u (hrun.append hrun') l (List.mem_append_right ls hl)
  awake ls' u hrun' := h.awake _ u (hrun.append hrun')
  brief := by
    obtain ⟨n, hn⟩ := h.brief
    refine ⟨n, fun ls' u hrun' => ?_⟩
    have hcount := hn _ u (hrun.append hrun')
    rw [List.countP_append] at hcount
    omega

/-- **A request is heeded exactly if it comes in time.** -/
theorem heeded_cancelled_iff (h : WindsDown code Good rank)
    (hbad : ∀ p, ¬ Good p → ∀ s : State ε P, s.status = .ready p → MayBegin code other s)
    (hstep : Step code other s .cancel t) : Heeded code other t ↔ InTime Good s := by
  cases hstep with
  | cancel hraised =>
    -- the coroutine goes on at `p`, with the flag up
    have hready : ∀ p, Heeded code other { s with status := .ready p } ↔ Good p := by
      refine fun p => ⟨fun hheeded => ?_, fun hp => h.heeded hraised hp⟩
      by_contra hp
      exact (hbad p hp _ rfl).not_heeded hheeded
    have hintime : ∀ {p : P}, s.status.point = some p → (InTime Good s ↔ Good p) := by
      intro p hp
      refine ⟨fun hin => hin p hp, fun hgood q hq => ?_⟩
      obtain rfl : p = q := Option.some.inj (hp.symm.trans hq)
      exact hgood
    cases hst : s.status with
    | ready p | waiting p =>
      rw [hintime (by rw [hst]; rfl)]
      exact hready p
    | calling p =>
      rw [hintime (by rw [hst]; rfl)]
      refine ⟨fun hheeded => ?_, fun hp => h.heeded hraised hp⟩
      have hreturns : Step code other { s with status := Status.cancelled (.calling p) } .returns
          { s with status := .ready p } := .returns rfl
      exact (hready p).mp (hheeded.run (.single hreturns))
    | finished =>
      refine iff_of_true (h.heeded hraised trivial) fun p hp => ?_
      rw [hst] at hp
      cases hp

/-- **Which requests are heeded**: those that come in time, where all points that are not
good lead to a wait or a call. -/
theorem heeds_exactly (h : WindsDown code Good rank)
    (hbad : ∀ p, ¬ Good p → ∀ s : State ε P, s.status = .ready p → MayBegin code other s)
    (start : State ε P) : HeedsExactly code other Good start where
  each _ _ _ _ hstep := heeded_cancelled_iff h hbad hstep
  all ls s hrun hmem := by
    induction hrun with
    | nil s => exact absurd hmem List.not_mem_nil
    | @cons s t u l ls hstep hrest ih =>
      rcases List.mem_cons.mp hmem with rfl | hlater
      · exact ((heeded_cancelled_iff h hbad hstep.1).mpr (hstep.2 rfl)).run hrest.of_guarded
      · exact ih hlater

end

end Coroutine
