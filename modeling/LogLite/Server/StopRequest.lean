import LogLite.Lib.Coroutine
import LogLite.Server.Suspension

/-!
# Stop requests and the background tasks

`RequestStop` sets a flag and cancels the timers of the three background tasks.  It may be
called from any thread, so it may come at any point of a task.  A cancelled timer wakes a
task that waits for it; a task that is somewhere else has to look at the flag before it
waits again.

`FlushBacklogTask` looks at the flag in the condition of its inner loop, just before it
waits, and once more behind the loop.  The other two look at it only after they have
waited, so what they do next is wait for a whole interval if the request comes while they
are at the database.

## Main definitions

* `flushBacklogTask`, `vacuumTask`, `diagnosticsTask` — the code of the tasks.
* `LoopState.coroutine` — the flush task of the server, as such code.
* `FlushPoint.looksAtFlag`, `PeriodicPoint.looksAtFlag` — the points from which a task
  gets to the flag before it waits or goes to the database.

## Main results

* `LoopStep.coroutine` — the flush task of the server takes the steps of its code.
* `flush_heeds_exactly`, `periodic_heeds_exactly` — the requests each of them heeds.
* `stop_request_is_heeded_iff` — **no request is missed exactly if it comes in time.**
-/

namespace LogLite

open Coroutine Transition

/-! ### The flush task -/

/-- What the flush task shares with the rest of the server: the clock and the backlog. -/
structure FlushEnv where
  now : ℤ
  backlog : Backlog

/-- The clock goes on, or an entry is added.  If the backlog has no room at all, then `Add`
is not defined, and it may leave anything. -/
inductive FlushEnv.Changes : FlushEnv → FlushEnv → Prop
  | tick {e : FlushEnv} (elapsed : ℕ) : Changes e { e with now := e.now + elapsed }
  | add {e : FlushEnv} (log : Json) {b : Backlog} :
      (∀ b' dropped, e.backlog.add log = some (b', dropped) → b = b') →
        Changes e { e with backlog := b }

/-- `FlushBacklogTask`.  It is about to wait at `timer`, and to go to the database at
`strand`. -/
def flushBacklogTask (interval : Int32) : FlushPoint → Instr FlushEnv FlushPoint
  | .top => .compute fun e => (e, .clock (flushDeadline interval e.now))
  -- the inner loop
  | .clock deadline => .compute fun e => (e, if e.now < deadline then .full deadline else .check)
  | .full deadline => .compute fun e => (e, if e.backlog.isFull then .check else .stop deadline)
  | .stop deadline => .test .check (.timer deadline)
  | .timer deadline => .wait 100000000 (.clock deadline)
  -- behind it
  | .check => .test .ended .flush
  | .flush => .compute fun e =>
      ({ e with backlog := e.backlog.flush.1 }, if e.backlog.flush.2 = [] then .top else .strand)
  | .strand => .call .top
  | .ended => .ret

/-- The points from which the flush task gets to the flag before anything else. -/
def FlushPoint.looksAtFlag : FlushPoint → Prop
  | .timer _ | .flush | .strand => False
  | _ => True

/-- The number of points up to the end, if the flag is up. -/
def FlushPoint.toEnd : FlushPoint → ℕ
  | .top => 5
  | .clock _ => 4
  | .full _ => 3
  | .stop _ => 2
  | .check => 1
  | _ => 0

theorem flush_windsDown (interval : Int32) :
    WindsDown (flushBacklogTask interval) FlushPoint.looksAtFlag FlushPoint.toEnd where
  compute p next hgood hcode e := by
    cases p with
    | top =>
      cases hcode
      exact ⟨trivial, by simp [FlushPoint.toEnd]⟩
    | clock deadline =>
      cases hcode
      dsimp only
      split
      · exact ⟨trivial, by simp [FlushPoint.toEnd]⟩
      · exact ⟨trivial, by simp [FlushPoint.toEnd]⟩
    | full deadline =>
      cases hcode
      dsimp only
      split
      · exact ⟨trivial, by simp [FlushPoint.toEnd]⟩
      · exact ⟨trivial, by simp [FlushPoint.toEnd]⟩
    | flush => exact hgood.elim
    | _ => cases hcode
  test p raised lowered _ hcode := by
    cases p with
    | stop | check =>
      cases hcode
      exact ⟨trivial, by simp [FlushPoint.toEnd]⟩
    | _ => cases hcode
  wait p nanoseconds next hgood hcode := by
    cases p with
    | timer => exact hgood
    | _ => cases hcode
  call p next hgood hcode := by
    cases p with
    | strand => exact hgood
    | _ => cases hcode

/-- An entry may be added at any time. -/
theorem FlushEnv.may_add (e : FlushEnv) :
    ∃ b : Backlog, b.queue ≠ [] ∧ e.Changes { e with backlog := b } := by
  cases hadd : e.backlog.add .null with
  | none =>
    refine ⟨⟨0, [.null], false⟩, List.cons_ne_nil _ _, .add .null fun b' dropped h => ?_⟩
    cases hadd.symm.trans h
  | some r =>
    refine ⟨r.1, Backlog.add_queue_ne_nil hadd, .add .null fun b' dropped h => ?_⟩
    exact congrArg Prod.fst (Option.some.inj (hadd.symm.trans h))

/-- From the other points it may come to wait, or to go to the database. -/
theorem flush_mayBegin (interval : Int32) (p : FlushPoint) (hp : ¬ p.looksAtFlag)
    (s : State FlushEnv FlushPoint) (hst : s.status = .ready p) :
    MayBegin (flushBacklogTask interval) FlushEnv.Changes s := by
  have hstrand : ∀ s : State FlushEnv FlushPoint, s.status = .ready .strand →
      MayBegin (flushBacklogTask interval) FlushEnv.Changes s :=
    fun s hst => .now (.call hst rfl) rfl
  cases p with
  | timer deadline => exact .now (.wait hst rfl) rfl
  | strand => exact hstrand s hst
  | flush =>
    -- an entry is added before the backlog is flushed
    obtain ⟨b, hqueue, hchange⟩ := s.env.may_add
    refine .of_step (.other hchange) (.of_step (.compute hst rfl) (hstrand _ ?_))
    exact congrArg Status.ready (if_neg hqueue)
  | _ => exact absurd trivial hp

/-- **The requests the flush task heeds.** -/
theorem flush_heeds_exactly (interval : Int32) (start : State FlushEnv FlushPoint) :
    HeedsExactly (flushBacklogTask interval) FlushEnv.Changes FlushPoint.looksAtFlag start :=
  heeds_exactly (flush_windsDown interval) (flush_mayBegin interval) start

/-! ### The flush task in the server -/

/-- How the coroutine stands if the server has it at a point. -/
def FlushPoint.status : FlushPoint → Status FlushPoint
  | .timer deadline => .waiting (.clock deadline)
  | .strand => .calling .top
  | .ended => .finished
  | p => .ready p

/-- The coroutine of the server, by itself. -/
def LoopState.coroutine (s : LoopState) : State FlushEnv FlushPoint where
  env := ⟨s.now, s.server.backlog⟩
  raised := s.server.stopping
  status := s.point.status

section
variable {cat : DatabaseCatalog} {interval : Int32} {s t : LoopState} {act : LoopAction}

/-- What the other parts of the server do to the coroutine. -/
theorem ServerStep.coroutine {s : LoopState} {server : ServerState} {act : ServerAction}
    (hother : act.ofTask = false) (hstep : ServerStep cat s.server act server) :
    ∃ ls, Run (Step (flushBacklogTask interval) FlushEnv.Changes) s.coroutine ls
      (LoopState.coroutine { s with server := server }) := by
  cases hstep with
  | @add log backlog dropped _ hadd =>
    refine ⟨[.other], .single (.other (.add log fun b' dropped' h => ?_))⟩
    exact congrArg Prod.fst (Option.some.inj (hadd.symm.trans h))
  | requestStop => exact ⟨[.raise], .single .raise⟩
  | insert | insertThrows | stopPool | stopHarvesters | stopWritePool | join =>
    exact ⟨[], .nil _⟩
  | checkStop | check | flushNone | flush | resume | taskError => cases hother

/-- **The coroutine of the server is a run of the code**, step by step. -/
theorem LoopStep.coroutine (hstep : LoopStep cat interval s act t) :
    ∃ ls, Run (Step (flushBacklogTask interval) FlushEnv.Changes) s.coroutine ls t.coroutine := by
  have hready : ∀ {p : FlushPoint}, s.point = p → s.coroutine.status = p.status :=
    fun hpoint => congrArg FlushPoint.status hpoint
  cases hstep with
  | tick elapsed => exact ⟨[.other], .single (.other (.tick elapsed))⟩
  | other hother hserver => exact hserver.coroutine hother
  | begin _ hpoint => exact ⟨[.compute], .single (.compute_eq (hready hpoint) rfl rfl)⟩
  | late _ hpoint hle =>
    refine ⟨[.compute], .single (.compute_eq (hready hpoint) rfl (congrArg _ ?_))⟩
    exact if_neg hle.not_gt
  | early _ hpoint hlt =>
    refine ⟨[.compute], .single (.compute_eq (hready hpoint) rfl (congrArg _ ?_))⟩
    exact if_pos hlt
  | full _ hpoint hfull =>
    refine ⟨[.compute], .single (.compute_eq (hready hpoint) rfl (congrArg _ ?_))⟩
    exact if_pos hfull
  | notFull _ hpoint hfull =>
    refine ⟨[.compute], .single (.compute_eq (hready hpoint) rfl (congrArg _ ?_))⟩
    exact if_neg (Bool.eq_false_iff.mp hfull)
  | stop _ hpoint hstop => exact ⟨[.test], .single (.test_raised (hready hpoint) rfl hstop)⟩
  | wait _ hpoint hstop =>
    -- the test and the wait are one step of the server
    exact ⟨_, .cons (.test_lowered (hready hpoint) rfl hstop) (.single (.wait rfl rfl))⟩
  | wake _ hpoint => exact ⟨[.expire], .single (.expire (hready hpoint))⟩
  | finish hpoint hstop hserver =>
    cases hserver with
    | checkStop =>
      exact ⟨_, .cons (.test_raised (hready hpoint) rfl hstop) (.single (.ret rfl rfl))⟩
    | check _ _ hrunning => exact absurd (hstop.symm.trans hrunning) (by decide)
  | check hpoint hstop hserver =>
    cases hserver with
    | checkStop _ _ hstopping => exact absurd (hstop.symm.trans hstopping) (by decide)
    | check => exact ⟨[.test], .single (.test_lowered (hready hpoint) rfl hstop)⟩
  | flushNone hpoint hqueue hserver =>
    cases hserver with
    | flush _ _ hne => exact absurd hqueue hne
    | flushNone =>
      refine ⟨[.compute], .single (.compute_eq (hready hpoint) rfl (congrArg _ ?_))⟩
      exact if_pos hqueue
  | flush hpoint hqueue hserver =>
    cases hserver with
    | flushNone _ _ hnone => exact absurd hnone hqueue
    | flush =>
      refine ⟨_, .cons (.compute_eq (q := .strand) (hready hpoint) rfl (congrArg _ ?_))
        (.single (.call rfl rfl))⟩
      exact if_neg hqueue
  | resume hpoint hserver =>
    cases hserver with
    | resume => exact ⟨[.returns], .single (.returns (hready hpoint))⟩
  | crash hpoint hserver =>
    cases hserver with
    | taskError => exact ⟨_, .cons (.throws (hready hpoint)) (.single .raise)⟩

/-- All runs. -/
theorem LoopStep.run_coroutine {acts : List LoopAction}
    (hrun : Run (LoopStep cat interval) s acts t) :
    ∃ ls, Run (Step (flushBacklogTask interval) FlushEnv.Changes) s.coroutine ls t.coroutine := by
  induction hrun with
  | nil s => exact ⟨[], .nil _⟩
  | cons hstep _ ih =>
    obtain ⟨ls, hfirst⟩ := hstep.coroutine
    obtain ⟨ls', hrest⟩ := ih
    exact ⟨ls ++ ls', hfirst.append hrest⟩

end

/-! ### The other two tasks -/

/-- Where a task is that does its work once in an interval. -/
inductive PeriodicPoint where
  /-- At the beginning of an iteration. -/
  | top
  /-- Before `StopRequested()`. -/
  | check
  /-- Before the metrics are taken out of the registry. -/
  | snapshot
  /-- Before the call on the write strand. -/
  | database
  /-- Before `co_return`. -/
  | ended
  deriving DecidableEq

/-- A task that waits, looks at the flag, and then begins its work at `work`. -/
def periodicTask (interval : Int32) (work : PeriodicPoint) :
    PeriodicPoint → Instr Unit PeriodicPoint
  | .top => .wait (interval.toInt * 1000000000) .check
  | .check => .test .ended work
  | .snapshot => .compute fun e => (e, .database)
  | .database => .call .top
  | .ended => .ret

/-- `VacuumTask`. -/
def vacuumTask (interval : Int32) : PeriodicPoint → Instr Unit PeriodicPoint :=
  periodicTask interval .database

/-- `DiagnosticsTask`. -/
def diagnosticsTask (interval : Int32) : PeriodicPoint → Instr Unit PeriodicPoint :=
  periodicTask interval .snapshot

/-- The points from which such a task gets to the flag before anything else. -/
def PeriodicPoint.looksAtFlag : PeriodicPoint → Prop
  | .check | .ended => True
  | _ => False

/-- The number of points up to the end, if the flag is up. -/
def PeriodicPoint.toEnd : PeriodicPoint → ℕ
  | .check => 1
  | _ => 0

theorem periodic_windsDown (interval : Int32) (work : PeriodicPoint) :
    WindsDown (periodicTask interval work) PeriodicPoint.looksAtFlag PeriodicPoint.toEnd where
  compute p next hgood hcode e := by
    cases p with
    | snapshot => exact hgood.elim
    | _ => cases hcode
  test p raised lowered _ hcode := by
    cases p with
    | check =>
      cases hcode
      exact ⟨trivial, by decide⟩
    | _ => cases hcode
  wait p nanoseconds next hgood hcode := by
    cases p with
    | top => exact hgood
    | _ => cases hcode
  call p next hgood hcode := by
    cases p with
    | database => exact hgood
    | _ => cases hcode

theorem periodic_mayBegin (interval : Int32) (work p : PeriodicPoint) (hp : ¬ p.looksAtFlag)
    (s : State Unit PeriodicPoint) (hst : s.status = .ready p) :
    MayBegin (periodicTask interval work) Eq s := by
  have hdatabase : ∀ s : State Unit PeriodicPoint, s.status = .ready .database →
      MayBegin (periodicTask interval work) Eq s := fun s hst => .now (.call hst rfl) rfl
  cases p with
  | top => exact .now (.wait hst rfl) rfl
  | database => exact hdatabase s hst
  | snapshot => exact .of_step (.compute hst rfl) (hdatabase _ rfl)
  | _ => exact absurd trivial hp

/-- **The requests such a task heeds.** -/
theorem periodic_heeds_exactly (interval : Int32) (work : PeriodicPoint)
    (start : State Unit PeriodicPoint) :
    HeedsExactly (periodicTask interval work) Eq PeriodicPoint.looksAtFlag start :=
  heeds_exactly (periodic_windsDown interval work) (periodic_mayBegin interval work) start

/-! ### The three tasks -/

/-- **Which stop requests are heeded**: those after which the task gets to the flag next.
In `FlushBacklogTask` that is everywhere but between a look at the flag and what follows
it, in the other two only from the beginning of the wait up to the look at the flag. -/
theorem stop_request_is_heeded_iff (flushInterval vacuumInterval diagnosticsInterval : Int32)
    (e : FlushEnv) :
    HeedsExactly (flushBacklogTask flushInterval) FlushEnv.Changes FlushPoint.looksAtFlag
        (.start e .top) ∧
      HeedsExactly (vacuumTask vacuumInterval) Eq PeriodicPoint.looksAtFlag (.start () .top) ∧
      HeedsExactly (diagnosticsTask diagnosticsInterval) Eq PeriodicPoint.looksAtFlag
        (.start () .top) :=
  ⟨flush_heeds_exactly _ _, periodic_heeds_exactly _ _ _, periodic_heeds_exactly _ _ _⟩

/-- A request that comes while the vacuum task is at the database is missed. -/
theorem stop_during_vacuum_is_missed : ¬ NeverMissed (vacuumTask 120) Eq (.start () .top) := by
  intro h
  have hrun : Run (Step (vacuumTask 120) Eq) (.start () .top)
      [.wait 120000000000, .expire, .test, .call, .raise, .cancel] ⟨(), true, .calling .top⟩ :=
    .cons (.wait rfl rfl) (.cons (.expire rfl) (.cons (.test rfl rfl) (.cons (.call rfl rfl)
      (.cons .raise (.single (.cancel rfl))))))
  have hreturns : Step (vacuumTask 120) Eq ⟨(), true, .calling .top⟩ .returns
      ⟨(), true, .ready .top⟩ := .returns rfl
  have hbegins : MayBegin (vacuumTask 120) Eq ⟨(), true, .calling .top⟩ :=
    .of_step hreturns (.now (.wait rfl rfl) rfl)
  exact hbegins.not_heeded (h _ _ hrun (by decide))

end LogLite
