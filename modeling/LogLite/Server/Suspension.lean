import LogLite.Server.FlushTask

/-!
# Where the flush task suspends

The pool of the server has one thread, and a coroutine that does not suspend keeps it.
`FlushBacklogTask` suspends at its timer and when it hands a batch to the write strand; an
iteration of its outer loop may do neither, if its deadline has passed when it is looked
at for the first time and the backlog is empty.

The tests of the inner loop read the clock, the flag of the backlog and the stop request
one after the other, and anything may happen in between.

## Main definitions

* `FlushPoint`, `LoopState`, `LoopStep` — the coroutine, test by test, in the server.
* `Prompt` — what the first test of an iteration should find.
* `IterationYields` — the iteration will not be over without a suspension.

## Main results

* `LoopStep.refines` — the tests are not steps of the server, and all other steps are.
* `iterationYields_iff` — an iteration suspends, whatever happens, exactly if its first
  test finds what it should.
* `spins_forever` — with an interval that is not positive, an idle server does not
  suspend at all.
* `flush_task_suspends_iff` — **when the iterations of the task suspend.**
-/

namespace LogLite

open Transition

/-! ### The coroutine -/

/-- Where the coroutine is. -/
inductive FlushPoint where
  /-- At the beginning of an iteration. -/
  | top
  /-- Before `steady_clock::now() < deadline`. -/
  | clock (deadline : ℤ)
  /-- Before `!IsFull()`. -/
  | full (deadline : ℤ)
  /-- Before `!StopRequested()`. -/
  | stop (deadline : ℤ)
  /-- Suspended at the timer. -/
  | timer (deadline : ℤ)
  /-- After the inner loop. -/
  | check
  /-- Before `Flush()`. -/
  | flush
  /-- Suspended until the call on the write strand is done. -/
  | strand
  /-- The coroutine is over. -/
  | ended
  deriving DecidableEq

/-- The server with the coroutine.  `suspended` is about the current iteration, `spins` are
the iterations that were over without a suspension; no code reads these and the other
two counters. -/
structure LoopState where
  server : ServerState
  point : FlushPoint
  now : ℤ
  suspended : Bool
  suspensions : ℕ
  iterations : ℕ
  spins : ℕ

/-- The clock goes on, the coroutine takes a step, or another part of the server does. -/
inductive LoopAction where
  | tick (elapsed : ℕ)
  | task
  | other (act : ServerAction)

/-- The steps of the server that are the coroutine's. -/
def ServerAction.ofTask : ServerAction → Bool
  | .check | .flush | .resume | .taskError => true
  | _ => false

/-- `steady_clock::now() + task_backlog_flush_interval * 1s`, in nanoseconds. -/
def flushDeadline (interval : Int32) (now : ℤ) : ℤ :=
  toInt64 (now + interval.toInt * 1000000000)

namespace LoopState

/-- The server before the coroutine has begun. -/
def start (tables : Tables) (d : LookupTable) (maxSize : ℕ) (now : ℤ) : LoopState where
  server := .start tables d maxSize
  point := .top
  now := now
  suspended := false
  suspensions := 0
  iterations := 0
  spins := 0

/-- An iteration begins. -/
def enter (s : LoopState) (deadline : ℤ) : LoopState :=
  { s with point := .clock deadline, suspended := false }

/-- The coroutine goes on to a point, with the server as it is then. -/
def goto (s : LoopState) (server : ServerState) (p : FlushPoint) : LoopState :=
  { s with server := server, point := p }

/-- The coroutine suspends. -/
def suspend (s : LoopState) (server : ServerState) (p : FlushPoint) : LoopState :=
  { s with server := server, point := p, suspended := true, suspensions := s.suspensions + 1 }

/-- An iteration is over. -/
def complete (s : LoopState) (server : ServerState) : LoopState :=
  { s with
    server := server
    point := .top
    iterations := s.iterations + 1
    spins := if s.suspended then s.spins else s.spins + 1 }

end LoopState

/-- One step of the server with the coroutine. -/
inductive LoopStep (cat : DatabaseCatalog) (interval : Int32) :
    LoopState → LoopAction → LoopState → Prop
  | tick {s : LoopState} (elapsed : ℕ) :
      LoopStep cat interval s (.tick elapsed) { s with now := s.now + elapsed }
  -- requests, harvesters, the write strand, and `RunServer`
  | other {s : LoopState} {act : ServerAction} {server : ServerState} : act.ofTask = false →
      ServerStep cat s.server act server →
        LoopStep cat interval s (.other act) { s with server := server }
  -- the inner loop
  | begin {s : LoopState} : s.server.phase = .serving → s.point = .top →
      LoopStep cat interval s .task (s.enter (flushDeadline interval s.now))
  | late {s : LoopState} {deadline : ℤ} : s.server.phase = .serving → s.point = .clock deadline →
      deadline ≤ s.now → LoopStep cat interval s .task (s.goto s.server .check)
  | early {s : LoopState} {deadline : ℤ} : s.server.phase = .serving → s.point = .clock deadline →
      s.now < deadline → LoopStep cat interval s .task (s.goto s.server (.full deadline))
  | full {s : LoopState} {deadline : ℤ} : s.server.phase = .serving → s.point = .full deadline →
      s.server.backlog.isFull = true → LoopStep cat interval s .task (s.goto s.server .check)
  | notFull {s : LoopState} {deadline : ℤ} : s.server.phase = .serving →
      s.point = .full deadline → s.server.backlog.isFull = false →
        LoopStep cat interval s .task (s.goto s.server (.stop deadline))
  | stop {s : LoopState} {deadline : ℤ} : s.server.phase = .serving → s.point = .stop deadline →
      s.server.stopping = true → LoopStep cat interval s .task (s.goto s.server .check)
  | wait {s : LoopState} {deadline : ℤ} : s.server.phase = .serving → s.point = .stop deadline →
      s.server.stopping = false →
        LoopStep cat interval s .task (s.suspend s.server (.timer deadline))
  -- the timer has expired, or was cancelled
  | wake {s : LoopState} {deadline : ℤ} : s.server.phase = .serving → s.point = .timer deadline →
      LoopStep cat interval s .task (s.goto s.server (.clock deadline))
  -- after the inner loop
  | finish {s : LoopState} {server : ServerState} : s.point = .check →
      s.server.stopping = true → ServerStep cat s.server .check server →
        LoopStep cat interval s .task (s.goto server .ended)
  | check {s : LoopState} {server : ServerState} : s.point = .check →
      s.server.stopping = false → ServerStep cat s.server .check server →
        LoopStep cat interval s .task (s.goto server .flush)
  | flushNone {s : LoopState} {server : ServerState} : s.point = .flush →
      s.server.backlog.queue = [] → ServerStep cat s.server .flush server →
        LoopStep cat interval s .task (s.complete server)
  | flush {s : LoopState} {server : ServerState} : s.point = .flush →
      s.server.backlog.queue ≠ [] → ServerStep cat s.server .flush server →
        LoopStep cat interval s .task (s.suspend server .strand)
  | resume {s : LoopState} {server : ServerState} : s.point = .strand →
      ServerStep cat s.server .resume server →
        LoopStep cat interval s .task (s.complete server)
  | crash {s : LoopState} {server : ServerState} : s.point = .strand →
      ServerStep cat s.server .taskError server →
        LoopStep cat interval s .task (s.goto server .ended)

/-! ### The server -/

section
variable {cat : DatabaseCatalog} {interval : Int32} {s t : LoopState} {act : LoopAction}

/-- A step of the coroutine is a step of the server, or leaves it as it is. -/
theorem LoopStep.server (h : LoopStep cat interval s act t) :
    t.server = s.server ∨ ∃ act', ServerStep cat s.server act' t.server := by
  cases h with
  | other _ hstep | finish _ _ hstep | check _ _ hstep | flushNone _ _ hstep | flush _ _ hstep
  | resume _ hstep | crash _ hstep => exact .inr ⟨_, hstep⟩
  | _ => exact .inl rfl

/-- **The coroutine refines the task of the server.** -/
theorem LoopStep.refines {acts : List LoopAction} (h : Run (LoopStep cat interval) s acts t) :
    ∃ acts', Run (ServerStep cat) s.server acts' t.server := by
  induction h with
  | nil s => exact ⟨[], .nil _⟩
  | cons hstep _ ih =>
    obtain ⟨acts', hrun⟩ := ih
    rcases hstep.server with heq | ⟨act', hserver⟩
    · exact ⟨acts', heq ▸ hrun⟩
    · exact ⟨act' :: acts', .cons hserver hrun⟩

/-- The flag is up only if something is in the backlog. -/
def FlagBacked (s : ServerState) : Prop := s.backlog.isFull = true → s.backlog.queue ≠ []

theorem FlagBacked.step {s t : ServerState} {act : ServerAction} (h : FlagBacked s)
    (hstep : ServerStep cat s act t) : FlagBacked t := by
  cases hstep with
  | add _ hadd => exact fun _ => Backlog.add_queue_ne_nil hadd
  | flushNone => exact fun hfull => absurd hfull Bool.false_ne_true
  | flush => exact fun hfull => absurd hfull Bool.false_ne_true
  | _ => exact h

/-- A stop request is not taken back. -/
theorem ServerStep.stopping {s t : ServerState} {act : ServerAction}
    (hstep : ServerStep cat s act t) (h : s.stopping = true) : t.stopping = true := by
  cases hstep with
  | taskError => rfl
  | requestStop => rfl
  | _ => exact h

/-- Only the coroutine takes entries out of the backlog. -/
theorem ServerStep.queue_ne_nil {s t : ServerState} {act : ServerAction}
    (hstep : ServerStep cat s act t) (hother : act.ofTask = false) (h : s.backlog.queue ≠ []) :
    t.backlog.queue ≠ [] := by
  cases hstep with
  | add _ hadd => exact Backlog.add_queue_ne_nil hadd
  | flushNone => cases hother
  | flush => cases hother
  | _ => exact h

/-- Only a call on the write strand moves the task, beside the coroutine. -/
theorem ServerStep.task_eq {s t : ServerState} {act : ServerAction}
    (hstep : ServerStep cat s act t) (hother : act.ofTask = false)
    (h : ∀ batch, s.task ≠ .dispatched batch) : t.task = s.task := by
  cases hstep with
  | checkStop | check | flushNone | flush | resume | taskError => cases hother
  | insert _ _ htask | insertThrows _ _ htask => exact absurd htask (h _)
  | _ => rfl

theorem ServerStep.check_task {s t : ServerState} (hstep : ServerStep cat s .check t)
    (h : s.stopping = false) : t.task = .checked ∧ t.backlog = s.backlog := by
  cases hstep with
  | checkStop _ _ hstop => exact absurd (h.symm.trans hstop) (by decide)
  | check => exact ⟨rfl, rfl⟩

theorem ServerStep.flush_task {s t : ServerState} (hstep : ServerStep cat s .flush t)
    (h : s.backlog.queue = []) : t.task = .polling := by
  cases hstep with
  | flushNone => rfl
  | flush _ _ hne => exact absurd h hne

theorem ServerStep.resume_task {s t : ServerState} (hstep : ServerStep cat s .resume t) :
    t.task = .polling := by
  cases hstep with
  | resume => rfl

/-! ### The point and the task -/

/-- The task of the server, where the point of the coroutine says it. -/
def FlushPoint.task : FlushPoint → Option FlushTask
  | .flush => some .checked
  | .strand | .ended => none
  | _ => some .polling

/-- The coroutine is where the task of the server is. -/
def Linked (s : LoopState) : Prop := ∀ task, s.point.task = some task → s.server.task = task

theorem FlushPoint.task_ne_dispatched {p : FlushPoint} {batch : List Json} :
    p.task ≠ some (.dispatched batch) := by
  cases p <;> simp [FlushPoint.task]

theorem Linked.step (h : Linked s) (hstep : LoopStep cat interval s act t) : Linked t := by
  have hmove : ∀ server p, (s.goto server p).point.task = s.point.task →
      server = s.server → Linked (s.goto server p) := by
    rintro server p htask rfl task hp
    exact h task (htask ▸ hp)
  cases hstep with
  | tick elapsed => exact h
  | @other act server hother hserver =>
    intro task htask
    have hold : s.server.task = task := h task htask
    refine (hserver.task_eq hother fun batch heq => ?_).trans hold
    exact FlushPoint.task_ne_dispatched (htask.trans (congrArg some (hold.symm.trans heq)))
  | begin _ hpoint =>
    intro task htask
    exact h task (by rw [hpoint]; exact htask)
  | late _ hpoint | early _ hpoint | full _ hpoint | notFull _ hpoint | stop _ hpoint
  | wake _ hpoint =>
    exact hmove _ _ (by rw [hpoint]; rfl) rfl
  | wait _ hpoint =>
    intro task htask
    exact h task (by rw [hpoint]; exact htask)
  | finish | flush | crash => rintro task ⟨⟩
  | check _ hstop hserver =>
    rintro task ⟨⟩
    exact (hserver.check_task hstop).1
  | flushNone _ hqueue hserver =>
    rintro task ⟨⟩
    exact hserver.flush_task hqueue
  | resume _ hserver =>
    rintro task ⟨⟩
    exact hserver.resume_task

/-! ### Iterations -/

/-- The current iteration has suspended. -/
def LoopState.due (s : LoopState) : ℕ := if s.point ≠ .top ∧ s.suspended = true then 1 else 0

/-- The iterations that are over have suspended, but for the spins. -/
def Accounted (s : LoopState) : Prop := s.iterations + s.due ≤ s.suspensions + s.spins

/-- What a step can do to the iteration: it moves within it, or suspends; or it is the first
one of an iteration, or the last one. -/
inductive LoopShape (s : LoopState) : LoopState → Prop
  | stay (server : ServerState) (now : ℤ) : LoopShape s { s with server := server, now := now }
  | enter (deadline : ℤ) : s.point = .top → LoopShape s (s.enter deadline)
  | goto {server : ServerState} {p : FlushPoint} : s.point ≠ .top → p ≠ .top →
      LoopShape s (s.goto server p)
  | suspend {server : ServerState} {p : FlushPoint} : s.point ≠ .top → p ≠ .top →
      LoopShape s (s.suspend server p)
  | complete (server : ServerState) : s.point ≠ .top → LoopShape s (s.complete server)

/-- **What a step can do to the iteration.** -/
theorem LoopStep.shape (hstep : LoopStep cat interval s act t) : LoopShape s t := by
  have hne : ∀ {p : FlushPoint}, s.point = p → p ≠ .top → s.point ≠ .top := by
    rintro p rfl hp
    exact hp
  cases hstep with
  | tick | other => exact .stay _ _
  | begin _ hpoint => exact .enter _ hpoint
  | late _ hpoint | early _ hpoint | full _ hpoint | notFull _ hpoint | stop _ hpoint
  | wake _ hpoint | finish hpoint | check hpoint | crash hpoint =>
    exact .goto (hne hpoint nofun) nofun
  | wait _ hpoint | flush hpoint => exact .suspend (hne hpoint nofun) nofun
  | flushNone hpoint | resume hpoint => exact .complete _ (hne hpoint nofun)

theorem due_of_top (h : s.point = .top) : s.due = 0 := by
  unfold LoopState.due
  rw [if_neg fun hdue => hdue.1 h]

theorem due_of_ne_top (h : s.point ≠ .top) : s.due = if s.suspended then 1 else 0 := by
  unfold LoopState.due
  by_cases hsus : s.suspended = true <;> simp [h, hsus]

theorem Accounted.step (h : Accounted s) (hstep : LoopStep cat interval s act t) :
    Accounted t := by
  unfold Accounted at h ⊢
  cases hstep.shape with
  | stay => exact h
  | enter deadline htop =>
    rw [due_of_top htop] at h
    exact h
  | goto htop hp =>
    rw [due_of_ne_top htop] at h
    rwa [due_of_ne_top hp]
  | suspend htop hp =>
    rw [due_of_ne_top hp]
    simp only [LoopState.suspend, if_true]
    omega
  | complete server htop =>
    rw [due_of_ne_top htop] at h
    rw [due_of_top rfl]
    simp only [LoopState.complete]
    cases hsus : s.suspended <;> simp [hsus] at h ⊢ <;> omega

/-- A step keeps the iteration, or it is over. -/
theorem LoopStep.iterations (hstep : LoopStep cat interval s act t) :
    t.iterations = s.iterations ∧ t.spins = s.spins ∨ t.iterations = s.iterations + 1 := by
  cases hstep.shape with
  | complete => exact .inr rfl
  | _ => exact .inl ⟨rfl, rfl⟩

/-- From here the iteration suspends or the task ends: the backlog will not be empty. -/
def Bound (server : ServerState) : FlushPoint → Prop
  | .full _ | .stop _ | .ended => True
  | .check => server.stopping = true ∨ server.backlog.queue ≠ []
  | .flush => server.backlog.queue ≠ []
  | _ => False

/-- The iteration has suspended, or it will. -/
def Covered (s : LoopState) : Prop :=
  s.point ≠ .top ∧ (s.suspended = true ∨ Bound s.server s.point)

theorem Bound.other {s t : ServerState} {act : ServerAction} {p : FlushPoint} (h : Bound s p)
    (hstep : ServerStep cat s act t) (hother : act.ofTask = false) : Bound t p := by
  cases p with
  | check => exact h.imp hstep.stopping (hstep.queue_ne_nil hother)
  | flush => exact hstep.queue_ne_nil hother h
  | full | stop | ended => trivial
  | _ => exact h

/-- **A covered iteration stays covered until it is over, and is no spin.** -/
theorem Covered.step (h : Covered s) (hflag : FlagBacked s.server)
    (hstep : LoopStep cat interval s act t) :
    t.spins = s.spins ∧ (Covered t ∧ t.iterations = s.iterations ∨
      t.point = .top ∧ t.iterations = s.iterations + 1) := by
  obtain ⟨htop, hcover⟩ := h
  -- before its first test, at its timer and at the strand the iteration has suspended
  have hsuspended : ∀ {p : FlushPoint}, s.point = p → ¬ Bound s.server p → s.suspended = true := by
    rintro p rfl hp
    exact hcover.resolve_right hp
  have hcomplete : ∀ server, s.suspended = true → (s.complete server).spins = s.spins := by
    intro server hsus
    show (if s.suspended then s.spins else s.spins + 1) = s.spins
    rw [if_pos hsus]
  cases hstep with
  | tick => exact ⟨rfl, .inl ⟨⟨htop, hcover⟩, rfl⟩⟩
  | other hother hserver =>
    exact ⟨rfl, .inl ⟨⟨htop, hcover.imp_right fun h => h.other hserver hother⟩, rfl⟩⟩
  | begin _ hpoint => exact absurd hpoint htop
  | late _ hpoint | early _ hpoint | wake _ hpoint =>
    exact ⟨rfl, .inl ⟨⟨nofun, .inl (hsuspended hpoint not_false)⟩, rfl⟩⟩
  | full _ _ hfull => exact ⟨rfl, .inl ⟨⟨nofun, .inr (.inr (hflag hfull))⟩, rfl⟩⟩
  | notFull | finish | crash => exact ⟨rfl, .inl ⟨⟨nofun, .inr trivial⟩, rfl⟩⟩
  | stop _ _ hstop => exact ⟨rfl, .inl ⟨⟨nofun, .inr (.inl hstop)⟩, rfl⟩⟩
  | wait | flush => exact ⟨rfl, .inl ⟨⟨nofun, .inl rfl⟩, rfl⟩⟩
  | @check server hpoint hstop hserver =>
    refine ⟨rfl, .inl ⟨⟨nofun, hcover.imp_right fun hbound => ?_⟩, rfl⟩⟩
    rw [hpoint] at hbound
    have hqueue := hbound.resolve_left (by rw [hstop]; exact Bool.false_ne_true)
    show server.backlog.queue ≠ []
    rwa [(hserver.check_task hstop).2]
  | flushNone hpoint hqueue =>
    exact ⟨hcomplete _ (hsuspended hpoint fun h => h hqueue), .inr ⟨rfl, rfl⟩⟩
  | resume hpoint => exact ⟨hcomplete _ (hsuspended hpoint not_false), .inr ⟨rfl, rfl⟩⟩

/-! ### The first test -/

/-- The coroutine is before the first test of an iteration. -/
def FirstTest (s : LoopState) : Prop :=
  (∃ deadline, s.point = .clock deadline) ∧ s.suspended = false

/-- The first test comes before the deadline, or there is something to do. -/
def Prompt (s : LoopState) : Prop :=
  (∀ deadline, s.point = .clock deadline → s.now < deadline) ∨
    s.server.stopping = true ∨ s.server.backlog.queue ≠ []

/-- If the step is the first test of an iteration, then it is prompt. -/
def PromptStep (s : LoopState) (act : LoopAction) : Prop :=
  act = .task → FirstTest s → Prompt s

/-- Whatever happens, the current iteration will not be over without a suspension. -/
def IterationYields (cat : DatabaseCatalog) (interval : Int32) (s : LoopState) : Prop :=
  ∀ acts t, Run (LoopStep cat interval) s acts t → t.iterations ≤ s.iterations + 1 →
    t.spins = s.spins

/-- What the test of the clock does. -/
theorem LoopStep.clock {deadline : ℤ} (hpoint : s.point = .clock deadline)
    (hstep : LoopStep cat interval s .task t) : s.server.phase = .serving ∧
      (deadline ≤ s.now ∧ t = s.goto s.server .check ∨
        s.now < deadline ∧ t = s.goto s.server (.full deadline)) := by
  cases hstep with
  | late hserving hp hle =>
    obtain rfl := FlushPoint.clock.inj (hp.symm.trans hpoint)
    exact ⟨hserving, .inl ⟨hle, rfl⟩⟩
  | early hserving hp hlt =>
    obtain rfl := FlushPoint.clock.inj (hp.symm.trans hpoint)
    exact ⟨hserving, .inr ⟨hlt, rfl⟩⟩
  -- the other steps begin elsewhere
  | begin _ hp | full _ hp | notFull _ hp | stop _ hp | wait _ hp | wake _ hp | finish hp
  | check hp | flushNone hp | flush hp | resume hp | crash hp => cases hpoint.symm.trans hp

/-- After a prompt test the iteration is covered. -/
theorem Prompt.covered (h : Prompt s) (hfirst : FirstTest s)
    (hstep : LoopStep cat interval s .task t) : Covered t := by
  obtain ⟨⟨deadline, hpoint⟩, -⟩ := hfirst
  obtain ⟨-, ⟨hle, rfl⟩ | ⟨-, rfl⟩⟩ := hstep.clock hpoint
  · have hwork : s.server.stopping = true ∨ s.server.backlog.queue ≠ [] :=
      h.resolve_left fun hearly => absurd (hearly _ hpoint) (by omega)
    exact ⟨nofun, .inr hwork⟩
  · exact ⟨nofun, .inr trivial⟩

theorem FlagBacked.loop (h : FlagBacked s.server) (hstep : LoopStep cat interval s act t) :
    FlagBacked t.server := by
  rcases hstep.server with heq | ⟨act', hserver⟩
  · rwa [heq]
  · exact h.step hserver

/-- A covered iteration suspends. -/
theorem Covered.yields (h : Covered s) (hflag : FlagBacked s.server) :
    IterationYields cat interval s := by
  intro acts t hrun hle
  -- the iteration, the next one, and all others
  have hinv : FlagBacked t.server ∧ (t.spins = s.spins ∧ (Covered t ∧ t.iterations = s.iterations ∨
      t.iterations = s.iterations + 1) ∨ s.iterations + 1 < t.iterations) := by
    refine hrun.invariant (I := fun u => FlagBacked u.server ∧ (u.spins = s.spins ∧
      (Covered u ∧ u.iterations = s.iterations ∨ u.iterations = s.iterations + 1) ∨
        s.iterations + 1 < u.iterations)) ?_ ⟨hflag, .inl ⟨rfl, .inl ⟨h, rfl⟩⟩⟩
    rintro u act v ⟨hflag, hu⟩ hstep
    refine ⟨hflag.loop hstep, ?_⟩
    rcases hu with ⟨hspins, ⟨hcovered, hiter⟩ | hiter⟩ | hlater
    · obtain ⟨hspins', ⟨hcovered', hiter'⟩ | ⟨-, hiter'⟩⟩ := hcovered.step hflag hstep
      · exact .inl ⟨hspins'.trans hspins, .inl ⟨hcovered', hiter'.trans hiter⟩⟩
      · exact .inl ⟨hspins'.trans hspins, .inr (by omega)⟩
    · rcases hstep.iterations with ⟨hiter', hspins'⟩ | hiter'
      · exact .inl ⟨hspins'.trans hspins, .inr (hiter'.trans hiter)⟩
      · exact .inr (by omega)
    · rcases hstep.iterations with ⟨hiter', -⟩ | hiter' <;> exact .inr (by omega)
  rcases hinv.2 with ⟨hspins, -⟩ | hlater
  · exact hspins
  · omega

/-! ### Spins -/

/-- Nothing is to be done. -/
structure Idle (s : ServerState) : Prop where
  serving : s.phase = .serving
  polling : s.task = .polling
  running : s.stopping = false
  empty : s.backlog.queue = []

/-- After the inner loop, an idle server goes on to the next iteration. -/
theorem idle_check (hpoint : s.point = .check) (h : Idle s.server) : ∃ server, Idle server ∧
    Run (LoopStep cat interval) s [.task, .task] (s.complete server) := by
  have hcheck : ServerStep cat s.server .check { s.server with task := .checked } :=
    .check h.serving h.polling h.running
  refine ⟨_, ?_, .cons (.check hpoint h.running hcheck)
    (.single (.flushNone (s := s.goto _ .flush) rfl h.empty (.flushNone h.serving rfl h.empty)))⟩
  exact ⟨h.serving, rfl, h.running, rfl⟩

/-- **An iteration suspends, whatever happens, exactly if its first test is prompt.** -/
theorem iterationYields_iff (hlinked : Linked s) (hflag : FlagBacked s.server)
    (hfirst : FirstTest s) (hstep : LoopStep cat interval s .task t) :
    IterationYields cat interval t ↔ Prompt s := by
  constructor
  · intro hyields
    by_contra hprompt
    unfold Prompt at hprompt
    push Not at hprompt
    obtain ⟨⟨deadline, hclock, hlate⟩, hrunning, hempty⟩ := hprompt
    obtain ⟨hserving, ⟨-, rfl⟩ | ⟨hearly, -⟩⟩ := hstep.clock hclock
    · have hpolling : s.server.task = .polling := hlinked _ (by rw [hclock]; rfl)
      have hidle : Idle s.server := ⟨hserving, hpolling, by simpa using hrunning, hempty⟩
      obtain ⟨server, -, hrun⟩ := idle_check (s := s.goto s.server .check) rfl hidle
      have hspins := hyields _ _ hrun le_rfl
      simp only [LoopState.complete, LoopState.goto, hfirst.2, Bool.false_eq_true,
        if_false] at hspins
      omega
    · omega
  · intro hprompt
    exact (hprompt.covered hfirst hstep).yields (hflag.loop hstep)

/-- A server that is idle at the beginning of an iteration, with no deadline ahead, has an
iteration without a suspension. -/
theorem idle_spin (hpoint : s.point = .top) (h : Idle s.server)
    (hlate : flushDeadline interval s.now ≤ s.now) :
    ∃ server, Idle server ∧ Run (LoopStep cat interval) s [.task, .task, .task, .task]
      ((s.enter (flushDeadline interval s.now)).complete server) := by
  have hbegin : LoopStep cat interval s .task (s.enter (flushDeadline interval s.now)) :=
    .begin h.serving hpoint
  obtain ⟨server, hidle, hrun⟩ :=
    idle_check (s := (s.enter (flushDeadline interval s.now)).goto s.server .check) rfl h
  exact ⟨server, hidle, .cons hbegin (.cons (.late h.serving rfl hlate) hrun)⟩

theorem flushDeadline_le (hinterval : interval.toInt ≤ 0) {now : ℤ} (hpos : 0 ≤ now)
    (hfits : fitsInt64 now = true) : flushDeadline interval now ≤ now := by
  have hlow := interval.le_toInt
  rw [fitsInt64_iff] at hfits
  unfold flushDeadline
  rw [toInt64_eq_self_iff.mpr (fitsInt64_iff.mpr ⟨by omega, by omega⟩)]
  omega

end

/-- **With an interval that is not positive, an idle server does not suspend at all.** -/
theorem spins_forever (cat : DatabaseCatalog) {interval : Int32} (tables : Tables)
    (d : LookupTable) (maxSize : ℕ) {now : ℤ} (hinterval : interval.toInt ≤ 0) (hpos : 0 ≤ now)
    (hfits : fitsInt64 now = true) (n : ℕ) : ∃ acts s,
      Run (LoopStep cat interval) (.start tables d maxSize now) acts s ∧ s.iterations = n ∧
        s.spins = n ∧ s.suspensions = 0 := by
  have hrun : ∃ acts s, Run (LoopStep cat interval) (.start tables d maxSize now) acts s ∧
      (s.point = .top ∧ Idle s.server ∧ s.now = now) ∧ s.iterations = n ∧ s.spins = n ∧
        s.suspensions = 0 := by
    induction n with
    | zero => exact ⟨[], _, .nil _, ⟨rfl, ⟨rfl, rfl, rfl, rfl⟩, rfl⟩, rfl, rfl, rfl⟩
    | succ n ih =>
      obtain ⟨acts, s, hrun, ⟨hpoint, hidle, hnow⟩, hiter, hspins, hsus⟩ := ih
      have hlate : flushDeadline interval s.now ≤ s.now :=
        hnow ▸ flushDeadline_le hinterval hpos hfits
      obtain ⟨server, hidle', hspin⟩ := idle_spin hpoint hidle hlate
      have hspins' : s.spins + 1 = n + 1 := congrArg (· + 1) hspins
      exact ⟨_, _, hrun.append hspin, ⟨rfl, hidle', hnow⟩, congrArg (· + 1) hiter, hspins', hsus⟩
  obtain ⟨acts, s, hrun, -, hcounts⟩ := hrun
  exact ⟨acts, s, hrun, hcounts⟩

/-! ### All runs -/

/-- No iteration was over without a suspension, and there were as many suspensions as
iterations. -/
def NoSpin (s : LoopState) : Prop := s.spins = 0 ∧ s.iterations ≤ s.suspensions

section
variable {cat : DatabaseCatalog} {interval : Int32} {tables : Tables} {d : LookupTable}
  {maxSize : ℕ} {now : ℤ} {s : LoopState} {acts : List LoopAction}

theorem linked_of_run (h : Run (LoopStep cat interval) (.start tables d maxSize now) acts s) :
    Linked s ∧ FlagBacked s.server ∧ Accounted s :=
  h.invariant (I := fun s => Linked s ∧ FlagBacked s.server ∧ Accounted s)
    (fun _ _ _ hs hstep => ⟨hs.1.step hstep, hs.2.1.loop hstep, hs.2.2.step hstep⟩)
    ⟨fun _ htask => Option.some.inj htask, fun hfull => absurd hfull Bool.false_ne_true, le_rfl⟩

/-- No iteration has been a spin, and if the first test is behind, then neither will this
one. -/
structure Orderly (s : LoopState) : Prop where
  flag : FlagBacked s.server
  spins : s.spins = 0
  place : s.point = .top ∨ (∃ deadline, s.point = .clock deadline) ∨ Covered s

theorem Orderly.step {act : LoopAction} {t : LoopState} (h : Orderly s)
    (hstep : LoopStep cat interval s act t) (hprompt : PromptStep s act) : Orderly t := by
  have hflag : FlagBacked t.server := h.flag.loop hstep
  have hcovered : Covered s → Orderly t := by
    intro hcovered
    obtain ⟨hspins, ⟨hcovered', -⟩ | ⟨htop, -⟩⟩ := hcovered.step h.flag hstep
    · exact ⟨hflag, hspins.trans h.spins, .inr (.inr hcovered')⟩
    · exact ⟨hflag, hspins.trans h.spins, .inl htop⟩
  rcases h.place with htop | ⟨deadline, hclock⟩ | hplace
  · cases hstep.shape with
    | stay => exact ⟨hflag, h.spins, .inl htop⟩
    | enter => exact ⟨hflag, h.spins, .inr (.inl ⟨_, rfl⟩)⟩
    | goto hne | suspend hne | complete _ hne => exact absurd htop hne
  · by_cases hsus : s.suspended = true
    · exact hcovered ⟨by rw [hclock]; nofun, .inl hsus⟩
    · have hfirst : FirstTest s := ⟨⟨deadline, hclock⟩, by simpa using hsus⟩
      cases act with
      | tick =>
        cases hstep
        exact ⟨hflag, h.spins, .inr (.inl ⟨_, hclock⟩)⟩
      | other =>
        cases hstep
        exact ⟨hflag, h.spins, .inr (.inl ⟨_, hclock⟩)⟩
      | task =>
        have hplace := (hprompt rfl hfirst).covered hfirst hstep
        obtain ⟨-, ⟨-, rfl⟩ | ⟨-, rfl⟩⟩ := hstep.clock hclock
        · exact ⟨hflag, h.spins, .inr (.inr hplace)⟩
        · exact ⟨hflag, h.spins, .inr (.inr hplace)⟩
  · exact hcovered hplace

/-- **In a run whose first tests are all prompt, every iteration suspends.** -/
theorem noSpin_of_prompt
    (h : Run (Guarded (LoopStep cat interval) PromptStep) (.start tables d maxSize now) acts s) :
    NoSpin s := by
  have horderly : Orderly s := h.invariant (fun _ _ _ hs hstep => hs.step hstep.1 hstep.2)
    ⟨fun hfull => absurd hfull Bool.false_ne_true, rfl, .inl rfl⟩
  have haccounted := (linked_of_run h.of_guarded).2.2
  have hspins := horderly.spins
  unfold Accounted at haccounted
  exact ⟨hspins, by omega⟩

/-- **When the iterations of the task suspend**: each one exactly if its first test is
prompt, and so all of a run in which all first tests are. -/
theorem flush_task_suspends_iff :
    (∀ acts s t, Run (LoopStep cat interval) (.start tables d maxSize now) acts s → FirstTest s →
      LoopStep cat interval s .task t → (IterationYields cat interval t ↔ Prompt s)) ∧
    ∀ acts s,
      Run (Guarded (LoopStep cat interval) PromptStep) (.start tables d maxSize now) acts s →
        NoSpin s := by
  refine ⟨fun acts s t hrun hfirst hstep => ?_, fun acts s hrun => noSpin_of_prompt hrun⟩
  obtain ⟨hlinked, hflag, -⟩ := linked_of_run hrun
  exact iterationYields_iff hlinked hflag hfirst hstep

/-- With an interval of five seconds: an iteration that waits for its timer, and one whose
deadline has passed when it is looked at, while the backlog has an entry. -/
def promptActions : List LoopAction :=
  [.task, .task, .task, .task, .tick 6000000000, .task, .task, .task, .task,
    .other (.add (levelLog "INFO")), .task, .tick 6000000000, .task, .task, .task,
    .other (.insert .none), .task]

/-- Both suspend. -/
theorem flush_task_suspends_twice : ∃ s t u,
    Run (LoopStep textCatalog 5) (.start ⟨[], []⟩ ∅ 200 0) [.task] s ∧
      LoopStep textCatalog 5 s .task t ∧ IterationYields textCatalog 5 t ∧
      Run (Guarded (LoopStep textCatalog 5) PromptStep) (.start ⟨[], []⟩ ∅ 200 0) promptActions u ∧
      u.iterations = 2 ∧ u.suspensions = 2 ∧ NoSpin u := by
  -- a step of the task that is no first test
  have hlater : ∀ {s : LoopState} {act : LoopAction},
      (∀ deadline, s.point ≠ .clock deadline) ∨ s.suspended = true → PromptStep s act := by
    rintro s act (hpoint | hsuspended) - ⟨⟨deadline, hclock⟩, hfirst⟩
    · exact absurd hclock (hpoint deadline)
    · exact absurd (hfirst.symm.trans hsuspended) Bool.false_ne_true
  have hnext : ∀ {s : LoopState} {act : LoopAction}, act ≠ .task → PromptStep s act :=
    fun hact h => absurd h hact
  have hbegin : Run (LoopStep textCatalog 5) (.start ⟨[], []⟩ ∅ 200 0) [.task] _ :=
    .single (.begin rfl rfl)
  have hfirst : LoopStep textCatalog 5
      ((LoopState.start ⟨[], []⟩ ∅ 200 0).enter (flushDeadline 5 0)) .task _ :=
    .early rfl rfl (by decide)
  have hearly : Prompt ((LoopState.start ⟨[], []⟩ ∅ 200 0).enter (flushDeadline 5 0)) := by
    refine .inl fun deadline hclock => ?_
    cases hclock
    decide
  have hrun : Run (Guarded (LoopStep textCatalog 5) PromptStep) (.start ⟨[], []⟩ ∅ 200 0)
      promptActions _ :=
    .cons ⟨.begin rfl rfl, hlater (.inl nofun)⟩ <| .cons ⟨hfirst, fun _ _ => hearly⟩ <|
    .cons ⟨.notFull rfl rfl rfl, hlater (.inl nofun)⟩ <|
    .cons ⟨.wait rfl rfl rfl, hlater (.inl nofun)⟩ <| .cons ⟨.tick _, hnext nofun⟩ <|
    .cons ⟨.wake rfl rfl, hlater (.inl nofun)⟩ <|
    .cons ⟨.late rfl rfl (by decide), hlater (.inr rfl)⟩ <|
    .cons ⟨.check rfl rfl (.check rfl rfl rfl), hlater (.inl nofun)⟩ <|
    .cons ⟨.flushNone rfl rfl (.flushNone rfl rfl rfl), hlater (.inl nofun)⟩ <|
    .cons ⟨.other rfl (.add (.inl rfl) rfl), hnext nofun⟩ <|
    .cons ⟨.begin rfl rfl, hlater (.inl nofun)⟩ <| .cons ⟨.tick _, hnext nofun⟩ <|
    .cons ⟨.late rfl rfl (by decide), fun _ _ => .inr (.inr nofun)⟩ <|
    .cons ⟨.check rfl rfl (.check rfl rfl rfl), hlater (.inl nofun)⟩ <|
    .cons ⟨.flush rfl nofun (.flush rfl rfl nofun), hlater (.inl nofun)⟩ <|
    .cons ⟨.other rfl (.insert nofun nofun rfl rfl), hnext nofun⟩ <|
    .single ⟨.resume rfl (.resume rfl rfl), hlater (.inl nofun)⟩
  refine ⟨_, _, _, hbegin, hfirst, ?_, hrun, rfl, rfl, ?_⟩
  · exact (flush_task_suspends_iff.1 _ _ _ hbegin ⟨⟨_, rfl⟩, rfl⟩ hfirst).mpr hearly
  · exact flush_task_suspends_iff.2 _ _ hrun

/-- With the interval 0, which the configuration may have, a server that is just started
does not suspend. -/
theorem idle_task_spins : ¬ ∀ acts s,
    Run (LoopStep stampCatalog 0) (.start ⟨[], []⟩ ∅ 200 0) acts s → NoSpin s := by
  intro h
  have hinterval : (0 : Int32).toInt ≤ 0 := by decide
  have hfits : fitsInt64 0 = true := by decide
  obtain ⟨acts, s, hrun, -, hspins, -⟩ :=
    spins_forever stampCatalog ⟨[], []⟩ ∅ 200 hinterval le_rfl hfits 1
  exact absurd (hspins.symm.trans (h acts s hrun).1) (by decide)

end

end LogLite
