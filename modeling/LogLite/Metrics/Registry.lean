import LogLite.Base.Json
import LogLite.Lib.SlidingWindow
import Mathlib.Algebra.Order.Group.Int

/-!
# The metrics registry

`MetricsRegistry` collects observations; the diagnostics task takes them out with
`Flush` once in a while and writes a summary.  `Collect` and `Flush` first prune
the observations that are not younger than a window, which `RunServer` sets to the
period of the diagnostics task.

Times are those of the steady clock, in nanoseconds; each call reads the clock
once and comes with the time it read.

## Main definitions

* `MetricsRegistry.configure`, `collect`, `flush`, `prune` — the source's functions.
* `flushed` — the vectors returned by the flushes of a sequence of calls.
* `periods` — what was collected before each flush and after the one before it.

## Main results

* `flushed_eq` — a flush returns what was collected in its period less than the
  window ago.
* `flushed_complete_iff` — **no observation is lost if and only if each was
  collected less than the window before its flush.**
-/

namespace LogLite

/-- `Observation`. -/
structure Observation where
  time : ℤ
  name : Bytes
  value : Real64
  itemCount : ℤ

/-- The observations of `MetricsRegistry`, with the window in milliseconds. -/
structure MetricsRegistry where
  window : ℤ
  observations : List Observation

namespace MetricsRegistry

/-- A registry before it is configured. -/
def fresh : MetricsRegistry := ⟨60 * 1000, []⟩

/-- The window in nanoseconds. -/
def windowNanos (r : MetricsRegistry) : ℤ := r.window * 1000000

/-- `prune`. -/
def prune (r : MetricsRegistry) (now : ℤ) : MetricsRegistry :=
  { r with observations := r.observations.dropWhile fun o => now - o.time ≥ r.windowNanos }

/-- `Configure`. -/
def configure (r : MetricsRegistry) (window now : ℤ) : MetricsRegistry :=
  prune { r with window := window } now

/-- `Collect`. -/
def collect (r : MetricsRegistry) (now : ℤ) (name : Bytes) (value : Real64) (itemCount : ℤ) :
    MetricsRegistry :=
  let r := r.prune now
  { r with observations := r.observations ++ [⟨now, name, value, itemCount⟩] }

/-- `Flush`. -/
def flush (r : MetricsRegistry) (now : ℤ) : MetricsRegistry × List Observation :=
  let r := r.prune now
  ({ r with observations := [] }, r.observations)

end MetricsRegistry

/-- A call that collects an observation or flushes, with the time it reads. -/
inductive MetricsCall where
  | collect (now : ℤ) (name : Bytes) (value : Real64) (itemCount : ℤ)
  | flush (now : ℤ)

/-- The time a call reads. -/
def MetricsCall.now : MetricsCall → ℤ
  | .collect now _ _ _ => now
  | .flush now => now

/-- The vectors the flushes return. -/
def flushed (r : MetricsRegistry) : List MetricsCall → List (List Observation)
  | [] => []
  | .collect now name value itemCount :: calls =>
    flushed (r.collect now name value itemCount) calls
  | .flush now :: calls => (r.flush now).2 :: flushed (r.flush now).1 calls

/-- For each flush its time and what was collected since the flush before it;
`since` has been collected so far. -/
def periods (since : List Observation) : List MetricsCall → List (ℤ × List Observation)
  | [] => []
  | .collect now name value itemCount :: calls =>
    periods (since ++ [⟨now, name, value, itemCount⟩]) calls
  | .flush now :: calls => (now, since) :: periods [] calls

/-- The clock does not go back, from `start` on. -/
def ClockForward (start : ℤ) (calls : List MetricsCall) : Prop :=
  (start :: calls.map MetricsCall.now).IsChain (· ≤ ·)

/-- Every flush comes at least `gap` after the flush before it; the last one was at
`prev`. -/
def FlushesApart (gap prev : ℤ) : List MetricsCall → Prop
  | [] => True
  | .collect _ _ _ _ :: calls => FlushesApart gap prev calls
  | .flush now :: calls => prev + gap ≤ now ∧ FlushesApart gap now calls

/-- The registry as `RunServer` configures it, for a diagnostics interval in
seconds. -/
def configured (interval now : ℤ) : MetricsRegistry :=
  MetricsRegistry.fresh.configure (interval * 1000) now

open SlidingWindow

section
variable {r : MetricsRegistry} {now : ℤ} {since : List Observation}

/-- The queue of the registry stands for what was collected in this period. -/
abbrev Holds (r : MetricsRegistry) (now : ℤ) (since : List Observation) : Prop :=
  Represents Observation.time r.windowNanos now r.observations since

@[simp] theorem prune_window (r : MetricsRegistry) (now : ℤ) : (r.prune now).window = r.window :=
  rfl

theorem prune_observations (r : MetricsRegistry) (now : ℤ) :
    (r.prune now).observations =
      SlidingWindow.prune Observation.time r.windowNanos now r.observations := by
  refine congrArg (fun p => r.observations.dropWhile p) (funext fun o => ?_)
  simp only [live, ge_iff_le, ← not_lt, decide_not]

/-- `Collect` adds the observation to the period. -/
theorem Holds.collect (h : Holds r now since) {t : ℤ} (ht : now ≤ t) (name : Bytes)
    (value : Real64) (itemCount : ℤ) :
    Holds (r.collect t name value itemCount) t (since ++ [⟨t, name, value, itemCount⟩]) := by
  have hpruned : Holds (r.prune t) t since := by
    have hp := (h.mono ht).prune
    rw [← prune_observations] at hp
    exact hp
  exact hpruned.push rfl

/-- `Flush` returns the live observations of the period and starts a new one. -/
theorem Holds.flush (h : Holds r now since) {t : ℤ} (ht : now ≤ t) :
    (r.flush t).2 = since.filter (live Observation.time r.windowNanos t) ∧
      Holds (r.flush t).1 t [] := by
  refine ⟨?_, .nil _ _ _⟩
  show (r.prune t).observations = _
  rw [prune_observations]
  exact (h.mono ht).prune_eq

/-- **A flush returns what was collected in its period less than the window ago**,
in the order of collection. -/
theorem flushed_eq : ∀ (calls : List MetricsCall) {r : MetricsRegistry} {start : ℤ}
    {since : List Observation}, Holds r start since → ClockForward start calls →
      flushed r calls = (periods since calls).map fun p =>
        p.2.filter fun o => p.1 - o.time < r.windowNanos := by
  intro calls
  induction calls with
  | nil => exact fun _ _ => rfl
  | cons call calls ih =>
    intro r start since hr hclock
    obtain ⟨hle, hrest⟩ := List.isChain_cons_cons.mp hclock
    cases call with
    | collect t name value itemCount =>
      have hle : start ≤ t := hle
      exact ih (hr.collect hle name value itemCount) hrest
    | flush t =>
      have hle : start ≤ t := hle
      obtain ⟨hout, hnext⟩ := hr.flush hle
      have htail := ih hnext hrest
      rw [flushed, periods, List.map_cons, hout, htail]
      rfl

theorem holds_configured (interval now : ℤ) : Holds (configured interval now) now [] :=
  .nil _ _ _

/-- **No observation is lost or counted twice if and only if each was collected
less than the diagnostics interval before its flush.** -/
theorem flushed_complete_iff {interval start : ℤ} {calls : List MetricsCall}
    (hclock : ClockForward start calls) :
    flushed (configured interval start) calls = (periods [] calls).map Prod.snd ↔
      ∀ p ∈ periods [] calls, ∀ o ∈ p.2, p.1 - o.time < interval * 1000000000 := by
  have hnanos : (configured interval start).windowNanos = interval * 1000000000 := by
    show interval * 1000 * 1000000 = _
    omega
  rw [flushed_eq calls (holds_configured interval start) hclock, hnanos, List.map_inj_left]
  refine forall₂_congr fun p _ => ?_
  rw [List.filter_eq_self]
  simp

end

/-- Two observations, half a minute less a millisecond and ten seconds before their flush. -/
theorem flushed_complete_two :
    flushed (configured 30 0) [.collect 1000000 (lit "ingest_request") (.finite 1) 1,
        .collect 20000000000 (lit "ingest_request") (.finite 2) 1, .flush 30000000000] =
      [[⟨1000000, lit "ingest_request", .finite 1, 1⟩,
        ⟨20000000000, lit "ingest_request", .finite 2, 1⟩]] := by
  refine (flushed_complete_iff (by simp [ClockForward, MetricsCall.now])).mpr ?_
  intro p hp o ho
  simp only [periods, List.nil_append, List.cons_append, List.mem_singleton] at hp
  subst hp
  simp only [List.mem_cons, List.not_mem_nil, or_false] at ho
  rcases ho with rfl | rfl <;> decide

/-- An observation collected a millisecond after a flush is lost when the next
flush comes two milliseconds late.  The configuration asks for at least half a minute. -/
theorem flushed_loses_observation : ¬ ∀ (interval start : ℤ) (calls : List MetricsCall),
    30 ≤ interval → ClockForward start calls →
      FlushesApart (interval * 1000000000) start calls →
        flushed (configured interval start) calls = (periods [] calls).map Prod.snd := by
  intro h
  have heq := h 30 0 [.flush 30000000000, .collect 30001000000 (lit "backlog_drop") (.finite 0) 1,
    .flush 60002000000] (by decide) (by simp [ClockForward, MetricsCall.now])
    (by simp [FlushesApart])
  revert heq
  simp [flushed, configured, MetricsRegistry.configure, MetricsRegistry.fresh,
    MetricsRegistry.flush, MetricsRegistry.collect, MetricsRegistry.prune,
    MetricsRegistry.windowNanos, periods]

end LogLite
