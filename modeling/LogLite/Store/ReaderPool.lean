import LogLite.Base.Integer
import LogLite.Lib.Pool
import LogLite.Lib.Run

/-!
# The pool of readers

`ReadDatabasePool` owns a number of readers and lends them: `UseConnection` acquires one,
calls back with it, and releases it in a destructor, whether the callback throws or not.
Each body runs under the mutex of the pool, so it is one step.  `Close` destroys all
readers, also those that are on loan.

## Main definitions

* `ReadDatabasePool`, with `acquire`, `release`, `close` — the class and its members.
* `PoolSystem`, `PoolStep` — the pool with the leases of its users, and what may happen.
* `Exclusive` — what holds of the leases in every state.
* `SparesLeased` — `Close` destroys no reader that is on loan.
* `ClosesIdle` — `Close` takes effect only while there is no lease.

## Main results

* `exclusive_of_run` — **leases are exclusive in every run.**
* `waits_of_no_readers` — a pool of no readers lends none in any run.
* `sparesLeased_iff` — what `Close` spares, in every state.
* `reader_pool_law_iff` — **a run keeps the law exactly if it closes the pool only while
  there is no lease.**
-/

namespace LogLite

open Transition

/-! ### The class -/

/-- `ReadDatabasePool`: the readers it owns, those that are available, and whether it is
closed. -/
structure ReadDatabasePool where
  readers : List ℕ
  available : List ℕ
  closed : Bool

/-- The constructor. -/
def ReadDatabasePool.create (size : ℕ) : ReadDatabasePool where
  readers := List.range size
  available := List.range size
  closed := false

/-- What `acquire` does: it waits, throws, or leases a reader. -/
inductive Acquired where
  | waits
  | throws (e : Exception)
  | leases (reader : ℕ) (pool : ReadDatabasePool)

/-- `ReadDatabasePool::acquire`. -/
def ReadDatabasePool.acquire (pool : ReadDatabasePool) : Acquired :=
  if pool.closed then .throws (.runtimeError (lit "read database pool is closed"))
  else
    match pool.available with
    | [] => .waits
    | reader :: rest => .leases reader { pool with available := rest }

/-- `ReadDatabasePool::release`. -/
def ReadDatabasePool.release (pool : ReadDatabasePool) (reader : ℕ) : ReadDatabasePool :=
  if pool.closed then pool else { pool with available := pool.available ++ [reader] }

/-- `ReadDatabasePool::Close`, with the readers it closes and destroys. -/
def ReadDatabasePool.close (pool : ReadDatabasePool) : ReadDatabasePool × List ℕ :=
  if pool.closed then (pool, []) else (⟨[], [], true⟩, pool.readers)

/-! ### Users -/

/-- The pool and the leases of its users. -/
structure PoolSystem (User : Type) where
  pool : ReadDatabasePool
  leases : List (User × ℕ)

/-- What may happen next. -/
inductive PoolAction (User : Type) where
  /-- The user gets past the wait of `acquire`. -/
  | acquire (user : User)
  /-- A lease ends, with or without an exception in the callback. -/
  | release (user : User) (reader : ℕ) (threw : Bool)
  | close

section
variable {User : Type}

/-- The system at first. -/
def PoolSystem.start (User : Type) (size : ℕ) : PoolSystem User := ⟨.create size, []⟩

/-- The readers that are on loan. -/
def PoolSystem.leased (s : PoolSystem User) : List ℕ := s.leases.map Prod.snd

/-- One step.  A user who waits takes none. -/
inductive PoolStep : PoolSystem User → PoolAction User → PoolSystem User → Prop
  | acquire {s : PoolSystem User} {user : User} {reader : ℕ} {pool : ReadDatabasePool}
      (h : s.pool.acquire = .leases reader pool) :
      PoolStep s (.acquire user) ⟨pool, (user, reader) :: s.leases⟩
  | refuse {s : PoolSystem User} {user : User} {e : Exception} (h : s.pool.acquire = .throws e) :
      PoolStep s (.acquire user) s
  | release {s : PoolSystem User} {user : User} {reader : ℕ} {threw : Bool}
      {before after : List (User × ℕ)} (h : s.leases = before ++ (user, reader) :: after) :
      PoolStep s (.release user reader threw) ⟨s.pool.release reader, before ++ after⟩
  | close {s : PoolSystem User} : PoolStep s .close ⟨s.pool.close.1, s.leases⟩

/-- What holds of the leases: no reader is leased twice; while the pool is open, the readers
on loan and the available ones are all readers, each of them once, so all are available
where there is no lease; once it is closed, `acquire` fails. -/
structure Exclusive (size : ℕ) (s : PoolSystem User) : Prop where
  nodup : s.leased.Nodup
  divided : s.pool.closed = false →
    (s.leased ++ s.pool.available).Nodup ∧
      (s.leased ++ s.pool.available).Perm (List.range size)
  all_back : s.pool.closed = false → s.leases = [] →
    s.pool.available.Perm (List.range size)
  acquire_fails : s.pool.closed = true → ∃ e, s.pool.acquire = .throws e

/-- `Close` destroys no reader that is on loan. -/
def SparesLeased (s : PoolSystem User) : Prop := ∀ reader ∈ s.pool.close.2, reader ∉ s.leased

/-- The law for one step: leases are exclusive, and `Close` spares what is on loan. -/
def PoolLaw (size : ℕ) (s : PoolSystem User) (a : PoolAction User) : Prop :=
  Exclusive size s ∧ (a = .close → SparesLeased s)

/-- `Close` takes effect only while there is no lease. -/
def ClosesIdle (s : PoolSystem User) (a : PoolAction User) : Prop :=
  a = .close → s.pool.closed = true ∨ s.leases = []

/-! ### The members -/

theorem ReadDatabasePool.acquire_eq_leases {pool pool' : ReadDatabasePool} {reader : ℕ}
    (h : pool.acquire = .leases reader pool') :
    pool.closed = false ∧ ∃ rest, pool.available = reader :: rest ∧
      pool' = { pool with available := rest } := by
  unfold acquire at h
  split at h
  · cases h
  · next hopen =>
    split at h
    · cases h
    · next rest havailable =>
      cases h
      exact ⟨Bool.not_eq_true _ ▸ hopen, _, havailable, rfl⟩

@[simp] theorem ReadDatabasePool.acquire_closed {pool : ReadDatabasePool}
    (h : pool.closed = true) :
    pool.acquire = .throws (.runtimeError (lit "read database pool is closed")) := if_pos h

@[simp] theorem ReadDatabasePool.closed_release (pool : ReadDatabasePool) (reader : ℕ) :
    (pool.release reader).closed = pool.closed := by
  unfold release
  split <;> rfl

@[simp] theorem ReadDatabasePool.release_open {pool : ReadDatabasePool} (h : pool.closed = false)
    (reader : ℕ) :
    pool.release reader = { pool with available := pool.available ++ [reader] } := by
  simp [release, h]

@[simp] theorem ReadDatabasePool.closed_close (pool : ReadDatabasePool) :
    pool.close.1.closed = true := by
  unfold close
  split
  · assumption
  · rfl

/-! ### The invariant -/

/-- The invariant of the system: no reader is leased twice, and as long as the pool is open
it is divided. -/
structure PoolInv (size : ℕ) (s : PoolSystem User) : Prop where
  nodup : s.leased.Nodup
  readers : s.pool.closed = false → s.pool.readers = List.range size
  divided : s.pool.closed = false →
    Pool.Divided (List.range size) s.leased s.pool.available

theorem poolInv_start (size : ℕ) : PoolInv size (PoolSystem.start User size) where
  nodup := List.nodup_nil
  readers _ := rfl
  divided _ := .start List.nodup_range

/-- One step keeps the invariant. -/
theorem PoolInv.step {size : ℕ} {s t : PoolSystem User} {a : PoolAction User}
    (h : PoolInv size s) (hstep : PoolStep s a t) : PoolInv size t := by
  cases hstep with
  | acquire hacquire =>
    obtain ⟨hopen, rest, havailable, rfl⟩ := ReadDatabasePool.acquire_eq_leases hacquire
    have hlend := (havailable ▸ h.divided hopen).lend
    exact ⟨hlend.nodup_leased, fun _ => h.readers hopen, fun _ => hlend⟩
  | refuse => exact h
  | @release user reader _ before after hleases =>
    have hleased : s.leased = before.map Prod.snd ++ reader :: after.map Prod.snd := by
      simp [PoolSystem.leased, hleases]
    have hless : PoolSystem.leased ⟨s.pool.release reader, before ++ after⟩ =
        before.map Prod.snd ++ after.map Prod.snd := List.map_append
    refine ⟨?_, ?_, ?_⟩
    · rw [hless]
      exact (List.nodup_middle.mp (hleased ▸ h.nodup)).of_cons
    · intro hopen
      rw [ReadDatabasePool.closed_release] at hopen
      rw [ReadDatabasePool.release_open hopen]
      exact h.readers hopen
    · intro hopen
      rw [ReadDatabasePool.closed_release] at hopen
      rw [hless, ReadDatabasePool.release_open hopen]
      exact (hleased ▸ h.divided hopen).giveBack
  | close =>
    refine ⟨h.nodup, fun hopen => ?_, fun hopen => ?_⟩ <;> simp at hopen

theorem poolInv_of_run {size : ℕ} {s : PoolSystem User} {as : List (PoolAction User)}
    (h : Run PoolStep (.start User size) as s) : PoolInv size s :=
  h.invariant (fun _ _ _ hs hstep => hs.step hstep) (poolInv_start size)

/-! ### The law -/

/-- The invariant says that leases are exclusive. -/
theorem PoolInv.exclusive {size : ℕ} {s : PoolSystem User} (h : PoolInv size s) :
    Exclusive size s where
  nodup := h.nodup
  divided hopen :=
    ⟨(h.divided hopen).perm.nodup_iff.mpr List.nodup_range, (h.divided hopen).perm⟩
  all_back hopen hnone := by
    have hdivided := h.divided hopen
    rw [PoolSystem.leased, hnone] at hdivided
    exact hdivided.free_perm
  acquire_fails hclosed := ⟨_, ReadDatabasePool.acquire_closed hclosed⟩

/-- **Leases are exclusive in every run.** -/
theorem exclusive_of_run {size : ℕ} {s : PoolSystem User} {as : List (PoolAction User)}
    (h : Run PoolStep (.start User size) as s) : Exclusive size s := (poolInv_of_run h).exclusive

/-- A new pool lends a reader if it has one. -/
theorem ReadDatabasePool.acquire_create {size : ℕ} (h : size ≠ 0) :
    ∃ reader pool, (ReadDatabasePool.create size).acquire = .leases reader pool := by
  obtain ⟨size, rfl⟩ := Nat.exists_eq_succ_of_ne_zero h
  rw [acquire, create, List.range_succ_eq_map]
  exact ⟨_, _, rfl⟩

/-- **Without readers every query waits**, as long as the pool is open. -/
theorem waits_of_no_readers {s : PoolSystem User} {as : List (PoolAction User)}
    (h : Run PoolStep (.start User 0) as s) (hopen : s.pool.closed = false) :
    s.leases = [] ∧ s.pool.acquire = .waits := by
  have hperm := ((exclusive_of_run h).divided hopen).2
  rw [List.range_zero, List.perm_nil, List.append_eq_nil_iff] at hperm
  obtain ⟨hleased, havailable⟩ := hperm
  refine ⟨List.map_eq_nil_iff.mp hleased, ?_⟩
  rw [ReadDatabasePool.acquire, hopen, havailable]
  rfl

/-- **`Close` spares what is on loan exactly if the pool is closed already or nothing is.** -/
theorem PoolInv.sparesLeased_iff {size : ℕ} {s : PoolSystem User} (h : PoolInv size s) :
    SparesLeased s ↔ s.pool.closed = true ∨ s.leases = [] := by
  unfold SparesLeased ReadDatabasePool.close
  cases hclosed : s.pool.closed with
  | true => simp
  | false =>
    simp only [Bool.false_eq_true, if_false, false_or]
    constructor
    · intro hspares
      refine List.eq_nil_iff_forall_not_mem.mpr fun lease hlease => ?_
      -- what is on loan is one of the readers that are destroyed
      have hmem : lease.2 ∈ s.leased := List.mem_map_of_mem hlease
      refine hspares lease.2 ?_ hmem
      rw [h.readers hclosed]
      exact (h.divided hclosed).mem_all hmem
    · intro hnone reader _
      simp [PoolSystem.leased, hnone]

/-- **A run keeps the law exactly if it closes the pool only while there is no lease.**  In
every run, leases are exclusive. -/
theorem reader_pool_law_iff (User : Type) (size : ℕ) (as : List (PoolAction User))
    (s : PoolSystem User) :
    (Run PoolStep (.start User size) as s → Exclusive size s) ∧
      (Run (Guarded PoolStep (PoolLaw size)) (.start User size) as s ↔
        Run (Guarded PoolStep ClosesIdle) (.start User size) as s) := by
  refine ⟨exclusive_of_run, ?_⟩
  have hinvariant : ∀ (s : PoolSystem User) a t, PoolInv size s → PoolStep s a t → PoolInv size t :=
    fun s a t h hstep => h.step hstep
  refine Run.guarded_congr hinvariant (fun s a t h _ => ?_) (poolInv_start size)
  unfold PoolLaw ClosesIdle
  rw [h.sparesLeased_iff]
  exact and_iff_right h.exclusive

/-- A reader is leased, its callback throws, and the pool is closed. -/
theorem reader_pool_law_one :
    Exclusive 1 (⟨⟨[0], [], false⟩, [((), 0)]⟩ : PoolSystem Unit) ∧
      Run (Guarded PoolStep (PoolLaw 1)) (.start Unit 1)
        [.acquire (), .release () 0 true, .close] ⟨⟨[], [], true⟩, []⟩ := by
  constructor
  · exact (reader_pool_law_iff Unit 1 [.acquire ()] _).1 (.single (.acquire rfl))
  · refine (reader_pool_law_iff Unit 1 _ _).2.mpr ?_
    have hreleased : PoolStep (⟨⟨[0], [], false⟩, [((), 0)]⟩ : PoolSystem Unit)
        (.release () 0 true) ⟨⟨[0], [0], false⟩, []⟩ :=
      @PoolStep.release Unit _ () 0 true [] [] rfl
    exact .cons ⟨.acquire rfl, by simp [ClosesIdle]⟩ (.cons ⟨hreleased, by simp [ClosesIdle]⟩
      (.single ⟨.close, fun _ => .inr rfl⟩))

/-- `Close` during a lease destroys the reader. -/
theorem close_destroys_leased : ¬ ∀ (size : ℕ) (as : List (PoolAction Unit)) (s : PoolSystem Unit),
    Run PoolStep (.start Unit size) as s →
      Run (Guarded PoolStep (PoolLaw size)) (.start Unit size) as s := by
  intro h
  have hrun : Run PoolStep (.start Unit 1) [.acquire (), .close]
      (⟨⟨[], [], true⟩, [((), 0)]⟩ : PoolSystem Unit) := .cons (.acquire rfl) (.single .close)
  cases h 1 _ _ hrun with
  | cons hacquire hrest =>
    cases hrest with
    | cons hclose _ =>
      have hspares := hclose.2.2 rfl
      cases hacquire.1 with
      | acquire hlease =>
        obtain ⟨-, rest, havailable, rfl⟩ := ReadDatabasePool.acquire_eq_leases hlease
        cases havailable
        exact hspares 0 (by simp [ReadDatabasePool.close, PoolSystem.start,
          ReadDatabasePool.create]) (by simp [PoolSystem.leased])
      | refuse hrefused => cases hrefused

end

end LogLite
