import LogLite.Server.Backlog
import Mathlib.Data.List.DropRight
import Mathlib.Algebra.BigOperators.Group.List.Basic

/-!
# The law of the backlog

Between two flushes the backlog holds the last `max_size` entries that were added:
`Add` drops the oldest one when there is no room.  The capacity is an `int` of the
configuration, cast to `size_t`, so a negative one becomes a number close to
`2 ^ 64`; the watermark is computed in doubles.

A sequence of calls is run on the backlog together with a ledger of what was added
and returned.  A call that pops an empty deque ends the run.

## Main definitions

* `capacity` — the capacity `RunServer` gives to the backlog.
* `Ledger`, `Ledger.call`, `Ledger.run` — the backlog under a sequence of calls.
* `Ledger.Lawful` — contents, order, drop count, bound and watermark.

## Main results

* `nearFull_iff` — **the watermark computed in doubles is exact** for every capacity
  the server can have and every size a deque can have.
* `Ledger.Lawful.call` — a call keeps the law.
* `backlogLaw_iff` — **the law holds throughout if and only if the capacity is not
  zero or nothing is added.**
-/

namespace LogLite

/-! ### The watermark -/

/-- Rounding to a double keeps a number below a multiple of its unit in the last
place that is not below it. -/
theorem toDouble_le {n m : ℕ} (h : n ≤ m) (hdvd : 2 ^ (n.log2 - 52) ∣ m) : toDouble n ≤ m := by
  obtain ⟨k, rfl⟩ := hdvd
  have hpos : 0 < 2 ^ (n.log2 - 52) := Nat.two_pow_pos _
  have hq : n / 2 ^ (n.log2 - 52) ≤ k := Nat.div_le_of_le_mul h
  simp only [toDouble, Nat.shiftRight_eq_div_pow, Nat.shiftLeft_eq]
  rw [Nat.mul_comm _ k]
  apply Nat.mul_le_mul_right
  split
  · next hup =>
    -- the remainder is not zero, so the quotient is below `k`
    have hrest : 0 < n % 2 ^ (n.log2 - 52) := by
      simp only [Bool.or_eq_true, Bool.and_eq_true, decide_eq_true_eq, beq_iff_eq] at hup
      omega
    have hmod := Nat.mod_add_div n (2 ^ (n.log2 - 52))
    by_contra hk
    have heq : n / 2 ^ (n.log2 - 52) = k := by omega
    rw [heq] at hmod
    omega
  · exact hq

/-- Rounding to a double takes away less than a unit in the last place. -/
theorem lt_toDouble_add (n : ℕ) : n < toDouble n + 2 ^ (n.log2 - 52) := by
  have hpos : 0 < 2 ^ (n.log2 - 52) := Nat.two_pow_pos _
  have hmod := Nat.mod_add_div n (2 ^ (n.log2 - 52))
  have hlt := Nat.mod_lt n hpos
  have hle : 2 ^ (n.log2 - 52) * (n / 2 ^ (n.log2 - 52)) ≤ toDouble n := by
    simp only [toDouble, Nat.shiftRight_eq_div_pow, Nat.shiftLeft_eq]
    rw [Nat.mul_comm]
    apply Nat.mul_le_mul_right
    split <;> omega
  omega

theorem log2_sub_le {n e : ℕ} (h : n < 2 ^ (e + 53)) : n.log2 - 52 ≤ e := by
  rcases Nat.eq_zero_or_pos n with rfl | hn
  · simp
  · have := (Nat.log2_lt (by omega)).mpr h
    omega

/-- An integer of at most 53 bits is a double. -/
theorem toDouble_eq {n : ℕ} (h : n < 2 ^ 53) : toDouble n = n := by
  have hshift : n.log2 - 52 = 0 := Nat.le_zero.mp (log2_sub_le (by simpa using h))
  have hle : toDouble n ≤ n := toDouble_le (Nat.le_refl n) (by rw [hshift]; simp)
  have hlt := lt_toDouble_add n
  rw [hshift] at hlt
  omega

/-- The watermark of a capacity that is a positive `int`. -/
theorem nearFull_iff_of_small {size maxSize : ℕ} (hpos : 0 < maxSize) (hmax : maxSize < 2 ^ 31)
    (hsize : size ≤ maxSize) : nearFull size maxSize = true ↔ 95 * maxSize ≤ 100 * size := by
  have hbits : maxSize * ninetyFivePercent < 2 ^ (31 + 53) := by
    unfold ninetyFivePercent
    omega
  have hulp := log2_sub_le hbits
  unfold nearFull
  rw [toDouble_eq (show maxSize < 2 ^ 53 by omega), toDouble_eq (show size < 2 ^ 53 by omega),
    decide_eq_true_eq]
  constructor
  · intro h
    have hlt := lt_toDouble_add (maxSize * ninetyFivePercent)
    have hpow : 2 ^ ((maxSize * ninetyFivePercent).log2 - 52) ≤ 2 ^ 31 :=
      Nat.pow_le_pow_right (by decide) hulp
    -- the product is off by far less than a twentieth
    unfold ninetyFivePercent at *
    omega
  · intro h
    refine toDouble_le ?_ ?_
    · unfold ninetyFivePercent
      omega
    · exact (Nat.pow_dvd_pow 2 (hulp.trans (by decide))).trans (Nat.dvd_mul_left _ _)

/-- A negative setting makes a capacity no deque comes near to. -/
theorem nearFull_eq_false_of_large {size maxSize : ℕ} (hmax : 2 ^ 63 ≤ maxSize)
    (hlt : maxSize < 2 ^ 64) (hsize : size ≤ 2 ^ 59) : nearFull size maxSize = false := by
  have hulp : maxSize.log2 - 52 ≤ 11 := log2_sub_le (by omega)
  have hpow : 2 ^ (maxSize.log2 - 52) ≤ 2 ^ 11 := Nat.pow_le_pow_right (by decide) hulp
  have hge := lt_toDouble_add maxSize
  have hle : toDouble maxSize ≤ 2 ^ 64 :=
    toDouble_le hlt.le (Nat.pow_dvd_pow 2 (hulp.trans (by decide)))
  have hsize' : toDouble size ≤ 2 ^ 59 :=
    toDouble_le hsize (Nat.pow_dvd_pow 2 ((log2_sub_le (e := 7) (by omega)).trans (by decide)))
  -- the product is more than `2 ^ 115`, and its unit in the last place at most `2 ^ 64`
  obtain ⟨product, hproduct⟩ : ∃ p, p = toDouble maxSize * ninetyFivePercent := ⟨_, rfl⟩
  have hfrom : 2 ^ 115 ≤ product + 2 ^ 64 := by
    unfold ninetyFivePercent at hproduct
    omega
  have hto : product < 2 ^ (64 + 53) := by
    unfold ninetyFivePercent at hproduct
    omega
  have hpow' : 2 ^ (product.log2 - 52) ≤ 2 ^ 64 :=
    Nat.pow_le_pow_right (by decide) (log2_sub_le hto)
  have hbelow := lt_toDouble_add product
  unfold nearFull
  rw [← hproduct, decide_eq_false_iff_not, Nat.not_le]
  omega

/-! ### The ledger -/

/-- The capacity of the backlog: an `int` cast to `size_t`. -/
def capacity (taskBacklogMaxSize : Int32) : ℕ := (taskBacklogMaxSize.toInt % 2 ^ 64).toNat

/-- `std::deque::max_size()`, with elements of 16 bytes. -/
def dequeMaxSize : ℕ := (2 ^ 63 - 1) / 16

/-- A call on the backlog. -/
inductive BacklogCall where
  | add (log : Json)
  | flush

/-- The backlog with the entries added since the last flush, the number of
observations of `backlog_drop`, and for each flush what was added before it and what
it returned. -/
structure Ledger where
  backlog : Backlog
  since : List Json
  drops : ℕ
  flushes : List (List Json × List Json)

/-- The backlog as `RunServer` makes it. -/
def Ledger.start (taskBacklogMaxSize : Int32) : Ledger :=
  ⟨.fresh (capacity taskBacklogMaxSize), [], 0, []⟩

/-- One call; `none` if it pops an empty deque.  An `Add` to a deque that can hold no
more throws, and adds nothing. -/
def Ledger.call (s : Ledger) : BacklogCall → Option Ledger
  | .add log =>
    if s.backlog.queue.length < s.backlog.maxSize ∧ dequeMaxSize ≤ s.backlog.queue.length then
      some s
    else (s.backlog.add log).map fun r =>
      { s with
        backlog := r.1
        since := s.since ++ [log]
        drops := s.drops + r.2.toList.length }
  | .flush => some
    { s with
      backlog := s.backlog.flush.1
      since := []
      flushes := s.flushes ++ [(s.since, s.backlog.flush.2)] }

/-- A sequence of calls. -/
def Ledger.run (s : Ledger) : List BacklogCall → Option Ledger
  | [] => some s
  | call :: calls => (s.call call).bind fun s => s.run calls

theorem Ledger.run_append (s : Ledger) (calls calls' : List BacklogCall) :
    s.run (calls ++ calls') = (s.run calls).bind fun s => s.run calls' := by
  induction calls generalizing s with
  | nil => rfl
  | cons call calls ih =>
    rw [List.cons_append, run, run, Option.bind_assoc]
    exact congrArg _ (funext fun s => ih s)

/-- The law, for a backlog of capacity `m`: the backlog holds, and every flush
returned, the last `m` entries added; each entry there was no room for is one drop;
the size is bounded; and the flag is set from 95 per cent on. -/
structure Ledger.Lawful (m : ℕ) (s : Ledger) : Prop where
  maxSize : s.backlog.maxSize = m
  queue : s.backlog.queue = s.since.rtake m
  flushes : ∀ p ∈ s.flushes, p.2 = p.1.rtake m
  drops : s.drops = (s.flushes.map fun p => p.1.length - m).sum + (s.since.length - m)
  size : s.backlog.queue.length ≤ m
  deque : s.backlog.queue.length ≤ dequeMaxSize
  isFull : 1 ≤ m → (s.backlog.isFull = true ↔ 95 * m ≤ 100 * s.backlog.queue.length)

/-- The law holds after each call of a sequence, and no call pops an empty deque. -/
def BacklogLaw (taskBacklogMaxSize : Int32) (calls : List BacklogCall) : Prop :=
  ∀ before, before <+: calls → ∃ s, (Ledger.start taskBacklogMaxSize).run before = some s ∧
    s.Lawful (capacity taskBacklogMaxSize)

theorem capacity_cases (n : Int32) :
    (n = 0 ∧ capacity n = 0) ∨ (0 < capacity n ∧ capacity n < 2 ^ 31) ∨
      (2 ^ 63 ≤ capacity n ∧ capacity n < 2 ^ 64) := by
  have hlow := n.le_toInt
  have hhigh := n.toInt_lt
  unfold capacity
  rcases Int.lt_trichotomy n.toInt 0 with hneg | hzero | hpos
  · right
    right
    omega
  · left
    exact ⟨Int32.toInt_inj.mp hzero, by rw [hzero]; rfl⟩
  · right
    left
    omega

/-- **The watermark is exact.** -/
theorem nearFull_iff {n : Int32} {size : ℕ} (hpos : 0 < capacity n) (hsize : size ≤ capacity n)
    (hdeque : size ≤ dequeMaxSize) :
    nearFull size (capacity n) = true ↔ 95 * capacity n ≤ 100 * size := by
  unfold dequeMaxSize at hdeque
  rcases capacity_cases n with ⟨-, hzero⟩ | ⟨-, hsmall⟩ | ⟨hlarge, hlt⟩
  · omega
  · exact nearFull_iff_of_small hpos hsmall hsize
  · rw [nearFull_eq_false_of_large hlarge hlt (by omega)]
    simp only [Bool.false_eq_true, false_iff]
    omega

theorem lawful_start (n : Int32) : (Ledger.start n).Lawful (capacity n) where
  maxSize := rfl
  queue := by simp [Ledger.start, Backlog.fresh, List.rtake]
  flushes := by simp [Ledger.start]
  drops := by simp [Ledger.start]
  size := Nat.zero_le _
  deque := Nat.zero_le _
  isFull := by
    intro hpos
    simp only [Ledger.start, Backlog.fresh, List.length_nil, Bool.false_eq_true, false_iff]
    omega

/-- A flush keeps the law, whatever the capacity is. -/
theorem Ledger.Lawful.flush {m : ℕ} {s : Ledger} (h : s.Lawful m) :
    ∃ t, s.call .flush = some t ∧ t.Lawful m := by
  refine ⟨_, rfl, ?_⟩
  constructor
  case maxSize => exact h.maxSize
  case queue => simp [Backlog.flush, List.rtake]
  case flushes =>
    intro p hp
    rcases List.mem_append.mp hp with hold | hnew
    · exact h.flushes p hold
    · rw [List.mem_singleton.mp hnew]
      exact h.queue
  case drops => simp [h.drops]
  case size => exact Nat.zero_le _
  case deque => exact Nat.zero_le _
  case isFull =>
    intro hpos
    simp only [Backlog.flush, List.length_nil, Bool.false_eq_true, false_iff]
    omega

/-- Without the first of the last `k + 1` entries, the last `k` are left. -/
theorem rtake_of_cons {since rest : List Json} {oldest : Json} {k : ℕ}
    (hlen : k < since.length) (h : since.rtake (k + 1) = oldest :: rest) :
    rest = since.rtake k := by
  have htail := congrArg List.tail h
  rw [List.rtake, List.tail_drop, List.tail_cons] at htail
  rw [← htail, List.rtake]
  congr 1
  omega

/-- The last `m` entries after one more: as many as before drop out as there was no
room for. -/
theorem add_queue {m : ℕ} (hm : 0 < m) {b : Backlog} {since : List Json} (hmax : b.maxSize = m)
    (hqueue : b.queue = since.rtake m) (log : Json) :
    ∃ b' dropped, b.add log = some (b', dropped) ∧ b'.maxSize = m ∧
      b'.queue = (since ++ [log]).rtake m ∧
      b'.queue.length = min (b.queue.length + 1) m ∧
      b'.isFull = (b.isFull || nearFull b'.queue.length m) ∧
      dropped.toList.length + (since.length - m) = since.length + 1 - m := by
  obtain ⟨k, rfl⟩ : ∃ k, m = k + 1 := ⟨m - 1, by omega⟩
  have hlen : b.queue.length = min since.length (k + 1) := by
    rw [hqueue, List.rtake, List.length_drop]
    omega
  unfold Backlog.add
  rw [hmax]
  split
  · next hfull =>
    -- there was no room: the first of the last `k + 1` entries goes
    obtain ⟨oldest, rest, hcons⟩ : ∃ oldest rest, b.queue = oldest :: rest :=
      List.exists_cons_of_length_pos (by omega)
    have hrest : rest = since.rtake k := rtake_of_cons (by omega) (by rw [← hqueue, hcons])
    have hresult : rest ++ [log] = (since ++ [log]).rtake (k + 1) := by
      rw [List.rtake_concat_succ, hrest]
    have hrestlen : rest.length + 1 = b.queue.length := by rw [hcons]; rfl
    rw [hcons]
    refine ⟨_, _, rfl, rfl, hresult, ?_, ?_, ?_⟩
    · simp only [Backlog.push, List.length_append, List.length_cons, List.length_nil]
      omega
    · simp [Backlog.push]
    · simp only [Option.toList_some, List.length_singleton]
      omega
  · next hroom =>
    have hall : b.queue = since := by
      rw [hqueue, List.rtake, Nat.sub_eq_zero_of_le (by omega), List.drop_zero]
    have hresult : b.queue ++ [log] = (since ++ [log]).rtake (k + 1) := by
      rw [hall, List.rtake, List.length_append, List.length_singleton,
        Nat.sub_eq_zero_of_le (by omega), List.drop_zero]
    refine ⟨_, _, rfl, hmax, hresult, ?_, ?_, ?_⟩
    · simp only [Backlog.push, List.length_append, List.length_singleton]
      omega
    · simp [Backlog.push, hmax]
    · simp only [Option.toList_none, List.length_nil]
      omega

/-- An addition keeps the law, if the capacity is not zero. -/
theorem Ledger.Lawful.add {n : Int32} {s : Ledger} (h : s.Lawful (capacity n))
    (hpos : 0 < capacity n) (log : Json) :
    ∃ t, s.call (.add log) = some t ∧ t.Lawful (capacity n) := by
  unfold Ledger.call
  dsimp only
  split
  · exact ⟨s, rfl, h⟩
  · next hroom =>
    obtain ⟨b, dropped, hadd, hmax, hqueue, hlen, hfull, hdrops⟩ :=
      add_queue hpos h.maxSize h.queue log
    rw [h.maxSize] at hroom
    have hsize := h.size
    have hdeque : b.queue.length ≤ dequeMaxSize := by
      have := h.deque
      omega
    have hle : b.queue.length ≤ capacity n := by omega
    rw [hadd]
    refine ⟨_, rfl, ?_⟩
    constructor
    case maxSize => exact hmax
    case queue => exact hqueue
    case flushes => exact h.flushes
    case drops =>
      simp only [List.length_append, List.length_singleton]
      rw [h.drops]
      omega
    case size => exact hle
    case deque => exact hdeque
    case isFull =>
      intro _
      simp only [hfull]
      rw [Bool.or_eq_true, h.isFull hpos, nearFull_iff hpos hle hdeque]
      omega

/-- **A call keeps the law, unless it adds to a backlog of capacity zero.** -/
theorem Ledger.Lawful.call {n : Int32} {s : Ledger} (h : s.Lawful (capacity n)) {c : BacklogCall}
    (hc : n ≠ 0 ∨ ∀ log, c ≠ .add log) :
    ∃ t, s.call c = some t ∧ t.Lawful (capacity n) := by
  cases c with
  | flush => exact h.flush
  | add log =>
    have hn : n ≠ 0 := hc.resolve_right fun hno => hno log rfl
    refine h.add ?_ log
    rcases capacity_cases n with ⟨hzero, -⟩ | ⟨hpos, -⟩ | ⟨hlarge, -⟩
    · exact absurd hzero hn
    · exact hpos
    · omega

/-- A sequence of calls keeps the law. -/
theorem Ledger.Lawful.run {n : Int32} (calls : List BacklogCall) {s : Ledger}
    (h : s.Lawful (capacity n)) (hc : n ≠ 0 ∨ ∀ log, .add log ∉ calls) :
    ∃ t, s.run calls = some t ∧ t.Lawful (capacity n) := by
  induction calls generalizing s with
  | nil => exact ⟨s, rfl, h⟩
  | cons c calls ih =>
    obtain ⟨t, hcall, ht⟩ := h.call (c := c)
      (hc.imp_right fun hno log heq => hno log (heq ▸ List.mem_cons_self))
    obtain ⟨u, hrun, hu⟩ := ih ht (hc.imp_right fun hno log hmem =>
      hno log (List.mem_cons_of_mem c hmem))
    refine ⟨u, ?_, hu⟩
    rw [Ledger.run, hcall]
    exact hrun

/-- With capacity zero an addition pops an empty deque. -/
theorem Ledger.Lawful.call_add_eq_none {s : Ledger} (h : s.Lawful 0) (log : Json) :
    s.call (.add log) = none := by
  have hempty : s.backlog.queue = [] := List.length_eq_zero_iff.mp (Nat.le_zero.mp h.size)
  unfold Ledger.call Backlog.add
  simp [hempty, h.maxSize]

/-- **The law holds throughout if and only if the capacity is not zero or nothing is
added.** -/
theorem backlogLaw_iff (n : Int32) (calls : List BacklogCall) :
    BacklogLaw n calls ↔ n ≠ 0 ∨ ∀ log, .add log ∉ calls := by
  constructor
  · intro hlaw
    by_contra hno
    rw [not_or, not_not, not_forall] at hno
    obtain ⟨rfl, log, hlog⟩ := hno
    rw [not_not] at hlog
    obtain ⟨before, after, rfl⟩ := List.append_of_mem hlog
    obtain ⟨s, hs, hlawful⟩ := hlaw before (List.prefix_append _ _)
    obtain ⟨t, ht, -⟩ := hlaw (before ++ [.add log]) ⟨after, by simp⟩
    -- the run up to here is fine, the addition pops an empty deque
    rw [Ledger.run_append, hs, Option.bind_some, Ledger.run,
      Ledger.Lawful.call_add_eq_none hlawful] at ht
    cases ht
  · intro hc before hbefore
    exact (lawful_start n).run before (hc.imp_right fun hno log hmem =>
      hno log (hbefore.subset hmem))

/-- A capacity of zero is accepted, and the first entry is undefined behaviour. -/
theorem backlogLaw_fails : ¬ ∀ (n : Int32) (calls : List BacklogCall), BacklogLaw n calls := by
  intro h
  obtain ⟨t, ht, -⟩ := h 0 [.add .null] [.add .null] (List.prefix_refl _)
  cases ht

end LogLite
