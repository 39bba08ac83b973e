import LogLite.Base.Json

/-!
# The backlog

`Backlog` is a bounded queue.  `Add` makes room by dropping the oldest entry, and
`Flush` takes everything out; each runs under a mutex, so each is one step.  The
flag read by `IsFull` is set by `Add` when the queue is near its bound, and only
`Flush` clears it.

The bound is a `size_t` of any value.  With bound zero, `Add` pops the front of an
empty deque, which is not defined.

## Main definitions

* `Backlog`, `Backlog.add`, `Backlog.flush` — the queue and its operations.
* `nearFull` — `size() >= max_size_ * 0.95`, in doubles.

## Main results

* `Backlog.add_eq_some` — what an `Add` does to the queue.
-/

namespace LogLite

/-! ### The watermark -/

/-- The integer rounded to 53 significant bits, ties to even, as the conversion to
a double does. -/
def toDouble (n : ℕ) : ℕ :=
  let shift := n.log2 - 52
  let q := n >>> shift
  let rest := n % 2 ^ shift
  let up := 2 ^ shift < 2 * rest || (2 ^ shift == 2 * rest && q % 2 == 1)
  (if up then q + 1 else q) <<< shift

/-- The double `0.95`, times `2 ^ 53`. -/
def ninetyFivePercent : ℕ := 8556839292003942

/-- `size >= max_size * 0.95`; both sides are taken times `2 ^ 53`. -/
def nearFull (size maxSize : ℕ) : Bool :=
  toDouble (toDouble maxSize * ninetyFivePercent) ≤ toDouble size * 2 ^ 53

example : nearFull 19 20 = true ∧ nearFull 18 20 = false := by decide

/-! ### The queue -/

/-- `Backlog`. -/
structure Backlog where
  maxSize : ℕ
  queue : List Json
  isFull : Bool

/-- An empty backlog. -/
def Backlog.fresh (maxSize : ℕ) : Backlog := ⟨maxSize, [], false⟩

/-- `queue_.push_back`, and the flag. -/
def Backlog.push (b : Backlog) (log : Json) : Backlog where
  maxSize := b.maxSize
  queue := b.queue ++ [log]
  isFull := b.isFull || nearFull (b.queue.length + 1) b.maxSize

/-- `Backlog::Add`, with the entry that was dropped. -/
def Backlog.add (b : Backlog) (log : Json) : Option (Backlog × Option Json) :=
  if b.maxSize ≤ b.queue.length then
    match b.queue with
    | [] => none
    | oldest :: rest => some ({ b with queue := rest }.push log, some oldest)
  else some (b.push log, none)

/-- `Backlog::Flush`. -/
def Backlog.flush (b : Backlog) : Backlog × List Json :=
  ({ b with queue := [], isFull := false }, b.queue)

/-- **An `Add` appends the entry, and drops the oldest one or none.** -/
theorem Backlog.add_eq_some {b b' : Backlog} {log : Json} {dropped : Option Json}
    (h : b.add log = some (b', dropped)) :
    ∃ rest, b.queue = dropped.toList ++ rest ∧ b'.queue = rest ++ [log] := by
  unfold add at h
  split at h
  · split at h
    · cases h
    · next oldest rest hqueue =>
      cases h
      exact ⟨rest, hqueue, rfl⟩
  · cases h
    exact ⟨b.queue, rfl, rfl⟩

theorem Backlog.add_queue_ne_nil {b b' : Backlog} {log : Json} {dropped : Option Json}
    (h : b.add log = some (b', dropped)) : b'.queue ≠ [] := by
  obtain ⟨rest, -, hqueue⟩ := Backlog.add_eq_some h
  rw [hqueue]
  exact List.append_ne_nil_of_right_ne_nil rest (List.cons_ne_nil log [])

end LogLite
