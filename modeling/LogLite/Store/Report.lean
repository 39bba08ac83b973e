import LogLite.Store.Sound
import Mathlib.Algebra.Order.Group.Multiset

/-!
# What becomes of the logs of a batch

A call of `Insert` that returns has inserted some logs of its batch, refused some
for what they contain, and failed to insert others because a step failed; the logs
inserted are those of the new rows.  Without a failing call there are none of the
last kind, and the call does not throw.

## Main definitions

* `logsWith` — the logs of a batch with a result of some kind.
* `failedLogs` — the logs that were neither inserted nor refused.
* `Faults.Quiet` — no call fails that a batch of this length makes.

## Main results

* `batch_eq` — every log of the batch is in one of the three groups.
* `insertReport_sources` — the logs of the new rows.
* `insertReport_ne_throw`, `failedLogs_eq_nil` — a call without failures.
-/

namespace LogLite

/-- The row was inserted. -/
def RowResult.isInserted : RowResult → Bool
  | .inserted => true
  | _ => false

/-- The log was refused for what it contains. -/
def RowResult.isRefused : RowResult → Bool
  | .skipped _ => true
  | .rejected => true
  | _ => false

/-- The step failed for another reason. -/
def RowResult.isFailed : RowResult → Bool
  | .failed => true
  | _ => false

/-- The logs whose result satisfies `p`. -/
def logsWith (p : RowResult → Bool) : List Json → List RowResult → List Json
  | log :: logs, r :: rs => if p r then log :: logsWith p logs rs else logsWith p logs rs
  | _, _ => []

/-- The logs that were neither inserted nor refused: a table without a column to
write has no result for any log. -/
def failedLogs (logs : List Json) (rs : List RowResult) : List Json :=
  logsWith RowResult.isFailed logs rs ++ logs.drop rs.length

@[simp] theorem logsWith_nil (p : RowResult → Bool) (logs : List Json) :
    logsWith p logs [] = [] := by
  cases logs <;> rfl

/-- **Every log was inserted, refused, or lost.** -/
theorem batch_eq : ∀ (logs : List Json) (rs : List RowResult),
    (logs : Multiset Json) = logsWith RowResult.isInserted logs rs +
      logsWith RowResult.isRefused logs rs + failedLogs logs rs := by
  intro logs
  induction logs with
  | nil =>
    intro rs
    simp [logsWith, failedLogs]
  | cons log logs ih =>
    intro rs
    cases rs with
    | nil => simp [failedLogs]
    | cons r rs =>
      have hrest := ih rs
      cases r <;> simp [logsWith, failedLogs, RowResult.isInserted, RowResult.isRefused,
        RowResult.isFailed, ← Multiset.cons_coe, ← Multiset.coe_add] at hrest ⊢ <;>
        exact hrest

section
variable {cat : DatabaseCatalog}

/-! ### The new rows -/

theorem encodeValue_log {fault : Option DictFault} {col : ColumnName} {v b : Json}
    {w w' : WriterDatabase} (he : encodeValue cat fault col v w = .ret w' b) : w'.log = w.log := by
  obtain ⟨id, -, -, rfl, -⟩ | ⟨id, -, -, rfl, -⟩ | ⟨-, rfl, -⟩ := encodeValue_eq_ret he
  · rfl
  · rfl
  · rfl

/-- The loop over the columns inserts nothing. -/
theorem encodeRow_log {faults : ℕ → Option DictFault} {log : Json} :
    ∀ (cols : List ColumnInfo) (j : ℕ) (w w' : WriterDatabase)
      (enc : Except ColumnName (List (ColumnName × SqlValue))),
      encodeRow cat faults log j cols w = .ret w' enc → w'.log = w.log := by
  intro cols
  induction cols with
  | nil =>
    intro j w w' enc he
    cases he
    rfl
  | cons ci cols ih =>
    intro j w w' enc he
    obtain ⟨-, rfl, -⟩ | ⟨-, w₁, b, cells, hb, hcells, -⟩ := encodeRow_cons_eq_ret he
    · rfl
    · exact (ih (j + 1) w₁ _ cells hcells).trans (encodeValue_log hb)

theorem insertRow_sources {f : Faults} {i : ℕ} {log : Json} {w w' : WriterDatabase} {r : RowResult}
    (h : insertRow cat f i log w = .ret w' r) :
    w'.log.map (·.source) = w.log.map (·.source) ++ if r.isInserted then [log] else [] := by
  obtain ⟨w₁, enc, henc, hcase⟩ := insertRow_eq_ret h
  have hlog := encodeRow_log _ _ _ _ _ henc
  rcases hcase with ⟨col, -, rfl, rfl⟩ | ⟨cells, -, -, hstep⟩
  · simp [hlog, RowResult.isInserted]
  · unfold stepRow at hstep
    split at hstep
    · cases hstep
      simp [hlog, RowResult.isInserted]
    · split at hstep
      · cases hstep
        simp [hlog, RowResult.isInserted, newRow]
      · cases hstep
        simp [hlog, RowResult.isInserted]

theorem insertRows_sources {f : Faults} : ∀ (logs : List Json) (i : ℕ) (w w' : WriterDatabase)
    (rs : List RowResult), insertRows cat f i logs w = .ret w' rs →
      rs.length = logs.length ∧
        w'.log.map (·.source) = w.log.map (·.source) ++ logsWith RowResult.isInserted logs rs := by
  intro logs
  induction logs with
  | nil =>
    intro i w w' rs h
    cases h
    exact ⟨rfl, by simp⟩
  | cons log logs ih =>
    intro i w w' rs h
    obtain ⟨w₁, r, rs₂, hrow, hrows, rfl⟩ := insertRows_cons_eq_ret h
    obtain ⟨hlen, hsources⟩ := ih (i + 1) w₁ _ rs₂ hrows
    refine ⟨by simp [hlen], ?_⟩
    rw [hsources, insertRow_sources hrow, List.append_assoc, logsWith]
    cases r.isInserted <;> rfl

/-- **The rows a call adds are made from the logs it reports as inserted**; there
is a result for each log, if there is a column to write. -/
theorem insertReport_sources {f : Faults} {logs : List Json} {w w' : WriterDatabase}
    {rs : List RowResult} (hb : w.conn.begun = none)
    (h : insertReport cat f logs w = .ret w' rs) :
    (cat.insertColumns ≠ [] → rs.length = logs.length) ∧
      w'.log.map (·.source) = w.log.map (·.source) ++ logsWith RowResult.isInserted logs rs := by
  rcases insertReport_ret hb h with ⟨hempty, rfl, rfl⟩ | ⟨-, -, w₁, hrows, rfl⟩
  · refine ⟨fun hcols => ?_, by simp⟩
    rw [hempty.resolve_left hcols]
    rfl
  · obtain ⟨hlen, hsources⟩ := insertRows_sources logs 0 w.opened w₁ rs hrows
    exact ⟨fun _ => hlen, hsources⟩

/-- A table without a column to write has no results. -/
theorem insertReport_of_insertColumns_eq_nil {f : Faults} {logs : List Json} {w : WriterDatabase}
    (hcols : cat.insertColumns = []) : insertReport cat f logs w = .ret w [] := by
  unfold insertReport
  rw [if_pos (by simp [hcols])]

/-! ### Calls without failures -/

/-- No call fails of those an `Insert` of `n` logs makes. -/
structure Faults.Quiet (f : Faults) (n : ℕ) : Prop where
  prepare : f.prepare = .none
  begin : f.begin = .none
  dict : ∀ i < n, ∀ j, f.dict i j = .none
  row : ∀ i < n, f.row i = false
  commit : f.commit = .none

theorem Faults.none_quiet (n : ℕ) : Faults.none.Quiet n where
  prepare := rfl
  begin := rfl
  dict := fun _ _ _ => rfl
  row := fun _ _ => rfl
  commit := rfl

theorem encodeValue_ne_throw {col : ColumnName} {v : Json} {w w' : WriterDatabase} {e : Bytes} :
    encodeValue cat none col v w ≠ .throw w' e := by
  intro he
  by_cases h : Compresses cat col v
  · cases hid : w.colDict.get? col (dictText cat.platform v) with
    | some id => simp [encodeValue_hit h hid] at he
    | none =>
      rw [encodeValue_miss h hid] at he
      cases hnew : newId (w.colDict.colMap col) <;> simp [hnew] at he
  · simp [encodeValue_plain h] at he

theorem encodeRow_ne_throw {faults : ℕ → Option DictFault} (hf : ∀ j, faults j = none) {log : Json}
    {w' : WriterDatabase} {e : Bytes} : ∀ (cols : List ColumnInfo) (j : ℕ) (w : WriterDatabase),
      encodeRow cat faults log j cols w ≠ .throw w' e := by
  intro cols
  induction cols with
  | nil => exact fun j w => nofun
  | cons ci cols ih =>
    intro j w he
    simp only [encodeRow, hf] at he
    split at he
    · cases he
    · rcases Outcome.bind_eq_throw.mp he with hthrow | ⟨w₁, b, -, he⟩
      · exact encodeValue_ne_throw hthrow
      · rcases Outcome.bind_eq_throw.mp he with hthrow | ⟨w₂, cells, -, he⟩
        · exact ih (j + 1) w₁ hthrow
        · cases he

theorem insertRow_ne_throw {f : Faults} {i : ℕ} (hf : ∀ j, f.dict i j = none) {log : Json}
    {w w' : WriterDatabase} {e : Bytes} : insertRow cat f i log w ≠ .throw w' e := by
  intro h
  rcases Outcome.bind_eq_throw.mp h with hthrow | ⟨w₁, enc, -, h⟩
  · exact encodeRow_ne_throw hf _ _ _ hthrow
  · cases enc <;> cases h

/-- A row whose step does not fail is inserted or refused. -/
theorem insertRow_ne_failed {f : Faults} {i : ℕ} (hf : f.row i = false) {log : Json}
    {w w' : WriterDatabase} {r : RowResult} (h : insertRow cat f i log w = .ret w' r) :
    r ≠ .failed := by
  obtain ⟨w₁, enc, -, ⟨col, -, -, rfl⟩ | ⟨cells, -, -, hstep⟩⟩ := insertRow_eq_ret h
  · exact nofun
  · unfold stepRow at hstep
    rw [hf, if_neg Bool.false_ne_true] at hstep
    split at hstep <;> cases hstep <;> exact nofun

theorem insertRows_quiet {f : Faults} {n : ℕ} (hf : f.Quiet n) : ∀ (logs : List Json) (i : ℕ)
    (w : WriterDatabase), i + logs.length ≤ n →
      (∀ w' e, insertRows cat f i logs w ≠ .throw w' e) ∧
        ∀ w' rs, insertRows cat f i logs w = .ret w' rs → .failed ∉ rs := by
  intro logs
  induction logs with
  | nil =>
    intro i w _
    refine ⟨nofun, fun w' rs h => ?_⟩
    cases h
    exact List.not_mem_nil
  | cons log logs ih =>
    intro i w hle
    rw [List.length_cons] at hle
    constructor
    · intro w' e h
      rcases Outcome.bind_eq_throw.mp h with hthrow | ⟨w₁, r, -, h⟩
      · exact insertRow_ne_throw (hf.dict i (by omega)) hthrow
      · rcases Outcome.bind_eq_throw.mp h with hthrow | ⟨w₂, rs, -, h⟩
        · exact (ih (i + 1) w₁ (by omega)).1 _ _ hthrow
        · cases h
    · intro w' rs h
      obtain ⟨w₁, r, rs₂, hrow, hrows, rfl⟩ := insertRows_cons_eq_ret h
      rw [List.mem_cons, not_or]
      exact ⟨(insertRow_ne_failed (hf.row i (by omega)) hrow).symm,
        (ih (i + 1) w₁ (by omega)).2 _ _ hrows⟩

/-- **Without a failing call, `Insert` does not throw.** -/
theorem insertReport_ne_throw {f : Faults} {logs : List Json} (hf : f.Quiet logs.length)
    {w w' : WriterDatabase} {e : Bytes} (hb : w.conn.begun = none) :
    insertReport cat f logs w ≠ .throw w' e := by
  intro h
  by_cases hempty : cat.insertColumns = [] ∨ logs = []
  · unfold insertReport at h
    rw [if_pos (by simpa using hempty)] at h
    cases h
  · rw [not_or] at hempty
    rw [insertReport_eq hb hempty.1 hempty.2 hf.prepare hf.begin] at h
    obtain ⟨w₁, h, -⟩ := Outcome.onThrow_eq_throw.mp h
    have hthrow : ∀ w' e, insertRows cat f 0 logs w.opened ≠ .throw w' e :=
      (insertRows_quiet hf logs 0 w.opened (by omega)).1
    rcases Outcome.bind_eq_throw.mp h with h | ⟨w₂, rs, hrows, h⟩
    · exact hthrow _ _ h
    · have hbegun : w₂.conn.begun = some w.conn.db := by
        have hkeep := insertRows_leaves (f := f) (kept_begun cat (some w.conn.db))
          logs 0 w.opened rfl
        rw [hrows] at hkeep
        exact hkeep
      simp [WriterDatabase.onConn, commit, hf.commit, hbegun] at h

theorem logsWith_failed_eq_nil : ∀ (logs : List Json) (rs : List RowResult), .failed ∉ rs →
    logsWith RowResult.isFailed logs rs = []
  | [], _, _ => rfl
  | _ :: _, [], _ => rfl
  | _ :: logs, r :: rs, h => by
    rw [List.mem_cons, not_or] at h
    have hr : r.isFailed = false := by
      cases r with
      | failed => exact absurd rfl h.1
      | _ => rfl
    rw [logsWith, hr, if_neg Bool.false_ne_true]
    exact logsWith_failed_eq_nil logs rs h.2

/-- **Without a failing call, every log is inserted or refused**, if there is a
column to write. -/
theorem failedLogs_eq_nil {f : Faults} {logs : List Json} (hf : f.Quiet logs.length)
    (hcols : cat.insertColumns ≠ []) {w w' : WriterDatabase} {rs : List RowResult}
    (hb : w.conn.begun = none) (h : insertReport cat f logs w = .ret w' rs) :
    failedLogs logs rs = [] := by
  have hlen := (insertReport_sources hb h).1 hcols
  have hnone : .failed ∉ rs := by
    rcases insertReport_ret hb h with ⟨-, -, rfl⟩ | ⟨-, -, w₁, hrows, -⟩
    · exact List.not_mem_nil
    · exact (insertRows_quiet hf logs 0 w.opened (by omega)).2 _ _ hrows
  rw [failedLogs, logsWith_failed_eq_nil logs rs hnone, hlen, List.drop_length, List.append_nil]

end

end LogLite
