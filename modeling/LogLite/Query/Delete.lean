import LogLite.Query.Filter
import LogLite.Store.Sound

/-!
# Deletion, and the databases the server can have

`DeleteLogs` deletes the rows a list of filters selects.  Together with `Insert`
it is all the running server does to the log table and its dictionary, so every
database it can have is reached by a run of `WriterStep`.

## Main definitions

* `deleteLogs` — `WriterDatabase::DeleteLogs`.
* `WriterStep`, `Reachable` — calls of the writer, and the databases they lead to.

## Main results

* `Reachable.sound` — **the dictionary of a reachable database is sound and its
  rows are the encodings of their logs.**
-/

namespace LogLite

open Transition

/-- How `DeleteLogs` fails: its statement cannot be prepared, or its step fails. -/
inductive DeleteFault where
  | prepare (msg : Bytes)
  | step (msg : Bytes)

section
variable (cat : DatabaseCatalog)

/-- `WriterDatabase::DeleteLogs`: the number of deleted rows. -/
def deleteLogs (fault : Option DeleteFault) (filters : List QueryFilter) (w : WriterDatabase) :
    Outcome WriterDatabase Bytes ℕ :=
  match buildWhereClause cat w.colDict filters with
  | .error what => .throw w what
  | .ok clause =>
    match fault with
    | some (.prepare msg) => .throw w (prepareFailed msg)
    | some (.step msg) => .throw w (lit "delete_logs: " ++ msg)
    | none =>
      .ret { w with conn.db.log := w.log.filter fun r => !clause.holds cat r }
        (w.log.filter fun r => clause.holds cat r).length

/-- A call of the writer. -/
inductive WriterCall where
  | insert (f : Faults) (logs : List Json)
  | delete (fault : Option DeleteFault) (filters : List QueryFilter)

/-- The calls are deletions. -/
def Deletions (calls : List WriterCall) : Prop :=
  ∀ call ∈ calls, ∃ fault filters, call = .delete fault filters

/-- A call of the writer that returns or throws. -/
def WriterStep (w : WriterDatabase) : WriterCall → WriterDatabase → Prop
  | .insert f logs, w' => InsertEnds cat w (f, logs) w'
  | .delete fault filters, w' =>
    (∃ n, deleteLogs cat fault filters w = .ret w' n) ∨
      ∃ e, deleteLogs cat fault filters w = .throw w' e

/-- The databases that can be reached from an empty one. -/
def Reachable (w : WriterDatabase) : Prop := ∃ calls, Run (WriterStep cat) .fresh calls w

variable {cat}

theorem InsertReturns.reachable {w : WriterDatabase} {call : Faults × List Json}
    (h : InsertReturns cat .fresh call w) : Reachable cat w :=
  ⟨[.insert call.1 call.2], .single (.inl h)⟩

theorem WriterStep.of_delete {fault : Option DeleteFault} {filters : List QueryFilter}
    {w w' : WriterDatabase} (h : (deleteLogs cat fault filters w).Ends w') :
    WriterStep cat w (.delete fault filters) w' := by
  unfold WriterStep
  cases hcall : deleteLogs cat fault filters w with
  | ret v n =>
    rw [hcall] at h
    obtain rfl := Outcome.ends_ret.mp h
    exact .inl ⟨n, hcall⟩
  | throw v e =>
    rw [hcall] at h
    obtain rfl := Outcome.ends_throw.mp h
    exact .inr ⟨e, hcall⟩
  | undefined =>
    rw [hcall] at h
    exact h.elim

/-- What a deletion leaves: a part of the rows, everything else as it was. -/
theorem WriterStep.delete_eq {fault : Option DeleteFault} {filters : List QueryFilter}
    {w w' : WriterDatabase} (h : WriterStep cat w (.delete fault filters) w') :
    ∃ keep : LogRow → Bool, w' = { w with conn.db.log := w.log.filter keep } := by
  have hsame : w = { w with conn.db.log := w.log.filter fun _ => true } := by
    rw [List.filter_true]
  unfold WriterStep deleteLogs at h
  cases hclause : buildWhereClause cat w.colDict filters with
  | error what =>
    simp only [hclause, Outcome.throw.injEq] at h
    obtain ⟨n, h⟩ | ⟨e, rfl, -⟩ := h
    · cases h
    · exact ⟨_, hsame⟩
  | ok clause =>
    simp only [hclause] at h
    match fault with
    | some (.prepare msg) =>
      obtain ⟨n, h⟩ | ⟨e, h⟩ := h
      · cases h
      · cases h
        exact ⟨_, hsame⟩
    | some (.step msg) =>
      obtain ⟨n, h⟩ | ⟨e, h⟩ := h
      · cases h
      · cases h
        exact ⟨_, hsame⟩
    | none =>
      obtain ⟨n, h⟩ | ⟨e, h⟩ := h
      · cases h
        exact ⟨_, rfl⟩
      · cases h

theorem Sound.filter {w : WriterDatabase} (hw : Sound cat w) (keep : LogRow → Bool) :
    Sound cat { w with conn.db.log := w.log.filter keep } where
  dict := hw.dict
  columns := hw.columns
  rows := fun r hr => hw.rows r (List.mem_of_mem_filter hr)

theorem WriterStep.sound {w w' : WriterDatabase} {call : WriterCall}
    (h : WriterStep cat w call w') (hb : w.conn.begun = none) (hw : Sound cat w) :
    Sound cat w' ∧ w'.conn.begun = none := by
  cases call with
  | insert f logs => exact ⟨InsertEnds.sound h hb hw, InsertEnds.begun h hb⟩
  | delete fault filters =>
    obtain ⟨keep, rfl⟩ := h.delete_eq
    exact ⟨hw.filter keep, hb⟩

theorem Reachable.sound_idle {w : WriterDatabase} (h : Reachable cat w) :
    Sound cat w ∧ w.conn.begun = none := by
  obtain ⟨calls, h⟩ := h
  refine h.invariant (I := fun w => Sound cat w ∧ w.conn.begun = none) ?_ ⟨sound_fresh, rfl⟩
  rintro w call w' ⟨hw, hb⟩ hstep
  exact hstep.sound hb hw

/-- **A reachable database is sound.** -/
theorem Reachable.sound {w : WriterDatabase} (h : Reachable cat w) : Sound cat w :=
  h.sound_idle.1

/-- Between calls no transaction is open. -/
theorem Reachable.idle {w : WriterDatabase} (h : Reachable cat w) : w.conn.begun = none :=
  h.sound_idle.2

end

end LogLite
