import LogLite.Store.Sound

/-!
# What `Insert` adds to the log table

A successful call appends rows and touches no other row.  The new rows get ids
above all ids in the table.

## Main results

* `InsertReturns.appends` — **the rows after the call are those before it, followed
  by rows with larger ids.**
-/

namespace LogLite

/-- `rows` with new rows at the end, with increasing ids above all of its own. -/
def Appends (rows rows' : List LogRow) : Prop :=
  ∃ new, rows' = rows ++ new ∧ (∀ r ∈ new, getMaxLogId rows < r.id) ∧
    new.Pairwise fun a b => a.id < b.id

theorem Appends.refl (rows : List LogRow) : Appends rows rows :=
  ⟨[], (List.append_nil rows).symm, by simp, .nil⟩

/-- New rows do not lower the largest id. -/
theorem Appends.getMaxLogId_le {rows rows' : List LogRow} (h : Appends rows rows') :
    getMaxLogId rows ≤ getMaxLogId rows' := by
  obtain ⟨new, rfl, hnew, -⟩ := h
  cases new with
  | nil => rw [List.append_nil]
  | cons r new =>
    have hlt := hnew r List.mem_cons_self
    have hle : r.id ≤ getMaxLogId (rows ++ r :: new) :=
      le_getMaxLogId (List.mem_append_right rows List.mem_cons_self)
    omega

theorem Appends.trans {rows rows' rows'' : List LogRow} (h : Appends rows rows')
    (h' : Appends rows' rows'') : Appends rows rows'' := by
  have hmax := h.getMaxLogId_le
  obtain ⟨new, rfl, hnew, hpair⟩ := h
  obtain ⟨new', rfl, hnew', hpair'⟩ := h'
  refine ⟨new ++ new', List.append_assoc rows new new', ?_, ?_⟩
  · intro r hr
    rcases List.mem_append.mp hr with hr | hr
    · exact hnew r hr
    · have hlt := hnew' r hr
      omega
  · refine List.pairwise_append.mpr ⟨hpair, hpair', ?_⟩
    intro r hr r' hr'
    have hle := le_getMaxLogId (List.mem_append_right rows hr)
    have hlt := hnew' r' hr'
    omega

/-- One more row, with the id SQLite gives it. -/
theorem Appends.newRow {rows rows' : List LogRow} (h : Appends rows rows')
    (cells : List (ColumnName × SqlValue)) (log : Json) :
    Appends rows (rows' ++ [newRow rows' cells log]) := by
  have hmax := h.getMaxLogId_le
  obtain ⟨new, rfl, hnew, hpair⟩ := h
  refine ⟨new ++ [LogLite.newRow (rows ++ new) cells log], by simp, ?_, ?_⟩
  · intro r hr
    rcases List.mem_append.mp hr with hr | hr
    · exact hnew r hr
    · rw [List.mem_singleton.mp hr]
      show getMaxLogId rows < getMaxLogId (rows ++ new) + 1
      omega
  · refine List.pairwise_append.mpr ⟨hpair, List.pairwise_singleton _ _, ?_⟩
    intro a ha b hb
    rw [List.mem_singleton.mp hb]
    exact lt_nextRowId (List.mem_append_right rows ha)

/-- Row ids stay distinct. -/
theorem Appends.nodup {rows rows' : List LogRow} (h : Appends rows rows')
    (hrows : (rows.map (·.id)).Nodup) : (rows'.map (·.id)).Nodup := by
  obtain ⟨new, rfl, hnew, hpair⟩ := h
  rw [List.map_append, List.nodup_append]
  refine ⟨hrows, ?_, ?_⟩
  · rw [List.Nodup, List.pairwise_map]
    exact hpair.imp fun hlt => hlt.ne
  · intro i hi j hj
    obtain ⟨r, hr, rfl⟩ := List.mem_map.mp hi
    obtain ⟨r', hr', rfl⟩ := List.mem_map.mp hj
    have hle := le_getMaxLogId hr
    have hlt := hnew r' hr'
    omega

section
variable {cat : DatabaseCatalog}

variable (cat) in
theorem kept_appends (rows : List LogRow) : Kept cat fun w => Appends rows w.log where
  touch := fun _ _ h => h
  addEntry := fun _ _ _ _ _ _ _ _ h => h
  appendRow := fun _ log cells _ _ h => h.newRow cells log

/-- **A successful `Insert` appends rows with larger ids.** -/
theorem InsertReturns.appends {w w' : WriterDatabase} {call : Faults × List Json}
    (hb : w.conn.begun = none) (h : InsertReturns cat w call w') : Appends w.log w'.log :=
  h.keeps (kept_appends cat w.log) (fun _ h => h) (fun _ h => h) hb (.refl w.log)

end

end LogLite
