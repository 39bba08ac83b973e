import LogLite.Store.ColumnDict
import LogLite.Lib.Run
import Mathlib.Data.List.Sigma
import Mathlib.Data.List.Range

/-!
# What the column dictionary guarantees

The calls of `GetOrCreate` are serialised by the dictionary's mutex, so a history
of the dictionary is a sequence of calls.  The persist callback may write the
entry, refuse it or throw, each time anew; what it has written is noted in the
order of the calls.

The ids of a column are `1..n`, each once.  This makes `max + 1` a new id, and the
reverse lookup of `GetValue` unambiguous.

## Main definitions

* `PersistAnswer`, `DictCall` — a call, with what the callback does.
* `DictStep` — a call as a step of the dictionary and the list of written entries.
* `DenseIds` — the ids of a column are `1..n`.
* `DictionaryLaw` — what holds after every history.

## Main results

* `DictStep.cases` — what a call can do.
* `DictInv.step` — a call keeps the invariant.
* `dictionary_law` — **every history of the dictionary obeys the law.**
-/

namespace LogLite

open Transition

/-- One row of the dictionary: column, value and id. -/
abbrev DictEntry := ColumnName × Bytes × ValueId

/-- The table in memory, with the entries that were written to the database. -/
abbrev DictState := LookupTable × List DictEntry

/-- What the persist callback does with an entry. -/
inductive PersistAnswer where
  | written
  | refused
  | threw (what : Bytes)
  deriving DecidableEq

/-- The callback that answers so, and notes what it writes. -/
def PersistAnswer.persist (a : PersistAnswer) : PersistFn (List DictEntry) :=
  fun col value id entries =>
    match a with
    | .written => .ret (entries ++ [(col, value, id)]) true
    | .refused => .ret entries false
    | .threw what => .throw entries what

/-- A call of `GetOrCreate`. -/
structure DictCall where
  col : ColumnName
  value : Bytes
  answer : PersistAnswer

/-- The call, made in the state `t`. -/
def DictCall.run (c : DictCall) (t : DictState) : Outcome DictState Bytes ValueId :=
  getOrCreate (some c.answer.persist) t.1 t.2 c.col c.value

/-- A call with what it returned or threw. -/
inductive DictStep : DictState → DictCall × Except Bytes ValueId → DictState → Prop
  | returns {t t' : DictState} {c : DictCall} {id : ValueId} :
      c.run t = .ret t' id → DictStep t (c, .ok id) t'
  | throws {t t' : DictState} {c : DictCall} {what : Bytes} :
      c.run t = .throw t' what → DictStep t (c, .error what) t'

/-- A history of calls with their results. -/
abbrev DictHistory := List (DictCall × Except Bytes ValueId)

/-- The state a dictionary starts in. -/
def DictState.empty : DictState := (∅, [])

/-! ### One call -/

/-- A value that has an id keeps it, and the callback is not asked. -/
theorem DictCall.run_hit {c : DictCall} {t : DictState} {id : ValueId}
    (h : t.1.get? c.col c.value = some id) : c.run t = .ret (t.1.touch c.col, t.2) id :=
  getOrCreate_hit _ t.2 h

/-- The exception of a call whose entry is not written. -/
def DictCall.failure (c : DictCall) : Option Bytes :=
  match c.answer with
  | .written => none
  | .refused => some (persistFailed c.col c.value)
  | .threw what => some what

/-- A new value gets the next id of its column, if the entry is written. -/
theorem DictCall.run_miss {c : DictCall} {t : DictState} {id : ValueId}
    (h : t.1.get? c.col c.value = none) (hid : newId (t.1.colMap c.col) = some id) :
    c.run t =
      match c.failure with
      | none => .ret ((t.1.touch c.col).put c.col c.value id, t.2 ++ [(c.col, c.value, id)]) id
      | some what => .throw (t.1.touch c.col, t.2) what := by
  unfold DictCall.run
  rw [getOrCreate_miss _ t.2 h, hid]
  unfold DictCall.failure
  cases c.answer <;> rfl

/-- **What a call can do**: return the id of a known value; write a new entry and
add it to the table; or throw, with the table as it was. -/
theorem DictStep.cases {t t' : DictState} {c : DictCall} {r : Except Bytes ValueId}
    (h : DictStep t (c, r) t') :
    (∃ id, t.1.get? c.col c.value = some id ∧ r = .ok id ∧ t' = (t.1.touch c.col, t.2)) ∨
    (∃ id, t.1.get? c.col c.value = none ∧ newId (t.1.colMap c.col) = some id ∧
      c.failure = none ∧ r = .ok id ∧
      t' = ((t.1.touch c.col).put c.col c.value id, t.2 ++ [(c.col, c.value, id)])) ∨
    (∃ id what, t.1.get? c.col c.value = none ∧ newId (t.1.colMap c.col) = some id ∧
      c.failure = some what ∧ r = .error what ∧ t' = (t.1.touch c.col, t.2)) := by
  cases hget : t.1.get? c.col c.value with
  | some id =>
    have hrun := DictCall.run_hit hget
    cases h with
    | returns h =>
      rw [hrun] at h
      cases h
      exact .inl ⟨id, rfl, rfl, rfl⟩
    | throws h =>
      rw [hrun] at h
      cases h
  | none =>
    right
    cases hid : newId (t.1.colMap c.col) with
    | none =>
      have hrun : c.run t = .undefined := by
        unfold DictCall.run
        rw [getOrCreate_miss _ t.2 hget, hid]
      cases h with
      | returns h => rw [hrun] at h; cases h
      | throws h => rw [hrun] at h; cases h
    | some id =>
      have hrun := DictCall.run_miss hget hid
      cases hf : c.failure with
      | none =>
        rw [hf] at hrun
        cases h with
        | returns h =>
          rw [hrun] at h
          cases h
          exact .inl ⟨_, rfl, rfl, rfl, rfl, rfl⟩
        | throws h => rw [hrun] at h; cases h
      | some what =>
        rw [hf] at hrun
        cases h with
        | returns h => rw [hrun] at h; cases h
        | throws h =>
          rw [hrun] at h
          cases h
          exact .inr ⟨_, _, rfl, rfl, rfl, rfl, rfl⟩

/-! ### The ids of a column -/

/-- The ids of a column, in the order of the map. -/
def ColumnMap.ids (m : ColumnMap) : List ValueId := m.entries.map fun e => e.2

/-- The ids of the column are `1..n` for its `n` values, each once. -/
def DenseIds (m : ColumnMap) : Prop :=
  m.ids.Perm ((List.range m.entries.length).map fun k : ℕ => (k : ℤ) + 1)

theorem denseIds_empty : DenseIds ∅ := List.Perm.refl _

theorem DenseIds.mem_iff {m : ColumnMap} (h : DenseIds m) {i : ℤ} :
    i ∈ m.ids ↔ 1 ≤ i ∧ i ≤ m.entries.length := by
  rw [List.Perm.mem_iff h, List.mem_map]
  constructor
  · rintro ⟨k, hk, rfl⟩
    rw [List.mem_range] at hk
    omega
  · rintro ⟨h1, hn⟩
    have hk : ((i - 1).toNat : ℤ) + 1 = i := by omega
    exact ⟨(i - 1).toNat, List.mem_range.mpr (by omega), hk⟩

theorem DenseIds.nodup {m : ColumnMap} (h : DenseIds m) : m.ids.Nodup := by
  refine (List.Perm.nodup_iff h).mpr (List.Nodup.map ?_ List.nodup_range)
  intro a b hab
  simpa using hab

/-- The next id of a column with `n` values is `n + 1`, while that is an `int`. -/
theorem DenseIds.newId {m : ColumnMap} (h : DenseIds m) :
    newId m =
      if (m.entries.length : ℤ) < intMax then some (m.entries.length + 1 : ℤ) else none := by
  unfold LogLite.newId
  cases hn : m.entries with
  | nil =>
    have hmax : maxValueId m = none := by
      unfold maxValueId
      rw [hn]
      rfl
    rw [hmax]
    rfl
  | cons e es =>
    have hmax : maxValueId m = some (m.entries.length : ℤ) := by
      refine List.max?_eq_some_iff.mpr ⟨h.mem_iff.mpr ⟨?_, le_rfl⟩, fun i hi => (h.mem_iff.mp hi).2⟩
      rw [hn, List.length_cons]
      omega
    rw [hmax, hn]

/-- A new value with the next id keeps the ids dense. -/
theorem DenseIds.insert {m : ColumnMap} (h : DenseIds m) {value : Bytes} {id : ValueId}
    (hv : m.lookup value = none) (hid : LogLite.newId m = some id) :
    DenseIds (m.insert value id) := by
  have hnot : value ∉ m := AList.lookup_eq_none.mp hv
  rw [h.newId] at hid
  split_ifs at hid
  obtain rfl := Option.some.inj hid
  unfold DenseIds ColumnMap.ids
  rw [AList.entries_insert_of_notMem hnot, List.length_cons, List.range_succ, List.map_append,
    List.map_cons]
  refine (List.Perm.cons _ h).trans ?_
  exact (List.perm_append_singleton _ _).symm

/-- Dense ids number the values of the column. -/
theorem DenseIds.numbering {m : ColumnMap} (h : DenseIds m) :
    Interning.Numbering fun value => m.lookup value := by
  intro a b i ha hb
  have heq := List.inj_on_of_nodup_map h.nodup (AList.mem_lookup_iff.mp ha)
    (AList.mem_lookup_iff.mp hb) rfl
  exact congrArg Sigma.fst heq

/-! ### The table as a list of entries -/

/-- The entries of the table, column by column. -/
def LookupTable.triples (d : LookupTable) : List DictEntry :=
  d.entries.flatMap fun c => c.2.entries.map fun e => (c.1, e.1, e.2)

theorem LookupTable.mem_triples {d : LookupTable} {col : ColumnName} {value : Bytes}
    {id : ValueId} : (col, value, id) ∈ d.triples ↔ d.get? col value = some id := by
  unfold LookupTable.triples LookupTable.get? LookupTable.colMap
  rw [List.mem_flatMap]
  constructor
  · rintro ⟨⟨c, m⟩, hm, he⟩
    obtain ⟨⟨v, i⟩, hv, heq⟩ := List.mem_map.mp he
    cases heq
    rw [AList.mem_lookup_iff.mpr hm]
    exact AList.mem_lookup_iff.mpr hv
  · intro h
    cases hcol : d.lookup col with
    | none => simp [hcol] at h
    | some m =>
      rw [hcol] at h
      exact ⟨⟨col, m⟩, AList.mem_lookup_iff.mp hcol,
        List.mem_map.mpr ⟨⟨value, id⟩, AList.mem_lookup_iff.mp h, rfl⟩⟩

theorem LookupTable.nodup_triples (d : LookupTable) : d.triples.Nodup := by
  refine List.nodup_flatMap.mpr ⟨?_, ?_⟩
  · rintro ⟨c, m⟩ -
    refine List.Nodup.map ?_ (List.NodupKeys.nodup m.nodupKeys)
    rintro ⟨v, i⟩ ⟨v', i'⟩ heq
    cases heq
    rfl
  · refine (List.nodupKeys_iff_pairwise.mp d.nodupKeys).imp ?_
    rintro ⟨c, m⟩ ⟨c', m'⟩ hne e he he'
    obtain ⟨e₁, -, rfl⟩ := List.mem_map.mp he
    obtain ⟨e₂, -, heq⟩ := List.mem_map.mp he'
    exact hne (congrArg Prod.fst heq).symm

/-! ### Histories -/

/-- The invariant of a dictionary and the entries it has written. -/
structure DictInv (t : DictState) : Prop where
  dense : ∀ col, DenseIds (t.1.colMap col)
  mem_written : ∀ {col value id}, (col, value, id) ∈ t.2 ↔ t.1.get? col value = some id
  nodup : t.2.Nodup

theorem dictInv_empty : DictInv .empty where
  dense _ := denseIds_empty
  mem_written := by simp [DictState.empty]
  nodup := List.nodup_nil

/-- Asking for the map of a column changes nothing that matters. -/
theorem DictInv.touch {t : DictState} (h : DictInv t) (col : ColumnName) :
    DictInv (t.1.touch col, t.2) where
  dense col' := by
    rw [LookupTable.colMap_touch]
    exact h.dense col'
  mem_written := by
    intro col' value id
    rw [LookupTable.get?_touch]
    exact h.mem_written
  nodup := h.nodup

/-- A new value with the next id, once it is written. -/
theorem DictInv.put {t : DictState} (h : DictInv t) {col : ColumnName} {value : Bytes}
    {id : ValueId} (hv : t.1.get? col value = none) (hid : newId (t.1.colMap col) = some id) :
    DictInv (t.1.put col value id, t.2 ++ [(col, value, id)]) where
  dense col' := by
    rw [LookupTable.colMap_put]
    split_ifs with hc
    · exact (h.dense col).insert hv hid
    · exact h.dense col'
  mem_written := by
    intro col' value' id'
    rw [LookupTable.get?_put, List.mem_append, List.mem_singleton]
    split_ifs with hc
    · obtain ⟨rfl, rfl⟩ := hc
      -- the value is new, so the new entry is its only one
      have hnew : (col', value', id') ∉ t.2 := by
        rw [h.mem_written, hv]
        simp
      constructor
      · rintro (hmem | heq)
        · exact absurd hmem hnew
        · cases heq
          rfl
      · intro heq
        cases heq
        exact .inr rfl
    · rw [h.mem_written, or_iff_left]
      intro heq
      cases heq
      exact hc ⟨rfl, rfl⟩
  nodup := by
    refine List.nodup_append.mpr ⟨h.nodup, List.nodup_singleton _, ?_⟩
    rintro e he e' he' rfl
    rw [List.mem_singleton.mp he', h.mem_written, hv] at he
    cases he

/-- **A call keeps the invariant**, whatever the callback does. -/
theorem DictInv.step {t t' : DictState} {l : DictCall × Except Bytes ValueId} (h : DictInv t)
    (hs : DictStep t l t') : DictInv t' := by
  rcases hs.cases with ⟨id, -, -, rfl⟩ | ⟨id, hv, hid, -, -, rfl⟩ | ⟨id, what, -, -, -, -, rfl⟩
  · exact h.touch _
  · refine (h.touch l.1.col).put ?_ ?_
    · rw [LookupTable.get?_touch]
      exact hv
    · rw [LookupTable.colMap_touch]
      exact hid
  · exact h.touch _

theorem DictInv.run {t t' : DictState} {calls : DictHistory} (h : DictInv t)
    (hr : Run DictStep t calls t') : DictInv t' :=
  hr.invariant (fun _ _ _ hi hs => hi.step hs) h

/-- A call changes no mapping. -/
theorem DictStep.extends {t t' : DictState} {l : DictCall × Except Bytes ValueId}
    (hs : DictStep t l t') (col : ColumnName) :
    Interning.Extends (t.1.get? col) (t'.1.get? col) := by
  intro value id hget
  rcases hs.cases with ⟨_, -, -, rfl⟩ | ⟨_, hv, -, -, -, rfl⟩ | ⟨_, _, -, -, -, -, rfl⟩
  · rw [LookupTable.get?_touch]
    exact hget
  · rw [LookupTable.get?_put, LookupTable.get?_touch, if_neg]
    · exact hget
    · rintro ⟨rfl, rfl⟩
      rw [hv] at hget
      cases hget
  · rw [LookupTable.get?_touch]
    exact hget

theorem extends_of_run {t t' : DictState} {calls : DictHistory} (hr : Run DictStep t calls t')
    (col : ColumnName) : Interning.Extends (t.1.get? col) (t'.1.get? col) := by
  induction hr with
  | nil t => exact .refl _
  | cons hs _ ih => exact (hs.extends col).trans ih

/-- A call that returns leaves its value with the id it returned. -/
theorem DictStep.get?_of_ok {t t' : DictState} {c : DictCall} {id : ValueId}
    (hs : DictStep t (c, .ok id) t') : t'.1.get? c.col c.value = some id := by
  rcases hs.cases with ⟨_, hget, hr, rfl⟩ | ⟨_, -, -, -, hr, rfl⟩ | ⟨_, _, -, -, -, hr, rfl⟩
  · cases hr
    rw [LookupTable.get?_touch]
    exact hget
  · cases hr
    rw [LookupTable.get?_put, if_pos ⟨rfl, rfl⟩]
  · cases hr

/-- What a call returned is what its value is mapped to ever after. -/
theorem get?_of_mem_history {t t' : DictState} {calls : DictHistory}
    (hr : Run DictStep t calls t') {c : DictCall} {id : ValueId} (hc : (c, .ok id) ∈ calls) :
    t'.1.get? c.col c.value = some id := by
  induction hr with
  | nil t => cases hc
  | cons hs hrest ih =>
    rcases List.mem_cons.mp hc with rfl | hmem
    · exact extends_of_run hrest _ hs.get?_of_ok
    · exact ih hmem

/-- A call that throws changes no mapping and writes nothing. -/
theorem DictStep.eq_of_error {t t' : DictState} {c : DictCall} {what : Bytes}
    (hs : DictStep t (c, .error what) t') :
    (∀ col value, t'.1.get? col value = t.1.get? col value) ∧ t'.2 = t.2 := by
  rcases hs.cases with ⟨_, -, hr, -⟩ | ⟨_, -, -, -, hr, -⟩ | ⟨_, _, -, -, -, -, rfl⟩
  · cases hr
  · cases hr
  · exact ⟨fun col value => LookupTable.get?_touch .., rfl⟩

/-! ### One column by itself -/

/-- `u` is `t` as far as the column goes. -/
structure ColumnView (col : ColumnName) (t u : DictState) : Prop where
  colMap : u.1.colMap col = t.1.colMap col
  written : u.2 = t.2.filter fun e => e.1 = col

/-- A call for another column is not seen. -/
theorem ColumnView.step_of_ne {col : ColumnName} {t t' u : DictState}
    {l : DictCall × Except Bytes ValueId} (h : ColumnView col t u) (hs : DictStep t l t')
    (hc : l.1.col ≠ col) : ColumnView col t' u := by
  rcases hs.cases with ⟨_, -, -, rfl⟩ | ⟨_, -, -, -, -, rfl⟩ | ⟨_, _, -, -, -, -, rfl⟩
  · exact ⟨by rw [LookupTable.colMap_touch]; exact h.colMap, h.written⟩
  · refine ⟨?_, ?_⟩
    · rw [LookupTable.colMap_put, if_neg hc.symm, LookupTable.colMap_touch]
      exact h.colMap
    · rw [List.filter_append, h.written]
      simp [hc]
  · exact ⟨by rw [LookupTable.colMap_touch]; exact h.colMap, h.written⟩

/-- A call for the column has the same result and effect in both. -/
theorem ColumnView.step {col : ColumnName} {t t' u : DictState}
    {l : DictCall × Except Bytes ValueId} (h : ColumnView col t u) (hs : DictStep t l t')
    (hc : l.1.col = col) : ∃ u', DictStep u l u' ∧ ColumnView col t' u' := by
  obtain ⟨c, r⟩ := l
  obtain rfl : c.col = col := hc
  have hget : u.1.get? c.col c.value = t.1.get? c.col c.value := by
    unfold LookupTable.get?
    rw [h.colMap]
  rcases hs.cases with ⟨id, hv, rfl, rfl⟩ | ⟨id, hv, hid, hf, rfl, rfl⟩ |
    ⟨id, what, hv, hid, hf, rfl, rfl⟩
  · refine ⟨_, .returns (DictCall.run_hit (hget.trans hv)), ?_, h.written⟩
    rw [LookupTable.colMap_touch, LookupTable.colMap_touch]
    exact h.colMap
  · rw [← hget] at hv
    rw [← h.colMap] at hid
    have hrun := DictCall.run_miss hv hid
    rw [hf] at hrun
    refine ⟨_, .returns hrun, ?_, ?_⟩
    · simp [LookupTable.colMap_put, h.colMap]
    · simp [h.written]
  · rw [← hget] at hv
    rw [← h.colMap] at hid
    have hrun := DictCall.run_miss hv hid
    rw [hf] at hrun
    refine ⟨_, .throws hrun, ?_, h.written⟩
    rw [LookupTable.colMap_touch, LookupTable.colMap_touch]
    exact h.colMap

/-- The calls for one column by themselves give the same results, and lead to the
same map and the same entries of that column. -/
theorem ColumnView.run {col : ColumnName} {t t' u : DictState} {calls : DictHistory}
    (hr : Run DictStep t calls t') (h : ColumnView col t u) :
    ∃ u', Run DictStep u (calls.filter fun l => l.1.col = col) u' ∧ ColumnView col t' u' := by
  induction hr generalizing u with
  | nil t => exact ⟨u, .nil u, h⟩
  | @cons t t₁ t' l ls hs _ ih =>
    by_cases hc : l.1.col = col
    · obtain ⟨u₁, hu, h₁⟩ := h.step hs hc
      obtain ⟨u', hrun, h'⟩ := ih h₁
      rw [List.filter_cons_of_pos (by simpa using hc)]
      exact ⟨u', .cons hu hrun, h'⟩
    · obtain ⟨u', hrun, h'⟩ := ih (h.step_of_ne hs hc)
      rw [List.filter_cons_of_neg (by simpa using hc)]
      exact ⟨u', hrun, h'⟩

/-! ### The law -/

/-- What holds of a dictionary `t` with the history `calls`. -/
structure DictionaryLaw (calls : DictHistory) (t : DictState) : Prop where
  /-- The ids of every column are `1..n`. -/
  dense : ∀ col, DenseIds (t.1.colMap col)
  /-- `GetValue` inverts the mapping. -/
  getValue_iff : ∀ col value id, getValue t.1 col id = .ok value ↔ t.1.get? col value = some id
  /-- What was written is the table. -/
  written : t.2.Perm t.1.triples
  /-- A returned id stays with its value: it is what the table says, what `GetOrCreate`
  returns from now on, and `GetValue` gives the value back. -/
  stable : ∀ c id, (c, .ok id) ∈ calls → t.1.get? c.col c.value = some id ∧
    getValue t.1 c.col id = .ok c.value ∧
    ∀ a : PersistAnswer, DictStep t (⟨c.col, c.value, a⟩, .ok id) (t.1.touch c.col, t.2)
  /-- A call is defined while its column has fewer than `2^31 - 1` values. -/
  defined : ∀ c : DictCall, ((t.1.colMap c.col).entries.length : ℤ) < intMax →
    ∃ r t', DictStep t (c, r) t'
  /-- A call that throws leaves the mapping alone. -/
  unchanged : ∀ c what t', DictStep t (c, .error what) t' →
    (∀ col value, t'.1.get? col value = t.1.get? col value) ∧ t'.2 = t.2
  /-- The calls for one column by themselves give its map, with the same results. -/
  independent : ∀ col, ∃ u, Run DictStep .empty (calls.filter fun l => l.1.col = col) u ∧
    ColumnView col t u

/-- **The column dictionary**: after any history of calls, whichever entries the
callback wrote or failed to write, the law holds, and no later call changes a mapping. -/
theorem dictionary_law {calls : DictHistory} {t : DictState}
    (hr : Run DictStep .empty calls t) :
    DictionaryLaw calls t ∧ ∀ more t', Run DictStep t more t' →
      ∀ col value id, t.1.get? col value = some id → t'.1.get? col value = some id := by
  have hinv : DictInv t := dictInv_empty.run hr
  have hvalue : ∀ col value id, getValue t.1 col id = .ok value ↔
      t.1.get? col value = some id := by
    intro col value id
    exact ⟨get?_of_getValue, getValue_of_get? (hinv.dense col).numbering⟩
  refine ⟨⟨hinv.dense, hvalue, ?_, ?_, ?_, fun _ _ _ hs => hs.eq_of_error, ?_⟩, ?_⟩
  · refine (List.perm_ext_iff_of_nodup hinv.nodup t.1.nodup_triples).mpr ?_
    rintro ⟨col, value, id⟩
    rw [hinv.mem_written, LookupTable.mem_triples]
  · intro c id hc
    have hget := get?_of_mem_history hr hc
    exact ⟨hget, (hvalue _ _ _).mpr hget, fun a => .returns (DictCall.run_hit hget)⟩
  · intro c hlen
    cases hget : t.1.get? c.col c.value with
    | some id => exact ⟨_, _, .returns (DictCall.run_hit hget)⟩
    | none =>
      have hid := (hinv.dense c.col).newId
      rw [if_pos hlen] at hid
      have hrun := DictCall.run_miss hget hid
      cases hf : c.failure with
      | none =>
        rw [hf] at hrun
        exact ⟨_, _, .returns hrun⟩
      | some what =>
        rw [hf] at hrun
        exact ⟨_, _, .throws hrun⟩
  · intro col
    exact ColumnView.run hr ⟨rfl, rfl⟩
  · intro more t' hmore col value id hget
    exact extends_of_run hmore col hget

/-- A call of one column that is refused once, then written, with calls of another
column in between. -/
theorem dictionary_law_retry :
    ∃ t, DictionaryLaw
        [(⟨[97], [120], .written⟩, .ok 1),
          (⟨[97], [121], .refused⟩, .error (persistFailed [97] [121])),
          (⟨[98], [121], .written⟩, .ok 1),
          (⟨[97], [121], .written⟩, .ok 2),
          (⟨[97], [120], .threw []⟩, .ok 1)] t ∧
      t.2 = [([97], [120], 1), ([98], [121], 1), ([97], [121], 2)] := by
  refine ⟨_, (dictionary_law (.cons (.returns rfl) (.cons (.throws rfl) (.cons (.returns rfl)
    (.cons (.returns rfl) (.cons (.returns rfl) (.nil _))))))).1, rfl⟩

end LogLite
