import LogLite.Store.Sound

/-!
# What a failed `Insert` leaves behind

When a call of `Insert` throws, `ROLLBACK` restores the tables, but nothing takes
the entries created since `BEGIN` out of the dictionary in memory.  They stay, and
their rows are never written again.

## Main definitions

* `SameIds` — two tables stand for the same mapping.
* `firstNew` — where in a batch the first string without an id is.
* `FailsCleanly` — the failing call comes before the first new entry is written.
* `Overfull` — the dictionary in memory has more entries than its table.

## Main results

* `insertRows_sameIds` — when the loops of `Insert` leave the mapping as it was.
* `insert_all_or_nothing_iff` — **a call that throws leaves everything as it was
  if and only if it fails cleanly; and the dictionary in memory is the committed
  table if and only if every failed call did.**
-/

namespace LogLite

open Transition

/-- The tables stand for the same mapping from column and value to id. -/
def SameIds (d d' : LookupTable) : Prop := ∀ col value, d'.get? col value = d.get? col value

theorem SameIds.refl (d : LookupTable) : SameIds d d := fun _ _ => rfl

theorem SameIds.trans {d₁ d₂ d₃ : LookupTable} (h : SameIds d₁ d₂) (h' : SameIds d₂ d₃) :
    SameIds d₁ d₃ := fun col value => (h' col value).trans (h col value)

/-! ### The first new string -/

section
variable (cat : DatabaseCatalog)

/-- The index of the first column whose string has no id. -/
def firstNewColumn (d : LookupTable) (log : Json) : ℕ → List ColumnInfo → Option ℕ
  | _, [] => none
  | j, ci :: cols =>
    let raw := log.find ci.name
    if ci.notNull && raw.isNull then none
    else if cat.compressedColumns.contains ci.name && !raw.isNull &&
        (d.get? ci.name (dictText cat.platform (serializeValue cat.platform raw))).isNone
      then some j
    else firstNewColumn d log (j + 1) cols

/-- The row and the column of the first string without an id. -/
def firstNew (d : LookupTable) : ℕ → List Json → Option (ℕ × ℕ)
  | _, [] => none
  | i, log :: logs =>
    match firstNewColumn cat d log 0 cat.insertColumns with
    | some j => some (i, j)
    | none => firstNew d (i + 1) logs

variable {cat}

theorem firstNewColumn_congr {d d' : LookupTable} (h : SameIds d d') {log : Json} :
    ∀ (cols : List ColumnInfo) (j : ℕ),
      firstNewColumn cat d' log j cols = firstNewColumn cat d log j cols := by
  intro cols
  induction cols with
  | nil => exact fun j => rfl
  | cons ci cols ih =>
    intro j
    simp only [firstNewColumn]
    rw [h, ih]

theorem firstNew_congr {d d' : LookupTable} (h : SameIds d d') : ∀ (logs : List Json) (i : ℕ),
    firstNew cat d' i logs = firstNew cat d i logs := by
  intro logs
  induction logs with
  | nil => exact fun i => rfl
  | cons log logs ih =>
    intro i
    simp only [firstNew]
    rw [firstNewColumn_congr h, ih]

/-! ### The loops -/

/-- Some string that has no id in `d` has one now. -/
def Grown (d : LookupTable) (w : WriterDatabase) : Prop :=
  ∃ col value, d.get? col value = none ∧ (w.colDict.get? col value).isSome

theorem Grown.not_sameIds {d : LookupTable} {w : WriterDatabase} (h : Grown d w) :
    ¬ SameIds d w.colDict := by
  obtain ⟨col, value, hnone, hsome⟩ := h
  intro hsame
  rw [hsame, hnone] at hsome
  cases hsome

theorem kept_grown (d : LookupTable) : Kept cat (Grown d) where
  touch := by
    rintro w col ⟨col', value, hnone, hsome⟩
    refine ⟨col', value, hnone, ?_⟩
    rw [WriterDatabase.touch_colDict, LookupTable.get?_touch]
    exact hsome
  addEntry := by
    rintro w ci value id - - - - ⟨col', value', hnone, hsome⟩
    refine ⟨col', value', hnone, ?_⟩
    rw [WriterDatabase.addEntry_get?]
    split
    · rfl
    · exact hsome
  appendRow := fun w log cells _ _ h => h

variable (cat) in
/-- The value of the column is null, not compressed, or has an id. -/
def Known (d : LookupTable) (log : Json) (ci : ColumnInfo) : Prop :=
  (cat.compressedColumns.contains ci.name && !(log.find ci.name).isNull &&
    (d.get? ci.name (dictText cat.platform
      (serializeValue cat.platform (log.find ci.name)))).isNone) = false

theorem encodeValue_known (fault : Option DictFault) {log : Json} {ci : ColumnInfo}
    {w : WriterDatabase} (h : Known cat w.colDict log ci) :
    ∃ w' b, encodeValue cat fault ci.name (serializeValue cat.platform (log.find ci.name)) w =
      .ret w' b ∧ SameIds w.colDict w'.colDict := by
  by_cases hc : Compresses cat ci.name (serializeValue cat.platform (log.find ci.name))
  · have hc' := hc
    rw [Compresses, serializeValue_isNull] at hc'
    simp only [Known, hc'.1, hc'.2, Bool.not_false, Bool.true_and,
      Option.isNone_eq_false_iff] at h
    obtain ⟨id, hid⟩ := Option.isSome_iff_exists.mp h
    exact ⟨w.touch ci.name, _, encodeValue_hit hc hid, fun _ _ => by simp⟩
  · exact ⟨w, _, encodeValue_plain hc, .refl _⟩

/-- A column that is not known has a new string. -/
theorem compresses_of_not_known {d : LookupTable} {log : Json} {ci : ColumnInfo}
    (h : ¬ Known cat d log ci) :
    Compresses cat ci.name (serializeValue cat.platform (log.find ci.name)) ∧
      d.get? ci.name (dictText cat.platform
        (serializeValue cat.platform (log.find ci.name))) = none := by
  simp only [Known, Bool.not_eq_false, Bool.and_eq_true, Bool.not_eq_true',
    Option.isNone_iff_eq_none] at h
  rw [Compresses, serializeValue_isNull]
  exact h

/-- A new string whose entry cannot be written. -/
theorem encodeValue_new_fails {fault : Option DictFault} {log : Json} {ci : ColumnInfo}
    {w : WriterDatabase} (h : ¬ Known cat w.colDict log ci) (hf : fault ≠ none) :
    (encodeValue cat fault ci.name (serializeValue cat.platform (log.find ci.name)) w).Fails
      fun w' => SameIds w.colDict w'.colDict := by
  obtain ⟨hc, hnone⟩ := compresses_of_not_known h
  rw [encodeValue_miss hc hnone]
  cases newId (w.colDict.colMap ci.name) with
  | none => trivial
  | some id =>
    match fault with
    | none => exact absurd rfl hf
    | some (.prepare msg) => exact fun _ _ => by simp
    | some .step => exact fun _ _ => by simp

/-- A new string whose entry is written. -/
theorem encodeValue_new_grows {log : Json} {ci : ColumnInfo} {w : WriterDatabase}
    (h : ¬ Known cat w.colDict log ci) :
    (encodeValue cat none ci.name (serializeValue cat.platform (log.find ci.name)) w).Leaves
      (Grown w.colDict) := by
  obtain ⟨hc, hnone⟩ := compresses_of_not_known h
  rw [encodeValue_miss hc hnone]
  cases newId (w.colDict.colMap ci.name) with
  | none => trivial
  | some id => exact ⟨_, _, hnone, by simp⟩

theorem firstNewColumn_cons (d : LookupTable) (log : Json) (j : ℕ) (ci : ColumnInfo)
    (cols : List ColumnInfo) (hmiss : (ci.notNull && (log.find ci.name).isNull) = false) :
    (Known cat d log ci ∧ firstNewColumn cat d log j (ci :: cols) =
        firstNewColumn cat d log (j + 1) cols) ∨
      (¬ Known cat d log ci ∧ firstNewColumn cat d log j (ci :: cols) = some j) := by
  simp only [firstNewColumn, hmiss, Bool.false_eq_true, if_false]
  by_cases h : Known cat d log ci
  · left
    refine ⟨h, if_neg ?_⟩
    rw [Known] at h
    simp only [h, Bool.false_eq_true, not_false_eq_true]
  · right
    refine ⟨h, if_pos ?_⟩
    simpa only [Known, Bool.not_eq_false] using h

/-- The loop over the columns of a log whose strings all have ids. -/
theorem encodeRow_known (faults : ℕ → Option DictFault) {log : Json} :
    ∀ (cols : List ColumnInfo) (j : ℕ) (w : WriterDatabase),
      firstNewColumn cat w.colDict log j cols = none →
        ∃ w' enc, encodeRow cat faults log j cols w = .ret w' enc ∧
          SameIds w.colDict w'.colDict := by
  intro cols
  induction cols with
  | nil => exact fun j w _ => ⟨w, _, rfl, .refl _⟩
  | cons ci cols ih =>
    intro j w hnew
    simp only [encodeRow]
    cases hmiss : ci.notNull && (log.find ci.name).isNull with
    | true => exact ⟨w, _, if_pos rfl, .refl _⟩
    | false =>
      rcases firstNewColumn_cons w.colDict log j ci cols hmiss with ⟨hk, heq⟩ | ⟨-, heq⟩
      · obtain ⟨w₁, b, hb, hsame₁⟩ := encodeValue_known (faults j) hk
        rw [heq, ← firstNewColumn_congr hsame₁] at hnew
        obtain ⟨w₂, enc, henc, hsame₂⟩ := ih (j + 1) w₁ hnew
        rw [if_neg Bool.false_ne_true, hb, Outcome.bind_ret, henc, Outcome.bind_ret]
        exact ⟨w₂, _, rfl, hsame₁.trans hsame₂⟩
      · rw [heq] at hnew
        cases hnew

/-- The loop over the columns of a log whose first new string cannot be written. -/
theorem encodeRow_new_fails {faults : ℕ → Option DictFault} {log : Json} {k : ℕ}
    (hf : faults k ≠ none) : ∀ (cols : List ColumnInfo) (j : ℕ) (w : WriterDatabase),
      firstNewColumn cat w.colDict log j cols = some k →
        (encodeRow cat faults log j cols w).Fails fun w' => SameIds w.colDict w'.colDict := by
  intro cols
  induction cols with
  | nil => exact fun j w h => by cases h
  | cons ci cols ih =>
    intro j w hnew
    simp only [encodeRow]
    cases hmiss : ci.notNull && (log.find ci.name).isNull with
    | true => simp [firstNewColumn, hmiss] at hnew
    | false =>
      rw [if_neg Bool.false_ne_true]
      rcases firstNewColumn_cons w.colDict log j ci cols hmiss with ⟨hk, heq⟩ | ⟨hk, heq⟩
      · obtain ⟨w₁, b, hb, hsame⟩ := encodeValue_known (faults j) hk
        rw [heq, ← firstNewColumn_congr hsame] at hnew
        rw [hb, Outcome.bind_ret]
        exact ((ih (j + 1) w₁ hnew).mono fun w' h => hsame.trans h).bind _
      · rw [heq] at hnew
        obtain rfl := Option.some.inj hnew
        exact (encodeValue_new_fails hk hf).bind _

/-- The loop over the columns of a log whose first new string is written. -/
theorem encodeRow_new_grows {faults : ℕ → Option DictFault} {log : Json} {k : ℕ}
    (hf : faults k = none) : ∀ cols : List ColumnInfo, cols ⊆ cat.insertColumns →
    ∀ (j : ℕ) (w : WriterDatabase), firstNewColumn cat w.colDict log j cols = some k →
        (encodeRow cat faults log j cols w).Leaves (Grown w.colDict) := by
  intro cols
  induction cols with
  | nil => exact fun _ j w h => by cases h
  | cons ci cols ih =>
    intro hcols j w hnew
    rw [List.cons_subset] at hcols
    simp only [encodeRow]
    cases hmiss : ci.notNull && (log.find ci.name).isNull with
    | true => simp [firstNewColumn, hmiss] at hnew
    | false =>
      rw [if_neg Bool.false_ne_true]
      rcases firstNewColumn_cons w.colDict log j ci cols hmiss with ⟨hk, heq⟩ | ⟨hk, heq⟩
      · obtain ⟨w₁, b, hb, hsame⟩ := encodeValue_known (faults j) hk
        rw [heq, ← firstNewColumn_congr hsame] at hnew
        rw [hb, Outcome.bind_ret]
        have hgrown : (encodeRow cat faults log (j + 1) cols w₁).Leaves (Grown w.colDict) := by
          refine (ih hcols.2 (j + 1) w₁ hnew).mono ?_
          rintro w' ⟨col, value, hnone, hsome⟩
          exact ⟨col, value, (hsame col value).symm.trans hnone, hsome⟩
        exact hgrown.bind fun w₂ cells _ h => h
      · rw [heq] at hnew
        obtain rfl := Option.some.inj hnew
        rw [hf]
        refine (encodeValue_new_grows hk).bind fun w₁ b _ h₁ => ?_
        exact (encodeRow_leaves (kept_grown w.colDict) cols hcols.2 (j + 1) w₁ h₁).bind
          fun w₂ _ _ h => h

variable (cat) in
/-- **When the loops of `Insert` leave the mapping as it was**: when there is no
new string, or the first one cannot be written. -/
theorem insertRows_sameIds (f : Faults) : ∀ (logs : List Json) (i : ℕ) (w : WriterDatabase),
    (insertRows cat f i logs w).Leaves fun w' => SameIds w.colDict w'.colDict ↔
      ∀ p, firstNew cat w.colDict i logs = some p → f.dict p.1 p.2 ≠ none := by
  intro logs
  induction logs with
  | nil =>
    intro i w
    refine Outcome.leaves_ret.mpr ⟨fun _ p h => ?_, fun _ => SameIds.refl _⟩
    simp [firstNew] at h
  | cons log logs ih =>
    intro i w
    simp only [insertRows, insertRow, firstNew]
    cases hnew : firstNewColumn cat w.colDict log 0 cat.insertColumns with
    | none =>
      obtain ⟨w₁, enc, henc, hsame⟩ := encodeRow_known (f.dict i) _ _ _ hnew
      -- the statement leaves the dictionary alone, so the rest of the batch sees the same ids
      obtain ⟨w₂, r, hrow, hdict⟩ : ∃ w₂ r, insertRow cat f i log w = .ret w₂ r ∧
          w₂.colDict = w₁.colDict := by
        simp only [insertRow, henc, Outcome.bind_ret]
        cases enc with
        | error col => exact ⟨w₁, _, rfl, rfl⟩
        | ok cells => exact ⟨_, _, rfl, stepRow_colDict⟩
      rw [← hdict] at hsame
      have hrest := ih (i + 1) w₂
      rw [firstNew_congr hsame] at hrest
      show ((insertRow cat f i log w).bind _).Leaves _
      rw [hrow, Outcome.bind_ret]
      refine Outcome.Leaves.mono (fun w' h => ?_) (hrest.bind fun w₃ rs _ h => h)
      rw [← h]
      exact ⟨fun h' col value => (h' col value).trans (hsame col value).symm, hsame.trans⟩
    | some k =>
      by_cases hf : f.dict i k = none
      · have hgrown : (insertRow cat f i log w).Leaves (Grown w.colDict) := by
          refine (encodeRow_new_grows hf _ (List.Subset.refl _) _ _ hnew).bind fun w₁ enc _ h₁ => ?_
          cases enc with
          | error col => exact h₁
          | ok cells =>
            obtain ⟨col, value, hnone, hsome⟩ := h₁
            exact ⟨col, value, hnone, by rw [stepRow_colDict]; exact hsome⟩
        refine Outcome.Leaves.mono (fun w' h => ?_) (hgrown.bind fun w₁ r _ h₁ =>
          (insertRows_leaves (kept_grown w.colDict) (f := f) logs (i + 1) w₁ h₁).bind
            fun w₂ rs _ h => h)
        exact ⟨fun hsame => absurd hsame h.not_sameIds, fun h' => absurd hf (h' _ rfl)⟩
      · have hfail : (insertRow cat f i log w).Fails fun w' => SameIds w.colDict w'.colDict :=
          (encodeRow_new_fails hf _ _ _ hnew).bind _
        refine (hfail.bind _).leaves.mono fun w' h => ⟨fun _ p hp => ?_, fun _ => h⟩
        obtain rfl := Option.some.inj hp
        exact hf

/-! ### The whole call -/

variable (cat) in
/-- The call fails before its first new dictionary entry is written: the
transaction is not opened, or there is no new string, or it is the first new
string that cannot be written. -/
def FailsCleanly (f : Faults) (logs : List Json) (w : WriterDatabase) : Prop :=
  FailsToOpen f w ∨ ∀ p, firstNew cat w.colDict 0 logs = some p → f.dict p.1 p.2 ≠ none

/-- What a call that throws leaves behind. -/
theorem insertReport_throw_sameIds {f : Faults} {logs : List Json} {w w' : WriterDatabase}
    {e : Bytes} (h : insertReport cat f logs w = .throw w' e) :
    w'.conn = w.conn ∧ (SameIds w.colDict w'.colDict ↔ FailsCleanly cat f logs w) := by
  obtain ⟨hconn, ⟨hopen, hdict⟩ | ⟨hopen, w₁, hloops, hdict⟩⟩ := insertReport_throw h
  · refine ⟨hconn, fun _ => .inl hopen, fun _ => ?_⟩
    rw [hdict]
    exact .refl _
  · have hsame : SameIds w.colDict w₁.colDict ↔
        ∀ p, firstNew cat w.colDict 0 logs = some p → f.dict p.1 p.2 ≠ none := by
      have hleaves := insertRows_sameIds cat f logs 0 w.opened
      rcases hloops with ⟨e', hloops⟩ | ⟨rs, hloops⟩ <;> rw [hloops] at hleaves <;> exact hleaves
    rw [hdict, hsame, FailsCleanly]
    exact ⟨hconn, .inr, fun h => h.resolve_left hopen⟩

/-- The dictionary in memory has more entries than its table. -/
def Overfull (w : WriterDatabase) : Prop :=
  ∃ keys : List (ColumnName × Bytes), keys.Nodup ∧
    (∀ k ∈ keys, (w.colDict.get? k.1 k.2).isSome) ∧
      w.conn.db.columnDictionary.length < keys.length

theorem Overfull.not_synced {w : WriterDatabase} (h : Overfull w) : ¬ Synced cat w := by
  obtain ⟨keys, hnodup, hkeys, hlt⟩ := h
  rintro ⟨entries, htable, -, -, hentries⟩
  have hsub : keys ⊆ entries.map fun e => (e.1, e.2.1) := by
    rintro ⟨col, value⟩ hk
    obtain ⟨id, hid⟩ := Option.isSome_iff_exists.mp (hkeys _ hk)
    exact List.mem_map.mpr ⟨_, (hentries col value id).mp hid, rfl⟩
  have hle := (List.subperm_of_subset hnodup hsub).length_le
  rw [htable, List.length_map] at hlt
  rw [List.length_map] at hle
  omega

theorem kept_overfull : Kept cat Overfull where
  touch := by
    rintro w col ⟨keys, hnodup, hkeys, hlt⟩
    refine ⟨keys, hnodup, fun k hk => ?_, hlt⟩
    rw [WriterDatabase.touch_colDict, LookupTable.get?_touch]
    exact hkeys k hk
  addEntry := by
    rintro w ci value id - - hnone - ⟨keys, hnodup, hkeys, hlt⟩
    refine ⟨(ci.name, value) :: keys, List.nodup_cons.mpr ⟨fun hmem => ?_, hnodup⟩, ?_, ?_⟩
    · have hsome := hkeys _ hmem
      rw [hnone] at hsome
      cases hsome
    · intro k hk
      rw [WriterDatabase.addEntry_get?]
      split
      · rfl
      · next hne =>
        rcases List.mem_cons.mp hk with rfl | hk
        · exact absurd ⟨rfl, rfl⟩ hne
        · exact hkeys k hk
    · simpa [WriterDatabase.addEntry] using hlt
  appendRow := fun w log cells _ _ h => h

/-- A call that throws keeps what depends on the tables and on a growing mapping. -/
theorem Overfull.of_throw {f : Faults} {logs : List Json} {w w' : WriterDatabase} {e : Bytes}
    (hw : Overfull w) (h : insertReport cat f logs w = .throw w' e) : Overfull w' := by
  obtain ⟨keys, hnodup, hkeys, hlt⟩ := hw
  refine ⟨keys, hnodup, fun k hk => ?_, by rw [(insertReport_throw h).1]; exact hlt⟩
  obtain ⟨id, hid⟩ := Option.isSome_iff_exists.mp (hkeys k hk)
  rw [insertReport_throw_extends h k.1 hid]
  rfl

/-- After a call that did not fail cleanly there is an entry too many. -/
theorem Synced.overfull_of_throw {f : Faults} {logs : List Json} {w w' : WriterDatabase} {e : Bytes}
    (hs : Synced cat w) (h : insertReport cat f logs w = .throw w' e)
    (hdirty : ¬ FailsCleanly cat f logs w) : Overfull w' := by
  obtain ⟨hconn, hiff⟩ := insertReport_throw_sameIds h
  obtain ⟨entries, htable, -, hnodup, hentries⟩ := hs
  have hdiff : ∃ col value, w'.colDict.get? col value ≠ w.colDict.get? col value := by
    by_contra hno
    push Not at hno
    exact hdirty (hiff.mp hno)
  obtain ⟨col, value, hne⟩ := hdiff
  have hnone : w.colDict.get? col value = none := by
    cases hv : w.colDict.get? col value with
    | none => rfl
    | some id => exact absurd ((insertReport_throw_extends h col hv).trans hv.symm) hne
  refine ⟨(col, value) :: entries.map fun e => (e.1, e.2.1),
    List.nodup_cons.mpr ⟨?_, hnodup⟩, ?_, ?_⟩
  · rintro hmem
    obtain ⟨⟨col', value', id⟩, he, heq⟩ := List.mem_map.mp hmem
    simp only [Prod.mk.injEq] at heq
    obtain ⟨rfl, rfl⟩ := heq
    rw [← hentries, hnone] at he
    cases he
  · intro k hk
    rcases List.mem_cons.mp hk with rfl | hk
    · rw [hnone] at hne
      exact Option.isSome_iff_ne_none.mpr hne
    · obtain ⟨⟨col', value', id⟩, he, rfl⟩ := List.mem_map.mp hk
      rw [insertReport_throw_extends h col' ((hentries _ _ _).mpr he)]
      rfl
  · rw [hconn, htable]
    simp

variable (cat) in
/-- If the call throws, it fails cleanly. -/
def CleanCall (w : WriterDatabase) (call : Faults × List Json) : Prop :=
  ∀ w' e, insertReport cat call.1 call.2 w = .throw w' e → FailsCleanly cat call.1 call.2 w

theorem InsertEnds.synced {w w' : WriterDatabase} {call : Faults × List Json}
    (h : InsertEnds cat w call w') (hclean : CleanCall cat w call) (hb : w.conn.begun = none)
    (hs : Synced cat w) : Synced cat w' := by
  rcases h with hret | ⟨e, hthrow⟩
  · exact hret.keeps kept_synced (fun _ h => h) (fun _ h => h) hb hs
  · obtain ⟨hconn, hsame⟩ := insertReport_throw_sameIds hthrow
    obtain ⟨entries, htable, hnul, hnodup, hentries⟩ := hs
    refine ⟨entries, by rw [hconn]; exact htable, hnul, hnodup, fun col value id => ?_⟩
    rw [hsame.mpr (hclean w' e hthrow), hentries]

theorem InsertEnds.overfull {w w' : WriterDatabase} {call : Faults × List Json}
    (h : InsertEnds cat w call w') (hb : w.conn.begun = none) (hw : Overfull w) : Overfull w' := by
  rcases h with hret | ⟨e, hthrow⟩
  · exact hret.keeps kept_overfull (fun _ h => h) (fun _ h => h) hb hw
  · exact hw.of_throw hthrow

/-- Along a run, the dictionary in memory is the committed table if and only if
every call that threw failed cleanly. -/
theorem synced_iff {w : WriterDatabase} {calls : List (Faults × List Json)}
    (h : Run (InsertEnds cat) .fresh calls w) :
    Synced cat w ↔ Run (Guarded (InsertEnds cat) (CleanCall cat)) .fresh calls w := by
  have hguarded : ∀ {calls w}, Run (Guarded (InsertEnds cat) (CleanCall cat)) .fresh calls w →
      Synced cat w ∧ w.conn.begun = none := by
    intro calls w hrun
    refine hrun.invariant (I := fun w => Synced cat w ∧ w.conn.begun = none) ?_ ⟨synced_fresh, rfl⟩
    rintro w call w' ⟨hs, hb⟩ ⟨hstep, hclean⟩
    exact ⟨hstep.synced hclean hb hs, hstep.begun hb⟩
  refine ⟨fun hs => ?_, fun hrun => (hguarded hrun).1⟩
  rcases h.guarded_or_break (CleanCall cat) with
    hrun | ⟨_, call, _, a, b, -, hrun, hstep, hdirty, hrest⟩
  · exact hrun
  · -- the first call that did not fail cleanly leaves an entry too many, for good
    exfalso
    obtain ⟨hsa, hba⟩ := hguarded hrun
    simp only [CleanCall, not_forall] at hdirty
    obtain ⟨w', e, hthrow, hdirty⟩ := hdirty
    have hb : b = w' := by
      rcases hstep with ⟨rs, hret⟩ | ⟨e', hthrow'⟩
      · rw [hthrow] at hret
        cases hret
      · rw [hthrow] at hthrow'
        exact (Outcome.throw.inj hthrow').1.symm
    subst hb
    have hover : Overfull w ∧ w.conn.begun = none := by
      refine hrest.invariant (I := fun w => Overfull w ∧ w.conn.begun = none) ?_
        ⟨hsa.overfull_of_throw hthrow hdirty, hstep.begun hba⟩
      rintro w call w' ⟨hw, hb⟩ hstep
      exact ⟨hstep.overfull hb hw, hstep.begun hb⟩
    exact hover.1.not_synced hs

/-- **A call of `Insert` that throws leaves the database as it was, and the
dictionary in memory if and only if it fails cleanly; between calls the dictionary
in memory is the committed table if and only if every call so far that threw
failed cleanly.** -/
theorem insert_all_or_nothing_iff :
    (∀ f logs w w' e, insertReport cat f logs w = .throw w' e →
      w'.conn = w.conn ∧ (SameIds w.colDict w'.colDict ↔ FailsCleanly cat f logs w)) ∧
    (∀ calls w, Run (InsertEnds cat) .fresh calls w →
      (Synced cat w ↔ Run (Guarded (InsertEnds cat) (CleanCall cat)) .fresh calls w)) :=
  ⟨fun _ _ _ _ _ h => insertReport_throw_sameIds h, fun _ _ h => synced_iff h⟩

end

/-- A `BEGIN` that fails leaves everything as it was. -/
theorem insert_all_or_nothing_locked : ∃ w e,
    insertReport levelCatalog { Faults.none with begin := some (lit "database is locked") }
        [levelLog "INFO"] .fresh = .throw w e ∧
      w.conn = WriterDatabase.fresh.conn ∧ SameIds WriterDatabase.fresh.colDict w.colDict := by
  refine ⟨_, _, rfl, ?_⟩
  obtain ⟨hconn, hsame⟩ := insert_all_or_nothing_iff.1 _ _ _ _ _ (rfl :
    insertReport levelCatalog { Faults.none with begin := some (lit "database is locked") }
      [levelLog "INFO"] .fresh = .throw _ _)
  exact ⟨hconn, hsame.mpr (.inl (.inr (.inl nofun)))⟩

/-- A `COMMIT` that fails leaves a new entry in the dictionary in memory. -/
theorem insert_keeps_entry_of_failed_commit : ¬ ∀ (cat : DatabaseCatalog) (f : Faults)
    (logs : List Json) (w w' : WriterDatabase) (e : Bytes),
      insertReport cat f logs w = .throw w' e →
        w'.conn = w.conn ∧ SameIds w.colDict w'.colDict := by
  intro h
  have hsame := (h levelCatalog { Faults.none with commit := some (lit "disk I/O error") }
    [levelLog "INFO"] .fresh _ _ rfl).2 (lit "level") (lit "INFO")
  revert hsame
  decide

end LogLite
