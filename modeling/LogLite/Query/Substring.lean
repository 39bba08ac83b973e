import LogLite.Query.Transparency

/-!
# The operator `~=`

The documentation calls `~=` a substring match.  On a column that is not
compressed it is `LIKE '%' || value || '%'`, in which `%` and `_` of the value are
wildcards and letters match in either case.  On a compressed column it is a
predicate over the dictionary that also accepts a stored string which occurs in
the value.

## Main definitions

* `PlainText` — a string in which `LIKE` sees only itself.
* `swapped` — a string that a `LIKE` pattern matches without being equal to it.

## Main results

* `like_plain_iff` — a plain value matches exactly the strings it occurs in.
* `like_swapped` — any other value also matches a string it does not occur in.
* `substring_filter_iff` — **when `~=` is a substring match, for either kind of
  column.**
-/

namespace LogLite

/-- An ASCII letter. -/
def isLetter (b : UInt8) : Bool := (65 ≤ b && b ≤ 90) || (97 ≤ b && b ≤ 122)

/-- A byte that is special to `LIKE`: the terminator, a wildcard, or a letter. -/
def isSpecial (b : UInt8) : Bool := b == 0 || b == 37 || b == 95 || isLetter b

/-- No byte of the string is special. -/
def PlainText (s : Bytes) : Prop := ∀ b ∈ s, isSpecial b = false

instance (s : Bytes) : Decidable (PlainText s) :=
  List.decidableBAll (fun b => isSpecial b = false) s

/-- The pattern of a filter value. -/
def likePattern (s : Bytes) : Bytes := lit "%" ++ s ++ lit "%"

/-! ### Plain values -/

theorem PlainText.notMem_zero {s : Bytes} (h : PlainText s) : 0 ∉ s := by
  intro h0
  cases h 0 h0

/-- Only the byte itself matches a byte that is not special. -/
theorem lowerByte_eq_iff {p c : UInt8} (hp : isLetter p = false) :
    lowerByte p = lowerByte c ↔ p = c := by
  have hp' := p.toNat_lt
  have hc' := c.toNat_lt
  simp only [isLetter, UInt8.le_iff_toNat_le, UInt8.reduceToNat, Bool.or_eq_false_iff,
    Bool.and_eq_false_iff, decide_eq_false_iff_not] at hp
  simp only [lowerByte, UInt8.le_iff_toNat_le, UInt8.reduceToNat, ← UInt8.toNat_inj,
    apply_ite UInt8.toNat, UInt8.toNat_add]
  split <;> split <;> omega

theorem likeMatch_percent {ps t : Bytes} :
    likeMatch (37 :: ps) t = t.tails.any (likeMatch ps) := rfl

theorem likeMatch_cons_nil {p : UInt8} {ps : Bytes} (hp : p ≠ 37) :
    likeMatch (p :: ps) [] = false := if_neg hp

theorem likeMatch_cons_cons {p c : UInt8} {ps t : Bytes} (hp : p ≠ 37) :
    likeMatch (p :: ps) (c :: t) =
      if p = 95 then !isContinuation c && likeMatch ps (afterChar c t)
      else lowerByte p == lowerByte c && likeMatch ps t := if_neg hp

theorem likeMatch_all (t : Bytes) : likeMatch [37] t = true := by
  rw [likeMatch_percent, List.any_eq_true]
  exact ⟨[], (List.mem_tails _ _).mpr (List.nil_suffix), rfl⟩

theorem likeMatch_plain {s : Bytes} (hs : PlainText s) : ∀ t : Bytes,
    likeMatch (s ++ [37]) t = true ↔ s <+: t := by
  induction s with
  | nil =>
    intro t
    rw [List.nil_append]
    simp [likeMatch_all]
  | cons p s ih =>
    intro t
    have hp := hs p List.mem_cons_self
    simp only [isSpecial, Bool.or_eq_false_iff, beq_eq_false_iff_ne] at hp
    obtain ⟨⟨⟨-, hpercent⟩, hunder⟩, hletter⟩ := hp
    rw [List.cons_append]
    cases t with
    | nil => simp [likeMatch_cons_nil hpercent]
    | cons c t =>
      rw [likeMatch_cons_cons hpercent, if_neg hunder, Bool.and_eq_true, beq_iff_eq,
        lowerByte_eq_iff hletter, ih (fun b hb => hs b (List.mem_cons_of_mem p hb)),
        List.cons_prefix_cons]

/-- **A plain value matches exactly the strings it occurs in**, as far as `LIKE`
reads them. -/
theorem like_plain_iff {s t : Bytes} (hs : PlainText s) :
    like (likePattern s) t = true ↔ s <:+: cstr t := by
  have hnul : (0 : UInt8) ∉ likePattern s := by
    unfold likePattern
    simp only [List.mem_append, not_or]
    exact ⟨⟨by decide, hs.notMem_zero⟩, by decide⟩
  unfold like
  rw [cstr_eq_self_iff.mpr hnul]
  show (cstr t).tails.any (likeMatch (s ++ [37])) = true ↔ _
  rw [List.any_eq_true, List.infix_iff_prefix_suffix]
  constructor
  · rintro ⟨u, hu, hmatch⟩
    exact ⟨u, (likeMatch_plain hs u).mp hmatch, (List.mem_tails _ _).mp hu⟩
  · rintro ⟨u, hpre, hsuff⟩
    exact ⟨u, (List.mem_tails _ _).mpr hsuff, (likeMatch_plain hs u).mpr hpre⟩

/-! ### Other values -/

/-- Another byte that the byte matches in a pattern, if it is special. -/
def swapByte (b : UInt8) : UInt8 :=
  if b == 37 || b == 95 then 120
  else if 65 ≤ b && b ≤ 90 then b + 32
  else if 97 ≤ b && b ≤ 122 then b - 32
  else b

/-- A string that matches the value as a pattern. -/
def swapped (s : Bytes) : Bytes := (cstr s).map swapByte

theorem swapByte_eq_self_iff {b : UInt8} (h0 : b ≠ 0) : swapByte b = b ↔ isSpecial b = false := by
  unfold swapByte isSpecial isLetter
  grind

theorem swapByte_ne_zero {b : UInt8} (h0 : b ≠ 0) : swapByte b ≠ 0 := by
  unfold swapByte
  grind

theorem lowerByte_swapByte {b : UInt8} (h1 : b ≠ 37) (h2 : b ≠ 95) :
    lowerByte b = lowerByte (swapByte b) := by
  unfold swapByte lowerByte
  grind

/-- A pattern followed by `q` matches the swapped string followed by what `q`
matches. -/
theorem likeMatch_swapByte {q t : Bytes} (hq : likeMatch q t = true) : ∀ p : Bytes,
    likeMatch (p ++ q) (p.map swapByte ++ t) = true := by
  intro p
  induction p with
  | nil => exact hq
  | cons b p ih =>
    rw [List.cons_append, List.map_cons, List.cons_append]
    by_cases hpercent : b = 37
    · subst hpercent
      rw [likeMatch_percent, List.any_eq_true]
      exact ⟨_, (List.mem_tails _ _).mpr (List.suffix_cons _ _), ih⟩
    · rw [likeMatch_cons_cons hpercent]
      by_cases hunder : b = 95
      · subst hunder
        exact ih
      · rw [if_neg hunder, ← lowerByte_swapByte hpercent hunder, beq_self_eq_true, ih]
        rfl

theorem zero_notMem_swapped (s : Bytes) : 0 ∉ swapped s := by
  intro h
  obtain ⟨b, hb, hswap⟩ := List.mem_map.mp h
  have hb0 : b ≠ 0 := fun h0 => zero_notMem_cstr s (h0 ▸ hb)
  exact swapByte_ne_zero hb0 hswap

/-- **A value that is not plain matches a string it does not occur in.** -/
theorem like_swapped {s : Bytes} (hs : ¬ PlainText s) :
    like (likePattern s) (swapped s) = true ∧ ¬ s <:+: swapped s := by
  constructor
  · unfold like
    rw [cstr_eq_self_iff.mpr (zero_notMem_swapped s)]
    -- the pattern ends at the first `NUL`, or with the second `%`
    obtain ⟨q, hpattern, hq⟩ : ∃ q, cstr (likePattern s) = 37 :: (cstr s ++ q) ∧
        likeMatch q [] = true := by
      have hhead : cstr (likePattern s) = 37 :: cstr (s ++ [37]) := rfl
      rw [hhead, cstr_append]
      by_cases h0 : 0 ∈ s
      · exact ⟨[], by rw [if_pos h0, List.append_nil], rfl⟩
      · refine ⟨[37], ?_, likeMatch_all []⟩
        rw [if_neg h0, cstr_eq_self_iff.mpr h0]
        rfl
    rw [hpattern, likeMatch_percent, List.any_eq_true]
    refine ⟨swapped s, (List.mem_tails _ _).mpr (List.suffix_refl _), ?_⟩
    have h := likeMatch_swapByte hq (cstr s)
    rwa [List.append_nil] at h
  · intro hin
    have h0 : 0 ∉ s := fun h => zero_notMem_swapped s (hin.subset h)
    have hlen : s.length = (swapped s).length := by
      rw [swapped, List.length_map, cstr_eq_self_iff.mpr h0]
    have heq := hin.eq_of_length hlen
    rw [swapped, cstr_eq_self_iff.mpr h0] at heq
    refine hs fun b hb => ?_
    have hb0 : b ≠ 0 := fun h => h0 (h ▸ hb)
    refine (swapByte_eq_self_iff hb0).mp ?_
    exact List.map_inj_left.mp (heq.symm.trans (List.map_id s).symm) b hb

/-! ### The filter -/

/-- `field ~= s`. -/
def substringFilter (field : ColumnName) (s : Bytes) : QueryFilter := ⟨field, lit "~=", .string s⟩

theorem substringFilter_valid {cat : DatabaseCatalog} {field : ColumnName} {ci : ColumnInfo}
    (hci : cat.column field = some ci) (s : Bytes) : (substringFilter field s).Valid cat := by
  obtain ⟨hmem, hname⟩ := column_mem hci
  refine ⟨List.any_eq_true.mpr ⟨ci, hmem, beq_iff_eq.mpr hname⟩, ?_⟩
  show allowedOps.contains (lit "~=") = true
  decide

/-- The text of a column that is not compressed. -/
theorem selects_like {cat : DatabaseCatalog} {d : LookupTable} {field : ColumnName}
    {ci : ColumnInfo} (hci : cat.column field = some ci)
    (hcomp : cat.compressedColumns.contains field = false) {r : LogRow} {s v : Bytes}
    (hv : r.value ci = .text v) :
    selects cat d [substringFilter field s] r = like (likePattern s) v := by
  have hvalid := List.forall_mem_singleton.mpr (substringFilter_valid hci s)
  rw [Bool.eq_iff_iff, selects_iff hvalid, List.forall_mem_singleton]
  have hcond : conditionOf cat d (substringFilter field s) = .like field (likePattern s) := by
    unfold conditionOf
    rw [show cat.compressedColumns.contains (substringFilter field s).field = false from hcomp]
    rfl
  rw [hcond, Condition.holds, hci]
  simp [hv, textOf]

/-- The string of a compressed column. -/
theorem selects_candidates {cat : DatabaseCatalog} {names : List ColumnName}
    {accepts : List LogRow → List (ColumnName × SqlValue) → Bool} {w : WriterDatabase}
    (hw : Sound (cat.compress names accepts) w) {r : LogRow} (hr : r ∈ w.log)
    {field : ColumnName} {ci : ColumnInfo} (hci : cat.column field = some ci)
    (hpk : ci.isPk = false) (hname : names.contains field = true) {s v : Bytes}
    (hv : r.source.find field = .string v) :
    selects (cat.compress names accepts) w.colDict [substringFilter field s] r = true ↔
      s <:+: v ∨ v <:+: s := by
  have hci' : (cat.compress names accepts).column field = some (ci.retype names) := by
    rw [column_compress, hci]
    rfl
  have hvalid := List.forall_mem_singleton.mpr (substringFilter_valid hci' s)
  have hholds := holds_compressed_iff hw hr
    (show cat.column (substringFilter field s).field = some ci from hci) hpk hname hv rfl
  rw [selects_iff hvalid, List.forall_mem_singleton, hholds]
  show (contains s v || contains v s) = true ↔ _
  rw [Bool.or_eq_true, contains_iff, contains_iff]

/-- **When `~=` is a substring match.**  On a text column that is not compressed:
for the values without special bytes and no others, as long as the stored string
has no `NUL`; and for such a value and any stored string, if the value does not
occur behind a `NUL` only.  On a compressed column: if the stored string does not
occur in the value unless it is the value.  The strings are well-formed UTF-8, as
`LIKE` takes them. -/
theorem substring_filter_iff {cat : DatabaseCatalog} {field : ColumnName} {ci : ColumnInfo}
    (hci : cat.column field = some ci) :
    (cat.compressedColumns.contains field = false → ci.affinity = .text → ∀ d s,
      ((∀ r v, r.value ci = .text v → 0 ∉ v →
        (selects cat d [substringFilter field s] r = true ↔ s <:+: v)) ↔ PlainText s) ∧
      (PlainText s → ∀ r v, r.value ci = .text v →
        ((selects cat d [substringFilter field s] r = true ↔ s <:+: v) ↔
          (s <:+: v → s <:+: cstr v)))) ∧
    (∀ names accepts w, names.contains field = true → ci.isPk = false →
      Reachable (cat.compress names accepts) w → ∀ r ∈ w.log, ∀ s v,
        r.source.find field = .string v →
          ((selects (cat.compress names accepts) w.colDict [substringFilter field s] r = true ↔
            s <:+: v) ↔ (v <:+: s → v = s))) := by
  constructor
  · intro hcomp htext d s
    have hplain : PlainText s → ∀ r v, r.value ci = .text v →
        (selects cat d [substringFilter field s] r = true ↔ s <:+: cstr v) := by
      intro hs r v hv
      rw [selects_like hci hcomp hv, like_plain_iff hs]
    refine ⟨⟨fun h => ?_, fun hs r v hv h0 => ?_⟩, fun hs r v hv => ?_⟩
    · by_contra hs
      obtain ⟨hlike, hno⟩ := like_swapped hs
      have hv : LogRow.value ⟨1, [(ci.name, .text (swapped s))], .null⟩ ci =
          .text (swapped s) := by
        rw [LogRow.value, isRowId_of_text htext]
        simp [LogRow.cell]
      refine hno ((h _ _ hv (zero_notMem_swapped s)).mp ?_)
      rw [selects_like hci hcomp hv]
      exact hlike
    · rw [hplain hs r v hv, cstr_eq_self_iff.mpr h0]
    · rw [hplain hs r v hv]
      exact ⟨fun h => h.mpr, fun h => ⟨fun hc => hc.trans (List.takeWhile_prefix _).isInfix, h⟩⟩
  · intro names accepts w hname hpk hw r hr s v hv
    rw [selects_candidates hw.sound hr hci hpk hname hv]
    constructor
    · intro h hvs
      exact hvs.eq_of_length (le_antisymm hvs.length_le (h.mp (.inr hvs)).length_le)
    · intro h
      refine ⟨?_, .inl⟩
      rintro (hsv | hvs)
      · exact hsv
      · rw [h hvs]

/-- `12` is found in `a12b`. -/
theorem substring_filter_digits :
    selects textCatalog ∅ [substringFilter (lit "level") (lit "12")]
      ⟨1, [(lit "level", .text (lit "a12b"))], .null⟩ = true := by
  have hplain : PlainText (lit "12") := by decide
  have hlevel : textCatalog.column (lit "level") = some _ := rfl
  refine ((((substring_filter_iff hlevel).1 rfl rfl ∅ (lit "12")).1.mpr hplain)
    _ (lit "a12b") rfl (by decide)).mpr ?_
  exact ⟨lit "a", lit "b", rfl⟩

/-- `5_` is not found in `50` but matches it, and `INFO` is not found the other way
round but is a candidate for `INFORMATION`. -/
theorem substring_filter_fails :
    (¬ ∀ (cat : DatabaseCatalog) (d : LookupTable) (field : ColumnName) (ci : ColumnInfo)
      (s v : Bytes) (r : LogRow), cat.column field = some ci →
        cat.compressedColumns.contains field = false → ci.affinity = .text →
          r.value ci = .text v →
            (selects cat d [substringFilter field s] r = true ↔ s <:+: v)) ∧
    (¬ ∀ (cat : DatabaseCatalog) (w : WriterDatabase) (field : ColumnName) (s v : Bytes)
      (r : LogRow), cat.compressedColumns.contains field = true → Reachable cat w → r ∈ w.log →
        r.source.find field = .string v →
          (selects cat w.colDict [substringFilter field s] r = true ↔ s <:+: v)) := by
  constructor
  · intro h
    have hno := (h textCatalog ∅ (lit "level") _ (lit "5_") (lit "50")
      ⟨1, [(lit "level", .text (lit "50"))], .null⟩ rfl rfl rfl rfl).mp (by decide)
    revert hno
    rw [← contains_iff]
    decide
  · intro h
    have hw : InsertReturns levelCatalog .fresh (.none, [levelLog "INFO"]) _ := ⟨_, rfl⟩
    have hno := (h levelCatalog _ (lit "level") (lit "INFORMATION") (lit "INFO") _ rfl
      hw.reachable List.mem_cons_self rfl).mp (by decide)
    revert hno
    rw [← contains_iff]
    decide

end LogLite
