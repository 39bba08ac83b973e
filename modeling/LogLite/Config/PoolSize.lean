import LogLite.Base.Integer
import LogLite.Store.ReaderPool
import LogLite.Time.Iso
import Mathlib.Data.List.DropRight

/-!
# The size of the pool of readers

`db_pool_size` is `auto` or a number.  `Config::resolve_pool_size` leaves the number to
`std::strtoul`, which takes a sign, negates under a minus modulo `2 ^ 64`, stops at a `NUL`
and answers a number that is too large with the largest one.  The result becomes an
`unsigned`, which keeps the last 32 bits of it.

## Main definitions

* `strtoul`, `resolvePoolSize` — the code.
* `PoolSizeText t n` — the text is digits, and denotes a positive number of 32 bits.
* `PoolSizeExact` — what is expected of `resolve_pool_size`.
* `TakenAs t text after n` — the text passes for the integer `n`.
* `TakenPlainly` — what passes for a number is one that was written.

## Main results

* `resolvePoolSize_of_taken`, `resolvePoolSize_throws` — what the code makes of a text.
* `pool_size_exact_iff` — **a size is read exactly as long as what passes for a number is
  one that was written.**
* `PoolSizeExact.lends`, `waits_of_taken` — what becomes of the pool of readers.
-/

namespace LogLite

/-! ### The code -/

/-- An integer as `strtoul` returns it: `ULONG_MAX` if there are too many digits, and
negated as an `unsigned long` under a minus. -/
def unsignedLong (n : ℤ) : ℕ := if n.natAbs < 2 ^ 64 then (n % 2 ^ 64).toNat else 2 ^ 64 - 1

/-- `std::strtoul` in base ten, with what it leaves before the `NUL`; `none` if it does not
move `end`. -/
def strtoul (s : Bytes) : Option (ℕ × Bytes) :=
  (scanInteger (cstr s)).map fun p => (unsignedLong p.1, p.2)

/-- The message for a size that is none. -/
def invalidPoolSize (raw : Bytes) : Bytes :=
  lit "db_pool_size must be 'auto' or a positive integer, got '" ++ raw ++ lit "'"

/-- `Config::resolve_pool_size`, on a machine with `hardwareConcurrency` threads. -/
def resolvePoolSize (hardwareConcurrency : ℕ) (raw : Bytes) : Except Exception ℕ :=
  let t := stripSpaces raw
  if t.isEmpty then
    .error (.runtimeError (lit "db_pool_size must be 'auto' or a positive integer"))
  else
    let lc := t.map lowerByte
    if lc = lit "auto" then .ok (max 1 hardwareConcurrency)
    else
      match strtoul lc with
      | none => .error (.runtimeError (invalidPoolSize raw))
      | some (n, rest) =>
        if rest ≠ [] ∨ n = 0 then .error (.runtimeError (invalidPoolSize raw))
        else .ok (n % 2 ^ 32)

/-! ### What a size is -/

/-- The text is digits, and denotes a positive number of 32 bits. -/
def PoolSizeText (t : Bytes) (n : ℕ) : Prop :=
  t ≠ [] ∧ t.all isDigit = true ∧ digitsValue t = n ∧ 1 ≤ n ∧ n ≤ 2 ^ 32 - 1

/-- The text is `auto`, in upper or lower case. -/
def IsAuto (t : Bytes) : Prop := t.map lowerByte = lit "auto"

/-- `auto` and the sizes are read as what they are, and every other text is refused.  The
result is not 0, and it is the number that is written, if one is. -/
structure PoolSizeExact (hardwareConcurrency : ℕ) (raw : Bytes) : Prop where
  auto : IsAuto (stripSpaces raw) →
    resolvePoolSize hardwareConcurrency raw = .ok (max 1 hardwareConcurrency)
  number : ∀ n, PoolSizeText (stripSpaces raw) n → resolvePoolSize hardwareConcurrency raw = .ok n
  throws : ¬IsAuto (stripSpaces raw) → (¬∃ n, PoolSizeText (stripSpaces raw) n) →
    ∃ e, resolvePoolSize hardwareConcurrency raw = .error e
  never_zero : ∀ n, resolvePoolSize hardwareConcurrency raw = .ok n → n ≠ 0
  as_written : ∀ n m, resolvePoolSize hardwareConcurrency raw = .ok n →
    IntegerText (stripSpaces raw) m → (n : ℤ) = m

/-- The text passes for the integer: it begins with it, the text or a `NUL` ends it, and it
is not zero. -/
structure TakenAs (t text after : Bytes) (n : ℤ) : Prop where
  split : t = text ++ after
  integer : IntegerText text n
  ends : cstr after = []
  ne_zero : n ≠ 0

/-- An integer that the text passes for is all of the text, and has no sign and 32 bits. -/
def TakenPlainly (t : Bytes) : Prop :=
  ∀ text after n, TakenAs t text after n →
    text.all isDigit = true ∧ after = [] ∧ n < 2 ^ 32

/-! ### Letters -/

/-- What has no letters after the letters are lowered had none before. -/
theorem map_lowerByte_eq_iff {u v : Bytes} (hv : ∀ b ∈ v, b ≤ 57) :
    u.map lowerByte = v ↔ u = v := by
  have hself : ∀ b : UInt8, lowerByte b ≤ 57 ∨ b ≤ 57 → lowerByte b = b := by
    intro b hb
    unfold lowerByte at hb ⊢
    grind
  constructor
  · intro h
    rw [← h]
    refine (List.map_id u).symm.trans (List.map_congr_left fun b hb => ?_)
    exact (hself b (.inl (hv _ (h ▸ List.mem_map_of_mem hb)))).symm
  · rintro rfl
    refine (List.map_congr_left fun b hb => ?_).trans (List.map_id u)
    exact hself b (.inr (hv b hb))

/-- The bytes of an integer lie between the plus and the nine. -/
theorem IntegerText.byte_range {text : Bytes} {n : ℤ} (h : IntegerText text n) :
    ∀ b ∈ text, 43 ≤ b ∧ b ≤ 57 := by
  have hall : ∀ ds : Bytes, ds.all isDigit = true → ∀ b ∈ ds, 43 ≤ b ∧ b ≤ 57 := by
    intro ds hds b hb
    have hdigit := List.all_eq_true.mp hds b hb
    rw [isDigit, Bool.and_eq_true, decide_eq_true_eq, decide_eq_true_eq] at hdigit
    have hplus : (43 : UInt8) ≤ 48 := by decide
    exact ⟨UInt8.le_trans hplus hdigit.1, hdigit.2⟩
  cases h with
  | digits _ hds => exact hall text hds
  | plus _ hds | minus _ hds => exact List.forall_mem_cons.mpr ⟨by decide, hall _ hds⟩

theorem cstr_map_lowerByte (t : Bytes) : cstr (t.map lowerByte) = (cstr t).map lowerByte := by
  have hzero : ((· != 0) ∘ lowerByte) = (· != (0 : UInt8)) := by
    funext b
    unfold lowerByte
    grind
  rw [cstr, List.takeWhile_map, hzero]
  rfl

/-! ### What the code makes of a text -/

section
variable {hardwareConcurrency : ℕ} {raw text after : Bytes} {n : ℤ}

/-- A text without surrounding blanks does not begin with one. -/
theorem not_isSpace_stripSpaces (raw : Bytes) :
    ∀ b ∈ (stripSpaces raw).head?, isSpace b = false := by
  intro b hb
  obtain ⟨blanks, hblanks⟩ : stripSpaces raw <+: raw.dropWhile isSpace :=
    List.rdropWhile_prefix isSpace _
  obtain ⟨t, ht⟩ := List.head?_eq_some_iff.mp (Option.mem_def.mp hb)
  have hfirst := List.head?_dropWhile_not isSpace raw
  rw [← hblanks, ht] at hfirst
  exact hfirst

/-- Nothing is seen of what stands behind the first `NUL`. -/
theorem cstr_dropWhile (t : Bytes) : cstr (t.dropWhile (· != 0)) = [] := by
  have hfirst := List.head?_dropWhile_not (· != 0) t
  rw [cstr]
  cases hdrop : t.dropWhile (· != 0) with
  | nil => rfl
  | cons b rest =>
    rw [hdrop] at hfirst
    exact List.takeWhile_cons_of_neg (by simpa using hfirst)

/-- `strtoul` comes to the end of the text in lower case if an integer ends there or before a
`NUL`. -/
theorem scanInteger_lowered_iff {t : Bytes} (ht : ∀ b ∈ t.head?, isSpace b = false) :
    scanInteger (cstr (t.map lowerByte)) = some (n, []) ↔
      ∃ text after, t = text ++ after ∧ IntegerText text n ∧ cstr after = [] := by
  rw [cstr_map_lowerByte]
  constructor
  · intro h
    obtain ⟨blanks, text, heq, hblanks, htext, -⟩ := scanInteger_eq_some_iff.mp h
    have hspace : ∀ b : UInt8, isSpace b = true → b ≤ 57 := by
      intro b hb
      unfold isSpace at hb
      grind
    rw [List.append_nil, map_lowerByte_eq_iff] at heq
    · have hsplit : t = blanks ++ text ++ t.dropWhile (· != 0) := by
        rw [← heq, cstr, List.takeWhile_append_dropWhile]
      cases blanks with
      | cons b blanks =>
        rw [List.all_cons, ht b (by rw [hsplit]; rfl)] at hblanks
        cases hblanks
      | nil =>
        exact ⟨text, _, hsplit, htext, cstr_dropWhile t⟩
    · intro b hb
      rcases List.mem_append.mp hb with hb | hb
      · exact hspace b (List.all_eq_true.mp hblanks b hb)
      · exact (htext.byte_range b hb).2
  · rintro ⟨text, after, rfl, htext, hafter⟩
    have h0 : 0 ∉ text := fun h0 => absurd (htext.byte_range 0 h0).1 (by decide)
    rw [cstr_append, if_neg h0, hafter, List.append_nil,
      (map_lowerByte_eq_iff fun b hb => (htext.byte_range b hb).2).mpr rfl]
    exact htext.scanInteger_eq

/-- `strtoul` returns 0 for zero only. -/
theorem unsignedLong_eq_zero_iff : unsignedLong n = 0 ↔ n = 0 := by
  unfold unsignedLong
  split <;> omega

/-- A positive number of 32 bits comes back as it is. -/
theorem unsignedLong_natCast {m : ℕ} (h : m ≤ 2 ^ 32 - 1) : unsignedLong m % 2 ^ 32 = m := by
  unfold unsignedLong
  split <;> omega

/-- `auto` does not begin with an integer. -/
theorem IsAuto.not_integerText (h : IsAuto (text ++ after)) : ¬IntegerText text n := by
  intro htext
  obtain ⟨init, d, hd, -⟩ := htext.eq_append_digit
  have hmem : d ∈ text := hd ▸ List.mem_append_right init List.mem_cons_self
  -- a digit of the integer is a letter of the word
  have hself : text.map lowerByte = text :=
    (map_lowerByte_eq_iff fun b hb => (htext.byte_range b hb).2).mpr rfl
  rw [IsAuto, List.map_append, hself] at h
  have hletters : ((lit "auto").all fun b => 57 < b) = true := by decide
  have hletter := List.all_eq_true.mp hletters d (h ▸ List.mem_append_left _ hmem)
  rw [decide_eq_true_eq] at hletter
  exact absurd (htext.byte_range d hmem).2 (UInt8.not_le.mpr hletter)

/-- **What passes for a number is returned as an `unsigned`.** -/
theorem resolvePoolSize_of_taken (h : TakenAs (stripSpaces raw) text after n) :
    resolvePoolSize hardwareConcurrency raw = .ok (unsignedLong n % 2 ^ 32) := by
  have hauto : ¬(stripSpaces raw).map lowerByte = lit "auto" := by
    rw [h.split]
    exact fun hauto => IsAuto.not_integerText hauto h.integer
  have hne : stripSpaces raw ≠ [] := by
    rw [h.split]
    exact List.append_ne_nil_of_left_ne_nil h.integer.ne_nil after
  have hscan := (scanInteger_lowered_iff (not_isSpace_stripSpaces raw)).mpr
    ⟨text, after, h.split, h.integer, h.ends⟩
  unfold resolvePoolSize
  dsimp only
  rw [if_neg (by rwa [List.isEmpty_iff]), if_neg hauto, strtoul, hscan, Option.map_some]
  dsimp only
  rw [if_neg]
  rintro (hrest | hzero)
  · exact hrest rfl
  · exact h.ne_zero (unsignedLong_eq_zero_iff.mp hzero)

/-- What neither is `auto` nor passes for a number is refused. -/
theorem resolvePoolSize_throws (hauto : ¬IsAuto (stripSpaces raw))
    (h : ¬∃ text after n, TakenAs (stripSpaces raw) text after n) :
    ∃ e, resolvePoolSize hardwareConcurrency raw = .error e := by
  unfold IsAuto at hauto
  unfold resolvePoolSize
  dsimp only
  by_cases hempty : (stripSpaces raw).isEmpty = true
  · exact ⟨_, if_pos hempty⟩
  · rw [if_neg hempty, if_neg hauto]
    split
    · exact ⟨_, rfl⟩
    · next m rest hstrtoul =>
      refine ⟨_, if_pos ?_⟩
      rw [or_iff_not_imp_left, not_ne_iff]
      rintro rfl
      rw [strtoul, Option.map_eq_some_iff] at hstrtoul
      obtain ⟨⟨n, rest⟩, hscan, heq⟩ := hstrtoul
      cases heq
      obtain ⟨text, after, hsplit, htext, hafter⟩ :=
        (scanInteger_lowered_iff (not_isSpace_stripSpaces raw)).mp hscan
      rw [unsignedLong_eq_zero_iff]
      by_contra hzero
      exact h ⟨text, after, n, hsplit, htext, hafter, hzero⟩

/-- `auto` is as many as the threads of the machine, and one at least. -/
theorem resolvePoolSize_of_isAuto (h : IsAuto (stripSpaces raw)) :
    resolvePoolSize hardwareConcurrency raw = .ok (max 1 hardwareConcurrency) := by
  have hne : stripSpaces raw ≠ [] := by
    rintro hnil
    rw [IsAuto, hnil] at h
    cases h
  unfold resolvePoolSize
  dsimp only
  rw [if_neg (by rwa [List.isEmpty_iff])]
  exact if_pos h

/-! ### Sizes -/

/-- A size passes for the number it denotes. -/
theorem PoolSizeText.taken {t : Bytes} {m : ℕ} (h : PoolSizeText t m) : TakenAs t t [] m := by
  obtain ⟨hne, hdigits, rfl, hpos, -⟩ := h
  exact ⟨(List.append_nil t).symm, .digits hne hdigits, rfl, by omega⟩

/-- What passes plainly for a number is a size. -/
theorem TakenPlainly.poolSizeText {t : Bytes} (h : TakenPlainly t)
    (htaken : TakenAs t text after n) : ∃ m, PoolSizeText t m := by
  obtain ⟨hdigits, rfl, hn⟩ := h text after n htaken
  obtain ⟨hsplit, htext, -, hzero⟩ := htaken
  rw [List.append_nil] at hsplit
  subst hsplit
  have hvalue : n = digitsValue t := htext.unique (.digits htext.ne_nil hdigits)
  exact ⟨digitsValue t, htext.ne_nil, hdigits, rfl, by omega, by omega⟩

/-- A size passes for no other number. -/
theorem PoolSizeText.of_taken {t : Bytes} {m : ℕ} (h : PoolSizeText t m)
    (htaken : TakenAs t text after n) : text.all isDigit = true ∧ after = [] ∧ n = m := by
  have hinteger := h.taken.integer
  obtain ⟨-, hdigits, -⟩ := h
  obtain ⟨rfl, htext, hends, -⟩ := htaken
  rw [List.all_append, Bool.and_eq_true] at hdigits
  have hafter : after = [] := by
    cases after with
    | nil => rfl
    | cons b rest =>
      -- the byte that ends the text is no digit
      have hb : b = 0 := by
        by_contra hb
        rw [cstr, List.takeWhile_cons_of_pos (by simpa using hb)] at hends
        cases hends
      rw [hb] at hdigits
      exact absurd hdigits.2 (by simp [isDigit])
  subst hafter
  rw [List.append_nil] at hinteger
  exact ⟨hdigits.1, rfl, htext.unique hinteger⟩

theorem resolvePoolSize_of_poolSizeText {m : ℕ} (h : PoolSizeText (stripSpaces raw) m) :
    resolvePoolSize hardwareConcurrency raw = .ok m := by
  rw [resolvePoolSize_of_taken h.taken, unsignedLong_natCast h.2.2.2.2]

/-- A text that is read exactly is `auto` or a size. -/
theorem cases_of_throws
    (hthrows : ¬IsAuto (stripSpaces raw) → (¬∃ m, PoolSizeText (stripSpaces raw) m) →
      ∃ e, resolvePoolSize hardwareConcurrency raw = .error e)
    {m : ℕ} (h : resolvePoolSize hardwareConcurrency raw = .ok m) :
    IsAuto (stripSpaces raw) ∧ m = max 1 hardwareConcurrency ∨
      PoolSizeText (stripSpaces raw) m := by
  by_cases hauto : IsAuto (stripSpaces raw)
  · rw [resolvePoolSize_of_isAuto hauto, Except.ok.injEq] at h
    exact .inl ⟨hauto, h.symm⟩
  · by_cases hsize : ∃ m, PoolSizeText (stripSpaces raw) m
    · obtain ⟨m', hm'⟩ := hsize
      rw [resolvePoolSize_of_poolSizeText hm', Except.ok.injEq] at h
      exact .inr (h ▸ hm')
    · obtain ⟨e, he⟩ := hthrows hauto hsize
      rw [he] at h
      cases h

/-- **When a size is read exactly**: as long as what passes for a number is one that was
written. -/
theorem pool_size_exact_iff (hardwareConcurrency : ℕ) (raw : Bytes) :
    PoolSizeExact hardwareConcurrency raw ↔ TakenPlainly (stripSpaces raw) := by
  constructor
  · intro h text after n htaken
    -- it is returned, so it is a size
    obtain ⟨hauto, -⟩ | hsize := cases_of_throws h.throws (resolvePoolSize_of_taken htaken)
    · rw [htaken.split] at hauto
      exact absurd htaken.integer hauto.not_integerText
    · obtain ⟨hdigits, hafter, hn⟩ := hsize.of_taken htaken
      obtain ⟨-, -, -, -, hfits⟩ := hsize
      exact ⟨hdigits, hafter, by omega⟩
  · intro h
    have hthrows : ¬IsAuto (stripSpaces raw) → (¬∃ m, PoolSizeText (stripSpaces raw) m) →
        ∃ e, resolvePoolSize hardwareConcurrency raw = .error e := by
      intro hauto hsize
      refine resolvePoolSize_throws hauto ?_
      rintro ⟨text, after, n, htaken⟩
      exact hsize (h.poolSizeText htaken)
    refine ⟨resolvePoolSize_of_isAuto, fun m => resolvePoolSize_of_poolSizeText, hthrows, ?_, ?_⟩
    · intro m hm
      obtain ⟨-, rfl⟩ | hsize := cases_of_throws hthrows hm
      · omega
      · exact Nat.one_le_iff_ne_zero.mp hsize.2.2.2.1
    · intro m n hm hn
      obtain ⟨hauto, -⟩ | hsize := cases_of_throws hthrows hm
      · rw [← List.append_nil (stripSpaces raw)] at hauto
        exact absurd hn hauto.not_integerText
      · exact hsize.taken.integer.unique hn

/-- `2 ^ 32` is read as 0. -/
theorem pool_size_zero : ¬ ∀ hardwareConcurrency raw, PoolSizeExact hardwareConcurrency raw := by
  intro h
  exact (h 1 (lit "4294967296")).never_zero 0 (by decide) rfl

/-- A pool of a size that is read exactly lends a reader. -/
theorem PoolSizeExact.lends (h : PoolSizeExact hardwareConcurrency raw) {size : ℕ}
    (hsize : resolvePoolSize hardwareConcurrency raw = .ok size) :
    ∃ reader pool, (ReadDatabasePool.create size).acquire = .leases reader pool :=
  ReadDatabasePool.acquire_create (h.never_zero size hsize)

/-- Under a number whose last 32 bits are zero, every query waits as long as the pool is
open. -/
theorem waits_of_taken (htaken : TakenAs (stripSpaces raw) text after n)
    (hbits : unsignedLong n % 2 ^ 32 = 0) {User : Type} {size : ℕ}
    (hsize : resolvePoolSize hardwareConcurrency raw = .ok size) {s : PoolSystem User}
    {as : List (PoolAction User)} (hrun : Transition.Run PoolStep (.start User size) as s)
    (hopen : s.pool.closed = false) : s.leases = [] ∧ s.pool.acquire = .waits := by
  rw [resolvePoolSize_of_taken htaken, hbits, Except.ok.injEq] at hsize
  subst hsize
  exact waits_of_no_readers hrun hopen

end

end LogLite
