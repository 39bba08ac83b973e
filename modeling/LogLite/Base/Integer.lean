import LogLite.Base.Decimal

/-!
# The integers of the C library

`std::stoll` reads an integer from the start of a text: it passes over blanks, takes a
sign and digits, and leaves alone what follows them.  It throws if there is no digit, or
if the number is not one of 64 bits.

## Main definitions

* `IntegerText s n` — the text is a sign or none and digits, and denotes `n`.
* `scanInteger` — what `strtoll` reads, and what it leaves.
* `stoll` — `std::stoll`; `Exception` — what it throws.

## Main results

* `scanInteger_eq_some_iff` — **a number is read exactly from a text that is blanks, an
  integer and anything that does not begin with a digit.**
* `IntegerText.scanInteger_append` — an integer is read up to its end.
-/

namespace LogLite

/-- The exceptions of the standard library and of `yaml-cpp`, with the text of `what()`. -/
inductive Exception where
  | invalidArgument (what : Bytes)
  | outOfRange (what : Bytes)
  | runtimeError (what : Bytes)
  | badConversion (what : Bytes)
  deriving DecidableEq, Repr

/-! ### Reading -/

/-- What `strtoll` reads in base ten, and what it leaves; `none` if there is no digit. -/
def scanInteger (s : Bytes) : Option (ℤ × Bytes) :=
  let (negative, t) := splitSign (s.dropWhile isSpace)
  let ds := t.takeWhile isDigit
  if ds.isEmpty then none
  else some (if negative then -(digitsValue ds : ℤ) else digitsValue ds, t.dropWhile isDigit)

/-- `std::stoll`. -/
def stoll (s : Bytes) : Except Exception ℤ :=
  match scanInteger s with
  | none => .error (.invalidArgument (lit "stoll"))
  | some (n, _) => if fitsInt64 n then .ok n else .error (.outOfRange (lit "stoll"))

/-! ### Integers as texts -/

/-- A text that is an integer: a sign or none, and digits. -/
inductive IntegerText : Bytes → ℤ → Prop where
  | digits {ds : Bytes} (hne : ds ≠ []) (hds : ds.all isDigit = true) :
      IntegerText ds (digitsValue ds)
  | plus {ds : Bytes} (hne : ds ≠ []) (hds : ds.all isDigit = true) :
      IntegerText (43 :: ds) (digitsValue ds)
  | minus {ds : Bytes} (hne : ds ≠ []) (hds : ds.all isDigit = true) :
      IntegerText (45 :: ds) (-(digitsValue ds : ℤ))

/-- The text does not begin with a digit. -/
def NoDigitFirst (s : Bytes) : Prop := ∀ b ∈ s.head?, isDigit b = false

theorem span_append {p : UInt8 → Bool} {s rest : Bytes} (hs : s.all p = true)
    (hrest : ∀ b ∈ rest.head?, p b = false) :
    (s ++ rest).takeWhile p = s ∧ (s ++ rest).dropWhile p = rest := by
  rw [List.takeWhile_append_of_pos (List.all_eq_true.mp hs),
    List.dropWhile_append_of_pos (List.all_eq_true.mp hs)]
  cases rest with
  | nil => simp
  | cons b rest => simp [hrest b rfl]

theorem noDigitFirst_dropWhile (s : Bytes) : NoDigitFirst (s.dropWhile isDigit) := by
  intro b hb
  have hfirst := List.head?_dropWhile_not isDigit s
  rw [Option.mem_def.mp hb] at hfirst
  exact hfirst

/-- The value of digits under a sign. -/
def signed (negative : Bool) (ds : Bytes) : ℤ :=
  if negative then -(digitsValue ds : ℤ) else digitsValue ds

/-- A sign and the digits after it. -/
theorem splitSign_cases (t : Bytes) {ds : Bytes} (hne : ds ≠ []) (hds : ds.all isDigit = true) :
    ∃ sign, t = sign ++ (splitSign t).2 ∧
      IntegerText (sign ++ ds) (signed (splitSign t).1 ds) := by
  unfold splitSign
  split
  · exact ⟨[45], rfl, .minus hne hds⟩
  · exact ⟨[43], rfl, .plus hne hds⟩
  · exact ⟨[], rfl, .digits hne hds⟩

theorem IntegerText.splitSign_append {text : Bytes} {n : ℤ} (h : IntegerText text n)
    (rest : Bytes) : ∃ negative ds, splitSign (text ++ rest) = (negative, ds ++ rest) ∧
      ds ≠ [] ∧ ds.all isDigit = true ∧ n = signed negative ds := by
  cases h with
  | @digits ds hne hds =>
    refine ⟨false, text, ?_, hne, hds, rfl⟩
    obtain ⟨b, ds', rfl⟩ := List.exists_cons_of_ne_nil hne
    have hb : isDigit b = true := List.all_eq_true.mp hds b List.mem_cons_self
    rw [List.cons_append]
    unfold splitSign
    split
    · next heq => exact absurd ((List.cons.inj heq).1 ▸ hb) (by decide)
    · next heq => exact absurd ((List.cons.inj heq).1 ▸ hb) (by decide)
    · rfl
  | plus hne hds => exact ⟨false, _, rfl, hne, hds, rfl⟩
  | minus hne hds => exact ⟨true, _, rfl, hne, hds, rfl⟩

/-- An integer does not begin with a blank. -/
theorem IntegerText.not_isSpace {text : Bytes} {n : ℤ} (h : IntegerText text n) (rest : Bytes) :
    ∀ b ∈ (text ++ rest).head?, isSpace b = false := by
  cases h with
  | digits hne hds =>
    obtain ⟨b, ds', rfl⟩ := List.exists_cons_of_ne_nil hne
    have hb : isSpace b = false :=
      isSqlSpace_of_isDigit (List.all_eq_true.mp hds b List.mem_cons_self)
    simpa using hb
  | plus | minus => simp [isSpace]

/-- **A number is read exactly where blanks, an integer and no further digit stand.** -/
theorem scanInteger_eq_some_iff {s rest : Bytes} {n : ℤ} :
    scanInteger s = some (n, rest) ↔ ∃ blanks text, s = blanks ++ (text ++ rest) ∧
      blanks.all isSpace = true ∧ IntegerText text n ∧ NoDigitFirst rest := by
  constructor
  · intro h
    unfold scanInteger at h
    dsimp only at h
    split at h
    · cases h
    · next hds =>
      rw [List.isEmpty_iff] at hds
      rw [Option.some.injEq, Prod.mk.injEq] at h
      obtain ⟨rfl, rfl⟩ := h
      obtain ⟨sign, ht, htext⟩ :=
        splitSign_cases (s.dropWhile isSpace) hds List.all_takeWhile
      refine ⟨s.takeWhile isSpace, _, ?_, List.all_takeWhile, htext, noDigitFirst_dropWhile _⟩
      rw [List.append_assoc, List.takeWhile_append_dropWhile, ← ht, List.takeWhile_append_dropWhile]
  · rintro ⟨blanks, text, rfl, hblanks, htext, hrest⟩
    obtain ⟨negative, ds, hsplit, hne, hds, rfl⟩ := htext.splitSign_append rest
    obtain ⟨htake, hdrop⟩ := span_append hds hrest
    unfold scanInteger
    rw [(span_append hblanks (htext.not_isSpace rest)).2, hsplit]
    dsimp only
    rw [htake, hdrop, if_neg (by rwa [List.isEmpty_iff])]
    rfl

/-- An integer is read up to its end. -/
theorem IntegerText.scanInteger_append {text rest : Bytes} {n : ℤ} (h : IntegerText text n)
    (hrest : NoDigitFirst rest) : scanInteger (text ++ rest) = some (n, rest) :=
  scanInteger_eq_some_iff.mpr ⟨[], text, rfl, rfl, h, hrest⟩

/-- All of an integer is read. -/
theorem IntegerText.scanInteger_eq {text : Bytes} {n : ℤ} (h : IntegerText text n) :
    scanInteger text = some (n, []) := by
  have hscan : scanInteger (text ++ []) = some (n, []) :=
    h.scanInteger_append (by simp [NoDigitFirst])
  rwa [List.append_nil] at hscan

/-- A text denotes one integer. -/
theorem IntegerText.unique {text : Bytes} {m n : ℤ} (hm : IntegerText text m)
    (hn : IntegerText text n) : m = n := by
  have hscan := hm.scanInteger_eq
  rw [hn.scanInteger_eq, Option.some.injEq, Prod.mk.injEq] at hscan
  exact hscan.1.symm

/-- What is read of a whole integer is the integer: no blanks before it, nothing after it. -/
theorem IntegerText.eq_of_append {blanks text rest : Bytes} {m n : ℤ}
    (hm : IntegerText (blanks ++ (text ++ rest)) m) (hblanks : blanks.all isSpace = true)
    (hn : IntegerText text n) (hrest : NoDigitFirst rest) : blanks = [] ∧ rest = [] ∧ m = n := by
  have hscan : scanInteger (blanks ++ (text ++ rest)) = some (n, rest) :=
    scanInteger_eq_some_iff.mpr ⟨blanks, text, rfl, hblanks, hn, hrest⟩
  rw [hm.scanInteger_eq, Option.some.injEq, Prod.mk.injEq] at hscan
  refine ⟨?_, hscan.2.symm, hscan.1⟩
  cases blanks with
  | nil => rfl
  | cons b blanks =>
    have hb := hm.not_isSpace [] b (by simp)
    simp [hb] at hblanks

/-- An integer ends with a digit. -/
theorem IntegerText.eq_append_digit {text : Bytes} {n : ℤ} (h : IntegerText text n) :
    ∃ init d, text = init ++ [d] ∧ isDigit d = true := by
  have hlast : ∀ ds : Bytes, ds ≠ [] → ds.all isDigit = true →
      ∃ init d, ds = init ++ [d] ∧ isDigit d = true := by
    intro ds hne hds
    refine ⟨ds.dropLast, ds.getLast hne, (List.dropLast_append_getLast hne).symm, ?_⟩
    exact List.all_eq_true.mp hds _ (List.getLast_mem hne)
  cases h with
  | digits hne hds => exact hlast _ hne hds
  | plus hne hds | minus hne hds =>
    obtain ⟨init, d, hds, hd⟩ := hlast _ hne hds
    exact ⟨_ :: init, d, congrArg (_ :: ·) hds, hd⟩

theorem IntegerText.ne_nil {text : Bytes} {n : ℤ} (h : IntegerText text n) : text ≠ [] := by
  obtain ⟨init, d, rfl, -⟩ := h.eq_append_digit
  simp

theorem IntegerText.stoll_eq {text : Bytes} {n : ℤ} (h : IntegerText text n) :
    stoll text = if fitsInt64 n then .ok n else .error (.outOfRange (lit "stoll")) := by
  rw [stoll, h.scanInteger_eq]

end LogLite
