import LogLite.Http.Url

/-!
# Bad escapes

`url_decode` hands the two characters after a `%` to `std::stoi`, and drops an escape only
if that throws.  `std::stoi` reads a number from the start of its text: it passes over
blanks and a sign, and stops at the first character that is no digit.  So some escapes
that are no two hexadecimal digits are decoded to a byte.

## Main definitions

* `digitsByte`, `referenceDecode` — the rule: an escape is two hexadecimal digits, or it
  is dropped.
* `escapes` — the pairs of characters that `url_decode` takes for escapes, left to right.
* `isHalfNumber` — only one of the two characters is a digit, and `std::stoi` takes it.

## Main results

* `length_urlDecode` — each such escape puts in one byte more.
* `urlDecode_eq_referenceDecode_iff` — **the rule is kept exactly when no escape is half a
  number.**
-/

namespace LogLite

/-! ### The rule -/

/-- The byte of two hexadecimal digits. -/
def digitsByte (a b : UInt8) : Option UInt8 :=
  match hexValue a, hexValue b with
  | some x, some y => some (16 * x + y).toUInt8
  | _, _ => none

/-- The decoder that drops every escape but two hexadecimal digits. -/
def referenceDecode : Bytes → Bytes
  | [] => []
  | 37 :: a :: b :: s =>
    match digitsByte a b with
    | some c => c :: referenceDecode s
    | none => referenceDecode s
  | c :: s => (if c = 43 then 32 else c) :: referenceDecode s

/-- The pairs of characters after a `%`, from left to right.  A `%` in one of the last two
places has none, and a `%` inside of an escape starts no other. -/
def escapes : Bytes → List (UInt8 × UInt8)
  | [] => []
  | 37 :: a :: b :: s => (a, b) :: escapes s
  | _ :: s => escapes s

/-- One of the characters is a hexadecimal digit, the other one is none, and `std::stoi`
does not mind: it comes after the digit, or is a blank or a sign before it. -/
def isHalfNumber (e : UInt8 × UInt8) : Bool :=
  match hexValue e.1, hexValue e.2 with
  | some _, none => true
  | none, some _ => isSpace e.1 || e.1 == 43 || e.1 == 45
  | _, _ => false

/-! ### One escape -/

@[simp] theorem urlDecode_escape (a b : UInt8) (s : Bytes) :
    urlDecode (37 :: a :: b :: s) = (hexByte a b).toList ++ urlDecode s := by
  rw [urlDecode]
  cases hexByte a b <;> rfl

@[simp] theorem referenceDecode_escape (a b : UInt8) (s : Bytes) :
    referenceDecode (37 :: a :: b :: s) = (digitsByte a b).toList ++ referenceDecode s := by
  rw [referenceDecode]
  cases digitsByte a b <;> rfl

@[simp] theorem escapes_escape (a b : UInt8) (s : Bytes) :
    escapes (37 :: a :: b :: s) = (a, b) :: escapes s := rfl

/-- The code and the rule differ in the escapes that are half a number, which the rule
drops. -/
theorem hexByte_of_isHalfNumber {a b : UInt8} (h : isHalfNumber (a, b) = true) :
    digitsByte a b = none ∧ ∃ c, hexByte a b = some c := by
  unfold isHalfNumber at h
  unfold digitsByte hexByte
  cases ha : hexValue a <;> cases hb : hexValue b <;> simp [ha, hb] at h ⊢
  -- a blank or a sign before the digit
  rcases h with hblank | hminus
  · exact ⟨_, if_pos hblank⟩
  · rw [if_pos hminus]
    split <;> exact ⟨_, rfl⟩

theorem hexByte_of_not_isHalfNumber {a b : UInt8} (h : isHalfNumber (a, b) = false) :
    hexByte a b = digitsByte a b := by
  unfold isHalfNumber at h
  unfold digitsByte hexByte
  cases ha : hexValue a <;> cases hb : hexValue b <;> simp_all

/-! ### The whole string -/

/-- Each escape that is half a number puts in one byte more. -/
theorem length_urlDecode (s : Bytes) :
    (urlDecode s).length = (referenceDecode s).length + (escapes s).countP isHalfNumber := by
  induction s using escapes.induct with
  | case1 => rfl
  | case2 a b s ih =>
    rw [urlDecode_escape, referenceDecode_escape, escapes_escape, List.length_append,
      List.length_append, List.countP_cons, ih]
    cases hhalf : isHalfNumber (a, b) with
    | true =>
      obtain ⟨hdigits, c, hc⟩ := hexByte_of_isHalfNumber hhalf
      rw [hdigits, hc]
      simp
      omega
    | false =>
      rw [hexByte_of_not_isHalfNumber hhalf]
      simp
      omega
  | case3 c s hc ih =>
    rw [urlDecode, referenceDecode, escapes, List.length_cons, List.length_cons, ih]
    · omega
    all_goals exact hc

/-- Without such an escape the rule is kept. -/
theorem urlDecode_eq_referenceDecode {s : Bytes}
    (h : ∀ e ∈ escapes s, isHalfNumber e = false) : urlDecode s = referenceDecode s := by
  induction s using escapes.induct with
  | case1 => rfl
  | case2 a b s ih =>
    obtain ⟨hhalf, hs⟩ := List.forall_mem_cons.mp h
    rw [urlDecode_escape, referenceDecode_escape, hexByte_of_not_isHalfNumber hhalf, ih hs]
  | case3 c s hc ih =>
    rw [escapes] at h
    · rw [urlDecode, referenceDecode, ih h]
      all_goals exact hc
    · exact hc

/-- **The rule is kept exactly when no escape is half a number.** -/
theorem urlDecode_eq_referenceDecode_iff (s : Bytes) :
    urlDecode s = referenceDecode s ↔ ∀ e ∈ escapes s, isHalfNumber e = false := by
  refine ⟨fun heq e he => ?_, urlDecode_eq_referenceDecode⟩
  have hcount : (escapes s).countP isHalfNumber = 0 := by
    have hlength := length_urlDecode s
    rw [heq] at hlength
    omega
  rw [List.countP_eq_zero] at hcount
  exact Bool.not_eq_true _ ▸ hcount e he

/-- A digit and a letter that is none are decoded to the digit. -/
theorem urlDecode_half_number : ¬ ∀ s : Bytes, urlDecode s = referenceDecode s := by
  intro h
  exact absurd (h (lit "%4G")) (by decide)

end LogLite
