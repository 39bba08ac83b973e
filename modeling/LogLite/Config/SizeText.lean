import LogLite.Base.Integer
import LogLite.Lib.Outcome
import Mathlib.Tactic.Linarith

/-!
# Sizes as texts

`vacuum_max_size` and `vacuum_target_size` are texts such as `800GB`.
`parse_size_to_bytes` looks for a unit at the end and hands what stands before it to
`std::stoll`, which reads an integer from the start of it and does not say how far it came.
The product with the unit is not checked; where it overflows, the language does not define
what happens.

## Main definitions

* `sizeUnits`, `parseSizeToBytes` — the code.
* `SizeText s v` — the text is an integer and a unit, and denotes `v` bytes.
* `SizeParsedExactly` — the size comes back if there is one, and an exception if there is none.
* `ReadWhole` — an integer that is read before the unit is all there is before the unit,
  and its product fits.

## Main results

* `size_parsed_exactly_iff` — **a size is parsed exactly as long as what is read is read whole.**
-/

namespace LogLite

/-! ### The code -/

/-- The units and their multipliers. -/
def sizeUnits : List (Bytes × ℤ) :=
  [(lit "B", 1), (lit "KB", 1024), (lit "MB", 1024 * 1024), (lit "GB", 1024 * 1024 * 1024),
    (lit "TB", 1024 * 1024 * 1024 * 1024)]

/-- A product of two 64-bit integers; where it overflows, the behaviour is undefined. -/
def int64Mul (m n : ℤ) : Outcome Unit Exception ℤ :=
  if fitsInt64 (m * n) then .ret () (m * n) else .undefined

/-- The unit a text ends with, from the last of the table to its first, and what stands
before it. -/
def splitUnit (s : Bytes) : Option (Bytes × ℤ) :=
  (sizeUnits.reverse.find? fun u => u.1.isSuffixOf s).map fun u =>
    (s.take (s.length - u.1.length), u.2)

/-- `parse_size_to_bytes`. -/
def parseSizeToBytes (s : Bytes) : Outcome Unit Exception ℤ :=
  match splitUnit s with
  | none => .throw () (.invalidArgument (lit "Invalid size string: '" ++ s ++ lit "'"))
  | some (numPart, mult) =>
    match stoll numPart with
    | .error e => .throw () e
    | .ok n => int64Mul n mult

/-! ### What a size is -/

/-- The text is an integer and a unit, and denotes `v` bytes, a 64-bit number. -/
def SizeText (s : Bytes) (v : ℤ) : Prop :=
  ∃ u ∈ sizeUnits, ∃ p n, s = p ++ u.1 ∧ IntegerText p n ∧ v = n * u.2 ∧ fitsInt64 v = true

/-- A size is returned, and every other text is refused. -/
def SizeParsedExactly (s : Bytes) : Prop :=
  (∀ v, SizeText s v → parseSizeToBytes s = .ret () v) ∧
    ((¬∃ v, SizeText s v) → ∃ e, parseSizeToBytes s = .throw () e)

/-- If what stands before the unit begins with blanks and a 64-bit integer, there are no
blanks, nothing follows the integer, and its product fits. -/
def ReadWhole (s : Bytes) : Prop :=
  ∀ p mult, splitUnit s = some (p, mult) →
    ∀ blanks text rest n, p = blanks ++ (text ++ rest) → blanks.all isSpace = true →
      IntegerText text n → NoDigitFirst rest → fitsInt64 n = true →
        blanks = [] ∧ rest = [] ∧ fitsInt64 (n * mult) = true

/-! ### The unit of a size -/

/-- After a digit no unit is taken for another one. -/
theorem find?_sizeUnits {u : Bytes × ℤ} (hu : u ∈ sizeUnits) (init : Bytes) {d : UInt8}
    (hd : isDigit d = true) :
    (sizeUnits.reverse.find? fun v => v.1.isSuffixOf (init ++ [d] ++ u.1)) = some u := by
  have hletter : ((lit "KMGT").all fun c => !isDigit c) = true := by decide
  have hne : ∀ c ∈ lit "KMGT", (c == d) = false := by
    intro c hc
    rw [beq_eq_false_iff_ne]
    rintro rfl
    have hc := List.all_eq_true.mp hletter c hc
    simp [hd] at hc
  have hK := hne 75 (by decide)
  have hM := hne 77 (by decide)
  have hG := hne 71 (by decide)
  have hT := hne 84 (by decide)
  simp only [sizeUnits, List.mem_cons, List.not_mem_nil, or_false] at hu
  rcases hu with rfl | rfl | rfl | rfl | rfl <;>
    simp [sizeUnits, List.isSuffixOf, List.isPrefixOf, lit, hK, hM, hG, hT]

/-- No other unit ends a text that is a number and a unit. -/
theorem IntegerText.splitUnit_append {p : Bytes} {n : ℤ} (h : IntegerText p n) {u : Bytes × ℤ}
    (hu : u ∈ sizeUnits) : splitUnit (p ++ u.1) = some (p, u.2) := by
  obtain ⟨init, d, rfl, hd⟩ := h.eq_append_digit
  have htake : ∀ p : Bytes, (p ++ u.1).take ((p ++ u.1).length - u.1.length) = p := by
    intro p
    rw [List.length_append, Nat.add_sub_cancel, List.take_left]
  rw [splitUnit, find?_sizeUnits hu init hd, Option.map_some, htake]

theorem sizeUnits_pos : ∀ u ∈ sizeUnits, 1 ≤ u.2 := by decide

/-- What stands before the unit, and the unit. -/
theorem splitUnit_eq_some {s p : Bytes} {mult : ℤ} (h : splitUnit s = some (p, mult)) :
    ∃ u ∈ sizeUnits, s = p ++ u.1 ∧ u.2 = mult := by
  unfold splitUnit at h
  rw [Option.map_eq_some_iff] at h
  obtain ⟨u, hfind, hu⟩ := h
  rw [Prod.mk.injEq] at hu
  obtain ⟨rfl, rfl⟩ := hu
  refine ⟨u, List.mem_reverse.mp (List.mem_of_find?_eq_some hfind), ?_, rfl⟩
  have hends : u.1.isSuffixOf s = true := by simpa using List.find?_some hfind
  obtain ⟨p, rfl⟩ := List.isSuffixOf_iff_suffix.mp hends
  rw [List.length_append, Nat.add_sub_cancel, List.take_left]

/-- A number that does not fit is no factor of one that does. -/
theorem fitsInt64_of_mul {n mult : ℤ} (hmult : 1 ≤ mult) (h : fitsInt64 (n * mult) = true) :
    fitsInt64 n = true := by
  rw [fitsInt64_iff] at h ⊢
  constructor <;> nlinarith

/-! ### Sizes -/

section
variable {s p : Bytes} {n mult : ℤ}

/-- A text with a unit is a size if the whole of what stands before the unit is an integer
whose product fits. -/
theorem sizeText_iff (hsplit : splitUnit s = some (p, mult)) {v : ℤ} :
    SizeText s v ↔ ∃ n, IntegerText p n ∧ v = n * mult ∧ fitsInt64 v = true := by
  constructor
  · rintro ⟨u, hu, p', n, rfl, hp, rfl, hfits⟩
    rw [hp.splitUnit_append hu, Option.some.injEq, Prod.mk.injEq] at hsplit
    obtain ⟨rfl, rfl⟩ := hsplit
    exact ⟨n, hp, rfl, hfits⟩
  · rintro ⟨n, hp, rfl, hfits⟩
    obtain ⟨u, hu, rfl, rfl⟩ := splitUnit_eq_some hsplit
    exact ⟨u, hu, p, n, rfl, hp, rfl, hfits⟩

/-- A size is returned. -/
theorem parseSizeToBytes_of_sizeText {v : ℤ} (h : SizeText s v) :
    parseSizeToBytes s = .ret () v := by
  obtain ⟨u, hu, p, n, rfl, hp, rfl, hfits⟩ := h
  rw [parseSizeToBytes, hp.splitUnit_append hu]
  dsimp only
  rw [hp.stoll_eq, if_pos (fitsInt64_of_mul (sizeUnits_pos u hu) hfits)]
  dsimp only
  rw [int64Mul, if_pos hfits]

/-- What the code makes of a number in front of a unit. -/
theorem parseSizeToBytes_of_scan (hsplit : splitUnit s = some (p, mult)) {rest : Bytes}
    (hscan : scanInteger p = some (n, rest)) (hfits : fitsInt64 n = true) :
    parseSizeToBytes s = int64Mul n mult := by
  rw [parseSizeToBytes, hsplit]
  dsimp only
  rw [stoll, hscan]
  dsimp only
  rw [if_pos hfits]

/-- Where no number is read, or one that does not fit, there is an exception. -/
theorem parseSizeToBytes_throws
    (h : ∀ p mult, splitUnit s = some (p, mult) → ∀ n rest, scanInteger p = some (n, rest) →
      fitsInt64 n = false) : ∃ e, parseSizeToBytes s = .throw () e := by
  unfold parseSizeToBytes
  cases hsplit : splitUnit s with
  | none => exact ⟨_, rfl⟩
  | some u =>
    have hstoll : ∃ e, stoll u.1 = .error e := by
      unfold stoll
      cases hscan : scanInteger u.1 with
      | none => exact ⟨_, rfl⟩
      | some q =>
        dsimp only
        rw [h u.1 u.2 hsplit q.1 q.2 hscan]
        exact ⟨_, rfl⟩
    obtain ⟨e, he⟩ := hstoll
    dsimp only
    rw [he]
    exact ⟨e, rfl⟩

end

/-- **A size is parsed exactly as long as what is read is read whole.** -/
theorem size_parsed_exactly_iff (s : Bytes) : SizeParsedExactly s ↔ ReadWhole s := by
  constructor
  · rintro ⟨hsize, hthrow⟩ p mult hsplit blanks text rest n rfl hblanks htext hrest hfits
    by_cases hv : ∃ v, SizeText s v
    · obtain ⟨v, hv⟩ := hv
      obtain ⟨m, hm, rfl, hprod⟩ := (sizeText_iff hsplit).mp hv
      obtain ⟨hb, hr, rfl⟩ := hm.eq_of_append hblanks htext hrest
      exact ⟨hb, hr, hprod⟩
    · -- something is read, so there is no exception
      have hscan := scanInteger_eq_some_iff.mpr ⟨blanks, text, rfl, hblanks, htext, hrest⟩
      obtain ⟨e, he⟩ := hthrow hv
      rw [parseSizeToBytes_of_scan hsplit hscan hfits, int64Mul] at he
      split at he <;> cases he
  · intro hwhole
    refine ⟨fun v => parseSizeToBytes_of_sizeText, fun hv => parseSizeToBytes_throws ?_⟩
    intro p mult hsplit n rest hscan
    obtain ⟨blanks, text, hp, hblanks, htext, hrest⟩ := scanInteger_eq_some_iff.mp hscan
    rw [Bool.eq_false_iff]
    intro hfits
    -- what is read whole is a size
    obtain ⟨rfl, rfl, hprod⟩ :=
      hwhole p mult hsplit blanks text rest n hp hblanks htext hrest hfits
    rw [List.nil_append, List.append_nil] at hp
    exact hv ⟨_, (sizeText_iff hsplit).mpr ⟨n, hp ▸ htext, rfl, hprod⟩⟩

/-- Of `1.5GB` only the `1` is read: one gigabyte. -/
theorem size_ignores_fraction : ¬ ∀ s, SizeParsedExactly s := by
  intro h
  have hsplit : splitUnit (lit "1.5GB") = some (lit "1.5", 1073741824) := by decide
  have hscan : scanInteger (lit "1.5") = some (1, lit ".5") := by decide
  have hnone : ¬∃ v, SizeText (lit "1.5GB") v := by
    rintro ⟨v, hv⟩
    obtain ⟨n, hn, -⟩ := (sizeText_iff hsplit).mp hv
    have hrest : (some [] : Option Bytes) = some (lit ".5") :=
      congrArg (Option.map Prod.snd) (hn.scanInteger_eq.symm.trans hscan)
    exact absurd hrest (by decide)
  obtain ⟨e, he⟩ := (h (lit "1.5GB")).2 hnone
  rw [parseSizeToBytes_of_scan hsplit hscan (by decide)] at he
  exact absurd he (by simp [int64Mul, fitsInt64])

end LogLite
