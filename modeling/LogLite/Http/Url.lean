import LogLite.Base.Bytes
import Mathlib.Data.List.Basic
import Mathlib.Data.Multiset.Defs

/-!
# Query strings

The dashboard builds a query string with `URLSearchParams`, the server takes it apart
with `ParseQueryString` and `url_decode`.  `URLSearchParams` is not part of the
repository: `formEncode` is the `application/x-www-form-urlencoded` serializer, on the
UTF-8 bytes of the strings.  It is one of many ways to write a list of parameters:
`FormEncodes` has them all.

## Main definitions

* `formEncode` — `URLSearchParams.toString()`.
* `urlDecode`, `parseQueryString`, `splitURLTarget` — `url_decode`, `ParseQueryString`
  and `SplitURLTarget`.
* `EncodesByte`, `EncodesString`, `FormEncodes` — the texts of a byte, of a string and of a list
  of parameters.

## Main results

* `EncodesString.urlDecode_eq` — a component comes back from every text of it.
* `FormEncodes.parseQueryString_eq` — the parameters come back, in order.
* `target_parameters` — **the parameters of a target come back, however they are written.**
-/

namespace LogLite

/-! ### The serializer -/

/-- A hexadecimal digit, in upper case. -/
def upperHexDigit (n : ℕ) : UInt8 := if n < 10 then (48 + n).toUInt8 else (55 + n).toUInt8

/-- The bytes the serializer leaves as they are: letters, digits and `*-._`. -/
def isFormSafe (b : UInt8) : Bool :=
  (48 ≤ b && b ≤ 57) || (65 ≤ b && b ≤ 90) || (97 ≤ b && b ≤ 122) || b == 42 || b == 45 ||
    b == 46 || b == 95

/-- One byte, encoded. -/
def encodeByte (b : UInt8) : Bytes :=
  if b = 32 then [43]
  else if isFormSafe b then [b]
  else [37, upperHexDigit (b.toNat / 16), upperHexDigit (b.toNat % 16)]

/-- A name or a value, encoded. -/
def encodeComponent (s : Bytes) : Bytes := s.flatMap encodeByte

/-- `name=value`, encoded. -/
def encodePair (p : Bytes × Bytes) : Bytes := encodeComponent p.1 ++ [61] ++ encodeComponent p.2

/-- `URLSearchParams.toString()`. -/
def formEncode (params : List (Bytes × Bytes)) : Bytes := [38].intercalate (params.map encodePair)

/-! ### The server -/

/-- The value of a hexadecimal digit, in either case. -/
def hexValue (b : UInt8) : Option ℕ :=
  if 48 ≤ b ∧ b ≤ 57 then some (b.toNat - 48)
  else if 65 ≤ b ∧ b ≤ 70 then some (b.toNat - 55)
  else if 97 ≤ b ∧ b ≤ 102 then some (b.toNat - 87)
  else none

/-- `static_cast<char>(std::stoi(hex, nullptr, 16))` of two characters: a blank or a sign
may stand before one digit, and what follows a digit is not read.  `none` if it throws. -/
def hexByte (a b : UInt8) : Option UInt8 :=
  match hexValue a, hexValue b with
  | some x, some y => some (16 * x + y).toUInt8
  | some x, none => some x.toUInt8
  | none, some y =>
    if isSpace a || a == 43 then some y.toUInt8
    else if a == 45 then some (256 - y).toUInt8
    else none
  | none, none => none

/-- `url_decode`. -/
def urlDecode : Bytes → Bytes
  | [] => []
  | 37 :: a :: b :: s =>
    -- `%` and two characters that are no number are dropped
    match hexByte a b with
    | some c => c :: urlDecode s
    | none => urlDecode s
  | c :: s => (if c = 43 then 32 else c) :: urlDecode s

/-- What stands before and after the first `=`, decoded. -/
def parsePair (pair : Bytes) : Option (Bytes × Bytes) :=
  match pair.dropWhile (· != 61) with
  | [] => none
  | _ :: value => some (urlDecode (pair.takeWhile (· != 61)), urlDecode value)

/-- `ParseQueryString`: the entries of the multimap. -/
def parseQueryString (qs : Bytes) : List (Bytes × Bytes) := (qs.splitOn 38).filterMap parsePair

/-- `SplitURLTarget`: what stands before and after the first `?`. -/
def splitURLTarget (target : Bytes) : Bytes × Bytes :=
  match target.dropWhile (· != 63) with
  | [] => (target, [])
  | _ :: qs => (target.takeWhile (· != 63), qs)

/-- The message of a missing parameter. -/
def missingParam (p : Bytes) : Bytes := lit "Required parameter '" ++ p ++ lit "' is missing"

/-! ### The texts of a list of parameters -/

/-- The texts of one byte. -/
inductive EncodesByte : UInt8 → Bytes → Prop where
  /-- The byte itself, unless it is one of `&=+%?`. -/
  | raw {b : UInt8} (h : b ∉ lit "&=+%?") : EncodesByte b [b]
  /-- `%` and two hexadecimal digits, each in either case. -/
  | escape {b x y : UInt8} (hx : hexValue x = some (b.toNat / 16))
      (hy : hexValue y = some (b.toNat % 16)) : EncodesByte b [37, x, y]
  /-- `+` for a blank. -/
  | plus : EncodesByte 32 [43]

/-- The texts of a string, byte by byte. -/
inductive EncodesString : Bytes → Bytes → Prop where
  | nil : EncodesString [] []
  | cons {b : UInt8} {s u t : Bytes} (hb : EncodesByte b u) (hs : EncodesString s t) :
      EncodesString (b :: s) (u ++ t)

/-- The texts `name=value` of a parameter. -/
def EncodesPair (p : Bytes × Bytes) (text : Bytes) : Prop :=
  ∃ name value, EncodesString p.1 name ∧ EncodesString p.2 value ∧ text = name ++ 61 :: value

/-- The texts of a list of parameters: those of each of them, with `&` between them. -/
def FormEncodes (params : List (Bytes × Bytes)) (text : Bytes) : Prop :=
  ∃ pairs, List.Forall₂ EncodesPair params pairs ∧ text = [38].intercalate pairs

/-! ### What a text is decoded to -/

theorem hexByte_of_hexValue {b x y : UInt8} (hx : hexValue x = some (b.toNat / 16))
    (hy : hexValue y = some (b.toNat % 16)) : hexByte x y = some b := by
  unfold hexByte
  rw [hx, hy]
  simp only [Option.some.injEq]
  rw [Nat.div_add_mod]
  exact UInt8.ofNat_toNat

/-- The separators are no hexadecimal digits. -/
theorem notMem_of_hexValue {x : UInt8} {n : ℕ} (h : hexValue x = some n) : x ∉ lit "&=" := by
  have hsep : ((lit "&=").all fun c => (hexValue c).isNone) = true := by decide
  intro hx
  have hnone := List.all_eq_true.mp hsep x hx
  simp [h] at hnone

theorem urlDecode_cons {c : UInt8} (hc : c ≠ 37) (s : Bytes) :
    urlDecode (c :: s) = (if c = 43 then 32 else c) :: urlDecode s := by
  rw [urlDecode]
  intro a b s' hcons
  exact absurd hcons hc

theorem EncodesByte.urlDecode_append {b : UInt8} {u : Bytes} (h : EncodesByte b u) (s : Bytes) :
    urlDecode (u ++ s) = b :: urlDecode s := by
  cases h with
  | raw h =>
    have hplus : b ≠ 43 := fun hb => h (hb ▸ by decide)
    have hpercent : b ≠ 37 := fun hb => h (hb ▸ by decide)
    rw [List.singleton_append, urlDecode_cons hpercent, if_neg hplus]
  | escape hx hy =>
    show urlDecode (37 :: _ :: _ :: s) = _
    rw [urlDecode, hexByte_of_hexValue hx hy]
  | plus => exact urlDecode_cons (by decide) s

/-- **A component comes back.** -/
theorem EncodesString.urlDecode_eq {s t : Bytes} (h : EncodesString s t) : urlDecode t = s := by
  induction h with
  | nil => rfl
  | cons hb _ ih => rw [hb.urlDecode_append, ih]

/-- The separators do not occur in a component. -/
theorem EncodesString.notMem {s t : Bytes} (h : EncodesString s t) {c : UInt8}
    (hc : c ∈ lit "&=") : c ∉ t := by
  induction h with
  | nil => exact List.not_mem_nil
  | cons hb _ ih =>
    rw [List.mem_append, not_or]
    refine ⟨?_, ih⟩
    cases hb with
    | raw hb =>
      have hsplit : lit "&=" ++ lit "+%?" = lit "&=+%?" := by decide
      rw [List.mem_singleton]
      rintro rfl
      exact hb (hsplit ▸ List.mem_append_left _ hc)
    | @escape _ x y hx hy =>
      have hne : c ≠ 37 := fun h37 => absurd (h37 ▸ hc) (by decide)
      have hcx : c ≠ x := fun h => notMem_of_hexValue hx (h ▸ hc)
      have hcy : c ≠ y := fun h => notMem_of_hexValue hy (h ▸ hc)
      simp [hne, hcx, hcy]
    | plus =>
      have hne : c ≠ 43 := fun h43 => absurd (h43 ▸ hc) (by decide)
      simp [hne]

theorem EncodesPair.parsePair_eq {p : Bytes × Bytes} {text : Bytes} (h : EncodesPair p text) :
    parsePair text = some p := by
  obtain ⟨name, value, hname, hvalue, rfl⟩ := h
  have hne : ∀ b ∈ name, (b != 61) = true := by
    intro b hb
    rw [bne_iff_ne]
    rintro rfl
    exact hname.notMem (by decide) hb
  unfold parsePair
  rw [List.dropWhile_append_of_pos hne, List.takeWhile_append_of_pos hne]
  simp [hname.urlDecode_eq, hvalue.urlDecode_eq]

theorem EncodesPair.notMem {p : Bytes × Bytes} {text : Bytes} (h : EncodesPair p text) :
    38 ∉ text := by
  obtain ⟨name, value, hname, hvalue, rfl⟩ := h
  have hn : (38 : UInt8) ∉ name := hname.notMem (by decide)
  have hv : (38 : UInt8) ∉ value := hvalue.notMem (by decide)
  simp [hn, hv]

/-- **The parameters come back, in order.** -/
theorem FormEncodes.parseQueryString_eq {params : List (Bytes × Bytes)} {text : Bytes}
    (h : FormEncodes params text) : parseQueryString text = params := by
  obtain ⟨pairs, hpairs, rfl⟩ := h
  have hall : (∀ l ∈ pairs, (38 : UInt8) ∉ l) ∧ pairs.filterMap parsePair = params := by
    induction hpairs with
    | nil => simp
    | cons hp _ ih =>
      rw [List.forall_mem_cons, List.filterMap_cons, hp.parsePair_eq, ih.2]
      exact ⟨⟨hp.notMem, ih.1⟩, rfl⟩
  obtain ⟨hmem, hparse⟩ := hall
  cases pairs with
  | nil => exact hparse
  | cons l ls =>
    unfold parseQueryString
    rw [List.splitOn_intercalate 38 hmem (by simp), hparse]

/-- The query string of a target starts after its first `?`. -/
theorem splitURLTarget_append {path : Bytes} (h : 63 ∉ path) (text : Bytes) :
    splitURLTarget (path ++ 63 :: text) = (path, text) := by
  have hne : ∀ b ∈ path, (b != 63) = true := by
    intro b hb
    rw [bne_iff_ne]
    rintro rfl
    exact h hb
  unfold splitURLTarget
  rw [List.dropWhile_append_of_pos hne, List.takeWhile_append_of_pos hne]
  simp

/-- **The parameters of a target come back, however they are written.** -/
theorem target_parameters (path text : Bytes) (params : List (Bytes × Bytes)) (hpath : 63 ∉ path)
    (h : FormEncodes params text) :
    (splitURLTarget (path ++ 63 :: text)).1 = path ∧
      (parseQueryString (splitURLTarget (path ++ 63 :: text)).2 : Multiset (Bytes × Bytes)) =
        (params : Multiset (Bytes × Bytes)) := by
  rw [splitURLTarget_append hpath]
  exact ⟨rfl, congrArg _ h.parseQueryString_eq⟩

theorem target_parameters_repeated_key :
    (splitURLTarget (lit "/logs" ++ 63 :: lit "a+b=%3d&=%3F&a%20b=")).1 = lit "/logs" ∧
      (parseQueryString (splitURLTarget (lit "/logs" ++ 63 :: lit "a+b=%3d&=%3F&a%20b=")).2 :
          Multiset (Bytes × Bytes)) =
        ([(lit "a b", lit "="), ([], lit "?"), (lit "a b", [])] : Multiset (Bytes × Bytes)) :=
  target_parameters (lit "/logs") (lit "a+b=%3d&=%3F&a%20b=") _ (by decide)
    ⟨[lit "a+b=%3d", lit "=%3F", lit "a%20b="],
      .cons ⟨lit "a+b", lit "%3d", .cons (.raw (by decide)) (.cons .plus (.cons (.raw (by decide))
        .nil)), .cons (.escape (by decide) (by decide)) .nil, by decide⟩
      (.cons ⟨[], lit "%3F", .nil, .cons (.escape (by decide) (by decide)) .nil, by decide⟩
      (.cons ⟨lit "a%20b", [], .cons (.raw (by decide)) (.cons (.escape (by decide) (by decide))
        (.cons (.raw (by decide)) .nil)), .nil, by decide⟩ .nil)), by decide⟩

/-! ### The serializer writes such a text -/

theorem hexValue_upperHexDigit : ∀ n < 16, hexValue (upperHexDigit n) = some n := by decide

theorem notMem_of_isFormSafe {b : UInt8} (h : isFormSafe b = true) : b ∉ lit "&=+%?" := by
  have hspecial : ((lit "&=+%?").all fun c => !isFormSafe c) = true := by decide
  intro hb
  have hnot := List.all_eq_true.mp hspecial b hb
  simp [h] at hnot

theorem encodesByte_encodeByte (b : UInt8) : EncodesByte b (encodeByte b) := by
  have hb := b.toNat_lt
  unfold encodeByte
  split
  · next hspace => exact hspace ▸ .plus
  · split
    · next hsafe => exact .raw (notMem_of_isFormSafe hsafe)
    · refine .escape (hexValue_upperHexDigit _ ?_) (hexValue_upperHexDigit _ ?_) <;> omega

theorem encodesString_encodeComponent (s : Bytes) : EncodesString s (encodeComponent s) := by
  induction s with
  | nil => exact .nil
  | cons b s ih => exact .cons (encodesByte_encodeByte b) ih

theorem formEncodes_formEncode (params : List (Bytes × Bytes)) :
    FormEncodes params (formEncode params) := by
  have hpair : ∀ p, EncodesPair p (encodePair p) := fun p =>
    ⟨_, _, encodesString_encodeComponent p.1, encodesString_encodeComponent p.2,
      by simp [encodePair]⟩
  refine ⟨params.map encodePair, ?_, rfl⟩
  induction params with
  | nil => exact .nil
  | cons p ps ih => exact .cons (hpair p) ih

/-- **What the dashboard sends is what the server reads.** -/
theorem parseQueryString_formEncode (params : List (Bytes × Bytes)) :
    parseQueryString (formEncode params) = params :=
  (formEncodes_formEncode params).parseQueryString_eq

end LogLite
