import LogLite.Base.Sqlite
import LogLite.Store.Writer
import Mathlib.Data.List.Infix
import Mathlib.Tactic.SplitIfs

/-!
# The form and the filter

The dashboard has a form for a log and a form for a filter.  Both take what was typed for
a column and bring it into the shape that fits the kind of the column: the one gives the
JSON value to post, the other one the text to look for.  The kind comes from the declared
type of the column.

Numbers, dates and JSON are read by the JavaScript engine, which is not part of the
repository; it is a parameter, `JsRuntime`.  So is `strtod`, by which the JSON library of
the server reads the doubles.

## Main definitions

* `normalizeColumnKind` — `NormalizeColumnKind`.
* `jsTrim` — `String.prototype.trim`.
* `coerceFieldToJsonValue`, `coerceFilterValue` — the two forms.

## Main results

* `affinity_of_integer_kind` — integer columns keep integers.
* `jsTrim_jsTrim` — trimming twice is trimming once.
-/

namespace LogLite

/-! ### Kinds -/

/-- `LogColumnKind`. -/
inductive LogColumnKind where
  | boolean
  | integer
  | number
  | datetime
  | json
  | text
  | blob
  deriving DecidableEq, Repr

/-- `std::toupper`, in the C locale. -/
def upperByte (b : UInt8) : UInt8 := if 97 ≤ b ∧ b ≤ 122 then b - 32 else b

/-- `NormalizeColumnKind`. -/
def normalizeColumnKind (sqliteType : Bytes) (compressed : Bool) : LogColumnKind :=
  if compressed then .text
  else
    let token := (sqliteType.takeWhile (· != 40)).map upperByte
    if (lit "INT").isPrefixOf token then .integer
    else if token = lit "REAL" ∨ token = lit "FLOAT" ∨ token = lit "DOUBLE" ∨
        token = lit "NUMERIC" ∨ token = lit "DECIMAL" then .number
    else if token = lit "TEXT" ∨ token = lit "CHAR" ∨ token = lit "CLOB" ∨
        token = lit "VARCHAR" then .text
    else if token = lit "DATETIME" ∨ token = lit "DATE" ∨ token = lit "TIME" then .datetime
    else if token = lit "JSON" then .json
    else if token = lit "BLOB" then .blob
    else if token = lit "BOOLEAN" then .boolean
    else .text

example : normalizeColumnKind (lit "Decimal(10, 2)") false = .number := by decide

/-! ### Integer columns -/

theorem lowerByte_eq {b : UInt8} (h : 65 ≤ upperByte b ∧ upperByte b ≤ 90) :
    lowerByte b = upperByte b + 32 := by
  unfold upperByte at h ⊢
  unfold lowerByte
  grind

/-- **Columns of the kind `integer` have `INTEGER` affinity.** -/
theorem affinity_of_integer_kind {type : Bytes} (h : normalizeColumnKind type false = .integer) :
    declaredAffinity type = .integer := by
  have hbegins : (lit "INT").isPrefixOf ((type.takeWhile (· != 40)).map upperByte) = true := by
    unfold normalizeColumnKind at h
    rw [if_neg Bool.false_ne_true] at h
    dsimp only at h
    split_ifs at h with hint
    exact hint
  obtain ⟨rest, hrest⟩ := List.isPrefixOf_iff_prefix.mp hbegins
  obtain ⟨name, rest', htoken, hname, -⟩ := List.map_eq_append_iff.mp hrest.symm
  -- the three letters it begins with, in either case
  have hlower : name.map lowerByte = lit "int" := by
    have hletters : ((lit "INT").all fun c => decide (65 ≤ c ∧ c ≤ 90)) = true := by decide
    have hshift : (lit "INT").map (· + 32) = lit "int" := by decide
    rw [← hshift, ← hname, List.map_map]
    refine List.map_congr_left fun b hb => lowerByte_eq ?_
    have hmem : upperByte b ∈ lit "INT" := hname ▸ List.mem_map_of_mem hb
    exact of_decide_eq_true (List.all_eq_true.mp hletters _ hmem)
  have hint : contains (lit "int") (type.map lowerByte) = true := by
    rw [contains_iff, ← hlower]
    have hstart : name <+: type :=
      (htoken ▸ List.prefix_append name rest').trans (List.takeWhile_prefix _)
    exact (hstart.map lowerByte).isInfix
  unfold declaredAffinity
  exact if_pos hint

/-! ### Strings of JavaScript -/

/-- A text without the words it begins with, as many as there are. -/
def stripWords (words : List Bytes) : ℕ → Bytes → Bytes
  | 0, s => s
  | n + 1, s =>
    match words.find? fun word => word.isPrefixOf s with
    | some word => stripWords words n (s.drop word.length)
    | none => s

/-- White space and line terminators, in UTF-8. -/
def jsWhiteSpace : List Bytes :=
  [[9], [10], [11], [12], [13], [32], [194, 160], [225, 154, 128], [226, 128, 128],
    [226, 128, 129], [226, 128, 130], [226, 128, 131], [226, 128, 132], [226, 128, 133],
    [226, 128, 134], [226, 128, 135], [226, 128, 136], [226, 128, 137], [226, 128, 138],
    [226, 128, 168], [226, 128, 169], [226, 128, 175], [226, 129, 159], [227, 128, 128],
    [239, 187, 191]]

/-- `trimStart`. -/
def jsTrimStart (s : Bytes) : Bytes := stripWords jsWhiteSpace s.length s

/-- `trimEnd`. -/
def jsTrimEnd (s : Bytes) : Bytes :=
  (stripWords (jsWhiteSpace.map List.reverse) s.length s.reverse).reverse

/-- `String.prototype.trim`. -/
def jsTrim (s : Bytes) : Bytes := jsTrimEnd (jsTrimStart s)

example : jsTrim [32, 194, 160, 97, 32, 98, 226, 128, 169, 10] = lit "a b" := by decide

/-- `toLowerCase`, for comparisons with ASCII words that no other letters become. -/
def jsLower (s : Bytes) : Bytes := s.map lowerByte

/-- `length`, in UTF-16: four bytes of UTF-8 are two units, fewer are one. -/
def utf16Length (s : Bytes) : ℕ :=
  (s.map fun b => if isContinuation b then 0 else if 240 ≤ b then 2 else 1).sum

/-! ### What the engine reads -/

/-- The fields of a `Date` in local time, as its getters return them. -/
structure LocalTime where
  fullYear : ℤ
  month : ℤ
  date : ℤ
  hours : ℤ
  minutes : ℤ
  seconds : ℤ

/-- `Number`, `String` of a finite number, `Date.parse`, the getters of a `Date`, and
`JSON.parse`, whose value is what the server gets when it is posted.  Strings have the
bytes of their UTF-8.

`String` writes a decimal number.  In JSON `true` and `false` are words, a string is
longer than its value by two quotes, and arrays and objects begin with a bracket. -/
structure JsRuntime where
  number : Bytes → Option Real64
  numberText : ℚ → Bytes
  dateParse : Bytes → Option ℤ
  localTime : ℤ → LocalTime
  jsonParse : Bytes → Option Json
  isNumeric_numberText : ∀ x, isNumeric (numberText x) = true
  trimmed_bool : ∀ s b, jsonParse s = some (.bool b) →
    trimmed s = lit "true" ∨ trimmed s = lit "false"
  trimmed_string : ∀ s t, jsonParse s = some (.string t) →
    (trimmed s).head? = some 34 ∧ t.length + 2 ≤ s.length
  trimmed_array : ∀ s xs, jsonParse s = some (.array xs) → (trimmed s).head? = some 91
  trimmed_object : ∀ s kvs, jsonParse s = some (.object kvs) → (trimmed s).head? = some 123

section
variable (js : JsRuntime)

/-- `pad2`. -/
def pad2 (n : ℤ) : Bytes := List.leftpad 2 48 (decimal n)

/-- `datetimeLocalToFilterValue`. -/
def datetimeLocalToFilterValue (raw : Bytes) : Option Bytes :=
  let t := jsTrim raw
  if t.isEmpty then none
  else
    let normalized := if utf16Length t = 16 then t ++ lit ":00" else t
    (js.dateParse normalized).map fun ms =>
      let d := js.localTime ms
      decimal d.fullYear ++ lit "-" ++ pad2 (d.month + 1) ++ lit "-" ++ pad2 d.date ++ lit "T" ++
        pad2 d.hours ++ lit ":" ++ pad2 d.minutes ++ lit ":" ++ pad2 d.seconds

/-- The word for a truth value, or its digit. -/
def boolWord (s : Bytes) : Option Bool :=
  let lower := jsLower s
  if lower = lit "true" ∨ lower = lit "1" then some true
  else if lower = lit "false" ∨ lower = lit "0" then some false
  else none

/-- `Number(s)`, if that is finite. -/
def finiteNumber (s : Bytes) : Option ℚ :=
  match js.number s with
  | some (.finite x) => some x
  | _ => none

/-- `Number(s)`, if that is an integer. -/
def integerNumber (s : Bytes) : Option ℚ :=
  match finiteNumber js s with
  | some x => if x.den = 1 then some x else none
  | none => none

/-- The number the server reads in a JSON text: an integer, if it has no fraction and no
exponent and fits 64 bits, signed or unsigned, and a double otherwise. -/
def jsonNumber (strtod : Bytes → Real64) (s : Bytes) : Json :=
  match integerLiteral s with
  | some n => if -2 ^ 63 ≤ n ∧ n < 2 ^ 64 then .integer n else .float (strtod s)
  | none => .float (strtod s)

/-- `parseJsonField`; `none` stands for `undefined`. -/
def parseJsonField (raw : Bytes) : Option Json :=
  let t := jsTrim raw
  if t.isEmpty then some .null else js.jsonParse t

/-- `coerceFieldToJsonValue`, as the server gets the value; `none` stands for
`undefined`. -/
def coerceFieldToJsonValue (strtod : Bytes → Real64) (kind : LogColumnKind) (raw : Bytes)
    (isOptional : Bool) : Option Json :=
  let t := jsTrim raw
  if t.isEmpty then (if isOptional then some .null else none)
  else
    match kind with
    | .boolean => (boolWord t).map .bool
    | .integer => (integerNumber js t).map fun x => jsonNumber strtod (js.numberText x)
    | .number => (finiteNumber js t).map fun x => jsonNumber strtod (js.numberText x)
    | .datetime =>
      match datetimeLocalToFilterValue js t with
      | some iso => some (.string iso)
      -- a date all the same, though not with seconds added
      | none => (js.dateParse t).map fun _ => .string t
    | .json => parseJsonField js t
    | .text => some (.string t)
    | .blob => some (.string t)

/-- `coerceFilterValue`; `none` stands for `null`. -/
def coerceFilterValue (kind : LogColumnKind) (raw : Bytes) : Option Bytes :=
  let t := jsTrim raw
  if t.isEmpty then none
  else
    match kind with
    | .boolean => (boolWord t).map fun b => if b then lit "true" else lit "false"
    | .integer => (integerNumber js t).map js.numberText
    | .number => (finiteNumber js t).map js.numberText
    | .datetime =>
      match datetimeLocalToFilterValue js t with
      | some fromLocal => some fromLocal
      | none => (js.dateParse t).map fun _ => t
    | .text => some t
    | .json => some t
    | .blob => some t

end

/-! ### Trimming -/

theorem stripWords_suffix (words : List Bytes) : ∀ (n : ℕ) (s : Bytes), stripWords words n s <:+ s
  | 0, s => List.suffix_refl s
  | n + 1, s => by
    unfold stripWords
    split
    · exact (stripWords_suffix words n _).trans (List.drop_suffix _ s)
    · exact List.suffix_refl s

/-- No word is left at the beginning. -/
theorem not_prefix_stripWords {words : List Bytes} (hwords : [] ∉ words) : ∀ (n : ℕ) (s : Bytes),
    s.length ≤ n → ∀ word ∈ words, ¬ word <+: stripWords words n s
  | 0, s, hlen, word, hword, hbegins => by
    have hnil := List.length_eq_zero_iff.mp (Nat.le_zero.mp hlen)
    rw [stripWords, hnil, List.prefix_nil] at hbegins
    exact hwords (hbegins ▸ hword)
  | n + 1, s, hlen, word, hword, hbegins => by
    unfold stripWords at hbegins
    split at hbegins
    · next first hfirst =>
      -- a word that is taken off makes the text shorter
      have hne : first ≠ [] := by
        rintro rfl
        exact hwords (List.mem_of_find?_eq_some hfirst)
      have hpos := List.length_pos_iff.mpr hne
      exact not_prefix_stripWords hwords n _ (by rw [List.length_drop]; omega) word hword hbegins
    · next hnone =>
      refine List.find?_eq_none.mp hnone word hword ?_
      exact List.isPrefixOf_iff_prefix.mpr hbegins

/-- A text that begins with no word stays as it is. -/
theorem stripWords_eq_self {words : List Bytes} {s : Bytes} (h : ∀ word ∈ words, ¬ word <+: s)
    (n : ℕ) : stripWords words n s = s := by
  cases n with
  | zero => rfl
  | succ n =>
    have hnone : (words.find? fun word => word.isPrefixOf s) = none := by
      rw [List.find?_eq_none]
      intro word hword hbegins
      exact h word hword (List.isPrefixOf_iff_prefix.mp hbegins)
    rw [stripWords, hnone]

theorem jsTrimEnd_begins (s : Bytes) : jsTrimEnd s <+: s := by
  have hsuffix := stripWords_suffix (jsWhiteSpace.map List.reverse) s.length s.reverse
  rw [← List.reverse_prefix, List.reverse_reverse] at hsuffix
  exact hsuffix

/-- **Trimming twice is trimming once.** -/
theorem jsTrim_jsTrim (s : Bytes) : jsTrim (jsTrim s) = jsTrim s := by
  -- trimming the end leaves a beginning of what was left by trimming the start
  have hstart : jsTrimStart (jsTrim s) = jsTrim s := by
    refine stripWords_eq_self (fun word hword hbegins => ?_) _
    refine not_prefix_stripWords (by decide) s.length s (Nat.le_refl _) word hword ?_
    exact hbegins.trans (jsTrimEnd_begins _)
  have hend : jsTrimEnd (jsTrim s) = jsTrim s := by
    have hwords : [] ∉ jsWhiteSpace.map List.reverse := by decide
    have hnone := not_prefix_stripWords hwords (jsTrimStart s).length (jsTrimStart s).reverse
      (by rw [List.length_reverse])
    unfold jsTrimEnd
    rw [stripWords_eq_self ?_, List.reverse_reverse]
    rw [jsTrim, jsTrimEnd, List.reverse_reverse]
    exact hnone
  rw [jsTrim, hstart, hend]

end LogLite
