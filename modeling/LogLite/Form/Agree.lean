import LogLite.Base.Decimal
import LogLite.Base.SqlOrder
import LogLite.Form.Kinds
import LogLite.Query.RoundTrip

/-!
# Finding what was posted

A log that was posted with the value of the form should be found by the filter with the
same input.  What is stored went through `serialize_value`, `bind_param` and the affinity
of the column; what it is compared with is a text, and went through the affinity of the
comparison.

## Main definitions

* `TextAgrees`, `NumberAgrees`, `JsonAgrees` — when the two meet, for the three kinds of
  values.
* `FormAgrees` — the same for the kind of a column and what was typed.
* `SignsKept` — a text is read as a double of its sign.

## Main results

* `selects_eq_iff` — the filter `column = f` compares the stored value with `f`.
* `text_agrees_iff`, `number_agrees_iff`, `json_agrees_iff` — when they are equal.
* `integer_form_agrees_iff` — the agreement for integer columns.
* `form_selects_iff` — **the log is found exactly if the form and the filter agree.**
-/

namespace LogLite

/-! ### When the two agree -/

section
variable (js : JsRuntime) (P : Platform) (strtod : Bytes → Real64) (a : Affinity)

/-- A text is found, unless it is read as an integer and stored as a double that is not
that integer. -/
def TextAgrees (s : Bytes) : Prop :=
  a = .real → ∀ n, numericText P s = .integer n → P.realOfText (decimal n) = .finite n

/-- A number with this text is found if both sides read it alike: as an integer it fits
`int64_t`, and a column of doubles has it, and as a double it is the same for the JSON
library and for SQLite.  A column of texts has to write it alike, and a column without
affinity never has it. -/
def NumberAgrees (s : Bytes) : Prop :=
  match a with
  | .blob => False
  | .text => textOf P (bindParam P (jsonNumber strtod s)) = s
  | _ =>
    (∀ n, jsonNumber strtod s = .integer n →
      fitsInt64 n = true ∧ (a = .real → P.realOfText (decimal n) = .finite n)) ∧
    (∀ x, jsonNumber strtod s = .float x → P.realOfText s = x)

/-- A number in a JSON text is found if it is what SQLite reads in the text. -/
def JsonNumberAgrees (n : SqlValue) (s : Bytes) : Prop :=
  match a with
  | .blob => False
  | .text => textOf P n = s
  | .real => SqlValue.compareWith (Affinity.real.apply P n) (numericText P s) = .eq
  | _ => SqlValue.compareWith n (numericText P s) = .eq

/-- A JSON text is found if it is the one that the server writes for an array or an object,
or a number that SQLite reads as the server does.  The other values are never found. -/
def JsonAgrees (s : Bytes) : Prop :=
  match js.jsonParse s with
  | some (.integer n) => JsonNumberAgrees P a (.integer (toInt64 n)) s
  | some (.float x) => JsonNumberAgrees P a (.real x) s
  | some (.array xs) => Json.dump P (.array xs) = s
  | some (.object kvs) => Json.dump P (.object kvs) = s
  | _ => False

/-- What was typed gives a value for the form and a text for the filter that agree. -/
def FormAgrees (kind : LogColumnKind) (raw : Bytes) : Prop :=
  match kind with
  | .boolean => False
  | .integer => ∀ x ∈ integerNumber js (jsTrim raw), NumberAgrees P strtod a (js.numberText x)
  | .number => ∀ x ∈ finiteNumber js (jsTrim raw), NumberAgrees P strtod a (js.numberText x)
  | .datetime =>
    TextAgrees P a ((datetimeLocalToFilterValue js (jsTrim raw)).getD (jsTrim raw))
  | .json => JsonAgrees js P a (jsTrim raw)
  | .text => TextAgrees P a (jsTrim raw)
  | .blob => TextAgrees P a (jsTrim raw)

end

/-- SQLite reads the text of an integer as a double of the same sign. -/
def SignsKept (P : Platform) : Prop :=
  ∀ s n, integerLiteral s = some n →
    SqlValue.compareWith (.real (P.realOfText s)) (.integer 0) = compare n 0

/-! ### Comparisons -/

section
variable {P : Platform} {a : Affinity} {s t : Bytes}

theorem compare_text_eq_iff : SqlValue.compareWith (.text s) (.text t) = .eq ↔ s = t :=
  Std.LawfulEqOrd.compare_eq_iff_eq

theorem compare_real_integer_eq_iff {x : Real64} {n : ℤ} :
    SqlValue.compareWith (.real x) (.integer n) = .eq ↔ x = .finite n := by
  cases x with
  | infinite b => cases b <;> simp [SqlValue.compareWith, Real64.compareWith]
  | finite x =>
    show compare x (n : ℚ) = .eq ↔ _
    rw [compare_eq_iff_eq, Real64.finite.injEq]

/-- `NUMERIC` affinity does not change what a double is equal to. -/
theorem compare_numericReal (x : Real64) :
    SqlValue.compareWith (numericReal x) (.real x) = .eq := by
  cases x with
  | infinite b => exact Std.ReflCmp.compare_self
  | finite x =>
    simp only [numericReal]
    split
    · next h =>
      show compare ((x.num : ℤ) : ℚ) x = .eq
      rw [compare_eq_iff_eq]
      exact Rat.coe_int_num_of_den_eq_one h.1
    · exact Std.ReflCmp.compare_self

theorem numericReal_ne_null (x : Real64) : numericReal x ≠ .null := by
  cases x with
  | infinite b => exact SqlValue.noConfusion
  | finite x =>
    simp only [numericReal]
    split <;> exact SqlValue.noConfusion

theorem numericText_ne_null (s : Bytes) : numericText P s ≠ .null := by
  unfold numericText
  split
  · split <;> exact SqlValue.noConfusion
  · split
    · exact numericReal_ne_null _
    · exact SqlValue.noConfusion

theorem applyToParam_ne_null : a.applyToParam P (.text s) ≠ .null := by
  cases a with
  | blob => exact SqlValue.noConfusion
  | text => exact SqlValue.noConfusion
  | numeric => exact numericText_ne_null s
  | integer => exact numericText_ne_null s
  | real => exact numericText_ne_null s

theorem comparison_eq_iff {c : SqlValue} : SqlValue.comparison P a .eq c (.text s) = true ↔
    c.compareWith (a.applyToParam P (.text s)) = .eq := by
  have hparam := applyToParam_ne_null (P := P) (a := a) (s := s)
  unfold SqlValue.comparison
  generalize a.applyToParam P (.text s) = p at hparam ⊢
  cases p with
  | null => exact absurd rfl hparam
  | integer n => cases c <;> simp [Cmp.holds, SqlValue.compareWith]
  | real x => cases c <;> simp [Cmp.holds, SqlValue.compareWith]
  | text t => cases c <;> simp [Cmp.holds, SqlValue.compareWith]

end

/-- **The filter `column = f`** compares what was stored for the posted value with `f`. -/
theorem selects_eq_iff {cat : DatabaseCatalog} {w : WriterDatabase} (hw : Sound cat w)
    {r : LogRow} (hr : r ∈ w.log) {ci : ColumnInfo} (hci : ci ∈ cat.insertColumns)
    (hplain : cat.compressedColumns.contains ci.name = false) (f : Bytes) :
    selects cat w.colDict [⟨ci.name, lit "=", .string f⟩] r = true ↔
      SqlValue.compareWith
        (ci.affinity.apply cat.platform (bindParam cat.platform (r.source.find ci.name)))
        (ci.affinity.applyToParam cat.platform (.text f)) = .eq := by
  have hmem := (List.mem_filter.mp hci).1
  have hallowed : allowedOps.contains (lit "=") = true := by decide
  have hvalid : ∀ ft ∈ [QueryFilter.mk ci.name (lit "=") (.string f)], ft.Valid cat := by
    intro ft hft
    rw [List.mem_singleton] at hft
    subst hft
    exact ⟨List.any_eq_true.mpr ⟨ci, hmem, beq_self_eq_true _⟩, hallowed⟩
  have hcond : conditionOf cat w.colDict ⟨ci.name, lit "=", .string f⟩ =
      .compare ci.name (lit "=") (.string f) := by
    have hne : lit "=" ≠ lit "~=" := by decide
    unfold conditionOf
    rw [hplain, if_neg Bool.false_ne_true, if_neg hne]
  have hop : comparisonOf (lit "=") = some .eq := rfl
  rw [selects_iff hvalid, List.forall_mem_singleton, hcond]
  simp only [Condition.holds, column_eq_some hmem, hop]
  rw [value_of_mem_insertColumns hci, hw.cell_plain hr hci hplain, storedCell,
    bindParam_serializeValue]
  exact comparison_eq_iff

/-! ### Texts that are no numbers -/

section
variable {P : Platform} {a : Affinity} {s t : Bytes}

/-- What begins with no digit, sign or point is no number. -/
theorem isNumeric_eq_false {b : UInt8} (hhead : (trimmed s).head? = some b)
    (hb : b ≠ 45 ∧ b ≠ 43 ∧ b ≠ 46 ∧ isDigit b = false) : isNumeric s = false := by
  obtain ⟨hminus, hplus, hpoint, hdigit⟩ := hb
  obtain ⟨r, hr⟩ : ∃ r, trimmed s = b :: r := List.head?_eq_some_iff.mp hhead
  have hsign : splitSign (trimmed s) = (false, b :: r) := by
    rw [hr]
    unfold splitSign
    split
    · next h => exact absurd (List.cons.inj h).1 hminus
    · next h => exact absurd (List.cons.inj h).1 hplus
    · rfl
  have hinteger : integerLiteral s = none := by
    rw [integerLiteral, hsign]
    simp [hdigit]
  have hreal : isRealLiteral s = false := by
    unfold isRealLiteral
    rw [hsign]
    simp only [List.takeWhile_cons, List.dropWhile_cons, hdigit]
    split
    · next h => exact absurd (List.cons.inj h).1 hpoint
    · rfl
  rw [isNumeric, hinteger, hreal]
  rfl

theorem applyToParam_eq_self (hs : isNumeric s = false) :
    a.applyToParam P (.text s) = .text s := by
  have hnumeric : numericText P s = .text s := (numericText_text_iff P).mpr ⟨hs, rfl⟩
  cases a with
  | blob => rfl
  | text => rfl
  | numeric => exact hnumeric
  | integer => exact hnumeric
  | real => exact hnumeric

theorem compare_eq_text_iff {v : SqlValue} :
    SqlValue.compareWith v (.text s) = .eq ↔ v = .text s := by
  cases v with
  | text t => rw [compare_text_eq_iff, SqlValue.text.injEq]
  | _ => exact ⟨fun h => Ordering.noConfusion h, fun h => SqlValue.noConfusion h⟩

theorem apply_text_eq_iff (hs : isNumeric s = false) :
    a.apply P (.text t) = .text s ↔ t = s := by
  have hnumeric : numericText P t = .text s ↔ t = s := by
    rw [numericText_text_iff]
    refine ⟨fun h => h.2, ?_⟩
    rintro rfl
    exact ⟨hs, rfl⟩
  cases a with
  | blob => exact ⟨SqlValue.text.inj, congrArg _⟩
  | text => exact ⟨SqlValue.text.inj, congrArg _⟩
  | numeric => exact hnumeric
  | integer => exact hnumeric
  | real =>
    rw [← hnumeric]
    simp only [Affinity.apply]
    cases numericText P t with
    | integer n => exact ⟨fun h => SqlValue.noConfusion h, fun h => SqlValue.noConfusion h⟩
    | _ => rfl

/-- A text that is no number finds the values that are stored for the same text. -/
theorem other_text_agrees_iff (hs : isNumeric s = false) :
    SqlValue.compareWith (a.apply P (.text t)) (a.applyToParam P (.text s)) = .eq ↔ t = s := by
  rw [applyToParam_eq_self hs, compare_eq_text_iff, apply_text_eq_iff hs]

/-- It does not find a truth value. -/
theorem bool_not_found (hs : isNumeric s = false) (b : Bool) :
    SqlValue.compareWith (a.apply P (bindParam P (.bool b)))
      (a.applyToParam P (.text s)) ≠ .eq := by
  rw [applyToParam_eq_self hs, Ne, compare_eq_text_iff]
  cases a with
  | text =>
    -- it is stored as `0` or `1` here, and those are numbers
    intro h
    rw [← SqlValue.text.inj h] at hs
    revert hs
    cases b <;> decide
  | _ => exact fun h => SqlValue.noConfusion h

/-- **Texts** find themselves, but for integers in a column of doubles. -/
theorem text_agrees_iff :
    SqlValue.compareWith (a.apply P (.text s)) (a.applyToParam P (.text s)) = .eq ↔
      TextAgrees P a s := by
  have hself : ∀ v : SqlValue, a ≠ .real → (v.compareWith v = .eq ↔ TextAgrees P a s) :=
    fun v ha => iff_of_true Std.ReflCmp.compare_self fun hreal => absurd hreal ha
  cases a with
  | blob => exact hself (.text s) Affinity.noConfusion
  | text => exact hself (.text s) Affinity.noConfusion
  | numeric => exact hself (numericText P s) Affinity.noConfusion
  | integer => exact hself (numericText P s) Affinity.noConfusion
  | real =>
    -- only an integer is changed once more when it is stored
    unfold TextAgrees
    simp only [Affinity.apply, Affinity.applyToParam, forall_const]
    cases numericText P s with
    | integer n =>
      rw [compare_real_integer_eq_iff]
      refine ⟨fun h m hm => ?_, fun h => h n rfl⟩
      cases hm
      exact h
    | _ => exact iff_of_true Std.ReflCmp.compare_self fun n hn => SqlValue.noConfusion hn

end

/-! ### Numbers -/

section
variable {P : Platform} {strtod : Bytes → Real64} {a : Affinity} {s : Bytes}

theorem compare_real_eq_iff {x y : Real64} :
    SqlValue.compareWith (.real x) (.real y) = .eq ↔ x = y := by
  cases x with
  | infinite b => cases b <;> cases y with
    | infinite c => cases c <;> simp [SqlValue.compareWith, Real64.compareWith]
    | finite y => simp [SqlValue.compareWith, Real64.compareWith]
  | finite x =>
    cases y with
    | infinite c => cases c <;> simp [SqlValue.compareWith, Real64.compareWith]
    | finite y =>
      show compare x y = .eq ↔ _
      rw [compare_eq_iff_eq, Real64.finite.injEq]

theorem toInt64_neg {n : ℤ} (hlarge : 2 ^ 63 ≤ n) (hsmall : n < 2 ^ 64) : toInt64 n < 0 := by
  have hmod : n % (2 ^ 64 : ℕ) = n := Int.emod_eq_of_lt (by omega) (by omega)
  have hbig : ¬ n < ((2 ^ 64 : ℕ) + 1) / 2 := by omega
  rw [toInt64, Int.bmod_def, hmod, if_neg hbig]
  omega

/-- How the two sides read a number: as the same integer, as an unsigned integer that the
one wraps to a negative one, or both as a double. -/
theorem number_cases (P : Platform) (strtod : Bytes → Real64) (hs : isNumeric s = true) :
    (∃ n, jsonNumber strtod s = .integer n ∧ fitsInt64 n = true ∧ numericText P s = .integer n) ∨
    (∃ n, jsonNumber strtod s = .integer n ∧ fitsInt64 n = false ∧ toInt64 n < 0 ∧ 0 ≤ n ∧
      integerLiteral s = some n ∧ numericText P s = .real (P.realOfText s)) ∨
    (jsonNumber strtod s = .float (strtod s) ∧
      SqlValue.compareWith (numericText P s) (.real (P.realOfText s)) = .eq) := by
  unfold jsonNumber numericText
  cases hn : integerLiteral s with
  | some n =>
    by_cases hfits : fitsInt64 n = true
    · have hrange : -2 ^ 63 ≤ n ∧ n < 2 ^ 64 := by
        rw [fitsInt64_iff] at hfits
        omega
      exact .inl ⟨n, if_pos hrange, hfits, if_pos hfits⟩
    · refine .inr ?_
      -- what does not fit is unsigned, or too large for the JSON library as well
      by_cases hrange : -2 ^ 63 ≤ n ∧ n < 2 ^ 64
      · have hlarge : 2 ^ 63 ≤ n := by
          rw [fitsInt64_iff] at hfits
          omega
        exact .inl ⟨n, if_pos hrange, eq_false_of_ne_true hfits, toInt64_neg hlarge hrange.2,
          (by omega), rfl, if_neg hfits⟩
      · refine .inr ⟨if_neg hrange, ?_⟩
        show SqlValue.compareWith (if fitsInt64 n = true then _ else _) _ = .eq
        rw [if_neg hfits]
        exact Std.ReflCmp.compare_self
  | none =>
    have hreal : isRealLiteral s = true := by simpa [isNumeric, hn] using hs
    refine .inr (.inr ⟨rfl, ?_⟩)
    show SqlValue.compareWith (if isRealLiteral s = true then _ else _) _ = .eq
    rw [if_pos hreal]
    exact compare_numericReal _

/-- What is below zero is below the double of a text without a sign. -/
theorem SignsKept.lt (hP : SignsKept P) {v : SqlValue} {n : ℤ} (hn : integerLiteral s = some n)
    (hnonneg : 0 ≤ n) (hv : v.compareWith (.integer 0) = .lt) :
    v.compareWith (.real (P.realOfText s)) = .lt := by
  refine Std.TransCmp.lt_of_lt_of_isLE hv ?_
  rw [SqlValue.compareWith_swap, hP s n hn, Ordering.isLE_swap, Ordering.isGE_iff_ne_lt]
  exact compare_ge_iff_ge.mpr hnonneg

/-- A number in a column whose affinity keeps the value of an integer, or at least its sign,
and leaves doubles alone. -/
theorem number_agrees_of (hP : SignsKept P) (hs : isNumeric s = true)
    (hexact : ∀ n, SqlValue.compareWith (a.apply P (.integer n)) (.integer n) = .eq ↔
      (a = .real → P.realOfText (decimal n) = .finite n))
    (hsign : ∀ n < 0, SqlValue.compareWith (a.apply P (.integer n)) (.integer 0) = .lt)
    (hreal : ∀ x, SqlValue.compareWith (a.apply P (.real x)) (.real x) = .eq) :
    SqlValue.compareWith (a.apply P (bindParam P (jsonNumber strtod s))) (numericText P s) = .eq ↔
      (∀ n, jsonNumber strtod s = .integer n →
        fitsInt64 n = true ∧ (a = .real → P.realOfText (decimal n) = .finite n)) ∧
      (∀ x, jsonNumber strtod s = .float x → P.realOfText s = x) := by
  obtain ⟨n, hjson, hfits, htext⟩ | ⟨n, hjson, hfits, hneg, hnonneg, hn, htext⟩ | ⟨hjson, htext⟩ :=
    number_cases P strtod hs
  · have hbind : bindParam P (.integer n) = .integer n :=
      congrArg SqlValue.integer (toInt64_eq_self_iff.mpr hfits)
    rw [hjson, htext, hbind, hexact]
    refine ⟨fun h => ⟨fun m hm => ?_, fun x hx => Json.noConfusion hx⟩, fun h => (h.1 n rfl).2⟩
    cases hm
    exact ⟨hfits, h⟩
  · -- the server has made a negative number of it
    have hlt : SqlValue.compareWith (a.apply P (bindParam P (.integer n))) (numericText P s) =
        .lt := by
      rw [htext]
      exact hP.lt hn hnonneg (hsign (toInt64 n) hneg)
    rw [hjson, hlt]
    refine iff_of_false Ordering.noConfusion fun h => ?_
    exact Bool.false_ne_true (hfits.symm.trans (h.1 n rfl).1)
  · rw [hjson, Std.TransCmp.congr_right htext]
    show SqlValue.compareWith (a.apply P (.real (strtod s))) _ = .eq ↔ _
    rw [Std.TransCmp.congr_left (hreal (strtod s)), compare_real_eq_iff]
    refine ⟨fun h => ⟨fun n hn => Json.noConfusion hn, fun x hx => ?_⟩, fun h => (h.2 _ rfl).symm⟩
    rw [← Json.float.inj hx, h]

theorem bindParam_jsonNumber (P : Platform) (strtod : Bytes → Real64) (s : Bytes) :
    (∃ n, bindParam P (jsonNumber strtod s) = .integer n) ∨
      ∃ x, bindParam P (jsonNumber strtod s) = .real x := by
  unfold jsonNumber
  split
  · split
    · exact .inl ⟨_, rfl⟩
    · exact .inr ⟨_, rfl⟩
  · exact .inr ⟨_, rfl⟩

theorem apply_integer_eq_numeric (m : SqlValue) :
    Affinity.integer.apply P m = Affinity.numeric.apply P m := by
  cases m <;> rfl

/-- What a stored number is compared with, in a column of each affinity. -/
theorem stored_number_agrees_iff {m : SqlValue} (hm : (∃ n, m = .integer n) ∨ ∃ x, m = .real x) :
    SqlValue.compareWith (a.apply P m) (a.applyToParam P (.text s)) = .eq ↔
      JsonNumberAgrees P a m s := by
  have hnumeric : SqlValue.compareWith (Affinity.numeric.apply P m) (numericText P s) = .eq ↔
      SqlValue.compareWith m (numericText P s) = .eq := by
    obtain ⟨n, rfl⟩ | ⟨x, rfl⟩ := hm
    · exact Iff.rfl
    · show SqlValue.compareWith (numericReal x) _ = .eq ↔ _
      rw [Std.TransCmp.congr_left (compare_numericReal x)]
  cases a with
  | blob =>
    refine compare_eq_text_iff.trans (iff_of_false ?_ id)
    obtain ⟨n, rfl⟩ | ⟨x, rfl⟩ := hm <;> exact SqlValue.noConfusion
  | text => obtain ⟨n, rfl⟩ | ⟨x, rfl⟩ := hm <;> exact compare_text_eq_iff
  | numeric => exact hnumeric
  | integer =>
    rw [apply_integer_eq_numeric]
    exact hnumeric
  | real => exact Iff.rfl

/-- **Numbers** are found if the two sides read them alike. -/
theorem number_agrees_iff (hP : SignsKept P) (hs : isNumeric s = true) :
    SqlValue.compareWith (a.apply P (bindParam P (jsonNumber strtod s)))
        (a.applyToParam P (.text s)) = .eq ↔ NumberAgrees P strtod a s := by
  have hself : ∀ n, a ≠ .real → (SqlValue.compareWith (.integer n) (.integer n) = .eq ↔
      (a = .real → P.realOfText (decimal n) = .finite n)) :=
    fun n ha => iff_of_true Std.ReflCmp.compare_self fun hreal => absurd hreal ha
  cases a with
  | blob => exact stored_number_agrees_iff (bindParam_jsonNumber P strtod s)
  | text => exact stored_number_agrees_iff (bindParam_jsonNumber P strtod s)
  | numeric =>
    exact number_agrees_of hP hs (fun n => hself n Affinity.noConfusion)
      (fun n hn => compare_lt_iff_lt.mpr hn) compare_numericReal
  | integer =>
    exact number_agrees_of hP hs (fun n => hself n Affinity.noConfusion)
      (fun n hn => compare_lt_iff_lt.mpr hn) compare_numericReal
  | real =>
    refine number_agrees_of hP hs (fun n => ?_) (fun n hn => ?_) fun x => Std.ReflCmp.compare_self
    · exact compare_real_integer_eq_iff.trans ⟨fun h _ => h, fun h => h rfl⟩
    · have hsign := hP (decimal n) n (integerLiteral_decimal n)
      rwa [compare_lt_iff_lt.mpr hn] at hsign

end

/-! ### JSON texts -/

section
variable {js : JsRuntime} {P : Platform} {a : Affinity} {s : Bytes} {v : Json}

/-- **JSON texts** are found if they are the ones the server writes. -/
theorem json_agrees_iff (hv : js.jsonParse s = some v) :
    SqlValue.compareWith (a.apply P (bindParam P v)) (a.applyToParam P (.text s)) = .eq ↔
      JsonAgrees js P a s := by
  unfold JsonAgrees
  rw [hv]
  cases v with
  | null =>
    -- NULL is equal to nothing
    refine iff_of_false (fun h => ?_) id
    have hparam := applyToParam_ne_null (P := P) (a := a) (s := s)
    have hnull : a.apply P (bindParam P .null) = .null := apply_null P a
    rw [hnull] at h
    cases hp : a.applyToParam P (.text s) with
    | null => exact hparam hp
    | _ => rw [hp] at h; exact Ordering.noConfusion h
  | bool b =>
    refine iff_of_false (bool_not_found ?_ b) id
    obtain h | h := js.trimmed_bool s b hv
    · exact isNumeric_eq_false (by rw [h]; rfl) (by decide : (116 : UInt8) ≠ 45 ∧ _)
    · exact isNumeric_eq_false (by rw [h]; rfl) (by decide : (102 : UInt8) ≠ 45 ∧ _)
  | integer n => exact stored_number_agrees_iff (.inl ⟨_, rfl⟩)
  | float x => exact stored_number_agrees_iff (.inr ⟨_, rfl⟩)
  | string t =>
    obtain ⟨hhead, hlength⟩ := js.trimmed_string s t hv
    refine (other_text_agrees_iff (isNumeric_eq_false hhead (by decide))).trans ?_
    -- the typed text has two quotes more
    refine iff_of_false (fun h => ?_) id
    rw [h] at hlength
    omega
  | array xs =>
    have hhead := js.trimmed_array s xs hv
    exact other_text_agrees_iff (isNumeric_eq_false hhead (by decide))
  | object kvs =>
    have hhead := js.trimmed_object s kvs hv
    exact other_text_agrees_iff (isNumeric_eq_false hhead (by decide))

end

/-! ### The form -/

section
variable {js : JsRuntime} {P : Platform} {strtod : Bytes → Real64} {a : Affinity}
variable {kind : LogColumnKind} {raw f : Bytes} {v : Json}

theorem number_form_agrees_iff (hP : SignsKept P) {x? : Option ℚ}
    (hv : (x?.map fun x => jsonNumber strtod (js.numberText x)) = some v)
    (hf : x?.map js.numberText = some f) :
    SqlValue.compareWith (a.apply P (bindParam P v)) (a.applyToParam P (.text f)) = .eq ↔
      ∀ x ∈ x?, NumberAgrees P strtod a (js.numberText x) := by
  obtain ⟨x, rfl, rfl⟩ := Option.map_eq_some_iff.mp hv
  cases hf
  rw [number_agrees_iff hP (js.isNumeric_numberText x)]
  refine ⟨fun h y hy => ?_, fun h => h x rfl⟩
  cases hy
  exact h

/-- The two forms give the same text for a date. -/
theorem datetime_form_eq {t : Bytes}
    (hv : (match datetimeLocalToFilterValue js t with
      | some iso => some (.string iso)
      | none => (js.dateParse t).map fun _ => Json.string t) = some v) :
    v = .string ((datetimeLocalToFilterValue js t).getD t) := by
  cases hlocal : datetimeLocalToFilterValue js t with
  | some iso =>
    rw [hlocal] at hv
    exact (Option.some.inj hv).symm
  | none =>
    rw [hlocal] at hv
    obtain ⟨ms, -, rfl⟩ := Option.map_eq_some_iff.mp hv
    rfl

theorem datetime_filter_eq {t : Bytes}
    (hf : (match datetimeLocalToFilterValue js t with
      | some fromLocal => some fromLocal
      | none => (js.dateParse t).map fun _ => t) = some f) :
    f = (datetimeLocalToFilterValue js t).getD t := by
  cases hlocal : datetimeLocalToFilterValue js t with
  | some iso =>
    rw [hlocal] at hf
    exact (Option.some.inj hf).symm
  | none =>
    rw [hlocal] at hf
    obtain ⟨ms, -, rfl⟩ := Option.map_eq_some_iff.mp hf
    rfl

/-- **What the form stores is equal to what the filter looks for** if the two agree. -/
theorem form_agrees_iff (hP : SignsKept P)
    (hv : coerceFieldToJsonValue js strtod kind raw false = some v)
    (hf : coerceFilterValue js kind raw = some f) :
    SqlValue.compareWith (a.apply P (bindParam P v)) (a.applyToParam P (.text f)) = .eq ↔
      FormAgrees js P strtod a kind raw := by
  have hne : ¬ (jsTrim raw).isEmpty = true := by
    intro hempty
    unfold coerceFilterValue at hf
    rw [if_pos hempty] at hf
    cases hf
  unfold coerceFieldToJsonValue at hv
  unfold coerceFilterValue at hf
  rw [if_neg hne] at hv hf
  cases kind with
  | boolean =>
    obtain ⟨b, hb, rfl⟩ := Option.map_eq_some_iff.mp hv
    rw [hb] at hf
    cases hf
    have hword : isNumeric (if b = true then lit "true" else lit "false") = false := by
      cases b <;> decide
    exact iff_of_false (bool_not_found hword b) id
  | integer => exact number_form_agrees_iff hP hv hf
  | number => exact number_form_agrees_iff hP hv hf
  | datetime =>
    rw [datetime_form_eq hv, datetime_filter_eq hf]
    exact text_agrees_iff
  | json =>
    -- `parseJsonField` trims once more
    have hparse : js.jsonParse (jsTrim raw) = some v := by
      unfold parseJsonField at hv
      rwa [jsTrim_jsTrim, if_neg hne] at hv
    cases hf
    exact json_agrees_iff hparse
  | text =>
    cases hv
    cases hf
    exact text_agrees_iff
  | blob =>
    cases hv
    cases hf
    exact text_agrees_iff

end

/-- In an integer column it is enough that the number is an `int64_t`, or the same double on
both sides. -/
theorem integer_form_agrees_iff {js : JsRuntime} {P : Platform} {strtod : Bytes → Real64}
    {ci : ColumnInfo} {raw : Bytes} (hkind : normalizeColumnKind ci.type false = .integer) :
    FormAgrees js P strtod ci.affinity .integer raw ↔
      ∀ x ∈ integerNumber js (jsTrim raw),
        (∀ n, jsonNumber strtod (js.numberText x) = .integer n → fitsInt64 n = true) ∧
          ∀ y, jsonNumber strtod (js.numberText x) = .float y →
            P.realOfText (js.numberText x) = y := by
  have hreal : ci.affinity ≠ .real := by
    rw [ColumnInfo.affinity, affinity_of_integer_kind hkind]
    exact Affinity.noConfusion
  unfold FormAgrees
  rw [ColumnInfo.affinity, affinity_of_integer_kind hkind] at hreal ⊢
  refine forall₂_congr fun x _ => and_congr_left fun _ => forall₂_congr fun n _ => ?_
  exact and_iff_left fun hno => absurd hno hreal

/-- **The form and the filter.**  A row that was inserted with the value that the form makes
of what was typed, in a column without compression, is selected by the filter for the text
that the filter's form makes of it exactly if the two agree. -/
theorem form_selects_iff {cat : DatabaseCatalog} {w : WriterDatabase} {js : JsRuntime}
    {strtod : Bytes → Real64} {r : LogRow} {ci : ColumnInfo} {raw f : Bytes} {v : Json}
    (hP : SignsKept cat.platform) (hw : Reachable cat w) (hr : r ∈ w.log)
    (hci : ci ∈ cat.insertColumns) (hplain : cat.compressedColumns.contains ci.name = false)
    (hv : coerceFieldToJsonValue js strtod (normalizeColumnKind ci.type false) raw false = some v)
    (hf : coerceFilterValue js (normalizeColumnKind ci.type false) raw = some f)
    (hposted : r.source.find ci.name = v) :
    selects cat w.colDict [⟨ci.name, lit "=", .string f⟩] r = true ↔
      FormAgrees js cat.platform strtod ci.affinity (normalizeColumnKind ci.type false) raw := by
  rw [selects_eq_iff hw.sound hr hci hplain f, hposted]
  exact form_agrees_iff hP hv hf

/-! ### An engine to try things on -/

/-- Doubles that are exact for the texts of integers. -/
def integerPlatform : Platform where
  floatText := fun _ => lit "0.0"
  realOfText := fun s => .finite ((integerLiteral s).getD 0 : ℤ)
  realText := fun _ => lit "0.0"

theorem signsKept_integerPlatform : SignsKept integerPlatform := by
  intro s n hn
  show compare (((integerLiteral s).getD 0 : ℤ) : ℚ) ((0 : ℤ) : ℚ) = compare n 0
  rw [hn]
  exact compare_intCast n 0

theorem isNumeric_decimal (n : ℤ) : isNumeric (decimal n) = true := by
  rw [isNumeric, integerLiteral_decimal]
  rfl

theorem of_nothing_parsed {p : Prop} {v : Json} (h : (none : Option Json) = some v) : p := by
  cases h

/-- An engine that reads integers and nothing else. -/
def integerRuntime : JsRuntime where
  number := fun s => (integerLiteral s).map fun n => .finite n
  numberText := fun x => decimal x.num
  dateParse := fun _ => none
  localTime := fun _ => ⟨1970, 0, 1, 0, 0, 0⟩
  jsonParse := fun _ => none
  isNumeric_numberText := fun x => isNumeric_decimal x.num
  trimmed_bool := fun _ _ h => of_nothing_parsed h
  trimmed_string := fun _ _ h => of_nothing_parsed h
  trimmed_array := fun _ _ h => of_nothing_parsed h
  trimmed_object := fun _ _ h => of_nothing_parsed h

/-- A log table whose `level` has this type. -/
def typedCatalog (type : Bytes) : DatabaseCatalog where
  compressedColumns := []
  logColumnInfo := levelColumns type
  accepts := fun _ _ => true
  platform := integerPlatform
  names_nodup := levelColumns_nodup type

/-- The `level` of that table. -/
def levelColumn (type : Bytes) : ColumnInfo := ⟨lit "level", type, false, false, level_noNul⟩

theorem levelColumn_mem (type : Bytes) : levelColumn type ∈ (typedCatalog type).insertColumns :=
  List.mem_cons_self

/-- `42` in an integer column is found. -/
theorem form_selects_number : ∃ w, Reachable (typedCatalog (lit "INTEGER")) w ∧
    ∃ r ∈ w.log, r.source = .object [(lit "level", .integer 42)] ∧
      selects (typedCatalog (lit "INTEGER")) w.colDict
        [⟨lit "level", lit "=", .string (lit "42")⟩] r = true := by
  have hw : InsertReturns (typedCatalog (lit "INTEGER")) .fresh
      (.none, [.object [(lit "level", .integer 42)]]) _ := ⟨_, rfl⟩
  have hreach := hw.reachable
  have htrim : jsTrim (lit " 42 ") = lit "42" := by decide
  have hfilled : ¬ (lit "42").isEmpty = true := by decide
  have hnumber : integerNumber integerRuntime (lit "42") = some 42 := by decide
  have hliteral : integerLiteral (lit "42") = some 42 := by decide
  have hjson : jsonNumber integerPlatform.realOfText (lit "42") = .integer 42 := by
    rw [jsonNumber, hliteral]
    exact if_pos (by decide)
  have hv : coerceFieldToJsonValue integerRuntime integerPlatform.realOfText .integer
      (lit " 42 ") false = some (.integer 42) := by
    unfold coerceFieldToJsonValue
    rw [htrim]
    dsimp only
    rw [if_neg hfilled, hnumber]
    exact congrArg some hjson
  have hf : coerceFilterValue integerRuntime .integer (lit " 42 ") = some (lit "42") := by
    unfold coerceFilterValue
    rw [htrim]
    dsimp only
    rw [if_neg hfilled, hnumber]
    rfl
  refine ⟨_, hreach, _, List.mem_cons_self, rfl,
    (form_selects_iff signsKept_integerPlatform hreach List.mem_cons_self
      (levelColumn_mem (lit "INTEGER")) rfl hv hf rfl).mpr ?_⟩
  intro x hx
  have hx' : x = 42 := by
    rw [htrim] at hx
    exact (Option.some.inj (hnumber.symm.trans hx)).symm
  subst hx'
  refine ⟨fun n hn => ?_, fun y hy => ?_⟩
  · cases hjson.symm.trans hn
    exact ⟨by decide, fun hreal => Affinity.noConfusion hreal⟩
  · cases hjson.symm.trans hy

/-- `true` in a column of truth values is not found: it is stored as `1`. -/
theorem form_selects_boolean : ¬ ∀ (cat : DatabaseCatalog) (w : WriterDatabase) (js : JsRuntime)
    (strtod : Bytes → Real64) (r : LogRow) (ci : ColumnInfo) (raw f : Bytes) (v : Json),
    SignsKept cat.platform → Reachable cat w → r ∈ w.log → ci ∈ cat.insertColumns →
      cat.compressedColumns.contains ci.name = false →
        coerceFieldToJsonValue js strtod (normalizeColumnKind ci.type false) raw false = some v →
          coerceFilterValue js (normalizeColumnKind ci.type false) raw = some f →
            r.source.find ci.name = v →
              selects cat w.colDict [⟨ci.name, lit "=", .string f⟩] r = true := by
  intro h
  have hw : InsertReturns (typedCatalog (lit "BOOLEAN")) .fresh
      (.none, [.object [(lit "level", .bool true)]]) _ := ⟨_, rfl⟩
  have hreach := hw.reachable
  have hno := h _ _ integerRuntime integerPlatform.realOfText _ _ (lit "true") (lit "true")
    (.bool true) signsKept_integerPlatform hreach List.mem_cons_self
    (levelColumn_mem (lit "BOOLEAN")) rfl rfl rfl rfl
  exact absurd hno (by decide)

end LogLite
