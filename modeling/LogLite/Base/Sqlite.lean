import LogLite.Base.Json
import Mathlib.Algebra.Order.Ring.Unbundled.Rat

/-!
# SQLite values

SQLite is not part of the repository; this module states the part of its
documented behaviour the database code depends on: storage classes, column
affinity, the comparison of a column with a bound parameter, and `LIKE`.

## Main definitions

* `SqlValue` — a stored value; `Affinity` — the affinity of a column.
* `declaredAffinity` — the affinity of a declared column type.
* `numericText` — what a text becomes under `NUMERIC` affinity.
* `Affinity.apply` — the conversion done when a value is stored.
* `columnText` — `sqlite3_column_text`, read through a `char*`.
* `SqlValue.comparison` — `column op ?`, which is not true when a side is NULL.
* `like` — `text LIKE pattern`.

## Main results

* `numericText_text_iff` — a text stays a text unless it denotes a number.
* `toInt64_eq_self_iff` — the integers that fit are those the conversion keeps.
-/

namespace LogLite

/-- A value as SQLite stores it. -/
inductive SqlValue where
  | null
  | integer (n : ℤ)
  | real (x : Real64)
  | text (s : Bytes)
  deriving DecidableEq, Repr

/-- Column affinity. -/
inductive Affinity where
  | blob
  | text
  | numeric
  | integer
  | real
  deriving DecidableEq, Repr

/-- ASCII letters in lower case; every other byte as it is. -/
def lowerByte (b : UInt8) : UInt8 := if 65 ≤ b ∧ b ≤ 90 then b + 32 else b

/-- The affinity of a declared column type, by SQLite's five rules. -/
def declaredAffinity (type : Bytes) : Affinity :=
  let t := type.map lowerByte
  if contains (lit "int") t then .integer
  else if contains (lit "char") t || contains (lit "clob") t || contains (lit "text") t then .text
  else if contains (lit "blob") t || t.isEmpty then .blob
  else if contains (lit "real") t || contains (lit "floa") t || contains (lit "doub") t then .real
  else .numeric

example : declaredAffinity (lit "JSON") = .numeric := by decide

/-! ### Texts that denote numbers -/

/-- `sqlite3Isspace`. -/
def isSqlSpace (b : UInt8) : Bool := b == 32 || (9 ≤ b && b ≤ 13)

/-- `sqlite3Isdigit`. -/
def isDigit (b : UInt8) : Bool := 48 ≤ b && b ≤ 57

/-- A text without leading and trailing blanks. -/
def trimmed (s : Bytes) : Bytes :=
  ((s.dropWhile isSqlSpace).reverse.dropWhile isSqlSpace).reverse

/-- The sign of a numeric text and what follows it. -/
def splitSign : Bytes → Bool × Bytes
  | 45 :: s => (true, s)
  | 43 :: s => (false, s)
  | s => (false, s)

/-- The number a list of digits denotes. -/
def digitsValue (s : Bytes) : ℕ := s.foldl (fun n b => 10 * n + (b.toNat - 48)) 0

/-- The integer denoted by a text that is a sign and digits between blanks. -/
def integerLiteral (s : Bytes) : Option ℤ :=
  let (negative, ds) := splitSign (trimmed s)
  if !ds.isEmpty && ds.all isDigit then
    some (if negative then -(digitsValue ds : ℤ) else digitsValue ds)
  else none

/-- What may follow the mantissa of a number: nothing, or an exponent. -/
def isExponent : Bytes → Bool
  | [] => true
  | b :: s =>
    let ds := (splitSign s).2
    lowerByte b == 101 && !ds.isEmpty && ds.all isDigit

/-- The text is a number with a fraction or an exponent. -/
def isRealLiteral (s : Bytes) : Bool :=
  let t := (splitSign (trimmed s)).2
  let whole := t.takeWhile isDigit
  match t.dropWhile isDigit with
  | 46 :: r =>
    let frac := r.takeWhile isDigit
    !(whole ++ frac).isEmpty && isExponent (r.dropWhile isDigit)
  | r => !whole.isEmpty && isExponent r

/-- The integer fits in 64 bits. -/
def fitsInt64 (n : ℤ) : Bool := -2 ^ 63 ≤ n && n < 2 ^ 63

theorem fitsInt64_iff {n : ℤ} : fitsInt64 n = true ↔ -2 ^ 63 ≤ n ∧ n < 2 ^ 63 := by
  rw [fitsInt64, Bool.and_eq_true, decide_eq_true_eq, decide_eq_true_eq]

theorem fitsInt64_toInt64 (n : ℤ) : fitsInt64 (toInt64 n) = true := by
  have hlow := Int.le_bmod (x := n) (m := 2 ^ 64) (by decide)
  have hhigh := Int.bmod_lt (x := n) (m := 2 ^ 64) (by decide)
  rw [fitsInt64_iff, toInt64]
  omega

/-- The conversion to `int64_t` keeps what fits, and nothing else. -/
theorem toInt64_eq_self_iff {n : ℤ} : toInt64 n = n ↔ fitsInt64 n = true := by
  constructor
  · intro h
    rw [← h]
    exact fitsInt64_toInt64 n
  · intro h
    rw [fitsInt64_iff] at h
    exact Int.bmod_eq_of_le (by omega) (by omega)

/-- A `REAL` under `NUMERIC` affinity: an integer where that loses nothing. -/
def numericReal : Real64 → SqlValue
  | .finite x =>
    if x.den = 1 ∧ -2 ^ 63 < x.num ∧ x.num < 2 ^ 63 - 1 then .integer x.num else .real (.finite x)
  | .infinite s => .real (.infinite s)

section
variable (P : Platform)

/-- A text under `NUMERIC` affinity: the number it denotes, if it denotes one. -/
def numericText (s : Bytes) : SqlValue :=
  match integerLiteral s with
  | some n => if fitsInt64 n then .integer n else .real (P.realOfText s)
  | none => if isRealLiteral s then numericReal (P.realOfText s) else .text s

/-- The conversion done when a value is stored in a column. -/
def Affinity.apply : Affinity → SqlValue → SqlValue
  | .blob, v => v
  | .text, .integer n => .text (decimal n)
  | .text, .real x => .text (P.realText x)
  | .text, v => v
  | .numeric, .text s => numericText P s
  | .numeric, .real x => numericReal x
  | .numeric, v => v
  | .integer, .text s => numericText P s
  | .integer, .real x => numericReal x
  | .integer, v => v
  | .real, .integer n => .real (P.realOfText (decimal n))
  | .real, .text s =>
    match numericText P s with
    | .integer n => .real (P.realOfText (decimal n))
    | v => v
  | .real, v => v

/-- A value as text. -/
def textOf : SqlValue → Bytes
  | .null => []
  | .integer n => decimal n
  | .real x => P.realText x
  | .text s => s

/-- `sqlite3_column_text` read through a `char*`, with `""` for a null pointer. -/
def columnText (v : SqlValue) : Bytes := cstr (textOf P v)

/-- The text denotes a number, so `NUMERIC` affinity converts it. -/
def isNumeric (s : Bytes) : Bool := (integerLiteral s).isSome || isRealLiteral s

/-- A text stays a text under `NUMERIC` affinity unless it denotes a number. -/
theorem numericText_text_iff {s t : Bytes} :
    numericText P s = .text t ↔ isNumeric s = false ∧ s = t := by
  unfold numericText isNumeric
  cases integerLiteral s with
  | some n =>
    by_cases hn : fitsInt64 n = true <;> simp [hn]
  | none =>
    cases hr : isRealLiteral s with
    | false => simp
    | true =>
      have hne : ∀ x : Real64, numericReal x ≠ .text t := by
        intro x
        cases x with
        | infinite b => simp [numericReal]
        | finite x =>
          simp only [numericReal]
          split <;> exact SqlValue.noConfusion
      simp [hne]

@[simp] theorem apply_integer_integer (n : ℤ) :
    Affinity.apply P .integer (.integer n) = .integer n := rfl

@[simp] theorem apply_null (a : Affinity) : Affinity.apply P a .null = .null := by
  cases a <;> rfl

/-! ### Comparison -/

/-- How two numbers compare, a double being an exact rational or an infinity. -/
def Real64.compareWith : Real64 → Real64 → Ordering
  | .finite x, .finite y => compare x y
  | .infinite true, .infinite true => .eq
  | .infinite false, .infinite false => .eq
  | .infinite true, _ => .lt
  | _, .infinite true => .gt
  | .infinite false, _ => .gt
  | _, .infinite false => .lt

/-- How two values that are not NULL compare: numbers by value, texts byte by
byte, and every number before every text. -/
def SqlValue.compareWith : SqlValue → SqlValue → Ordering
  | .null, .null => .eq
  | .null, _ => .lt
  | _, .null => .gt
  | .integer m, .integer n => compare m n
  | .integer m, .real y => Real64.compareWith (.finite m) y
  | .real x, .integer n => Real64.compareWith x (.finite n)
  | .real x, .real y => Real64.compareWith x y
  | .text s, .text t => compare s t
  | .text _, _ => .gt
  | _, .text _ => .lt

/-- The conversion of a bound parameter that is compared with a column. -/
def Affinity.applyToParam : Affinity → SqlValue → SqlValue
  | .blob, v => v
  | .text, v => Affinity.apply P .text v
  | _, v => Affinity.apply P .numeric v

/-- Whether `column op ?` is true; it is not when the column or the parameter
is NULL. -/
def SqlValue.comparison (a : Affinity) (op : Cmp) (column param : SqlValue) : Bool :=
  match column, a.applyToParam P param with
  | .null, _ => false
  | _, .null => false
  | c, p => op.holds (c.compareWith p)

@[simp] theorem comparison_null (a : Affinity) (op : Cmp) (p : SqlValue) :
    SqlValue.comparison P a op .null p = false := rfl

theorem comparison_integer_eq {m n : ℤ} :
    SqlValue.comparison P .integer .eq (.integer m) (.integer n) = true ↔ m = n := by
  show (compare m n == .eq) = true ↔ m = n
  rw [beq_iff_eq, compare_eq_iff_eq]

theorem comparison_text (op : Cmp) (s t : Bytes) :
    SqlValue.comparison P .text op (.text s) (.text t) = op.holds (compare s t) := rfl

end

/-! ### `LIKE` -/

/-- A byte inside a multi-byte character. -/
def isContinuation (b : UInt8) : Bool := 128 ≤ b && b < 192

/-- The rest of a text after its first character, whose first byte was `b`. -/
def afterChar (b : UInt8) (t : Bytes) : Bytes :=
  if 192 ≤ b then t.dropWhile isContinuation else t

/-- Whether a text matches a pattern: `%` stands for any sequence of characters,
`_` for one character, and letters match in either ASCII case. -/
def likeMatch : Bytes → Bytes → Bool
  | [], t => t.isEmpty
  | p :: ps, t =>
    if p = 37 then t.tails.any (likeMatch ps)
    else
      match t with
      | [] => false
      | c :: t =>
        if p = 95 then !isContinuation c && likeMatch ps (afterChar c t)
        else lowerByte p == lowerByte c && likeMatch ps t

/-- `text LIKE pattern`, on the bytes of well-formed UTF-8; both are read up to
their first `NUL`. -/
def like (pattern text : Bytes) : Bool := likeMatch (cstr pattern) (cstr text)

example : like (lit "%a_C%") (lit "xxABcd") = true := by decide

end LogLite
