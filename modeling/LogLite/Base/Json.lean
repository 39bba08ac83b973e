import LogLite.Base.Bytes
import Mathlib.Algebra.Ring.Int.Defs
import Mathlib.Algebra.Ring.Nat
import Mathlib.Data.Rat.Init

/-!
# JSON values

A log entry is a `nlohmann::json`.  The database code looks at the kind of a
value, reads integers through `get<int64_t>` and strings through
`get<std::string>`, and renders everything else with `dump`.

The text of a double is the library's business (the shortest decimal that reads
back as the same double), so `dump` takes it from the `Platform`.

## Main definitions

* `Real64` — a double; `Json` — a JSON value.
* `Platform` — the conversions between doubles and text that the libraries do.
* `Json.dump` — `nlohmann::json::dump()`.
* `Json.find` — `log.find(name)`, with `null` for a missing member.
* `toInt64` — conversion to `int64_t`.
-/

namespace LogLite

/-- A double: a finite value or an infinity. -/
inductive Real64 where
  | finite (x : ℚ)
  | infinite (negative : Bool)
  deriving DecidableEq, Repr

/-- A JSON value.  The integers are those of `number_integer` and
`number_unsigned`; an object lists its members in key order, each key once. -/
inductive Json where
  | null
  | bool (b : Bool)
  | integer (n : ℤ)
  | float (x : Real64)
  | string (s : Bytes)
  | array (xs : List Json)
  | object (kvs : List (Bytes × Json))
  deriving Repr, Inhabited

/-- What the libraries do with doubles: `floatText` is how `dump` prints one,
`realOfText` how SQLite reads a numeric text and `realText` how it prints a
`REAL`. -/
structure Platform where
  floatText : Real64 → Bytes
  realOfText : Bytes → Real64
  realText : Real64 → Bytes

/-- `static_cast<int64_t>` of an integer that may be an unsigned 64-bit one. -/
def toInt64 (n : ℤ) : ℤ := n.bmod (2 ^ 64)

/-- One hexadecimal digit, in lower case. -/
def hexDigit (n : UInt8) : UInt8 := if n < 10 then 48 + n else 87 + n

/-- One byte of a string as `dump` writes it. -/
def escapeByte (b : UInt8) : Bytes :=
  if b = 8 then lit "\\b"
  else if b = 9 then lit "\\t"
  else if b = 10 then lit "\\n"
  else if b = 12 then lit "\\f"
  else if b = 13 then lit "\\r"
  else if b = 34 then lit "\\\""
  else if b = 92 then lit "\\\\"
  else if b ≤ 31 then lit "\\u00" ++ [hexDigit (b / 16), hexDigit (b % 16)]
  else [b]

/-- A string in quotes, as `dump` writes it. -/
def quoted (s : Bytes) : Bytes := lit "\"" ++ s.flatMap escapeByte ++ lit "\""

namespace Json

section
variable (P : Platform)

mutual

/-- `dump()`: the value as compact JSON text. -/
def dump : Json → Bytes
  | null => lit "null"
  | bool b => if b then lit "true" else lit "false"
  | integer n => decimal n
  | float x => P.floatText x
  | string s => quoted s
  | array xs => [91] ++ dumpItems xs ++ [93]
  | object kvs => [123] ++ dumpMembers kvs ++ [125]

/-- The items of an array, separated by commas. -/
def dumpItems : List Json → Bytes
  | [] => []
  | [x] => dump x
  | x :: y :: xs => dump x ++ [44] ++ dumpItems (y :: xs)

/-- The members of an object, separated by commas. -/
def dumpMembers : List (Bytes × Json) → Bytes
  | [] => []
  | [(k, x)] => quoted k ++ [58] ++ dump x
  | (k, x) :: y :: xs => quoted k ++ [58] ++ dump x ++ [44] ++ dumpMembers (y :: xs)

end
end

/-- `is_null()`. -/
def isNull : Json → Bool
  | null => true
  | _ => false

/-- `log.find(name)`, read as `null` when there is no such member; a value that
is not an object has no members. -/
def find (name : Bytes) : Json → Json
  | object kvs => ((kvs.find? fun kv => kv.1 == name).map Prod.snd).getD null
  | _ => null

@[simp] theorem isNull_null : isNull null = true := rfl

theorem isNull_iff {v : Json} : v.isNull = true ↔ v = null := by
  cases v <;> simp [isNull]

example (P : Platform) :
    dump P (object [(lit "a", array [null, integer (-12)]), (lit "b", string (lit "x\"y"))])
      = lit "\x7b\"a\":[null,-12],\"b\":\"x\\\"y\"\x7d" := by rfl

end Json

end LogLite
