import Mathlib.Data.List.Infix
import Mathlib.Data.List.TakeWhile
import Mathlib.Data.Int.Notation

/-!
# Byte strings

`std::string` is a sequence of bytes: it may hold any byte, `NUL` included, and
its comparison operators and `find` work on the bytes as unsigned numbers.

## Main definitions

* `Bytes` — a `std::string`; `lit` — the bytes of an ASCII literal.
* `cstr` — what a reader that stops at the first `NUL` byte sees.
* `isSpace` — white space.
* `contains` — `haystack.find(needle) != npos`.
* `decimal` — an integer in decimal, as `std::to_string` writes it.
* `Cmp` — the six comparison operators, on any type with an order.
-/

namespace LogLite

/-- A `std::string`. -/
abbrev Bytes := List UInt8

/-- The bytes of an ASCII literal. -/
def lit (s : String) : Bytes := s.toList.map fun c => c.toNat.toUInt8

/-- What a `char*` reader sees of a string: everything before the first `NUL`. -/
def cstr (s : Bytes) : Bytes := s.takeWhile (· != 0)

theorem cstr_eq_self_iff {s : Bytes} : cstr s = s ↔ 0 ∉ s := by
  unfold cstr
  rw [List.takeWhile_eq_self_iff]
  constructor
  · intro h h0
    simpa using h 0 h0
  · intro h b hb
    have : b ≠ 0 := fun hb0 => h (hb0 ▸ hb)
    simpa using this

theorem cstr_append (s t : Bytes) : cstr (s ++ t) = if 0 ∈ s then cstr s else s ++ cstr t := by
  have hlen : ((s.takeWhile (· != 0)).length = s.length) ↔ 0 ∉ s := by
    rw [← cstr_eq_self_iff]
    exact ⟨(List.takeWhile_prefix _).eq_of_length, fun h => congrArg List.length h⟩
  unfold cstr
  rw [List.takeWhile_append]
  by_cases h0 : 0 ∈ s
  · rw [if_pos h0, if_neg (by rw [hlen]; simpa using h0)]
  · rw [if_neg h0, if_pos (hlen.mpr h0)]

theorem zero_notMem_cstr (s : Bytes) : 0 ∉ cstr s := by
  intro h
  simpa using List.mem_takeWhile_imp h

/-- `haystack.find(needle) != std::string::npos`. -/
def contains (needle haystack : Bytes) : Bool := haystack.tails.any fun t => needle.isPrefixOf t

theorem contains_iff {needle haystack : Bytes} :
    contains needle haystack = true ↔ needle <:+: haystack := by
  unfold contains
  rw [List.any_eq_true]
  constructor
  · rintro ⟨t, ht, hp⟩
    rw [List.mem_tails] at ht
    rw [List.isPrefixOf_iff_prefix] at hp
    exact hp.isInfix.trans ht.isInfix
  · rintro ⟨a, b, rfl⟩
    refine ⟨needle ++ b, ?_, ?_⟩
    · rw [List.mem_tails, List.append_assoc]
      exact List.suffix_append a (needle ++ b)
    · rw [List.isPrefixOf_iff_prefix]
      exact List.prefix_append needle b

/-- `std::isspace`, in the C locale. -/
def isSpace (b : UInt8) : Bool := b == 32 || (9 ≤ b && b ≤ 13)

/-- An integer in decimal. -/
def decimal (n : ℤ) : Bytes := lit (toString n)

/-! ### Comparison operators -/

/-- The comparison operators of a filter. -/
inductive Cmp where
  | eq
  | ne
  | gt
  | ge
  | lt
  | le
  deriving DecidableEq, Repr

/-- Whether two values stand in the relation `op`, given how they compare. -/
def Cmp.holds : Cmp → Ordering → Bool
  | .eq, o => o == .eq
  | .ne, o => o != .eq
  | .gt, o => o == .gt
  | .ge, o => o != .lt
  | .lt, o => o == .lt
  | .le, o => o != .gt

example : compare (lit "INFO") (lit "info") = .lt := by decide

end LogLite
