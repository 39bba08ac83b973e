import LogLite.Base.Sqlite

/-!
# Integers as texts

SQLite reads the decimal text of an integer as that integer.

## Main definitions

* `digitBytes` — a natural number in decimal.

## Main results

* `integerLiteral_decimal` — **`decimal` writes what `integerLiteral` reads.**
-/

namespace LogLite

/-! ### Natural numbers -/

/-- A natural number in decimal. -/
def digitBytes (n : ℕ) : Bytes := (Nat.toDigits 10 n).map fun c => c.toNat.toUInt8

/-- A digit as a character and as a byte. -/
theorem digit_range {c : Char} (h : c.isDigit = true) : 48 ≤ c.toNat ∧ c.toNat ≤ 57 := by
  rw [Char.isDigit, Bool.and_eq_true, decide_eq_true_eq, decide_eq_true_eq] at h
  exact ⟨UInt32.le_iff_toNat_le.mp h.1, UInt32.le_iff_toNat_le.mp h.2⟩

theorem toNat_digit {c : Char} (h : c.isDigit = true) : c.toNat.toUInt8.toNat = c.toNat := by
  have hrange := digit_range h
  exact Nat.mod_eq_of_lt (by omega)

theorem isDigit_digitBytes (n : ℕ) : (digitBytes n).all isDigit = true := by
  rw [List.all_eq_true]
  intro b hb
  obtain ⟨c, hc, rfl⟩ := List.mem_map.mp hb
  have hdigit := Nat.isDigit_of_mem_toDigits (by decide) (by decide) hc
  have hrange := digit_range hdigit
  rw [isDigit, Bool.and_eq_true, decide_eq_true_eq, decide_eq_true_eq, UInt8.le_iff_toNat_le,
    UInt8.le_iff_toNat_le, toNat_digit hdigit]
  exact hrange

theorem digitBytes_ne_nil (n : ℕ) : digitBytes n ≠ [] := by
  rw [digitBytes, Ne, List.map_eq_nil_iff]
  exact Nat.toDigits_ne_nil

/-- The digits of a number denote it. -/
theorem digitsValue_digitBytes (n : ℕ) : digitsValue (digitBytes n) = n := by
  have hfold : ∀ (cs : List Char) (m : ℕ), (∀ c ∈ cs, c.isDigit = true) →
      (cs.map fun c => c.toNat.toUInt8).foldl (fun n b => 10 * n + (b.toNat - 48)) m =
        Nat.ofDigitChars 10 cs m := by
    intro cs
    induction cs with
    | nil => exact fun m _ => Nat.ofDigitChars_nil.symm
    | cons c cs ih =>
      intro m hcs
      obtain ⟨hc, hcs⟩ := List.forall_mem_cons.mp hcs
      rw [List.map_cons, List.foldl_cons, ih _ hcs, Nat.ofDigitChars_cons, toNat_digit hc]
      rfl
  refine (hfold _ 0 fun c hc => ?_).trans Nat.ofDigitChars_ten_toDigits
  exact Nat.isDigit_of_mem_toDigits (by decide) (by decide) hc

/-! ### Integers -/

theorem decimal_natCast (n : ℕ) : decimal n = digitBytes n := by
  show lit (Nat.repr n) = _
  rw [lit, Nat.toList_repr]
  rfl

theorem decimal_negSucc (n : ℕ) : decimal (Int.negSucc n) = 45 :: digitBytes (n + 1) := by
  show lit ("-" ++ Nat.repr (n + 1)) = _
  rw [lit, String.toList_append, Nat.toList_repr]
  rfl

/-- A text without blanks is not trimmed. -/
theorem trimmed_eq_self {s : Bytes} (h : ∀ b ∈ s, isSqlSpace b = false) : trimmed s = s := by
  have hdrop : ∀ t : Bytes, (∀ b ∈ t, isSqlSpace b = false) → t.dropWhile isSqlSpace = t := by
    intro t ht
    cases t with
    | nil => rfl
    | cons b t => exact List.dropWhile_cons_of_neg (by simp [ht b List.mem_cons_self])
  rw [trimmed, hdrop s h, hdrop, List.reverse_reverse]
  exact fun b hb => h b (List.mem_reverse.mp hb)

theorem isSqlSpace_of_isDigit {b : UInt8} (h : isDigit b = true) : isSqlSpace b = false := by
  unfold isDigit at h
  unfold isSqlSpace
  grind

theorem splitSign_digits {s : Bytes} (h : s.all isDigit = true) : splitSign s = (false, s) := by
  unfold splitSign
  split
  · exact absurd (List.all_eq_true.mp h 45 List.mem_cons_self) (by decide)
  · exact absurd (List.all_eq_true.mp h 43 List.mem_cons_self) (by decide)
  · rfl

/-- **The decimal text of an integer denotes it.** -/
theorem integerLiteral_decimal (n : ℤ) : integerLiteral (decimal n) = some n := by
  have hdigits : ∀ m, (!(digitBytes m).isEmpty && (digitBytes m).all isDigit) = true := by
    intro m
    rw [isDigit_digitBytes, Bool.and_true, Bool.not_eq_true', List.isEmpty_eq_false_iff]
    exact digitBytes_ne_nil m
  have hblank : ∀ m, ∀ b ∈ digitBytes m, isSqlSpace b = false :=
    fun m b hb => isSqlSpace_of_isDigit (List.all_eq_true.mp (isDigit_digitBytes m) b hb)
  unfold integerLiteral
  cases n with
  | ofNat m =>
    rw [Int.ofNat_eq_natCast, decimal_natCast, trimmed_eq_self (hblank m),
      splitSign_digits (isDigit_digitBytes m)]
    dsimp only
    rw [if_pos (hdigits m), if_neg Bool.false_ne_true, digitsValue_digitBytes]
  | negSucc m =>
    have hblanks : ∀ b ∈ 45 :: digitBytes (m + 1), isSqlSpace b = false :=
      List.forall_mem_cons.mpr ⟨by decide, hblank (m + 1)⟩
    rw [decimal_negSucc, trimmed_eq_self hblanks]
    show (if !(digitBytes (m + 1)).isEmpty && (digitBytes (m + 1)).all isDigit then
      some (-(digitsValue (digitBytes (m + 1)) : ℤ)) else none) = _
    rw [if_pos (hdigits (m + 1)), digitsValue_digitBytes]
    rfl

end LogLite
