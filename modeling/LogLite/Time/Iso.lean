import LogLite.Lib.Calendar
import LogLite.Lib.FixedWidth
import LogLite.Base.Sqlite

/-!
# ISO-8601 times

A point in time is a count of nanoseconds since 1970.  The server writes it in UTC with
fields of fixed widths, and reads it with the `date` library, which is not part of the
repository: `DateLib` is what `from_stream` does to a text.

## Main definitions

* `isoSeconds` — `%Y-%m-%dT%H:%M:%S`.
* `formatUtc` — `format_utc`, with milliseconds and `Z`.
* `parseIso8601` — `parse_iso8601`.

## Main results

* `isNumeric_of_mem` — SQLite does not take a time for a number.
* `compare_isoSeconds`, `compare_formatUtc` — **the texts sort as the times do**, in the
  years of four digits.
-/

namespace LogLite

/-- The symbol of a decimal digit. -/
def digitByte (d : ℤ) : UInt8 := 48 + d.toNat.toUInt8

/-- A number with a fixed count of digits, padded with zeros. -/
def padded (w : ℕ) (n : ℤ) : Bytes := FixedWidth.digits digitByte 10 w n

/-- `%H:%M:%S` of a second of a day. -/
def timeOfDay (s : ℤ) : Bytes :=
  padded 2 (s / 3600) ++ lit ":" ++ padded 2 (s % 3600 / 60) ++ lit ":" ++ padded 2 (s % 3600 % 60)

/-- `%Y-%m-%d` of a date whose year has four digits. -/
def dateText (d : Calendar.Date) : Bytes :=
  padded 4 d.year ++ lit "-" ++ padded 2 d.month ++ lit "-" ++ padded 2 d.day

/-- `%Y-%m-%dT%H:%M:%S` of a count of seconds since 1970, in UTC. -/
def isoSeconds (s : ℤ) : Bytes :=
  dateText (Calendar.date (s / 86400)) ++ lit "T" ++ timeOfDay (s % 86400)

/-- `format_utc`. -/
def formatUtc (tp : ℤ) : Bytes :=
  isoSeconds (tp / 1000000000) ++ lit "." ++ padded 3 (tp % 1000000000 / 1000000) ++ lit "Z"

example : formatUtc (-1) = lit "1969-12-31T23:59:59.999Z" := by decide

/-! ### Reading -/

/-- `strip_spaces`. -/
def stripSpaces (s : Bytes) : Bytes := ((s.dropWhile isSpace).reverse.dropWhile isSpace).reverse

/-- `date::from_stream` for nanoseconds: the time it reads from a text in a format and
what it leaves of the text, or `none` if it sets the fail bit. -/
structure DateLib where
  fromStream : Bytes → Bytes → Option (ℤ × Bytes)
  fits : ∀ fmt t tp rest, fromStream fmt t = some (tp, rest) → fitsInt64 tp = true

/-- `fmts`. -/
def isoFormats : List Bytes := [lit "%FT%TZ", lit "%FT%T%Ez", lit "%FT%T%z", lit "%FT%T"]

/-- `parse_iso8601`. -/
def parseIso8601 (lib : DateLib) (s : Bytes) : Option ℤ :=
  let t := stripSpaces s
  if t.contains 84 then
    -- the first format that reads all of the text
    isoFormats.findSome? fun fmt =>
      match lib.fromStream fmt t with
      | some (parsed, rest) => if (rest.dropWhile isSpace).isEmpty then some parsed else none
      | none => none
  else none

/-! ### Texts with a `T` -/

theorem mem_dropWhile_of_not {p : UInt8 → Bool} {b : UInt8} {s : Bytes} (hb : p b = false)
    (h : b ∈ s) : b ∈ s.dropWhile p := by
  rw [← List.takeWhile_append_dropWhile (p := p) (l := s)] at h
  refine (List.mem_append.mp h).resolve_left fun hmem => ?_
  rw [List.mem_takeWhile_imp hmem] at hb
  cases hb

theorem mem_trimmed {s : Bytes} (h : 84 ∈ s) : 84 ∈ trimmed s := by
  have hleft : 84 ∈ (s.dropWhile isSqlSpace).reverse :=
    List.mem_reverse.mpr (mem_dropWhile_of_not (by decide) h)
  exact List.mem_reverse.mpr (mem_dropWhile_of_not (by decide) hleft)

theorem mem_splitSign {s : Bytes} (h : 84 ∈ s) : 84 ∈ (splitSign s).2 := by
  unfold splitSign
  split
  · exact (List.mem_cons.mp h).resolve_left (by decide)
  · exact (List.mem_cons.mp h).resolve_left (by decide)
  · exact h

theorem all_isDigit_of_mem {s : Bytes} (h : 84 ∈ s) : s.all isDigit = false :=
  List.all_eq_false.mpr ⟨84, h, by decide⟩

theorem isExponent_of_mem {s : Bytes} (h : 84 ∈ s) : isExponent s = false := by
  cases s with
  | nil => cases h
  | cons b s =>
    rcases List.mem_cons.mp h with rfl | hmem
    · rfl
    · simp [isExponent, all_isDigit_of_mem (mem_splitSign hmem)]

/-- **A text with a `T` is not taken for a number.** -/
theorem isNumeric_of_mem {s : Bytes} (h : 84 ∈ s) : isNumeric s = false := by
  have ht := mem_splitSign (mem_trimmed h)
  have hinteger : integerLiteral s = none := by
    simp [integerLiteral, all_isDigit_of_mem ht]
  have hreal : isRealLiteral s = false := by
    -- the `T` is behind the digits, where only an exponent may follow
    have hrest := mem_dropWhile_of_not (p := isDigit) (by decide) ht
    unfold isRealLiteral
    dsimp only
    split
    · next r hr =>
      rw [hr] at hrest
      have hmem : 84 ∈ r := (List.mem_cons.mp hrest).resolve_left (by decide)
      rw [isExponent_of_mem (mem_dropWhile_of_not (by decide) hmem), Bool.and_false]
    · rw [isExponent_of_mem hrest, Bool.and_false]
  rw [isNumeric, hinteger, hreal]
  rfl

theorem mem_isoSeconds (s : ℤ) : 84 ∈ isoSeconds s := by
  unfold isoSeconds
  simp [lit]

/-- A time that is read is a time of the clock. -/
theorem fits_of_parseIso8601 {lib : DateLib} {s : Bytes} {tp : ℤ}
    (h : parseIso8601 lib s = some tp) : fitsInt64 tp = true := by
  unfold parseIso8601 at h
  dsimp only at h
  split at h
  · obtain ⟨fmt, -, hfmt⟩ := List.exists_of_findSome?_eq_some h
    split at hfmt
    · next parsed rest hread =>
      split at hfmt
      · cases hfmt
        exact lib.fits _ _ _ _ hread
      · cases hfmt
    · cases hfmt
  · cases h

/-- A text that is read as a time has a `T`. -/
theorem mem_of_parseIso8601 {lib : DateLib} {s : Bytes} {tp : ℤ}
    (h : parseIso8601 lib s = some tp) : 84 ∈ s := by
  unfold parseIso8601 at h
  dsimp only at h
  split at h
  · next hmem =>
    rw [List.contains_iff_mem, stripSpaces, List.mem_reverse] at hmem
    have hsuffix := (List.dropWhile_suffix isSpace).subset hmem
    exact (List.dropWhile_suffix isSpace).subset (List.mem_reverse.mp hsuffix)
  · cases h

/-! ### The order of the texts -/

theorem increasing_digitByte : FixedWidth.Increasing digitByte 10 := by
  intro i j hi hij hj
  rw [Std.compare_eq_lt, UInt8.lt_iff_toNat_lt]
  simp only [digitByte, UInt8.toNat_add, UInt8.toNat_ofNat, Nat.toUInt8_eq, UInt8.toNat_ofNat']
  omega

theorem compare_padded_append {w : ℕ} {m n : ℤ} (hm : 0 ≤ m ∧ m < 10 ^ w)
    (hn : 0 ≤ n ∧ n < 10 ^ w) (s t : Bytes) :
    compare (padded w m ++ s) (padded w n ++ t) = (compare m n).then (compare s t) :=
  FixedWidth.compare_digits_append (by omega) increasing_digitByte hm hn s t

theorem compare_padded {w : ℕ} {m n : ℤ} (hm : 0 ≤ m ∧ m < 10 ^ w) (hn : 0 ≤ n ∧ n < 10 ^ w) :
    compare (padded w m) (padded w n) = compare m n :=
  FixedWidth.compare_digits (by omega) increasing_digitByte hm.1 hm.2 hn.1 hn.2

@[simp] theorem length_padded (w : ℕ) (n : ℤ) : (padded w n).length = w :=
  FixedWidth.length_digits _ _ _ _

@[simp] theorem length_timeOfDay (s : ℤ) : (timeOfDay s).length = 8 := by
  simp [timeOfDay, lit]

@[simp] theorem length_dateText (d : Calendar.Date) : (dateText d).length = 10 := by
  simp [dateText, lit]

@[simp] theorem length_isoSeconds (s : ℤ) : (isoSeconds s).length = 19 := by
  simp [isoSeconds, lit]

theorem compare_timeOfDay {s t : ℤ} (hs : 0 ≤ s ∧ s < 86400) (ht : 0 ≤ t ∧ t < 86400) :
    compare (timeOfDay s) (timeOfDay t) = compare s t := by
  unfold timeOfDay
  simp only [List.append_assoc]
  rw [compare_padded_append (by omega) (by omega), FixedWidth.compare_append_left,
    compare_padded_append (by omega) (by omega), FixedWidth.compare_append_left,
    compare_padded (by omega) (by omega), ← FixedWidth.compare_divMod (by omega),
    ← FixedWidth.compare_divMod (by omega)]

/-- The year has four digits. -/
def FourDigits (s : ℤ) : Prop := -62167219200 ≤ s ∧ s < 253402300800

theorem FourDigits.year {s : ℤ} (h : FourDigits s) :
    0 ≤ (Calendar.date (s / 86400)).year ∧ (Calendar.date (s / 86400)).year < 10 ^ 4 := by
  unfold FourDigits at h
  have hfirst : (Calendar.date (-719528)).year = 0 := by decide
  have hlast : (Calendar.date 2932896).year = 9999 := by decide
  have hlow := Calendar.year_mono (show -719528 ≤ s / 86400 by omega)
  have hhigh := Calendar.year_mono (show s / 86400 ≤ 2932896 by omega)
  omega

theorem compare_dateText {z z' : ℤ}
    (hz : 0 ≤ (Calendar.date z).year ∧ (Calendar.date z).year < 10 ^ 4)
    (hz' : 0 ≤ (Calendar.date z').year ∧ (Calendar.date z').year < 10 ^ 4) :
    compare (dateText (Calendar.date z)) (dateText (Calendar.date z')) = compare z z' := by
  have hmonth := Calendar.date_month z
  have hmonth' := Calendar.date_month z'
  have hday := Calendar.date_day z
  have hday' := Calendar.date_day z'
  rw [← Calendar.compare_date z z']
  unfold dateText Calendar.Date.compareWith
  simp only [List.append_assoc]
  rw [compare_padded_append hz hz', FixedWidth.compare_append_left,
    compare_padded_append (by omega) (by omega), FixedWidth.compare_append_left,
    compare_padded (by omega) (by omega)]

/-- **Times to the second sort as texts.** -/
theorem compare_isoSeconds {s t : ℤ} (hs : FourDigits s) (ht : FourDigits t) :
    compare (isoSeconds s) (isoSeconds t) = compare s t := by
  unfold isoSeconds
  simp only [List.append_assoc]
  rw [FixedWidth.compare_append (by simp), compare_dateText hs.year ht.year,
    FixedWidth.compare_append_left, compare_timeOfDay (by omega) (by omega),
    ← FixedWidth.compare_divMod (by omega)]

/-- **What `format_utc` writes sorts as the milliseconds do.** -/
theorem compare_formatUtc {tp tp' : ℤ} (h : FourDigits (tp / 1000000000))
    (h' : FourDigits (tp' / 1000000000)) :
    compare (formatUtc tp) (formatUtc tp') = compare (tp / 1000000) (tp' / 1000000) := by
  unfold formatUtc
  simp only [List.append_assoc]
  rw [FixedWidth.compare_append (by simp), compare_isoSeconds h h',
    FixedWidth.compare_append_left, FixedWidth.compare_append (by simp),
    compare_padded (by omega) (by omega), Std.ReflOrd.compare_self, Ordering.then_eq,
    FixedWidth.compare_divMod (b := 1000) (by omega) (tp / 1000000)]
  congr 2 <;> omega

end LogLite
