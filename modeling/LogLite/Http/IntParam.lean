import LogLite.Base.Integer
import LogLite.Http.QueryRequest

/-!
# Integers as parameters

`limit` and `offset` of `GET /logs` are read by `ParseIntParam`.  Its scan admits digits and
minuses, a minus in any place; `std::stoi` then reads an integer from the start of the text
and does not say how far it came.

## Main definitions

* `isIntChar` — what the scan admits.
* `IntText s n` — the text is a minus or none and digits, and denotes the `int` `n`.
* `IntParamExact` — what is expected of `ParseIntParam`, and of the request.
* `MinusBehind` — a minus stands behind an integer.

## Main results

* `stoi_eq` — `std::stoi` is what `strtoll` reads, if it is an `int`.
* `parseIntParam_eq_some_iff` — which texts are read, and as what.
* `int_param_exact_iff` — **a parameter is read exactly, or a minus stands behind an integer.**
-/

namespace LogLite

/-- What the scan of `ParseIntParam` admits. -/
def isIntChar (c : UInt8) : Bool := isDigit c || c == 45

/-- A text that is an `int`: a minus or none, and digits. -/
structure IntText (s : Bytes) (n : ℤ) : Prop where
  integer : IntegerText s n
  no_plus : s.head? ≠ some 43
  fits : -2 ^ 31 ≤ n ∧ n < 2 ^ 31

/-- An `int` is read as what it denotes, every other text is refused, and the request has no
other `limit` and `offset` than those that its parameters denote. -/
structure IntParamExact (s : Bytes) : Prop where
  accepts : ∀ n, IntText s n → parseIntParam s = some n
  refuses : (¬∃ n, IntText s n) → parseIntParam s = none
  taken : ∀ params request, queryRequest params = .ok request →
    (params.lookup (lit "limit") = some s → IntText s request.limit) ∧
      (params.lookup (lit "offset") = some s → IntText s request.offset)

/-- The text is an `int`, a minus, and digits and minuses. -/
def MinusBehind (s : Bytes) : Prop :=
  ∃ text rest n, s = text ++ 45 :: rest ∧ IntText text n ∧ rest.all isIntChar = true

/-! ### The scan -/

theorem isIntChar_of_isDigit {c : UInt8} (h : isDigit c = true) : isIntChar c = true := by
  rw [isIntChar, h, Bool.true_or]

/-- What the scan admits is no blank. -/
theorem isSpace_of_isIntChar {c : UInt8} (h : isIntChar c = true) : isSpace c = false := by
  rw [isIntChar, Bool.or_eq_true, beq_iff_eq] at h
  rcases h with hdigit | rfl
  · exact isSqlSpace_of_isDigit hdigit
  · decide

/-- The scan admits every integer without a plus. -/
theorem IntText.all_isIntChar {s : Bytes} {n : ℤ} (h : IntText s n) : s.all isIntChar = true := by
  have hall : ∀ ds : Bytes, ds.all isDigit = true → ds.all isIntChar = true := by
    intro ds hds
    exact List.all_eq_true.mpr fun c hc => isIntChar_of_isDigit (List.all_eq_true.mp hds c hc)
  obtain ⟨hinteger, hplus, -⟩ := h
  cases hinteger with
  | digits _ hds => exact hall s hds
  | plus => exact absurd rfl hplus
  | minus _ hds =>
    rw [List.all_cons, hall _ hds]
    rfl

/-- The scan admits no plus. -/
theorem head?_ne_plus {text rest : Bytes} (h : (text ++ rest).all isIntChar = true) :
    text.head? ≠ some 43 := by
  intro hplus
  have hmem : (43 : UInt8) ∈ text := List.mem_of_mem_head? hplus
  have hchar : isIntChar 43 = true := List.all_eq_true.mp h 43 (List.mem_append_left rest hmem)
  exact absurd hchar (by decide)

/-! ### What is read -/

/-- `std::stoi` is what `strtoll` reads from a text without blanks before it, if it is an
`int`. -/
theorem stoi_eq {s : Bytes} (h : ∀ b ∈ s.head?, isSpace b = false) :
    stoi s = (scanInteger s).bind fun p =>
      if -2 ^ 31 ≤ p.1 ∧ p.1 < 2 ^ 31 then some p.1 else none := by
  have hblank : s.dropWhile isSpace = s := by
    cases s with
    | nil => rfl
    | cons b s => exact List.dropWhile_cons_of_neg (by simp [h b rfl])
  unfold stoi scanInteger
  rw [hblank]
  dsimp only
  split <;> rfl

theorem stoi_eq_some_iff {s : Bytes} {n : ℤ} (h : ∀ b ∈ s.head?, isSpace b = false) :
    stoi s = some n ↔
      (∃ rest, scanInteger s = some (n, rest)) ∧ -2 ^ 31 ≤ n ∧ n < 2 ^ 31 := by
  rw [stoi_eq h, Option.bind_eq_some_iff]
  constructor
  · rintro ⟨⟨m, rest⟩, hscan, hm⟩
    rw [Option.ite_none_right_eq_some, Option.some.injEq] at hm
    obtain ⟨hfits, rfl⟩ := hm
    exact ⟨⟨rest, hscan⟩, hfits⟩
  · rintro ⟨⟨rest, hscan⟩, hfits⟩
    exact ⟨(n, rest), hscan, if_pos hfits⟩

/-- A text is read if the scan admits it and it begins with an integer. -/
theorem parseIntParam_eq_some_iff_scan {s : Bytes} {n : ℤ} :
    parseIntParam s = some n ↔ s.all isIntChar = true ∧
      ∃ text rest, s = text ++ rest ∧ IntText text n ∧ NoDigitFirst rest := by
  have hcode : parseIntParam s = some n ↔ s.all isIntChar = true ∧ stoi s = some n := by
    show (if s.isEmpty then none else if s.all isIntChar then stoi s else none) = some n ↔ _
    cases s with
    | nil => simp [stoi, splitSign]
    | cons c s => rw [List.isEmpty_cons, if_neg Bool.false_ne_true, Option.ite_none_right_eq_some]
  rw [hcode]
  refine and_congr_right fun hall => ?_
  have hblank : ∀ b ∈ s.head?, isSpace b = false := fun b hb =>
    isSpace_of_isIntChar (List.all_eq_true.mp hall b (List.mem_of_mem_head? hb))
  rw [stoi_eq_some_iff hblank]
  constructor
  · rintro ⟨⟨rest, hscan⟩, hfits⟩
    obtain ⟨blanks, text, rfl, hblanks, htext, hrest⟩ := scanInteger_eq_some_iff.mp hscan
    -- no blanks are passed over
    cases blanks with
    | cons b blanks =>
      rw [List.all_cons, hblank b rfl] at hblanks
      cases hblanks
    | nil => exact ⟨text, rest, rfl, ⟨htext, head?_ne_plus hall, hfits⟩, hrest⟩
  · rintro ⟨text, rest, rfl, htext, hrest⟩
    exact ⟨⟨rest, htext.integer.scanInteger_append hrest⟩, htext.fits⟩

/-- **Which texts are read, and as what**: an `int`, and what begins with one before a
minus. -/
theorem parseIntParam_eq_some_iff {s : Bytes} {n : ℤ} :
    parseIntParam s = some n ↔ IntText s n ∨
      ∃ text rest, s = text ++ 45 :: rest ∧ IntText text n ∧ rest.all isIntChar = true := by
  rw [parseIntParam_eq_some_iff_scan]
  constructor
  · rintro ⟨hall, text, rest, rfl, htext, hrest⟩
    cases rest with
    | nil => exact .inl (by rwa [List.append_nil])
    | cons c rest =>
      rw [List.all_append, Bool.and_eq_true, List.all_cons, Bool.and_eq_true] at hall
      obtain ⟨-, hc, hall⟩ := hall
      -- the scan admits it and it is no digit
      rw [isIntChar, hrest c rfl, Bool.false_or, beq_iff_eq] at hc
      exact .inr ⟨text, rest, by rw [hc], htext, hall⟩
  · rintro (h | ⟨text, rest, rfl, htext, hall⟩)
    · exact ⟨h.all_isIntChar, s, [], (List.append_nil s).symm, h, by simp [NoDigitFirst]⟩
    · refine ⟨?_, text, 45 :: rest, rfl, htext, by simp [NoDigitFirst, isDigit]⟩
      rw [List.all_append, htext.all_isIntChar, List.all_cons, hall]
      rfl

/-- No `int` is a text in which a minus stands behind one. -/
theorem IntText.no_minus_behind {text rest : Bytes} {m n : ℤ} (h : IntText text n)
    (hm : IntText (text ++ 45 :: rest) m) : False := by
  have hrest : NoDigitFirst (45 :: rest) := by simp [NoDigitFirst, isDigit]
  have hwhole : IntegerText ([] ++ (text ++ 45 :: rest)) m := hm.integer
  obtain ⟨-, hnil, -⟩ := hwhole.eq_of_append rfl h.integer hrest
  cases hnil

/-! ### The request -/

/-- The limit and the offset of a request are what `ParseIntParam` makes of the parameters. -/
theorem queryRequest_ints {params : List (Bytes × Bytes)} {request : QueryRequest}
    (h : queryRequest params = .ok request) :
    parseIntParam ((params.lookup (lit "limit")).getD []) = some request.limit ∧
      parseIntParam ((params.lookup (lit "offset")).getD []) = some request.offset := by
  unfold queryRequest at h
  split at h
  · cases h
  · dsimp only at h
    split at h
    · next hlimit hoffset =>
      cases hcollect : collectFilters params with
      | error failure =>
        rw [hcollect] at h
        cases h
      | ok filters =>
        rw [hcollect] at h
        cases h
        exact ⟨hlimit, hoffset⟩
    · cases h

/-! ### Exactness -/

/-- **When a parameter is read exactly**: unless a minus stands behind an integer. -/
theorem int_param_exact_iff (s : Bytes) : IntParamExact s ↔ ¬ MinusBehind s := by
  constructor
  · rintro h ⟨text, rest, n, rfl, htext, hall⟩
    have hread : parseIntParam (text ++ 45 :: rest) = some n :=
      parseIntParam_eq_some_iff.mpr (.inr ⟨text, rest, rfl, htext, hall⟩)
    have hnone : ¬∃ m, IntText (text ++ 45 :: rest) m := fun ⟨m, hm⟩ => htext.no_minus_behind hm
    rw [h.refuses hnone] at hread
    cases hread
  · intro h
    have hread : ∀ n, parseIntParam s = some n → IntText s n := by
      intro n hn
      refine (parseIntParam_eq_some_iff.mp hn).resolve_right ?_
      rintro ⟨text, rest, hs, htext, hall⟩
      exact h ⟨text, rest, n, hs, htext, hall⟩
    refine ⟨fun n hn => parseIntParam_eq_some_iff.mpr (.inl hn), fun hnone => ?_, ?_⟩
    · rw [Option.eq_none_iff_forall_ne_some]
      exact fun n hn => hnone ⟨n, hread n hn⟩
    · intro params request hrequest
      obtain ⟨hlimit, hoffset⟩ := queryRequest_ints hrequest
      constructor
      · intro hlookup
        rw [hlookup, Option.getD_some] at hlimit
        exact hread _ hlimit
      · intro hlookup
        rw [hlookup, Option.getD_some] at hoffset
        exact hread _ hoffset

/-- Of `12-5` the `12` is read. -/
theorem int_param_takes_prefix : ¬ ∀ s, IntParamExact s := by
  intro h
  have htext : IntText (lit "12") 12 :=
    ⟨.digits (by decide) (by decide), by decide, by decide⟩
  have hnone : ¬∃ n, IntText (lit "12" ++ 45 :: lit "5") n :=
    fun ⟨n, hn⟩ => htext.no_minus_behind hn
  exact absurd ((h _).refuses hnone) (by decide)

end LogLite
