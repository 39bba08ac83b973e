import LogLite.Http.Url
import LogLite.Query.Filter
import Mathlib.Data.List.DropRight

/-!
# Filter expressions

The value of a query parameter is a list of filters, `<op><value>` each, separated by
commas.  `ParseQueryFilters` looks for them with a regular expression, `cregex_iterator`
from left to right: an operator, and after it as many characters as there are before the
next comma.

## Main definitions

* `tokenAt`, `filterTokens` — the regular expression, and its matches.
* `parseQueryFilters` — `ParseQueryFilters`.
* `FilterOp`, `readToken` — the operators, and what is read where a filter was written.

## Main results

* `filterTokens_expr` — an expression whose values have no comma is read filter by
  filter.
* `readToken_eq_iff` — a filter is read as written, unless its value begins with `=` and
  its operator is `>` or `<`.
-/

namespace LogLite

/-! ### `ParseQueryFilters` -/

/-- The alternatives of the regular expression, in order. -/
def opAlternatives : List Bytes :=
  [lit ">=", lit "<=", lit "!=", lit "~=", lit "=", lit ">", lit "<"]

/-- One alternative at the beginning of a text: the operator, and all characters up to the
next comma, of which there must be one. -/
def matchOp (s op : Bytes) : Option (Bytes × Bytes) :=
  let v := (s.drop op.length).takeWhile (· != 44)
  if op.isPrefixOf s && !v.isEmpty then some (op, v) else none

/-- The match at the beginning of a text: the first alternative that matches. -/
def tokenAt (s : Bytes) : Option (Bytes × Bytes) := opAlternatives.findSome? (matchOp s)

/-- The matches of a text after its first `skip` characters, which are in a match
already. -/
def filterTokens : ℕ → Bytes → List (Bytes × Bytes)
  | _, [] => []
  | skip + 1, _ :: s => filterTokens skip s
  | 0, c :: s =>
    match tokenAt (c :: s) with
    | some (op, v) => (op, v) :: filterTokens (op.length + v.length - 1) s
    | none => filterTokens 0 s

/-- `while (!val.empty() && val.back() == ' ') val.pop_back()`. -/
def trimTrailing (v : Bytes) : Bytes := v.rdropWhile (· == 32)

/-- `ParseQueryFilters`. -/
def parseQueryFilters (field : ColumnName) (expr : Bytes) : List QueryFilter :=
  (filterTokens 0 expr).map fun t => ⟨field, t.1, .string (trimTrailing t.2)⟩

example : filterTokens 0 (lit ">=1,~=a=b,x<") = [(lit ">=", lit "1"), (lit "~=", lit "a=b")] := by
  decide

theorem filterTokens_eq_drop (skip : ℕ) (s : Bytes) :
    filterTokens skip s = filterTokens 0 (s.drop skip) := by
  induction skip generalizing s with
  | zero => rfl
  | succ skip ih =>
    cases s with
    | nil => rfl
    | cons c s => exact ih s

theorem filterTokens_match {c : UInt8} {s : Bytes} {t : Bytes × Bytes}
    (h : tokenAt (c :: s) = some t) :
    filterTokens 0 (c :: s) = t :: filterTokens (t.1.length + t.2.length - 1) s := by
  rw [filterTokens, h]

theorem filterTokens_skip {c : UInt8} {s : Bytes} (h : tokenAt (c :: s) = none) :
    filterTokens 0 (c :: s) = filterTokens 0 s := by
  conv_lhs => rw [filterTokens, h]

/-! ### One filter -/

/-- The operators of a filter. -/
inductive FilterOp where
  | eq
  | ne
  | gt
  | ge
  | lt
  | le
  | contains
  deriving DecidableEq, Repr

/-- The text of an operator. -/
def FilterOp.text : FilterOp → Bytes
  | .eq => lit "="
  | .ne => lit "!="
  | .gt => lit ">"
  | .ge => lit ">="
  | .lt => lit "<"
  | .le => lit "<="
  | .contains => lit "~="

/-- The operator takes the beginning of the value for a part of its own. -/
def Clashes (op : FilterOp) (v : Bytes) : Prop :=
  (op = .gt ∨ op = .lt) ∧ v.head? = some 61 ∧ v ≠ [61]

instance (op : FilterOp) (v : Bytes) : Decidable (Clashes op v) :=
  inferInstanceAs (Decidable ((op = .gt ∨ op = .lt) ∧ v.head? = some 61 ∧ v ≠ [61]))

/-- What is read where a filter was written. -/
def readToken (op : FilterOp) (v : Bytes) : Bytes × Bytes :=
  if Clashes op v then (op.text ++ [61], v.tail) else (op.text, v)

theorem readToken_eq_iff {op : FilterOp} {v : Bytes} :
    readToken op v = (op.text, v) ↔ ¬ Clashes op v := by
  unfold readToken
  split
  · next h =>
    refine ⟨fun heq => ?_, fun hn => absurd h hn⟩
    have hlen := congrArg (fun p => p.1.length) heq
    simp at hlen
  · next h => exact ⟨fun _ => h, fun _ => rfl⟩

/-- What may stand after a filter: nothing, or a comma. -/
def EndsToken (rest : Bytes) : Prop := rest = [] ∨ ∃ s, rest = 44 :: s

theorem takeWhile_value {v rest : Bytes} (hv : 44 ∉ v) (hrest : EndsToken rest) :
    (v ++ rest).takeWhile (· != 44) = v := by
  have hall : ∀ b ∈ v, (b != 44) = true := by
    intro b hb
    rw [bne_iff_ne]
    rintro rfl
    exact hv hb
  rw [List.takeWhile_append_of_pos hall]
  obtain rfl | ⟨s, rfl⟩ := hrest
  · exact List.append_nil v
  · simp

theorem matchOp_append {op t v : Bytes} (ht : t.takeWhile (· != 44) = v) (hne : v ≠ []) :
    matchOp (op ++ t) op = some (op, v) := by
  have hprefix : op.isPrefixOf (op ++ t) = true :=
    List.isPrefixOf_iff_prefix.mpr (List.prefix_append op t)
  unfold matchOp
  rw [List.drop_left, ht, hprefix]
  simp [hne]

theorem matchOp_append_nil {op t : Bytes} (ht : t.takeWhile (· != 44) = []) :
    matchOp (op ++ t) op = none := by
  unfold matchOp
  rw [List.drop_left, ht]
  simp

theorem matchOp_eq_none {s op : Bytes} (h : op.isPrefixOf s = false) :
    matchOp s op = none := by
  unfold matchOp
  rw [h]
  rfl

/-- The alternatives `>=` and `<=` on a filter with the shorter operator. -/
theorem matchOp_longer (c : UInt8) {v rest : Bytes} (hv : 44 ∉ v) (hrest : EndsToken rest) :
    matchOp ([c] ++ (v ++ rest)) [c, 61] =
      if v.head? = some 61 ∧ v ≠ [61] then some ([c, 61], v.tail) else none := by
  cases v with
  | nil =>
    rw [if_neg (by simp)]
    refine matchOp_eq_none ?_
    obtain rfl | ⟨s, rfl⟩ := hrest
    · simp [List.isPrefixOf]
    · simp [List.isPrefixOf]
  | cons b v =>
    by_cases hb : b = 61
    · subst hb
      have htake : (v ++ rest).takeWhile (· != 44) = v :=
        takeWhile_value (fun h => hv (List.mem_cons_of_mem _ h)) hrest
      have hsplit : [c] ++ (61 :: v ++ rest) = [c, 61] ++ (v ++ rest) := rfl
      rw [hsplit]
      -- after `=` alone the longer operator would have no value
      by_cases hne : v = []
      · rw [if_neg (by simp [hne])]
        exact matchOp_append_nil (htake.trans hne)
      · rw [if_pos (by simp [hne])]
        exact matchOp_append htake hne
    · rw [if_neg (by simp [hb])]
      refine matchOp_eq_none ?_
      simp [List.isPrefixOf, Ne.symm hb]

theorem readToken_of_ne {op : FilterOp} (hgt : op ≠ .gt) (hlt : op ≠ .lt) (v : Bytes) :
    readToken op v = (op.text, v) :=
  readToken_eq_iff.mpr fun h => h.1.elim hgt hlt

/-- A filter is matched up to its end, though the operator may be taken to be longer than
it is. -/
theorem tokenAt_text (op : FilterOp) {v rest : Bytes} (hne : v ≠ []) (hv : 44 ∉ v)
    (hrest : EndsToken rest) : tokenAt (op.text ++ (v ++ rest)) = some (readToken op v) := by
  have hmatch : ∀ op, matchOp (op ++ (v ++ rest)) op = some (op, v) :=
    fun op => matchOp_append (takeWhile_value hv hrest) hne
  unfold tokenAt opAlternatives
  simp only [List.findSome?_cons]
  cases op with
  | eq =>
    rw [readToken_of_ne (by decide) (by decide)]
    simp only [FilterOp.text]
    rw [matchOp_eq_none rfl, matchOp_eq_none rfl, matchOp_eq_none rfl,
      matchOp_eq_none rfl, hmatch]
  | ne =>
    rw [readToken_of_ne (by decide) (by decide)]
    simp only [FilterOp.text]
    rw [matchOp_eq_none rfl, matchOp_eq_none rfl, hmatch]
  | contains =>
    rw [readToken_of_ne (by decide) (by decide)]
    simp only [FilterOp.text]
    rw [matchOp_eq_none rfl, matchOp_eq_none rfl, matchOp_eq_none rfl, hmatch]
  | ge =>
    rw [readToken_of_ne (by decide) (by decide)]
    simp only [FilterOp.text]
    rw [hmatch]
  | le =>
    rw [readToken_of_ne (by decide) (by decide)]
    simp only [FilterOp.text]
    rw [matchOp_eq_none rfl, hmatch]
  | gt =>
    have hlonger : matchOp (lit ">" ++ (v ++ rest)) (lit ">=") = _ := matchOp_longer 62 hv hrest
    simp only [FilterOp.text, readToken, Clashes, reduceCtorEq, or_false, true_and]
    by_cases hclash : v.head? = some 61 ∧ v ≠ [61]
    · rw [hlonger, if_pos hclash, if_pos hclash]
      rfl
    · rw [hlonger, if_neg hclash, if_neg hclash, matchOp_eq_none rfl,
        matchOp_eq_none rfl, matchOp_eq_none rfl, matchOp_eq_none rfl, hmatch]
  | lt =>
    have hlonger : matchOp (lit "<" ++ (v ++ rest)) (lit "<=") = _ := matchOp_longer 60 hv hrest
    simp only [FilterOp.text, readToken, Clashes, reduceCtorEq, false_or, true_and]
    by_cases hclash : v.head? = some 61 ∧ v ≠ [61]
    · rw [matchOp_eq_none rfl, hlonger, if_pos hclash, if_pos hclash]
      rfl
    · rw [matchOp_eq_none rfl, hlonger, if_neg hclash, if_neg hclash,
        matchOp_eq_none rfl, matchOp_eq_none rfl, matchOp_eq_none rfl,
        matchOp_eq_none rfl, hmatch]

theorem FilterOp.text_ne_nil (op : FilterOp) : op.text ≠ [] := by cases op <;> decide

/-- The match takes the characters of the filter. -/
theorem length_readToken (op : FilterOp) {v : Bytes} (hne : v ≠ []) :
    (readToken op v).1.length + (readToken op v).2.length = op.text.length + v.length := by
  have hpos := List.length_pos_iff.mpr hne
  unfold readToken
  split
  · rw [List.length_append, List.length_singleton, List.length_tail]
    omega
  · rfl

theorem filterTokens_text (op : FilterOp) {v rest : Bytes} (hne : v ≠ []) (hv : 44 ∉ v)
    (hrest : EndsToken rest) :
    filterTokens 0 (op.text ++ (v ++ rest)) = readToken op v :: filterTokens 0 rest := by
  have htoken := tokenAt_text op hne hv hrest
  obtain ⟨c, s, hs⟩ := List.exists_cons_of_ne_nil
    (List.append_ne_nil_of_left_ne_nil op.text_ne_nil (v ++ rest))
  -- as many characters are taken as were written, whichever operator was read
  have hlen := length_readToken op hne
  have hdrop : (c :: s).drop (op.text.length + v.length) = rest := by
    rw [← hs, ← List.append_assoc, ← List.length_append, List.drop_left]
  have hpos := List.length_pos_iff.mpr op.text_ne_nil
  rw [show op.text.length + v.length = op.text.length + v.length - 1 + 1 by omega,
    List.drop_succ_cons] at hdrop
  rw [hs] at htoken ⊢
  rw [filterTokens_match htoken, hlen, filterTokens_eq_drop, hdrop]

/-! ### Expressions -/

/-- `filters.map((f) => op + value).join(',')`. -/
def filterExpr (fs : List (FilterOp × Bytes)) : Bytes :=
  [44].intercalate (fs.map fun f => f.1.text ++ f.2)

theorem filterTokens_comma (s : Bytes) : filterTokens 0 (44 :: s) = filterTokens 0 s := by
  refine filterTokens_skip ?_
  unfold tokenAt opAlternatives
  simp only [List.findSome?_cons]
  rw [matchOp_eq_none rfl, matchOp_eq_none rfl, matchOp_eq_none rfl,
    matchOp_eq_none rfl, matchOp_eq_none rfl, matchOp_eq_none rfl,
    matchOp_eq_none rfl, List.findSome?_nil]

/-- **An expression is read filter by filter**, if no value has a comma. -/
theorem filterTokens_expr {fs : List (FilterOp × Bytes)}
    (h : ∀ f ∈ fs, f.2 ≠ [] ∧ 44 ∉ f.2) :
    filterTokens 0 (filterExpr fs) = fs.map fun f => readToken f.1 f.2 := by
  induction fs with
  | nil => rfl
  | cons f fs ih =>
    obtain ⟨hne, hv⟩ := h f List.mem_cons_self
    have hrest := ih fun f' hf' => h f' (List.mem_cons_of_mem _ hf')
    cases fs with
    | nil =>
      have hexpr : filterExpr [f] = f.1.text ++ (f.2 ++ []) := by simp [filterExpr]
      rw [hexpr, filterTokens_text f.1 hne hv (.inl rfl)]
      rfl
    | cons g gs =>
      have hexpr : filterExpr (f :: g :: gs) = f.1.text ++ (f.2 ++ 44 :: filterExpr (g :: gs)) := by
        simp [filterExpr, List.intercalate]
      rw [hexpr, filterTokens_text f.1 hne hv (.inr ⟨_, rfl⟩), filterTokens_comma, hrest]
      rfl

/-- A value that was read has no comma. -/
theorem comma_notMem_of_tokenAt {s op v : Bytes} (h : tokenAt s = some (op, v)) : 44 ∉ v := by
  obtain ⟨op', -, hmatch⟩ := List.exists_of_findSome?_eq_some h
  dsimp only [matchOp] at hmatch
  split at hmatch
  · cases hmatch
    intro hmem
    simpa using List.mem_takeWhile_imp hmem
  · cases hmatch

theorem comma_notMem_of_mem_filterTokens {t : Bytes × Bytes} : ∀ (s : Bytes) (skip : ℕ),
    t ∈ filterTokens skip s → 44 ∉ t.2
  | [], skip, h => by
    cases skip <;> cases h
  | c :: s, skip + 1, h => comma_notMem_of_mem_filterTokens s skip h
  | c :: s, 0, h => by
    unfold filterTokens at h
    split at h
    · next op v htoken =>
      rcases List.mem_cons.mp h with rfl | hmem
      · exact comma_notMem_of_tokenAt htoken
      · exact comma_notMem_of_mem_filterTokens s _ hmem
    · exact comma_notMem_of_mem_filterTokens s 0 h

end LogLite
