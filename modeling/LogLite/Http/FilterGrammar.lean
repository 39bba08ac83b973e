import LogLite.Http.Filters

/-!
# Filter expressions: what is one

A token is an operator and a value; where two operators fit, it is the longer one that
leaves a value.  An expression is one token or more, separated by commas.  The regular
expression of `ParseQueryFilters` is not anchored: it finds tokens anywhere in a text, and
what is between them is passed over.

## Main definitions

* `FilterToken`, `IsFilterExpr` — the grammar.
* `HasToken` — somewhere in a text there is a token.

## Main results

* `filterToken_iff` — the longer operator, as a condition on the value.
* `parseQueryFilters_of_isFilterExpr` — **an expression is read token by token.**
* `parseQueryFilters_eq_nil_iff` — **nothing is read exactly from a text without
  tokens.**
-/

namespace LogLite

/-! ### The grammar -/

/-- An operator with its value: not empty, without a comma, and no longer operator leaves
a value. -/
structure FilterToken (t : FilterOp × Bytes) : Prop where
  value : t.2 ≠ []
  comma : 44 ∉ t.2
  longest : ∀ (op : FilterOp) (v : Bytes), op.text ++ v = t.1.text ++ t.2 → v ≠ [] →
    op.text.length ≤ t.1.text.length

/-- The text is a sequence of these tokens. -/
structure IsFilterExpr (ts : List (FilterOp × Bytes)) (expr : Bytes) : Prop where
  some_token : ts ≠ []
  tokens : ∀ t ∈ ts, FilterToken t
  text : expr = filterExpr ts

/-- Somewhere in the text an operator stands before a character of a value. -/
def HasToken (expr : Bytes) : Prop :=
  ∃ (pre : Bytes) (op : FilterOp) (b : UInt8) (post : Bytes),
    expr = pre ++ (op.text ++ b :: post) ∧ b ≠ 44

/-- The operators that begin with another one. -/
theorem FilterOp.longer (op op' : FilterOp) (hlt : op.text.length < op'.text.length)
    (hhead : op'.text.head? = op.text.head?) :
    (op = .gt ∨ op = .lt) ∧ op'.text = op.text ++ [61] := by
  revert hlt hhead
  cases op <;> cases op' <;> decide

/-- The longer operators are `>=` and `<=`, and they need a value too. -/
theorem filterToken_iff {t : FilterOp × Bytes} :
    FilterToken t ↔ t.2 ≠ [] ∧ 44 ∉ t.2 ∧ ¬ Clashes t.1 t.2 := by
  obtain ⟨op, v⟩ := t
  constructor
  · rintro ⟨hvalue, hcomma, hlongest⟩
    refine ⟨hvalue, hcomma, ?_⟩
    rintro ⟨hop, hhead, hne⟩
    obtain ⟨v, rfl⟩ := List.head?_eq_some_iff.mp hhead
    have htail : v ≠ [] := fun h => hne (by rw [h])
    have hge : ¬ FilterOp.ge.text.length ≤ FilterOp.gt.text.length := by decide
    have hle : ¬ FilterOp.le.text.length ≤ FilterOp.lt.text.length := by decide
    rcases hop with rfl | rfl
    · exact hge (hlongest .ge v rfl htail)
    · exact hle (hlongest .le v rfl htail)
  · rintro ⟨hvalue, hcomma, hclash⟩
    refine ⟨hvalue, hcomma, ?_⟩
    intro op' v' heq hne
    by_contra hlt
    have hhead : op'.text.head? = op.text.head? := by
      have := congrArg List.head? heq
      rwa [List.head?_append_of_ne_nil _ op'.text_ne_nil,
        List.head?_append_of_ne_nil _ op.text_ne_nil] at this
    obtain ⟨hop, htext⟩ := FilterOp.longer op op' (not_le.mp hlt) hhead
    rw [htext, List.append_assoc, List.append_cancel_left_eq] at heq
    refine hclash ⟨hop, ?_, ?_⟩
    · rw [← heq]
      rfl
    · rw [← heq]
      simpa using hne

/-! ### Expressions -/

theorem head?_filterExpr (t : FilterOp × Bytes) (ts : List (FilterOp × Bytes)) :
    (filterExpr (t :: ts)).head? = t.1.text.head? := by
  have hcons : ∃ s, filterExpr (t :: ts) = t.1.text ++ s := by
    cases ts with
    | nil => exact ⟨t.2, by simp [filterExpr]⟩
    | cons t' ts => exact ⟨_, by simp [filterExpr, List.intercalate]; rfl⟩
  obtain ⟨s, hs⟩ := hcons
  rw [hs, List.head?_append_of_ne_nil _ t.1.text_ne_nil]

/-- The tokens of an expression are its matches. -/
theorem filterTokens_of_isFilterExpr {ts : List (FilterOp × Bytes)} {expr : Bytes}
    (h : IsFilterExpr ts expr) : filterTokens 0 expr = ts.map fun t => (t.1.text, t.2) := by
  have htoken : ∀ t ∈ ts, t.2 ≠ [] ∧ 44 ∉ t.2 := fun t ht => ⟨(h.tokens t ht).value,
    (h.tokens t ht).comma⟩
  rw [h.text, filterTokens_expr htoken]
  refine List.map_congr_left fun t ht => ?_
  exact readToken_eq_iff.mpr (filterToken_iff.mp (h.tokens t ht)).2.2

/-- **An expression is read token by token**, without the blanks after the values. -/
theorem parseQueryFilters_of_isFilterExpr {field : ColumnName} {ts : List (FilterOp × Bytes)}
    {expr : Bytes} (h : IsFilterExpr ts expr) : parseQueryFilters field expr =
      ts.map fun t => ⟨field, t.1.text, .string (trimTrailing t.2)⟩ := by
  unfold parseQueryFilters
  rw [filterTokens_of_isFilterExpr h, List.map_map]
  rfl

/-! ### Texts without tokens -/

theorem endsToken_dropWhile (s : Bytes) : EndsToken (s.dropWhile (· != 44)) := by
  induction s with
  | nil => exact .inl rfl
  | cons b s ih =>
    by_cases hb : b = 44
    · exact .inr ⟨s, by simp [hb]⟩
    · have hpass : (b != 44) = true := bne_iff_ne.mpr hb
      rwa [List.dropWhile_cons, if_pos hpass]

theorem mem_opAlternatives {o : Bytes} (h : o ∈ opAlternatives) : ∃ op : FilterOp, op.text = o := by
  simp only [opAlternatives, List.mem_cons, List.not_mem_nil, or_false] at h
  rcases h with rfl | rfl | rfl | rfl | rfl | rfl | rfl
  exacts [⟨.ge, rfl⟩, ⟨.le, rfl⟩, ⟨.ne, rfl⟩, ⟨.contains, rfl⟩, ⟨.eq, rfl⟩, ⟨.gt, rfl⟩, ⟨.lt, rfl⟩]

/-- The regular expression matches exactly where an operator stands before a character of
a value. -/
theorem tokenAt_eq_none_iff {s : Bytes} : tokenAt s = none ↔
    ∀ (op : FilterOp) (b : UInt8) (post : Bytes), s = op.text ++ b :: post → b = 44 := by
  constructor
  · rintro h op b post rfl
    by_contra hb
    -- the value goes up to the next comma
    have hvalue : (b :: post).takeWhile (· != 44) ≠ [] := by
      have hpass : (b != 44) = true := bne_iff_ne.mpr hb
      rw [List.takeWhile_cons, if_pos hpass]
      exact List.cons_ne_nil _ _
    have hcomma : 44 ∉ (b :: post).takeWhile (· != 44) := fun hmem => by
      simpa using List.mem_takeWhile_imp hmem
    have htoken := tokenAt_text op hvalue hcomma (endsToken_dropWhile (b :: post))
    rw [List.takeWhile_append_dropWhile, h] at htoken
    cases htoken
  · intro h
    cases htoken : tokenAt s with
    | none => rfl
    | some t =>
      obtain ⟨o, ho, hmatch⟩ := List.exists_of_findSome?_eq_some htoken
      obtain ⟨op, rfl⟩ := mem_opAlternatives ho
      unfold matchOp at hmatch
      dsimp only at hmatch
      split at hmatch
      · next hcond =>
        rw [Bool.and_eq_true, List.isPrefixOf_iff_prefix] at hcond
        obtain ⟨⟨rest, rfl⟩, hvalue⟩ := hcond
        rw [List.drop_left] at hvalue
        cases rest with
        | nil => cases hvalue
        | cons b post =>
          obtain rfl := h op b post rfl
          cases hvalue
      · cases hmatch

theorem hasToken_cons {c : UInt8} {s : Bytes} :
    HasToken (c :: s) ↔ tokenAt (c :: s) ≠ none ∨ HasToken s := by
  have hhere : tokenAt (c :: s) ≠ none ↔
      ∃ (op : FilterOp) (b : UInt8) (post : Bytes), c :: s = op.text ++ b :: post ∧ b ≠ 44 := by
    rw [ne_eq, tokenAt_eq_none_iff]
    push Not
    rfl
  rw [hhere]
  constructor
  · rintro ⟨pre, op, b, post, heq, hb⟩
    cases pre with
    | nil => exact .inl ⟨op, b, post, heq, hb⟩
    | cons c' pre => exact .inr ⟨pre, op, b, post, (List.cons.inj heq).2, hb⟩
  · rintro (⟨op, b, post, heq, hb⟩ | ⟨pre, op, b, post, rfl, hb⟩)
    · exact ⟨[], op, b, post, heq, hb⟩
    · exact ⟨c :: pre, op, b, post, rfl, hb⟩

theorem filterTokens_eq_nil_iff {s : Bytes} : filterTokens 0 s = [] ↔ ¬ HasToken s := by
  induction s with
  | nil =>
    refine iff_of_true rfl ?_
    rintro ⟨pre, op, b, post, heq, -⟩
    simp at heq
  | cons c s ih =>
    rw [hasToken_cons, not_or, ← ih, not_not]
    constructor
    · intro h
      cases htoken : tokenAt (c :: s) with
      | none => exact ⟨rfl, filterTokens_skip htoken ▸ h⟩
      | some t =>
        rw [filterTokens_match htoken] at h
        cases h
    · rintro ⟨htoken, h⟩
      rw [filterTokens_skip htoken, h]

/-- **Nothing is read exactly from a text without tokens.** -/
theorem parseQueryFilters_eq_nil_iff {field : ColumnName} {expr : Bytes} :
    parseQueryFilters field expr = [] ↔ ¬ HasToken expr := by
  unfold parseQueryFilters
  rw [List.map_eq_nil_iff, filterTokens_eq_nil_iff]

end LogLite
