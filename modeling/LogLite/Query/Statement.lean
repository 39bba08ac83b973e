import LogLite.Lib.Placeholder
import LogLite.Query.Filter

/-!
# The text of the statements

`build_where_clause` hands SQLite a text with placeholders and a list of
parameters, and SQLite puts the parameters in their places from left to right.
Here the text is read back: scanned into tokens, with the bound values among them,
and parsed as the conjunction it is.

Names are never quoted, so a column must have a name that reads as one word, and
one that SQLite does not reserve.

## Main definitions

* `placed` — a text with its parameters in place.
* `scan`, `readWhere` — the tokens of a text, and the conditions they make.
* `sqlTruth` — what a text with its parameters says of a row.
* `PlainName`, `DatabaseCatalog.Plain` — names that need no quotes.

## Main results

* `sqlTruth_clause` — **the text of a clause says of a row what the clause does.**
-/

namespace LogLite

open Placeholder

/-! ### Parameters in place -/

/-- The byte of a placeholder. -/
def holeByte : UInt8 := 63

/-- A piece of a statement: a byte of its text, or a bound value. -/
abbrev Piece := UInt8 ⊕ Json

/-- A text with its parameters in place. -/
def placed (text : Bytes) (params : List Json) : List Piece := fill holeByte text params

/-- A text without parameters. -/
def plain (text : Bytes) : List Piece := text.map .inl

/-! ### Tokens -/

/-- A token: a word, an operator, a bound value, a bracket, a comma or a blank; any
other byte is none of these. -/
inductive SqlToken where
  | word (w : Bytes)
  | op (s : Bytes)
  | value (v : Json)
  | lpar
  | rpar
  | comma
  | blank
  | other (c : UInt8)

/-- A letter, an underscore or a byte of a longer character. -/
def isNameStart (c : UInt8) : Bool :=
  (65 ≤ c && c ≤ 90) || (97 ≤ c && c ≤ 122) || c = 95 || 128 ≤ c

/-- A byte of a word. -/
def isWordByte (c : UInt8) : Bool := isNameStart c || (48 ≤ c && c ≤ 57)

/-- A byte of an operator: one of `<`, `=`, `>`, `!` and `~`. -/
def isOpByte (c : UInt8) : Bool := (60 ≤ c && c ≤ 62) || c = 33 || c = 126

/-- One more byte in front of the tokens. -/
def pushByte (c : UInt8) (tokens : List SqlToken) : List SqlToken :=
  if isWordByte c then
    match tokens with
    | .word w :: rest => .word (c :: w) :: rest
    | _ => .word [c] :: tokens
  else if isOpByte c then
    match tokens with
    | .op s :: rest => .op (c :: s) :: rest
    | _ => .op [c] :: tokens
  else if c = 40 then .lpar :: tokens
  else if c = 41 then .rpar :: tokens
  else if c = 44 then .comma :: tokens
  else if c = 32 then .blank :: tokens
  else .other c :: tokens

/-- The tokens of a text, from its last byte on. -/
def scan : List Piece → List SqlToken
  | [] => []
  | .inl c :: text => pushByte c (scan text)
  | .inr v :: text => .value v :: scan text

/-- Blanks only end words. -/
def dropBlanks (tokens : List SqlToken) : List SqlToken :=
  tokens.filter fun t =>
    match t with
    | .blank => false
    | _ => true

/-! ### Conditions -/

/-- A condition of a `WHERE` clause, with the values bound in it. -/
inductive SqlCondition where
  | inList (field : ColumnName) (vs : List Json)
  | like (field : ColumnName) (v : Json)
  | compare (field : ColumnName) (cmp : Cmp) (v : Json)

/-- A clause as it is read: `1=1`, `1=0`, or conditions joined by `AND`. -/
inductive SqlClause where
  | constant (b : Bool)
  | all (conditions : List SqlCondition)

/-- Values with commas between them, up to the bracket. -/
def readValues : List SqlToken → Option (List Json × List SqlToken)
  | .value v :: .rpar :: rest => some ([v], rest)
  | .value v :: .comma :: rest => (readValues rest).map fun p => (v :: p.1, p.2)
  | _ => none

section
variable (reserved : Bytes → Bool)

/-- The condition after a column name. -/
def readOperation (name : ColumnName) : List SqlToken → Option (SqlCondition × List SqlToken)
  | .word key :: .lpar :: rest =>
    if key = lit "IN" then (readValues rest).map fun p => (.inList name p.1, p.2) else none
  | .word key :: .value v :: rest =>
    if key = lit "LIKE" then some (.like name v, rest) else none
  | .op s :: .value v :: rest => (comparisonOf s).map fun cmp => (.compare name cmp v, rest)
  | _ => none

/-- Conditions joined by `AND`, at most `n` of them. -/
def readConditions : ℕ → List SqlToken → Option (List SqlCondition)
  | n + 1, .word name :: rest =>
    if reserved name then none
    else
      match readOperation name rest with
      | some (c, []) => some [c]
      | some (c, .word key :: rest) =>
        if key = lit "AND" then (readConditions n rest).map fun cs => c :: cs else none
      | _ => none
  | _, _ => none

/-- A clause: a comparison of two numbers or conditions. -/
def readTokens (tokens : List SqlToken) : Option SqlClause :=
  match tokens with
  | [.word a, .op s, .word b] =>
    if a = lit "1" ∧ s = lit "=" then
      if b = lit "1" then some (.constant true)
      else if b = lit "0" then some (.constant false)
      else none
    else none
  | _ => (readConditions reserved tokens.length tokens).map .all

/-- A text with its parameters in place, read as a clause. -/
def readWhere (text : List Piece) : Option SqlClause :=
  readTokens reserved (dropBlanks (scan text))

end

section
variable (cat : DatabaseCatalog)

/-- Whether a row meets a condition. -/
def SqlCondition.holds (r : LogRow) : SqlCondition → Bool
  | .inList field vs =>
    match cat.column field with
    | none => false
    | some ci => vs.any fun v =>
        SqlValue.comparison cat.platform ci.affinity .eq (r.value ci) (bindParam cat.platform v)
  | .like field v =>
    match cat.column field with
    | none => false
    | some ci => r.value ci != .null && bindParam cat.platform v != .null &&
        LogLite.like (textOf cat.platform (bindParam cat.platform v))
          (textOf cat.platform (r.value ci))
  | .compare field cmp v =>
    match cat.column field with
    | none => false
    | some ci =>
      SqlValue.comparison cat.platform ci.affinity cmp (r.value ci) (bindParam cat.platform v)

/-- Whether a row meets a clause. -/
def SqlClause.holds (r : LogRow) : SqlClause → Bool
  | .constant b => b
  | .all cs => cs.all fun c => c.holds cat r

/-- What a text with its parameters says of a row, if it can be read. -/
def sqlTruth (reserved : Bytes → Bool) (text : Bytes) (params : List Json) (r : LogRow) :
    Option Bool :=
  (readWhere reserved (placed text params)).map fun clause => clause.holds cat r

end

/-! ### Names -/

/-- A word that is not reserved and does not start with a digit. -/
def plainName (reserved : Bytes → Bool) (name : Bytes) : Bool :=
  match name with
  | [] => false
  | c :: w => isNameStart c && w.all isWordByte && !reserved name

/-- The columns of the log table have plain names. -/
def DatabaseCatalog.Plain (cat : DatabaseCatalog) (reserved : Bytes → Bool) : Prop :=
  ∀ ci ∈ cat.logColumnInfo, plainName reserved ci.name = true

/-- The bytes of a word, of which there is one. -/
def isWord (w : Bytes) : Bool := !w.isEmpty && w.all isWordByte

theorem isWord_of_plainName {reserved : Bytes → Bool} {name : Bytes}
    (h : plainName reserved name = true) : isWord name = true ∧ reserved name = false := by
  cases name with
  | nil => cases h
  | cons c w =>
    simp only [plainName, Bool.and_eq_true, Bool.not_eq_true'] at h
    obtain ⟨⟨hc, hw⟩, hfree⟩ := h
    have hbyte : isWordByte c = true := by simp [isWordByte, hc]
    exact ⟨by simp [isWord, hbyte, hw], hfree⟩

/-- A placeholder is no part of a word. -/
theorem holeByte_notMem_of_isWord {w : Bytes} (h : isWord w = true) : holeByte ∉ w := by
  intro hmem
  simp only [isWord, Bool.and_eq_true, List.all_eq_true] at h
  exact absurd (h.2 _ hmem) (by decide)

/-! ### Scanning -/

theorem pushByte_word {c : UInt8} (hc : isWordByte c = true) (w : Bytes) (rest : List SqlToken) :
    pushByte c (.word w :: rest) = .word (c :: w) :: rest := by
  unfold pushByte
  rw [if_pos hc]

@[simp] theorem scan_value (v : Json) (text : List Piece) :
    scan (.inr v :: text) = .value v :: scan text := rfl

/-- A word is scanned up to the blank after it. -/
theorem scan_word {w : Bytes} (hw : isWord w = true) (text : List Piece) :
    scan (plain w ++ .inl 32 :: text) = .word w :: .blank :: scan text := by
  simp only [isWord, Bool.and_eq_true, Bool.not_eq_true'] at hw
  obtain ⟨hne, hall⟩ := hw
  induction w with
  | nil => cases hne
  | cons c w ih =>
    rw [List.all_cons, Bool.and_eq_true] at hall
    show pushByte c (scan (plain w ++ .inl 32 :: text)) = _
    cases w with
    | nil =>
      show pushByte c (.blank :: scan text) = _
      unfold pushByte
      rw [if_pos hall.1]
    | cons c' w => rw [ih rfl hall.2, pushByte_word hall.1]

/-- An operator is scanned up to the blank after it. -/
theorem scan_op {s : Bytes} (hs : s ∈ allowedOps) (text : List Piece) :
    scan (plain s ++ .inl 32 :: text) = .op s :: .blank :: scan text := by
  simp only [allowedOps, List.mem_cons, List.not_mem_nil, or_false] at hs
  rcases hs with rfl | rfl | rfl | rfl | rfl | rfl | rfl <;> rfl

/-! ### The text of a condition -/

theorem holeByte_notMem_of_allowed {op : Bytes} (h : op ∈ allowedOps) : holeByte ∉ op := by
  simp only [allowedOps, List.mem_cons, List.not_mem_nil, or_false] at h
  rcases h with rfl | rfl | rfl | rfl | rfl | rfl | rfl <;> decide

/-- The column of a condition. -/
def Condition.field : Condition → ColumnName
  | .inIds field _ => field
  | .like field _ => field
  | .compare field _ _ => field

/-- A condition that can be written down: the column is a word, an `IN` list has
values, and the operator is one of SQL. -/
def Condition.Writable (c : Condition) : Prop :=
  isWord c.field = true ∧
    match c with
    | .inIds _ ids => ids ≠ []
    | .like _ _ => True
    | .compare _ op _ => op ∈ allowedOps ∧ op ≠ lit "~="

/-- The placeholders between the brackets of an `IN` list. -/
def holes (n : ℕ) : Bytes := (lit ",").intercalate (List.replicate n (lit "?"))

theorem holes_succ_succ (n : ℕ) : holes (n + 2) = holeByte :: 44 :: holes (n + 1) := by
  unfold holes
  rw [List.replicate_succ, List.replicate_succ, List.intercalate_cons_cons]
  rfl

theorem inIds_sql (field : ColumnName) (ids : List ValueId) :
    (Condition.inIds field ids).sql = field ++ lit " IN (" ++ holes ids.length ++ lit ")" := by
  rw [Condition.sql, List.map_const']
  rfl

theorem count_holes : ∀ n : ℕ, (holes n).count holeByte = n
  | 0 => rfl
  | 1 => rfl
  | n + 2 => by
    rw [holes_succ_succ, List.count_cons_self, List.count_cons_of_ne (by decide),
      count_holes (n + 1)]

/-- **A condition has a placeholder for each of its parameters.** -/
theorem Condition.count_sql {c : Condition} (h : c.Writable) :
    c.sql.count holeByte = c.params.length := by
  have hfield : c.field.count holeByte = 0 :=
    List.count_eq_zero_of_not_mem (holeByte_notMem_of_isWord h.1)
  cases c with
  | inIds field ids =>
    have hopen : (lit " IN (").count holeByte = 0 := rfl
    have hclose : (lit ")").count holeByte = 0 := rfl
    rw [inIds_sql, List.count_append, List.count_append, List.count_append, count_holes, hopen,
      hclose, show field.count holeByte = 0 from hfield]
    simp [Condition.params]
  | like field pattern =>
    show (field ++ lit " LIKE ?").count holeByte = 1
    rw [List.count_append, show field.count holeByte = 0 from hfield]
    rfl
  | compare field op value =>
    show (field ++ lit " " ++ op ++ lit " ?").count holeByte = 1
    rw [List.count_append, List.count_append, List.count_append,
      show field.count holeByte = 0 from hfield,
      List.count_eq_zero_of_not_mem (holeByte_notMem_of_allowed h.2.1)]
    rfl

/-- The tokens of the values of an `IN` list, with the bracket. -/
def valueTokens : List Json → List SqlToken
  | [] => [.rpar]
  | [v] => [.value v, .rpar]
  | v :: vs => .value v :: .comma :: valueTokens vs

/-- The tokens of a condition after the name. -/
def Condition.opTokens : Condition → List SqlToken
  | .inIds _ ids => .word (lit "IN") :: .lpar :: valueTokens (ids.map Json.integer)
  | .like _ pattern => [.word (lit "LIKE"), .value (.string pattern)]
  | .compare _ op value => [.op op, .value value]

/-- Scanning the values of an `IN` list. -/
theorem scan_holes (rest : List Piece) : ∀ vs : List Json, vs ≠ [] →
    scan (placed (holes vs.length) vs ++ .inl 41 :: rest) = valueTokens vs ++ scan rest
  | [], h => absurd rfl h
  | [v], _ => rfl
  | v :: v' :: vs, _ => by
    have ih := scan_holes rest (v' :: vs) (List.cons_ne_nil _ _)
    have hplaced : placed (holes (v :: v' :: vs).length) (v :: v' :: vs) =
        .inr v :: .inl 44 :: placed (holes (v' :: vs).length) (v' :: vs) := by
      unfold placed
      rw [List.length_cons, List.length_cons, holes_succ_succ, fill_placeholder,
        fill_cons_of_ne (by decide)]
    rw [hplaced]
    show .value v :: pushByte 44 (scan (placed _ _ ++ .inl 41 :: rest)) = _
    rw [ih]
    rfl

theorem dropBlanks_valueTokens (rest : List SqlToken) : ∀ vs : List Json,
    dropBlanks (valueTokens vs ++ rest) = valueTokens vs ++ dropBlanks rest
  | [] => rfl
  | [_] => rfl
  | v :: v' :: vs => by
    have ih := dropBlanks_valueTokens rest (v' :: vs)
    show .value v :: .comma :: dropBlanks (valueTokens (v' :: vs) ++ rest) = _
    rw [ih]
    rfl

/-- A condition with its parameters in place. -/
theorem placed_inIds {field : ColumnName} (h : isWord field = true) (ids : List ValueId) :
    placed (Condition.inIds field ids).sql (Condition.inIds field ids).params =
      plain field ++ .inl 32 :: (plain (lit "IN") ++ .inl 32 :: .inl 40 ::
        (placed (holes ids.length) (ids.map Json.integer) ++ [.inl 41])) := by
  have hcount : (holes ids.length).count holeByte = (ids.map Json.integer).length := by
    rw [count_holes, List.length_map]
  have happ := fill_append hcount (lit ")") []
  rw [List.append_nil] at happ
  unfold placed
  rw [inIds_sql, List.append_assoc, List.append_assoc,
    fill_append_of_notMem (holeByte_notMem_of_isWord h),
    fill_append_of_notMem (by decide : holeByte ∉ lit " IN ("), Condition.params, happ]
  rfl

/-- **The tokens of a condition**, whatever comes after it. -/
theorem dropBlanks_scan_condition {c : Condition} (h : c.Writable) (rest : List Piece) :
    dropBlanks (scan (placed c.sql c.params ++ rest)) =
      .word c.field :: (c.opTokens ++ dropBlanks (scan rest)) := by
  obtain ⟨hfield, hop⟩ := h
  cases c with
  | inIds field ids =>
    replace hfield : isWord field = true := hfield
    have hne : ids.map Json.integer ≠ [] := by
      rw [ne_eq, List.map_eq_nil_iff]
      exact hop
    have hvalues := scan_holes rest _ hne
    rw [List.length_map] at hvalues
    rw [placed_inIds hfield]
    simp only [List.append_assoc, List.cons_append, List.nil_append]
    rw [scan_word hfield, scan_word (by rfl : isWord (lit "IN") = true)]
    show .word field :: .word (lit "IN") :: .lpar :: dropBlanks (scan (_ ++ .inl 41 :: rest)) = _
    rw [hvalues, dropBlanks_valueTokens]
    rfl
  | like field pattern =>
    replace hfield : isWord field = true := hfield
    have hplaced : placed (field ++ lit " LIKE ?") [.string pattern] =
        plain field ++ .inl 32 :: (plain (lit "LIKE") ++ .inl 32 :: [.inr (.string pattern)]) :=
      fill_append_of_notMem (holeByte_notMem_of_isWord hfield) _ _
    show dropBlanks (scan (placed (field ++ lit " LIKE ?") [.string pattern] ++ rest)) = _
    rw [hplaced]
    simp only [List.append_assoc, List.cons_append, List.nil_append]
    rw [scan_word hfield, scan_word (by rfl : isWord (lit "LIKE") = true)]
    rfl
  | compare field op value =>
    replace hfield : isWord field = true := hfield
    have hplaced : placed (field ++ lit " " ++ op ++ lit " ?") [value] =
        plain field ++ .inl 32 :: (plain op ++ .inl 32 :: [.inr value]) := by
      unfold placed
      rw [List.append_assoc, List.append_assoc,
        fill_append_of_notMem (holeByte_notMem_of_isWord hfield),
        fill_append_of_notMem (by decide : holeByte ∉ lit " "),
        fill_append_of_notMem (holeByte_notMem_of_allowed hop.1)]
      rfl
    show dropBlanks (scan (placed (field ++ lit " " ++ op ++ lit " ?") [value] ++ rest)) = _
    rw [hplaced]
    simp only [List.append_assoc, List.cons_append, List.nil_append]
    rw [scan_word hfield, scan_op hop.1]
    rfl

/-! ### Reading the conditions back -/

/-- What a condition says, with its values bound in it. -/
def Condition.bound : Condition → Option SqlCondition
  | .inIds field ids => some (.inList field (ids.map Json.integer))
  | .like field pattern => some (.like field (.string pattern))
  | .compare field op value => (comparisonOf op).map fun cmp => .compare field cmp value

theorem readValues_valueTokens (rest : List SqlToken) : ∀ vs : List Json, vs ≠ [] →
    readValues (valueTokens vs ++ rest) = some (vs, rest)
  | [], h => absurd rfl h
  | [_], _ => rfl
  | v :: v' :: vs, _ => by
    have ih := readValues_valueTokens rest (v' :: vs) (List.cons_ne_nil _ _)
    show (readValues (valueTokens (v' :: vs) ++ rest)).map (fun p => (v :: p.1, p.2)) = _
    rw [ih]
    rfl

/-- The comparison of an operator that is not `~=`. -/
theorem comparisonOf_isSome {op : Bytes} (h : op ∈ allowedOps) (hne : op ≠ lit "~=") :
    ∃ cmp, comparisonOf op = some cmp := by
  simp only [allowedOps, List.mem_cons, List.not_mem_nil, or_false] at h
  rcases h with rfl | rfl | rfl | rfl | rfl | rfl | rfl
  · exact ⟨.eq, rfl⟩
  · exact ⟨.ne, rfl⟩
  · exact ⟨.gt, rfl⟩
  · exact ⟨.ge, rfl⟩
  · exact ⟨.lt, rfl⟩
  · exact ⟨.le, rfl⟩
  · exact absurd rfl hne

/-- A condition is read back from its tokens. -/
theorem readOperation_opTokens {c : Condition} (h : c.Writable) (rest : List SqlToken) :
    ∃ s, c.bound = some s ∧ readOperation c.field (c.opTokens ++ rest) = some (s, rest) := by
  cases c with
  | inIds field ids =>
    have hne : ids.map Json.integer ≠ [] := by
      rw [ne_eq, List.map_eq_nil_iff]
      exact h.2
    refine ⟨_, rfl, ?_⟩
    show (readValues (valueTokens (ids.map Json.integer) ++ rest)).map _ = _
    rw [readValues_valueTokens rest _ hne]
    rfl
  | like field pattern => exact ⟨_, rfl, rfl⟩
  | compare field op value =>
    obtain ⟨cmp, hcmp⟩ := comparisonOf_isSome h.2.1 h.2.2
    refine ⟨.compare field cmp value, ?_, ?_⟩
    · rw [Condition.bound, hcmp]
      rfl
    · show (comparisonOf op).map _ = _
      rw [hcmp]
      rfl

/-- What is read says of a row what the condition does. -/
theorem holds_of_bound {cat : DatabaseCatalog} {c : Condition} {s : SqlCondition} {r : LogRow}
    (h : c.bound = some s) : s.holds cat r = c.holds cat r := by
  cases c with
  | inIds field ids =>
    obtain rfl := Option.some.inj h
    simp only [SqlCondition.holds, Condition.holds]
    cases cat.column field with
    | none => rfl
    | some ci => exact List.any_map
  | like field pattern =>
    obtain rfl := Option.some.inj h
    simp only [SqlCondition.holds, Condition.holds]
    cases cat.column field with
    | none => rfl
    | some ci =>
      -- the pattern is bound as a text, which is not null
      show (r.value ci != .null && true && _) = _
      rw [Bool.and_true]
      rfl
  | compare field op value =>
    obtain ⟨cmp, hcmp, rfl⟩ := Option.map_eq_some_iff.mp h
    simp only [SqlCondition.holds, Condition.holds, hcmp]
    cases cat.column field <;> rfl

/-! ### The text of a clause -/

/-- The text of conditions joined by `AND`. -/
theorem all_sql_cons (c c' : Condition) (cs : List Condition) :
    (WhereClause.all (c :: c' :: cs)).sql =
      c.sql ++ (lit " AND " ++ (WhereClause.all (c' :: cs)).sql) := by
  show (lit " AND ").intercalate (c.sql :: c'.sql :: cs.map Condition.sql) = _
  rw [List.intercalate_cons_cons, List.append_assoc]
  rfl

theorem all_sql_singleton (c : Condition) : (WhereClause.all [c]).sql = c.sql := by
  show (lit " AND ").intercalate [c.sql] = _
  rw [List.intercalate_singleton]

theorem all_params_cons (c : Condition) (cs : List Condition) :
    (WhereClause.all (c :: cs)).params = c.params ++ (WhereClause.all cs).params := rfl

theorem count_and : (lit " AND ").count holeByte = 0 := rfl

theorem count_all_sql : ∀ cs : List Condition, (∀ c ∈ cs, c.Writable) →
    (WhereClause.all cs).sql.count holeByte = (WhereClause.all cs).params.length
  | [], _ => rfl
  | [c], h => by
    rw [all_sql_singleton, all_params_cons, Condition.count_sql (h c List.mem_cons_self)]
    exact congrArg List.length (List.append_nil _).symm
  | c :: c' :: cs, h => by
    have ih := count_all_sql (c' :: cs) fun x hx => h x (List.mem_cons_of_mem c hx)
    rw [all_sql_cons, all_params_cons, List.count_append, List.count_append, count_and,
      Nat.zero_add, Condition.count_sql (h c List.mem_cons_self), ih, List.length_append]

/-- The tokens of conditions joined by `AND`. -/
def andTokens : List Condition → List SqlToken
  | [] => []
  | [c] => .word c.field :: c.opTokens
  | c :: cs => .word c.field :: (c.opTokens ++ .word (lit "AND") :: andTokens cs)

/-- Conditions joined by `AND`, with their parameters in place. -/
theorem placed_all_cons {c : Condition} (h : c.Writable) (c' : Condition) (cs : List Condition) :
    placed (WhereClause.all (c :: c' :: cs)).sql (WhereClause.all (c :: c' :: cs)).params =
      placed c.sql c.params ++ (.inl 32 :: (plain (lit "AND") ++ .inl 32 ::
        placed (WhereClause.all (c' :: cs)).sql (WhereClause.all (c' :: cs)).params)) := by
  rw [all_sql_cons, all_params_cons]
  unfold placed
  rw [fill_append (Condition.count_sql h),
    fill_append_of_notMem (List.count_eq_zero.mp count_and)]
  rfl

theorem dropBlanks_scan_all : ∀ cs : List Condition, (∀ c ∈ cs, c.Writable) →
    dropBlanks (scan (placed (WhereClause.all cs).sql (WhereClause.all cs).params)) = andTokens cs
  | [], _ => rfl
  | [c], h => by
    have hc := dropBlanks_scan_condition (h c List.mem_cons_self) []
    have hparams : (WhereClause.all [c]).params = c.params := List.append_nil _
    rw [all_sql_singleton, hparams]
    rw [List.append_nil] at hc
    rw [hc]
    show .word c.field :: (c.opTokens ++ []) = _
    rw [List.append_nil]
    rfl
  | c :: c' :: cs, h => by
    have ih := dropBlanks_scan_all (c' :: cs) fun x hx => h x (List.mem_cons_of_mem c hx)
    have hc := h c List.mem_cons_self
    rw [placed_all_cons hc, dropBlanks_scan_condition hc]
    have hand : isWord (lit "AND") = true := by rfl
    show .word c.field :: (c.opTokens ++
      dropBlanks (.blank :: scan (plain (lit "AND") ++ .inl 32 :: _))) = _
    rw [scan_word hand]
    show .word c.field :: (c.opTokens ++ .word (lit "AND") :: dropBlanks (scan _)) = _
    rw [ih]
    rfl

/-- Conditions are read back one by one. -/
theorem readConditions_andTokens {reserved : Bytes → Bool} {cat : DatabaseCatalog} {r : LogRow} :
    ∀ (cs : List Condition) (n : ℕ), cs ≠ [] → cs.length ≤ n →
      (∀ c ∈ cs, c.Writable ∧ reserved c.field = false) →
        ∃ ss, readConditions reserved n (andTokens cs) = some ss ∧
          (ss.all fun s => s.holds cat r) = cs.all fun c => c.holds cat r
  | [], _, h, _, _ => absurd rfl h
  | _ :: _, 0, _, hn, _ => absurd hn (by simp)
  | [c], n + 1, _, _, h => by
    obtain ⟨hc, hfree⟩ := h c List.mem_cons_self
    obtain ⟨s, hs, hread⟩ := readOperation_opTokens hc []
    rw [List.append_nil] at hread
    refine ⟨[s], ?_, ?_⟩
    · show readConditions reserved (n + 1) (.word c.field :: c.opTokens) = _
      unfold readConditions
      rw [hfree, hread]
      rfl
    · rw [List.all_cons, List.all_cons, holds_of_bound hs]
      rfl
  | c :: c' :: cs, n + 1, _, hn, h => by
    obtain ⟨hc, hfree⟩ := h c List.mem_cons_self
    obtain ⟨ss, hss, hall⟩ := readConditions_andTokens (c' :: cs) n (List.cons_ne_nil _ _)
      (Nat.le_of_succ_le_succ hn) fun x hx => h x (List.mem_cons_of_mem c hx)
    obtain ⟨s, hs, hread⟩ :=
      readOperation_opTokens hc (.word (lit "AND") :: andTokens (c' :: cs))
    refine ⟨s :: ss, ?_, ?_⟩
    · show readConditions reserved (n + 1)
        (.word c.field :: (c.opTokens ++ .word (lit "AND") :: andTokens (c' :: cs))) = _
      unfold readConditions
      rw [hfree, hread]
      simp only [Bool.false_eq_true, if_false, if_true]
      rw [hss]
      rfl
    · rw [List.all_cons, hall, holds_of_bound hs, ← List.all_cons]

theorem length_le_andTokens : ∀ cs : List Condition, cs.length ≤ (andTokens cs).length
  | [] => Nat.le_refl _
  | [c] => by
    show 1 ≤ c.opTokens.length + 1
    omega
  | c :: c' :: cs => by
    have ih := length_le_andTokens (c' :: cs)
    show (c' :: cs).length + 1 ≤
      (c.opTokens ++ .word (lit "AND") :: andTokens (c' :: cs)).length + 1
    have hlen : (SqlToken.word (lit "AND") :: andTokens (c' :: cs)).length =
        (andTokens (c' :: cs)).length + 1 := rfl
    have hcs : (c' :: cs).length = cs.length + 1 := rfl
    rw [List.length_append, hlen]
    omega

/-- Conditions are not the comparison of two numbers. -/
theorem readTokens_andTokens (reserved : Bytes → Bool) {c : Condition} {cs : List Condition} :
    readTokens reserved (andTokens (c :: cs)) =
      (readConditions reserved (andTokens (c :: cs)).length (andTokens (c :: cs))).map .all := by
  cases c <;> cases cs <;> rfl

/-! ### Clauses of accepted filters -/

section
variable {cat : DatabaseCatalog} {d : LookupTable} {reserved : Bytes → Bool}

theorem conditionOf_field (ft : QueryFilter) : (conditionOf cat d ft).field = ft.field := by
  unfold conditionOf
  split_ifs <;> rfl

theorem plainName_of_knows (hplain : cat.Plain reserved) {field : ColumnName}
    (h : cat.knows field = true) : plainName reserved field = true := by
  obtain ⟨ci, hmem, hname⟩ := List.any_eq_true.mp h
  rw [← beq_iff_eq.mp hname]
  exact hplain ci hmem

/-- The condition of a filter can be written down. -/
theorem conditionOf_writable (hplain : cat.Plain reserved) {ft : QueryFilter}
    (h : ft.Passes cat d) : (conditionOf cat d ft).Writable ∧
      reserved (conditionOf cat d ft).field = false := by
  obtain ⟨⟨hknows, hop⟩, hno⟩ := h
  obtain ⟨hword, hfree⟩ := isWord_of_plainName (plainName_of_knows hplain hknows)
  rw [conditionOf_field]
  refine ⟨⟨by rw [conditionOf_field]; exact hword, ?_⟩, hfree⟩
  unfold conditionOf
  split_ifs with hcomp hlike
  · unfold QueryFilter.NoId at hno
    rw [hcomp, Bool.true_and] at hno
    show queryCandidates cat.platform d ft ≠ []
    intro hnil
    rw [hnil] at hno
    cases hno
  · trivial
  · exact ⟨by simpa using hop, hlike⟩

theorem forall_conditionOf_writable (hplain : cat.Plain reserved) {filters : List QueryFilter}
    (hpass : ∀ f ∈ filters, f.Passes cat d) : ∀ c ∈ filters.map (conditionOf cat d),
      c.Writable ∧ reserved c.field = false := by
  intro c hc
  obtain ⟨f, hf, rfl⟩ := List.mem_map.mp hc
  exact conditionOf_writable hplain (hpass f hf)

/-- **The text of a clause says of a row what the clause does.** -/
theorem sqlTruth_clause (hplain : cat.Plain reserved) {filters : List QueryFilter}
    {clause : WhereClause} (h : buildWhereClause cat d filters = .ok clause) (r : LogRow) :
    sqlTruth cat reserved clause.sql clause.params r = some (clause.holds cat r) := by
  rcases buildWhereClause_cases h with ⟨rfl, -⟩ | ⟨-, rfl⟩ | ⟨hne, hpass, rfl⟩
  · rfl
  · rfl
  · have hwrite := forall_conditionOf_writable hplain hpass
    have hcs : filters.map (conditionOf cat d) ≠ [] := by
      rw [ne_eq, List.map_eq_nil_iff]
      exact hne
    revert hwrite hcs
    generalize filters.map (conditionOf cat d) = cs
    intro hwrite hcs
    obtain ⟨ss, hss, hall⟩ := readConditions_andTokens cs _ hcs
      (length_le_andTokens cs) hwrite
    obtain ⟨c, cs, rfl⟩ := List.exists_cons_of_ne_nil hcs
    unfold sqlTruth readWhere
    rw [dropBlanks_scan_all _ fun c hc => (hwrite c hc).1, readTokens_andTokens, hss]
    show some (ss.all fun s => s.holds cat r) = _
    rw [hall]
    rfl

/-- **A clause has a placeholder for each of its parameters.** -/
theorem count_clause (hplain : cat.Plain reserved) {filters : List QueryFilter}
    {clause : WhereClause} (h : buildWhereClause cat d filters = .ok clause) :
    clause.sql.count holeByte = clause.params.length := by
  rcases buildWhereClause_cases h with ⟨rfl, -⟩ | ⟨-, rfl⟩ | ⟨-, hpass, rfl⟩
  · rfl
  · rfl
  · exact count_all_sql _ fun c hc => (forall_conditionOf_writable hplain hpass c hc).1

end

end LogLite
