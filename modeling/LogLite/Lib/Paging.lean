import Mathlib.Data.List.Sort
import Mathlib.Data.List.Nodup
import Mathlib.Data.List.Perm.Basic

/-!
# Pages of a list sorted by a preorder

Items are asked for page by page; each request sorts them anew by a total preorder
and cuts out its page, and items that tie may come in another order each time.  The
pages are then pages of different lists.

An item stands behind the items that come strictly before it, wherever its ties go.
So the pages partition the items as soon as all ties of an item fall on one page; and
if they do not, two orders can show one item twice.

## Main definitions

* `Ordered le items sorted` — `sorted` is one way to sort the items.
* `page limit k l` — page number `k` of a list.
* `ahead le items a`, `upTo le items a` — how many items come strictly before `a`, and
  how many do not come strictly after it.
* `TiesOnOnePage` — an item and its ties fall on one page.

## Main results

* `Ordered.ahead_lt_iff` — a boundary that separates no ties cuts every sorted list
  at the same items.
* `pages_partition` — **pages that separate no ties partition the items.**
* `pages_repeat` — **pages that do may show an item twice.**
* `pages_partition_iff` — the two together.
-/

namespace Paging

variable {α : Type*} {le : α → α → Prop} {items sorted : List α} {pages : ℕ → List α} {limit : ℕ}

/-- `sorted` are the items, in the order `le`. -/
structure Ordered (le : α → α → Prop) (items sorted : List α) : Prop where
  perm : sorted.Perm items
  pairwise : sorted.Pairwise le

/-- Page number `k`. -/
def page (limit k : ℕ) (l : List α) : List α := (l.drop (k * limit)).take limit

/-- The first `n` pages, one after the other. -/
def firstPages (pages : ℕ → List α) (n : ℕ) : List α := (List.range n).flatMap pages

section
variable (le : α → α → Prop) [DecidableRel le] (items : List α)

/-- The number of items that come strictly before `a`. -/
def ahead (a : α) : ℕ := items.countP fun b => !decide (le a b)

/-- The number of items that come before `a` or tie with it. -/
def upTo (a : α) : ℕ := items.countP fun b => decide (le b a)

/-- Every item and its ties fall on one page. -/
def TiesOnOnePage (limit : ℕ) : Prop :=
  ∀ a ∈ items, ahead le items a / limit = (upTo le items a - 1) / limit

end

/-! ### Counting along a sorted list -/

theorem countP_le_of_drop {p : α → Bool} {l : List α} {i : ℕ} (h : ∀ a ∈ l.drop i, p a = false) :
    l.countP p ≤ i := by
  have hdrop : (l.drop i).countP p = 0 := List.countP_eq_zero.mpr (by simpa using h)
  rw [← List.take_append_drop i l, List.countP_append, hdrop, Nat.add_zero]
  exact List.countP_le_length.trans (List.length_take_le i l)

theorem lt_countP_of_take {p : α → Bool} {l : List α} {i : ℕ} (hi : i < l.length)
    (h : ∀ a ∈ l.take (i + 1), p a = true) : i < l.countP p := by
  have htake : (l.take (i + 1)).countP p = i + 1 := by
    rw [List.countP_eq_length.mpr h, List.length_take]
    omega
  have hle : (l.take (i + 1)).countP p ≤ l.countP p := (List.take_sublist _ l).countP_le
  omega

theorem filter_eq_take_drop {p : α → Bool} {l : List α} {c n : ℕ}
    (h : ∀ i (hi : i < l.length), p l[i] = true ↔ c ≤ i ∧ i < c + n) :
    l.filter p = (l.drop c).take n := by
  have hbefore : (l.take c).filter p = [] := by
    refine List.filter_eq_nil_iff.mpr fun a ha => ?_
    obtain ⟨i, hi, rfl⟩ := List.getElem_of_mem ha
    rw [List.length_take] at hi
    rw [List.getElem_take]
    exact fun hp => absurd ((h i (by omega)).mp hp).1 (by omega)
  have hpage : ((l.drop c).take n).filter p = (l.drop c).take n := by
    refine List.filter_eq_self.mpr fun a ha => ?_
    obtain ⟨i, hi, rfl⟩ := List.getElem_of_mem ha
    rw [List.length_take, List.length_drop] at hi
    rw [List.getElem_take, List.getElem_drop]
    exact (h _ (by omega)).mpr (by omega)
  have hafter : ((l.drop c).drop n).filter p = [] := by
    refine List.filter_eq_nil_iff.mpr fun a ha => ?_
    obtain ⟨i, hi, rfl⟩ := List.getElem_of_mem ha
    rw [List.length_drop, List.length_drop] at hi
    rw [List.getElem_drop, List.getElem_drop]
    exact fun hp => absurd ((h _ (by omega)).mp hp).2 (by omega)
  calc l.filter p = (l.take c ++ ((l.drop c).take n ++ (l.drop c).drop n)).filter p := by
        rw [List.take_append_drop, List.take_append_drop]
    _ = (l.drop c).take n := by
        rw [List.filter_append, List.filter_append, hbefore, hpage, hafter, List.nil_append,
          List.append_nil]

/-- Neighbours that tie may change places. -/
theorem pairwise_swap {l₁ l₂ : List α} {x y : α} (h : (l₁ ++ x :: y :: l₂).Pairwise le)
    (hyx : le y x) : (l₁ ++ y :: x :: l₂).Pairwise le := by
  simp only [List.pairwise_append, List.pairwise_cons, List.mem_cons] at h ⊢
  obtain ⟨h₁, ⟨hx, hy, h₂⟩, hcross⟩ := h
  refine ⟨h₁, ⟨?_, fun b hb => hx b (.inr hb), h₂⟩, ?_⟩
  · rintro b (rfl | hb)
    · exact hyx
    · exact hy b hb
  · rintro a ha b (rfl | rfl | hb)
    · exact hcross a ha b (.inr (.inl rfl))
    · exact hcross a ha b (.inl rfl)
    · exact hcross a ha b (.inr (.inr hb))

/-- The list stays an order of the items. -/
theorem Ordered.swap {l₁ l₂ : List α} {x y : α} (h : Ordered le items (l₁ ++ x :: y :: l₂))
    (hyx : le y x) : Ordered le items (l₁ ++ y :: x :: l₂) where
  perm := ((List.Perm.swap x y l₂).append_left l₁).trans h.perm
  pairwise := pairwise_swap h.pairwise hyx

/-! ### Reading page by page -/

/-- Every page is the page of some sorted list of the items. -/
def Pages (le : α → α → Prop) (items : List α) (limit : ℕ) (pages : ℕ → List α) : Prop :=
  ∀ k, ∃ sorted, Ordered le items sorted ∧ pages k = page limit k sorted

/-- There is a first empty page, and those before it have every item once, in order. -/
def Partition (le : α → α → Prop) (items : List α) (pages : ℕ → List α) : Prop :=
  ∃ n, (∀ k < n, pages k ≠ []) ∧ pages n = [] ∧ Ordered le items (firstPages pages n)

theorem firstPages_succ (pages : ℕ → List α) (n : ℕ) :
    firstPages pages (n + 1) = firstPages pages n ++ pages n := by
  simp [firstPages, List.range_succ]

theorem firstPages_prefix (pages : ℕ → List α) {m n : ℕ} (h : m ≤ n) :
    firstPages pages m <+: firstPages pages n := by
  induction h with
  | refl => exact List.prefix_refl _
  | step _ ih =>
    rw [firstPages_succ]
    exact ih.trans (List.prefix_append _ _)

theorem page_eq_nil_iff (hlimit : 0 < limit) {k : ℕ} {l : List α} :
    page limit k l = [] ↔ l.length ≤ k * limit := by
  unfold page
  rw [← List.length_eq_zero_iff, List.length_take, List.length_drop]
  omega

theorem Pages.eq_nil_iff (h : Pages le items limit pages) (hlimit : 0 < limit) {k : ℕ} :
    pages k = [] ↔ items.length ≤ k * limit := by
  obtain ⟨sorted, hsorted, hpage⟩ := h k
  rw [hpage, page_eq_nil_iff hlimit, hsorted.perm.length_eq]

/-! ### Along a sorted list -/

section
variable [Std.Total le]

theorem total_refl (a : α) : le a a := (Std.Total.total a a).elim id id

/-- Earlier items are not after later ones. -/
theorem le_of_mem_take (h : sorted.Pairwise le) {i : ℕ} (hi : i < sorted.length) {b : α}
    (hb : b ∈ sorted.take (i + 1)) : le b sorted[i] := by
  rw [List.take_succ_eq_append_getElem hi, List.mem_append, List.mem_singleton] at hb
  rcases hb with hb | rfl
  · obtain ⟨j, hj, rfl⟩ := List.getElem_of_mem hb
    rw [List.getElem_take]
    rw [List.length_take] at hj
    exact List.pairwise_iff_getElem.mp h j i (by omega) hi (by omega)
  · exact total_refl _

theorem le_of_mem_drop (h : sorted.Pairwise le) {i : ℕ} (hi : i < sorted.length) {b : α}
    (hb : b ∈ sorted.drop i) : le sorted[i] b := by
  rw [List.drop_eq_getElem_cons hi, List.mem_cons] at hb
  rcases hb with rfl | hb
  · exact total_refl _
  · obtain ⟨j, hj, rfl⟩ := List.getElem_of_mem hb
    rw [List.getElem_drop]
    rw [List.length_drop] at hj
    exact List.pairwise_iff_getElem.mp h i (i + 1 + j) hi (by omega) (by omega)

end

section
variable [DecidableRel le]

theorem ahead_perm {items' : List α} (h : items.Perm items') (a : α) :
    ahead le items a = ahead le items' a :=
  h.countP_eq _

theorem upTo_perm {items' : List α} (h : items.Perm items') (a : α) :
    upTo le items a = upTo le items' a :=
  h.countP_eq _

/-- An item that comes no later has no more items before it. -/
theorem ahead_mono [IsTrans α le] {a b : α} (h : le b a) : ahead le items b ≤ ahead le items a := by
  refine List.countP_mono_left fun x _ hx => ?_
  simp only [Bool.not_eq_eq_eq_not, Bool.not_true, decide_eq_false_iff_not] at hx ⊢
  exact fun hax => hx (IsTrans.trans _ _ _ h hax)

variable [Std.Total le]

/-- An item stands behind the items that come strictly before it. -/
theorem ahead_le (h : sorted.Pairwise le) {i : ℕ} (hi : i < sorted.length) :
    ahead le sorted sorted[i] ≤ i := by
  refine countP_le_of_drop fun b hb => ?_
  simpa using le_of_mem_drop h hi hb

theorem lt_upTo (h : sorted.Pairwise le) {i : ℕ} (hi : i < sorted.length) :
    i < upTo le sorted sorted[i] := by
  refine lt_countP_of_take hi fun b hb => ?_
  simpa using le_of_mem_take h hi hb

theorem Ordered.ahead_lt_length (h : Ordered le items sorted) {a : α} (ha : a ∈ items) :
    ahead le items a < items.length := by
  obtain ⟨i, hi, rfl⟩ := List.getElem_of_mem (h.perm.mem_iff.mpr ha)
  have hahead := ahead_le h.pairwise hi
  rw [ahead_perm h.perm] at hahead
  have hlen := h.perm.length_eq
  omega

/-- A boundary between pages cuts every sorted list at the same items, if it separates
no ties. -/
theorem Ordered.ahead_lt_iff (hties : TiesOnOnePage le items limit) (h : Ordered le items sorted)
    (k : ℕ) {i : ℕ} (hi : i < sorted.length) :
    ahead le items sorted[i] < k * limit ↔ i < k * limit := by
  have hahead := ahead_le h.pairwise hi
  have hupTo := lt_upTo h.pairwise hi
  rw [ahead_perm h.perm] at hahead
  rw [upTo_perm h.perm] at hupTo
  constructor
  · intro hlt
    by_contra hge
    -- the ties of the item reach beyond the boundary, and begin before it
    have hpage := hties sorted[i] (h.perm.mem_iff.mp (List.getElem_mem hi))
    have hpos : 0 < limit := by
      rcases Nat.eq_zero_or_pos limit with rfl | hpos
      · omega
      · exact hpos
    have hbefore : ahead le items sorted[i] / limit < k := (Nat.div_lt_iff_lt_mul hpos).mpr hlt
    have hafter : k ≤ (upTo le items sorted[i] - 1) / limit :=
      (Nat.le_div_iff_mul_le hpos).mpr (by omega)
    omega
  · intro hlt
    omega

/-- The item belongs on page `k`, by the number of items strictly before it. -/
def OnPage (le : α → α → Prop) [DecidableRel le] (items : List α) (limit k : ℕ) (a : α) : Bool :=
  k * limit ≤ ahead le items a ∧ ahead le items a < k * limit + limit

/-- Page `k` has the items that belong on it, whatever the order of ties is. -/
theorem Ordered.page_eq (hties : TiesOnOnePage le items limit) (h : Ordered le items sorted)
    (k : ℕ) : page limit k sorted = sorted.filter (OnPage le items limit k) := by
  refine (filter_eq_take_drop fun i hi => ?_).symm
  have hlower := h.ahead_lt_iff hties k hi
  have hupper := h.ahead_lt_iff hties (k + 1) hi
  rw [Nat.succ_mul] at hupper
  unfold OnPage
  rw [decide_eq_true_eq]
  omega

theorem Ordered.page_perm (hties : TiesOnOnePage le items limit) (h : Ordered le items sorted)
    (k : ℕ) : (page limit k sorted).Perm (items.filter (OnPage le items limit k)) := by
  rw [h.page_eq hties]
  exact h.perm.filter _

/-- The first pages have the items that belong on them. -/
theorem Pages.firstPages_perm (hties : TiesOnOnePage le items limit)
    (h : Pages le items limit pages) (n : ℕ) :
    (firstPages pages n).Perm (items.filter fun a => ahead le items a < n * limit) := by
  induction n with
  | zero => simp [firstPages]
  | succ n ih =>
    obtain ⟨sorted, hsorted, hpage⟩ := h n
    have hsplit := List.filter_append_perm (fun a => decide (ahead le items a < n * limit))
      (items.filter fun a => ahead le items a < (n + 1) * limit)
    rw [List.filter_filter, List.filter_filter] at hsplit
    rw [firstPages_succ, hpage]
    refine (ih.append (hsorted.page_perm hties n)).trans ?_
    refine (List.Perm.of_eq ?_).trans hsplit
    rw [Nat.succ_mul]
    congr 1
    · refine List.filter_congr fun a _ => ?_
      rw [Bool.eq_iff_iff, Bool.and_eq_true, decide_eq_true_eq, decide_eq_true_eq]
      omega
    · refine List.filter_congr fun a _ => ?_
      rw [OnPage, Bool.eq_iff_iff, Bool.and_eq_true, Bool.not_eq_true', decide_eq_true_eq,
        decide_eq_true_eq, decide_eq_false_iff_not]
      omega

/-- A boundary of pages lies between two ties if they are not on one page. -/
theorem Ordered.exists_boundary (h : Ordered le items sorted) {a : α} (ha : a ∈ items)
    (hlimit : 0 < limit) (hne : ahead le items a / limit ≠ (upTo le items a - 1) / limit) :
    ∃ k c, c + 1 = (k + 1) * limit ∧ ahead le sorted a ≤ c ∧ c + 1 < upTo le sorted a := by
  obtain ⟨i, hi, rfl⟩ := List.getElem_of_mem (h.perm.mem_iff.mpr ha)
  rw [← ahead_perm h.perm, ← upTo_perm h.perm] at hne
  have hahead := ahead_le h.pairwise hi
  have hupTo := lt_upTo h.pairwise hi
  have hpages : ahead le sorted sorted[i] / limit < (upTo le sorted sorted[i] - 1) / limit :=
    lt_of_le_of_ne (Nat.div_le_div_right (by omega)) hne
  obtain ⟨k, hk⟩ := Nat.exists_eq_add_one.mpr ((Nat.zero_le _).trans_lt hpages)
  rw [hk] at hpages
  have hlow : ahead le sorted sorted[i] < (k + 1) * limit :=
    (Nat.div_lt_iff_lt_mul hlimit).mp hpages
  have hhigh : (k + 1) * limit ≤ upTo le sorted sorted[i] - 1 :=
    (Nat.le_div_iff_mul_le hlimit).mp hk.ge
  exact ⟨k, (k + 1) * limit - 1, by omega, by omega, by omega⟩

variable [IsTrans α le]

/-- From there on, no item comes strictly before it. -/
theorem le_getElem_of_ahead_le (h : sorted.Pairwise le) {a : α} {i : ℕ} (hi : i < sorted.length)
    (ha : ahead le sorted a ≤ i) : le a sorted[i] := by
  by_contra hlt
  have hia : le sorted[i] a := (Std.Total.total _ _).resolve_left hlt
  have hmore : i < ahead le sorted a := by
    refine lt_countP_of_take hi fun b hb => ?_
    have hbi : le b sorted[i] := le_of_mem_take h hi hb
    simpa using fun hab => hlt (IsTrans.trans _ _ _ hab hbi)
  omega

theorem getElem_le_of_lt_upTo (h : sorted.Pairwise le) {a : α} {i : ℕ} (hi : i < sorted.length)
    (ha : i < upTo le sorted a) : le sorted[i] a := by
  by_contra hlt
  have hai : le a sorted[i] := (Std.Total.total _ _).resolve_left hlt
  have hless : upTo le sorted a ≤ i := by
    refine countP_le_of_drop fun b hb => ?_
    have hib : le sorted[i] b := le_of_mem_drop h hi hb
    simpa using fun hba => hlt (IsTrans.trans _ _ _ hib hba)
  omega

/-! ### The partition -/

/-- The first pages are in order. -/
theorem Pages.firstPages_pairwise (hties : TiesOnOnePage le items limit)
    (h : Pages le items limit pages) (n : ℕ) : (firstPages pages n).Pairwise le := by
  induction n with
  | zero => exact .nil
  | succ n ih =>
    obtain ⟨sorted, hsorted, hpage⟩ := h n
    rw [firstPages_succ, List.pairwise_append]
    refine ⟨ih, ?_, ?_⟩
    · rw [hpage, hsorted.page_eq hties]
      exact hsorted.pairwise.sublist List.filter_sublist
    · intro a ha b hb
      have hbefore := ((h.firstPages_perm hties n).mem_iff.mp ha)
      rw [hpage, (hsorted.page_perm hties n).mem_iff] at hb
      simp only [List.mem_filter, OnPage, decide_eq_true_eq] at hbefore hb
      -- fewer items come before `a`, so `b` does not come before it
      by_contra hlt
      have hba : le b a := (Std.Total.total _ _).resolve_left hlt
      have hmono : ahead le items b ≤ ahead le items a := ahead_mono hba
      omega

/-- **Pages that separate no ties partition the items.** -/
theorem pages_partition (hlimit : 0 < limit) (hties : TiesOnOnePage le items limit)
    (h : Pages le items limit pages) : Partition le items pages := by
  have hlast : ∃ n, pages n = [] :=
    ⟨items.length, (h.eq_nil_iff hlimit).mpr (Nat.le_mul_of_pos_right _ hlimit)⟩
  refine ⟨Nat.find hlast, fun k hk => Nat.find_min hlast hk, Nat.find_spec hlast,
    (h.firstPages_perm hties _).trans (List.Perm.of_eq ?_), h.firstPages_pairwise hties _⟩
  have hlen := (h.eq_nil_iff hlimit).mp (Nat.find_spec hlast)
  obtain ⟨sorted, hsorted, -⟩ := h 0
  refine List.filter_eq_self.mpr fun a ha => ?_
  have hahead := hsorted.ahead_lt_length ha
  rw [decide_eq_true_eq]
  omega

theorem getElem_mem_page {l : List α} {i k : ℕ} (hi : i < l.length) (hk : k * limit ≤ i)
    (hlt : i < k * limit + limit) : l[i] ∈ page limit k l := by
  refine List.mem_iff_getElem.mpr ⟨i - k * limit, ?_, ?_⟩
  · rw [page, List.length_take, List.length_drop]
    omega
  · simp only [page, List.getElem_take, List.getElem_drop]
    congr 1
    omega

/-- Where ties are separated, one item may be on two pages. -/
theorem exists_repeat (hties : ¬ TiesOnOnePage le items limit) (hlimit : 0 < limit) :
    ∃ k x s s', Ordered le items s ∧ Ordered le items s' ∧ x ∈ page limit k s ∧
      x ∈ page limit (k + 1) s' := by
  simp only [TiesOnOnePage, not_forall] at hties
  obtain ⟨a, ha, hne⟩ := hties
  obtain ⟨s, hs⟩ : ∃ s, Ordered le items s :=
    ⟨_, List.perm_insertionSort le items, List.pairwise_insertionSort le items⟩
  -- the boundary `c + 1` lies between two ties of `a`
  obtain ⟨k, c, hc, hbefore, hafter⟩ := hs.exists_boundary ha hlimit hne
  have hlen : c + 1 < s.length := by
    have : upTo le s a ≤ s.length := List.countP_le_length
    omega
  have hswap : le s[c + 1] s[c] :=
    IsTrans.trans _ _ _ (getElem_le_of_lt_upTo hs.pairwise hlen hafter)
      (le_getElem_of_ahead_le hs.pairwise (by omega) hbefore)
  have hsplit : s = s.take c ++ s[c] :: s[c + 1] :: s.drop (c + 2) := by
    rw [← List.drop_eq_getElem_cons, ← List.drop_eq_getElem_cons, List.take_append_drop]
  have hswapped : Ordered le items (s.take c ++ s[c + 1] :: s[c] :: s.drop (c + 2)) := by
    refine Ordered.swap ?_ hswap
    rw [← hsplit]
    exact hs
  refine ⟨k, s[c], s, _, hs, hswapped, ?_, ?_⟩
  · refine getElem_mem_page (by omega) ?_ ?_
    · rw [Nat.succ_mul] at hc
      omega
    · rw [Nat.succ_mul] at hc
      omega
  · have hlen' : c + 1 < (s.take c ++ s[c + 1] :: s[c] :: s.drop (c + 2)).length := by
      rw [hswapped.perm.length_eq, ← hs.perm.length_eq]
      exact hlen
    have hget : (s.take c ++ s[c + 1] :: s[c] :: s.drop (c + 2))[c + 1] = s[c] := by
      rw [List.getElem_append_right (by simp)]
      simp [Nat.min_eq_left (by omega : c ≤ s.length)]
    have hmem := getElem_mem_page (k := k + 1) hlen' (by omega) (by omega : c + 1 < _ + limit)
    rwa [hget] at hmem

/-- **Pages that separate ties may show an item twice.** -/
theorem pages_repeat (hlimit : 0 < limit) (hnodup : items.Nodup)
    (hties : ¬ TiesOnOnePage le items limit) :
    ∃ pages, Pages le items limit pages ∧ ¬ Partition le items pages := by
  obtain ⟨k, x, s, s', hs, hs', hx, hx'⟩ := exists_repeat hties hlimit
  let pages := fun j => page limit j (if j = k + 1 then s' else s)
  have hpages : Pages le items limit pages := by
    intro j
    refine ⟨_, ?_, rfl⟩
    split
    · exact hs'
    · exact hs
  refine ⟨pages, hpages, fun ⟨n, _, hempty, hordered⟩ => ?_⟩
  have htwice : (firstPages pages n).Nodup := hordered.perm.nodup_iff.mpr hnodup
  have hk : k + 1 < n := by
    by_contra hle
    have hnil : pages (k + 1) = [] := (hpages.eq_nil_iff hlimit).mpr
      (((hpages.eq_nil_iff hlimit).mp hempty).trans (Nat.mul_le_mul_right _ (by omega)))
    rw [show pages (k + 1) = page limit (k + 1) s' by simp [pages]] at hnil
    rw [hnil] at hx'
    exact List.not_mem_nil hx'
  have hprefix := firstPages_prefix pages hk
  rw [firstPages_succ, firstPages_succ] at hprefix
  have hdisjoint := (List.nodup_append.mp (htwice.sublist hprefix.sublist)).2.2
  refine hdisjoint x (List.mem_append_right _ ?_) x ?_ rfl
  · simpa [pages] using hx
  · simpa [pages] using hx'

/-- Reading page by page partitions the items, whatever becomes of ties, exactly when
no page boundary separates ties. -/
theorem pages_partition_iff (hlimit : 0 < limit) (hnodup : items.Nodup) :
    (∀ pages, Pages le items limit pages → Partition le items pages) ↔
      TiesOnOnePage le items limit := by
  constructor
  · intro h
    by_contra hties
    obtain ⟨pages, hpages, hpart⟩ := pages_repeat hlimit hnodup hties
    exact hpart (h pages hpages)
  · exact fun hties pages hpages => pages_partition hlimit hties hpages

end

end Paging
