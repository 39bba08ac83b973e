import LogLite.Lib.Bracket
import LogLite.Stats.Query

/-!
# The window of the statistics

The times of the stored rows have milliseconds, so what matters about an end of the window
is between which two of them its text sorts.

## Main definitions

* `msText` — how `format_utc` writes a millisecond.
* `SelectsByInstant` — the rows inside the window are returned, and none outside it.
* `BoundsSort` — both ends of the window sort next to their milliseconds.

## Main results

* `inWindow_storedTime` — what the statement does to a stored time.
* `selectsByInstant_iff` — only the milliseconds of the rows matter.
* `stats_by_instant_iff` — **`GET /stats` selects by instant exactly if its bounds sort
  next to their milliseconds**, where a whole millisecond is inside the window.
-/

namespace LogLite

/-- A whole millisecond since 1970 as `format_utc` writes it. -/
def msText (k : ℤ) : Bytes := formatUtc (k * 1000000)

/-- The first and the last millisecond of the clock; the first one is not whole. -/
def firstMs : ℤ := -9223372036855

/-- The last millisecond of the clock. -/
def lastMs : ℤ := 9223372036854

/-- The statement returns every row whose instant is inside the window, and none whose
instant is outside it.  The instant of a row is what its text denotes, a whole
millisecond. -/
def SelectsByInstant (P : Platform) (sinceStr untilStr : Bytes) (window : ℤ × ℤ) : Prop :=
  ∀ (t : StatsTable) (ordering : Bytes), ∀ r ∈ t.rows, ∀ tp, fitsInt64 tp = true →
    r.value t.timeColumn = storedTime P tp →
      (window.1 < tp / 1000000 * 1000000 → tp / 1000000 * 1000000 < window.2 →
        r ∈ statsRows P t sinceStr untilStr ordering) ∧
      (tp / 1000000 * 1000000 < window.1 ∨ window.2 < tp / 1000000 * 1000000 →
        r ∉ statsRows P t sinceStr untilStr ordering)

/-- The text of each end of the window sorts between the millisecond before its instant and
the one after it; `until` may be equal to the one before, and `since` to the one after. -/
structure BoundsSort (sinceStr untilStr : Bytes) (window : ℤ × ℤ) : Prop where
  since_after : compare (msText ((window.1 - 1) / 1000000)) sinceStr = .lt
  since_before : (compare sinceStr (msText (window.1 / 1000000 + 1))).isLE = true
  until_after : (compare (msText ((window.2 - 1) / 1000000)) untilStr).isLE = true
  until_before : window.2 / 1000000 + 1 ≤ lastMs →
    compare untilStr (msText (window.2 / 1000000 + 1)) = .lt

/-! ### Stored times -/

section
variable {P : Platform}

theorem formatUtc_eq_msText (tp : ℤ) : formatUtc tp = msText (tp / 1000000) := by
  unfold msText formatUtc
  rw [show tp / 1000000 * 1000000 / 1000000000 = tp / 1000000000 by omega,
    show tp / 1000000 * 1000000 % 1000000000 / 1000000 = tp % 1000000000 / 1000000 by omega]

theorem compare_msText {k k' : ℤ} (hk : firstMs ≤ k ∧ k ≤ lastMs)
    (hk' : firstMs ≤ k' ∧ k' ≤ lastMs) :
    compare (msText k) (msText k') = compare k k' := by
  unfold firstMs lastMs at hk hk'
  unfold msText
  rw [compare_formatUtc (by unfold FourDigits; omega) (by unfold FourDigits; omega),
    Int.mul_ediv_cancel _ (by omega), Int.mul_ediv_cancel _ (by omega)]

theorem mem_msText (k : ℤ) : 84 ∈ msText k := by
  unfold msText formatUtc
  simp [mem_isoSeconds]

theorem datetime_affinity : declaredAffinity (lit "DATETIME") = .numeric := by decide

theorem storedTime_eq (tp : ℤ) : storedTime P tp = .text (msText (tp / 1000000)) := by
  rw [storedTime, datetime_affinity, formatUtc_eq_msText]
  show numericText P (msText (tp / 1000000)) = _
  rw [numericText_text_iff]
  exact ⟨isNumeric_of_mem (mem_msText _), rfl⟩

/-- A stored time is compared with another text that has a `T` as texts. -/
theorem comparison_storedTime {s : Bytes} (hs : 84 ∈ s) (op : Cmp) (tp : ℤ) :
    SqlValue.comparison P (declaredAffinity (lit "DATETIME")) op (storedTime P tp) (.text s) =
      op.holds (compare (msText (tp / 1000000)) s) := by
  -- a text with a `T` is no number, and `NUMERIC` affinity leaves it a text
  have hparam : Affinity.applyToParam P .numeric (.text s) = .text s :=
    (numericText_text_iff P).mpr ⟨isNumeric_of_mem hs, rfl⟩
  unfold SqlValue.comparison
  rw [datetime_affinity, storedTime_eq, hparam]
  rfl

/-- **A stored time is in the window if its text is.** -/
theorem inWindow_storedTime {sinceStr untilStr : Bytes} (hsince : 84 ∈ sinceStr)
    (huntil : 84 ∈ untilStr) (tp : ℤ) :
    inWindow P sinceStr untilStr (storedTime P tp) = true ↔
      (compare sinceStr (msText (tp / 1000000))).isLE = true ∧
        (compare (msText (tp / 1000000)) untilStr).isLE = true := by
  unfold inWindow
  dsimp only
  rw [comparison_storedTime hsince, comparison_storedTime huntil, Bool.and_eq_true]
  refine and_congr ?_ ?_
  · show (compare (msText (tp / 1000000)) sinceStr != .lt) = true ↔ _
    rw [Std.OrientedOrd.eq_swap (a := sinceStr)]
    cases compare (msText (tp / 1000000)) sinceStr <;> decide
  · show (compare (msText (tp / 1000000)) untilStr != .gt) = true ↔ _
    cases compare (msText (tp / 1000000)) untilStr <;> decide

theorem mem_statsRows {t : StatsTable} {sinceStr untilStr ordering : Bytes} {r : StatsRow} :
    r ∈ statsRows P t sinceStr untilStr ordering ↔
      r ∈ t.rows ∧ inWindow P sinceStr untilStr (r.value t.timeColumn) = true := by
  rw [statsRows, List.mem_mergeSort, List.mem_filter]

/-! ### Milliseconds -/

section
variable {lib : DateLib} {sinceStr untilStr : Bytes} {window : ℤ × ℤ}

/-- A millisecond sorts from `since` on, and up to `until`. -/
theorem msText_monotone (sinceStr untilStr : Bytes) :
    Bracket.Monotone (fun k => (compare sinceStr (msText k)).isLE = true)
      (fun k => (compare (msText k) untilStr).isLE = true) firstMs lastMs := by
  have hle : ∀ k k', firstMs ≤ k → k ≤ k' → k' ≤ lastMs →
      (compare (msText k) (msText k')).isLE = true := by
    intro k k' hk hkk' hk'
    rw [compare_msText ⟨hk, by omega⟩ ⟨by omega, hk'⟩, Ordering.isLE_iff_ne_gt, compare_gt_iff_gt]
    omega
  constructor
  · exact fun k k' hk hkk' hk' h => Std.TransCmp.isLE_trans h (hle k k' hk hkk' hk')
  · exact fun k k' hk hkk' hk' h => Std.TransCmp.isLE_trans (hle k k' hk hkk' hk') h

theorem not_isLE_compare_iff {s t : Bytes} :
    ¬ (compare s t).isLE = true ↔ compare t s = .lt := by
  rw [Std.OrientedOrd.eq_swap (a := t)]
  cases compare s t <;> decide

theorem boundsSort_iff : BoundsSort sinceStr untilStr window ↔
    (¬ (compare sinceStr (msText ((window.1 - 1) / 1000000))).isLE = true ∧
        (compare sinceStr (msText (window.1 / 1000000 + 1))).isLE = true) ∧
      (compare (msText ((window.2 - 1) / 1000000)) untilStr).isLE = true ∧
        (window.2 / 1000000 + 1 ≤ lastMs →
          ¬ (compare (msText (window.2 / 1000000 + 1)) untilStr).isLE = true) := by
  rw [not_isLE_compare_iff, not_isLE_compare_iff]
  constructor
  · intro h
    exact ⟨⟨h.since_after, h.since_before⟩, h.until_after, h.until_before⟩
  · rintro ⟨⟨hafter, hbefore⟩, hafter', hbefore'⟩
    exact ⟨hafter, hbefore, hafter', hbefore'⟩

/-- What a window that was accepted is. -/
theorem statsWindow_ok (h : statsWindow lib sinceStr untilStr = .ok window) :
    parseIso8601 lib sinceStr = some window.1 ∧ parseIso8601 lib untilStr = some window.2 ∧
      window.1 < window.2 := by
  unfold statsWindow at h
  split at h
  · next s u hs hu =>
    split at h
    · cases h
    · next hlt =>
      split at h
      · cases h
      · cases h
        exact ⟨hs, hu, not_le.mp hlt⟩
  · cases h

/-- Rows matter only by their milliseconds, and every millisecond of the clock can be
stored. -/
theorem selectsByInstant_iff (hsince : 84 ∈ sinceStr) (huntil : 84 ∈ untilStr) :
    SelectsByInstant P sinceStr untilStr window ↔
      ∀ k, firstMs ≤ k → k ≤ lastMs →
        (window.1 < k * 1000000 → k * 1000000 < window.2 →
          (compare sinceStr (msText k)).isLE = true ∧ (compare (msText k) untilStr).isLE = true) ∧
        (k * 1000000 < window.1 ∨ window.2 < k * 1000000 →
          ¬ ((compare sinceStr (msText k)).isLE = true ∧
            (compare (msText k) untilStr).isLE = true)) := by
  constructor
  · intro h k hfirst hlast
    -- a time of the clock in this millisecond; the range of the clock cuts into the first one
    obtain ⟨tp, htp, hk⟩ : ∃ tp, fitsInt64 tp = true ∧ tp / 1000000 = k := by
      refine ⟨max (k * 1000000) (-2 ^ 63), ?_, ?_⟩
      · rw [fitsInt64_iff]
        unfold lastMs at hlast
        omega
      · unfold firstMs at hfirst
        omega
    -- a table with one row of that time
    obtain ⟨time, htime⟩ : ∃ time, time = storedTime P tp := ⟨_, rfl⟩
    have hvalue : StatsRow.value [(lit "until", time)] (lit "until") = time := by
      simp [StatsRow.value]
    have hmem : [(lit "until", time)] ∈
        statsRows P (activityStats [[(lit "until", time)]]) sinceStr untilStr (lit "asc") ↔
          (compare sinceStr (msText k)).isLE = true ∧
            (compare (msText k) untilStr).isLE = true := by
      have hcolumn : (activityStats [[(lit "until", time)]]).timeColumn = lit "until" := rfl
      rw [mem_statsRows, hcolumn, hvalue, htime, inWindow_storedTime hsince huntil, hk]
      exact and_iff_right List.mem_cons_self
    have hrow := h (activityStats [[(lit "until", time)]]) (lit "asc") _ List.mem_cons_self tp htp
      (hvalue.trans htime)
    rwa [hk, hmem] at hrow
  · intro h t ordering r hr tp htp hstored
    rw [fitsInt64_iff] at htp
    have hms := h (tp / 1000000) (by unfold firstMs; omega) (by unfold lastMs; omega)
    rwa [mem_statsRows, hstored, and_iff_right hr, inWindow_storedTime hsince huntil]

/-- **`GET /stats` selects by instant** exactly if its bounds sort next to their
milliseconds; or, where no whole millisecond is inside the window, if none outside it
sorts between the bounds. -/
theorem stats_by_instant_iff (h : statsWindow lib sinceStr untilStr = .ok window) :
    SelectsByInstant P sinceStr untilStr window ↔
      (window.1 / 1000000 + 1 ≤ (window.2 - 1) / 1000000 →
        BoundsSort sinceStr untilStr window) ∧
      ((window.2 - 1) / 1000000 < window.1 / 1000000 + 1 →
        ∀ k, firstMs ≤ k → k ≤ lastMs → k * 1000000 < window.1 ∨ window.2 < k * 1000000 →
          ¬ ((compare sinceStr (msText k)).isLE = true ∧
            (compare (msText k) untilStr).isLE = true)) := by
  obtain ⟨hs, hu, hlt⟩ := statsWindow_ok h
  have hsfits := fits_of_parseIso8601 hs
  have hufits := fits_of_parseIso8601 hu
  rw [fitsInt64_iff] at hsfits hufits
  rw [selectsByInstant_iff (mem_of_parseIso8601 hs) (mem_of_parseIso8601 hu)]
  by_cases hinside : window.1 / 1000000 + 1 ≤ (window.2 - 1) / 1000000
  · have hfirst : firstMs ≤ (window.1 - 1) / 1000000 := by
      unfold firstMs
      omega
    have hbefore : (window.1 - 1) / 1000000 < window.1 / 1000000 + 1 := by omega
    have hafter : (window.2 - 1) / 1000000 < window.2 / 1000000 + 1 := by omega
    have hlast : (window.2 - 1) / 1000000 ≤ lastMs := by
      unfold lastMs
      omega
    have hbracket := Bracket.bracket_iff (msText_monotone sinceStr untilStr) hfirst hbefore hinside
      hafter hlast
    -- the milliseconds inside the window and on its two sides, as ranges
    have hlo : ∀ k, window.1 < k * 1000000 ↔ window.1 / 1000000 + 1 ≤ k := by omega
    have hhi : ∀ k, k * 1000000 < window.2 ↔ k ≤ (window.2 - 1) / 1000000 := by omega
    have hbelow : ∀ k, k * 1000000 < window.1 ↔ k ≤ (window.1 - 1) / 1000000 := by omega
    have habove : ∀ k, window.2 < k * 1000000 ↔ window.2 / 1000000 + 1 ≤ k := by omega
    simp only [hlo, hhi, hbelow, habove]
    rw [hbracket, ← boundsSort_iff, and_iff_left fun hnone => absurd hinside hnone.not_ge]
    exact ⟨fun hbounds _ => hbounds, fun hbounds => hbounds hinside⟩
  · -- no whole millisecond is inside, so nothing has to be returned
    refine ⟨fun hall => ⟨fun hmore => absurd hmore hinside, fun _ k hk hk' => ?_⟩, ?_⟩
    · exact (hall k hk hk').2
    · rintro ⟨-, hnone⟩ k hk hk'
      refine ⟨fun hgt hlt' => ?_, hnone (not_le.mp hinside) k hk hk'⟩
      omega

end

end

/-! ### An hour of New Year's Day -/

/-- The times of the bounds of the first hour, with milliseconds or without. -/
def firstHourLib : DateLib where
  fromStream := fun fmt t =>
    if fmt ≠ lit "%FT%TZ" then none
    else if t = lit "2024-01-01T00:00:00Z" ∨ t = lit "2024-01-01T00:00:00.000Z" then
      some (1704067200000000000, [])
    else if t = lit "2024-01-01T01:00:00Z" ∨ t = lit "2024-01-01T01:00:00.000Z" then
      some (1704070800000000000, [])
    else none
  fits := by
    intro fmt t tp rest h
    split at h
    · cases h
    · split at h
      · cases h
        decide
      · split at h
        · cases h
          decide
        · cases h

theorem stats_by_instant_milliseconds :
    SelectsByInstant levelCatalog.platform (lit "2024-01-01T00:00:00.000Z")
      (lit "2024-01-01T01:00:00.000Z") (1704067200000000000, 1704070800000000000) := by
  have hwindow : statsWindow firstHourLib (lit "2024-01-01T00:00:00.000Z")
      (lit "2024-01-01T01:00:00.000Z") = .ok (1704067200000000000, 1704070800000000000) := rfl
  refine (stats_by_instant_iff hwindow).mpr ⟨fun _ => ?_, fun h => absurd h (by decide)⟩
  exact ⟨by decide, by decide, by decide, by decide⟩

/-- Without milliseconds `since` sorts after the times of its first second. -/
theorem stats_by_instant_seconds :
    ∃ sinceStr untilStr window, statsWindow firstHourLib sinceStr untilStr = .ok window ∧
      ¬ SelectsByInstant levelCatalog.platform sinceStr untilStr window := by
  refine ⟨lit "2024-01-01T00:00:00Z", lit "2024-01-01T01:00:00Z",
    (1704067200000000000, 1704070800000000000), rfl, fun h => ?_⟩
  rw [selectsByInstant_iff (by decide) (by decide)] at h
  have hhalf := (h 1704067200500 (by decide) (by decide)).1 (by decide) (by decide)
  exact absurd hhalf.1 (by decide)

end LogLite
