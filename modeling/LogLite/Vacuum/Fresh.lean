import LogLite.Time.Iso
import LogLite.Vacuum.Stale

/-!
# Keeping new logs

The cutoff of a pass is a text: the clock less the age limit, in UTC and to the second.
Rows are deleted by comparing their timestamps with it as texts, so a row is safe only
if its text sorts as its time does.  Texts the server writes itself do.

## Main definitions

* `staleCutoff`, `cutoffText` — the cutoff of `remove_stale_logs`.
* `Fresh` — the row is younger than the age limit.
* `KeepsFresh` — a pass deletes no fresh row.
* `ReadsUtc` — the library reads what `format_utc` writes.

## Main results

* `remove_stale_keeps_fresh_iff` — **no fresh row is deleted exactly if the pass ends
  before its `DELETE`, or no fresh row in the window sorts up to the cutoff.**
* `sorts_after_cutoffs_iff` — which spellings of a time sort after all earlier cutoffs.
* `remove_stale_keeps_utc` — timestamps that `format_utc` wrote keep their rows.
-/

namespace LogLite

/-- `now - (cfg.vacuum_max_days * 24) * 1h`: an `int` times an `int`, converted to 64-bit
nanoseconds. -/
def staleCutoff (now vacuumMaxDays : ℤ) : ℤ :=
  toInt64 (now - toInt64 (toInt32 (vacuumMaxDays * 24) * 3600000000000))

/-- `cutoff_str`; `to_time_t` rounds towards 1970. -/
def cutoffText (now vacuumMaxDays : ℤ) : Bytes :=
  isoSeconds ((staleCutoff now vacuumMaxDays).tdiv 1000000000)

/-- The timestamp of the row is read as a time later than `now` minus the age limit. -/
def Fresh (lib : DateLib) (cat : DatabaseCatalog) (field : ColumnName) (d : LookupTable)
    (now vacuumMaxDays : ℤ) (r : LogRow) : Prop :=
  ∃ t tp, timestampText cat field d r = some t ∧ parseIso8601 lib t = some tp ∧
    now - vacuumMaxDays * 86400000000000 < tp

/-- A pass deletes no fresh row. -/
def KeepsFresh (lib : DateLib) (cat : DatabaseCatalog) (field : ColumnName)
    (fault : Option DeleteFault) (dbSize : ℕ) (now vacuumMaxDays limitMb : ℤ)
    (w : WriterDatabase) : Prop :=
  ∀ w' n, removeStaleLogs cat field fault dbSize (cutoffText now vacuumMaxDays) limitMb w =
      .ret w' n →
    ∀ r ∈ w.log, Fresh lib cat field w.colDict now vacuumMaxDays r → r ∈ w'.log

section
variable {lib : DateLib} {cat : DatabaseCatalog} {field : ColumnName}
  {fault : Option DeleteFault} {dbSize : ℕ} {limitMb now vacuumMaxDays : ℤ} {w : WriterDatabase}

/-- **No fresh row is deleted** exactly if the pass ends before its `DELETE` or that fails,
or no fresh row in the window sorts up to the cutoff. -/
theorem remove_stale_keeps_fresh_iff (hid : cat.HasRowId) (hfield : cat.knows field = true)
    (hids : ∀ r ∈ w.log, fitsInt64 r.id = true) :
    KeepsFresh lib cat field fault dbSize now vacuumMaxDays limitMb w ↔
      ¬ Overdue cat field (cutoffText now vacuumMaxDays) w.log ∨ fault.isSome = true ∨
        ∀ r ∈ w.log, Fresh lib cat field w.colDict now vacuumMaxDays r →
          UpTo cat field w.colDict (cutoffText now vacuumMaxDays) r →
          ¬ InWindow dbSize limitMb w.log r := by
  unfold KeepsFresh
  by_cases hoverdue : Overdue cat field (cutoffText now vacuumMaxDays) w.log
  · cases fault with
    | some fault =>
      -- a pass that throws has deleted nothing
      refine iff_of_true (fun w' n hret => ?_) (.inr (.inl rfl))
      obtain ⟨what, hthrow⟩ := removeStaleLogs_of_fault fault hid hfield hoverdue
      rw [hthrow] at hret
      cases hret
    | none =>
      rw [removeStaleLogs_of_overdue hid hfield hoverdue]
      constructor
      · intro h
        refine .inr (.inr fun r hr hfresh hupTo hwindow => ?_)
        have hkept := (List.mem_filter.mp (h _ _ rfl r hr hfresh)).2
        rw [(doomed_iff hid hfield hids).mpr ⟨hupTo, hwindow⟩] at hkept
        cases hkept
      · intro h w' n hret r hr hfresh
        cases hret
        have hsafe := (h.resolve_left (not_not.mpr hoverdue)).resolve_left Bool.false_ne_true
        refine List.mem_filter.mpr ⟨hr, ?_⟩
        rw [Bool.not_eq_true', ← Bool.not_eq_true, doomed_iff hid hfield hids]
        exact fun hdoomed => hsafe r hr hfresh hdoomed.1 hdoomed.2
  · refine iff_of_true (fun w' n hret => ?_) (.inl hoverdue)
    rw [removeStaleLogs_of_not_overdue hoverdue] at hret
    cases hret
    exact fun r hr _ => hr

end

/-- The times of two spellings of half past five in the morning of New Year's Day, and of New
Year's Day the year before. -/
def newYearLib : DateLib where
  fromStream := fun fmt t =>
    if fmt = lit "%FT%TZ" ∧ t = lit "2024-01-01T05:30:00Z" then some (1704087000000000000, [])
    else if fmt = lit "%FT%TZ" ∧ t = lit "2023-01-01T00:00:00Z" then
      some (1672531200000000000, [])
    else if fmt = lit "%FT%T%Ez" ∧ t = lit "2024-01-01T00:30:00-05:00" then
      some (1704087000000000000, [])
    else none
  fits := by
    intro fmt t tp rest h
    split at h
    · cases h
      decide
    · split at h
      · cases h
        decide
      · split at h
        · cases h
          decide
        · cases h

/-- At three the day after, with an age limit of one day, the row in UTC stays. -/
theorem remove_stale_keeps_fresh_utc :
    KeepsFresh newYearLib stampCatalog (lit "timestamp") none 4096 1704164400000000000 1 0
      ⟨⟨⟨[stampRow 1 "2023-01-01T00:00:00Z", stampRow 2 "2024-01-01T05:30:00Z"], []⟩, none⟩,
        ∅⟩ := by
  refine (remove_stale_keeps_fresh_iff stampCatalog_hasRowId (by decide) (by decide)).mpr
    (.inr (.inr fun r hr hfresh hupTo => ?_))
  rcases List.mem_cons.mp hr with rfl | hr
  · obtain ⟨t, tp, ht, htp, hlater⟩ := hfresh
    cases ht
    have hread : parseIso8601 newYearLib (lit "2023-01-01T00:00:00Z") =
        some 1672531200000000000 := by decide
    rw [show textOf _ _ = lit "2023-01-01T00:00:00Z" from rfl, hread] at htp
    cases htp
    exact absurd hlater (by decide)
  · rw [List.mem_singleton] at hr
    subst hr
    exact absurd hupTo (by decide)

/-- The same time in the time zone of New York sorts before the cutoff. -/
theorem remove_stale_deletes_fresh :
    ¬ KeepsFresh newYearLib stampCatalog (lit "timestamp") none 4096 1704164400000000000 1 0
      ⟨⟨⟨[stampRow 1 "2024-01-01T00:30:00-05:00"], []⟩, none⟩, ∅⟩ := by
  intro h
  have hkept := h ⟨⟨⟨[], []⟩, none⟩, ∅⟩ 1 rfl (stampRow 1 "2024-01-01T00:30:00-05:00")
    List.mem_cons_self
    ⟨lit "2024-01-01T00:30:00-05:00", 1704087000000000000, rfl, by decide, by decide⟩
  cases hkept

/-! ### Texts that sort after the cutoffs -/

theorem fourDigits_of_clock {tp : ℤ} (hpos : 0 ≤ tp) (hrange : tp < 2 ^ 63) :
    FourDigits (tp / 1000000000) := by
  unfold FourDigits
  omega

theorem cutoffText_of_nonneg {now vacuumMaxDays : ℤ} (hpos : 0 ≤ staleCutoff now vacuumMaxDays) :
    cutoffText now vacuumMaxDays = isoSeconds (staleCutoff now vacuumMaxDays / 1000000000) := by
  rw [cutoffText, Int.tdiv_eq_ediv_of_nonneg hpos]

theorem staleCutoff_lt (now vacuumMaxDays : ℤ) : staleCutoff now vacuumMaxDays < 2 ^ 63 :=
  Int.bmod_lt (m := 2 ^ 64) (by decide)

/-- A spelling of a time sorts after every earlier cutoff exactly if it sorts after the
last one. -/
theorem sorts_after_cutoffs_iff {t : Bytes} {tp : ℤ} (hpos : 0 < tp) (hrange : tp < 2 ^ 63) :
    (∀ now vacuumMaxDays, 0 ≤ staleCutoff now vacuumMaxDays →
        staleCutoff now vacuumMaxDays < tp → compare (cutoffText now vacuumMaxDays) t = .lt) ↔
      compare (isoSeconds ((tp - 1) / 1000000000)) t = .lt := by
  constructor
  · intro h
    -- the last of them is the cutoff of a clock just before `tp`, with no age allowed
    have hzero : toInt64 (toInt32 (0 * 24) * 3600000000000) = 0 := by decide
    have hfits : fitsInt64 (tp - 1) = true := by
      rw [fitsInt64_iff]
      omega
    have hlast : staleCutoff (tp - 1) 0 = tp - 1 := by
      rw [staleCutoff, hzero, sub_zero, toInt64_eq_self_iff.mpr hfits]
    have hlt := h (tp - 1) 0 (by omega) (by omega)
    rwa [cutoffText_of_nonneg (by omega), hlast] at hlt
  · intro h now vacuumMaxDays hcut hlt
    have hle : compare (cutoffText now vacuumMaxDays) (isoSeconds ((tp - 1) / 1000000000)) ≠
        .gt := by
      rw [cutoffText_of_nonneg hcut, compare_isoSeconds (fourDigits_of_clock hcut (by omega))
        (fourDigits_of_clock (by omega) (by omega)), ne_eq, compare_gt_iff_gt]
      omega
    exact Std.TransCmp.lt_of_isLE_of_lt (Ordering.isLE_iff_ne_gt.mpr hle) h

/-- **What `format_utc` writes sorts after a cutoff it is not before.** -/
theorem cutoffText_lt_formatUtc {now vacuumMaxDays tp : ℤ}
    (hcut : 0 ≤ staleCutoff now vacuumMaxDays) (hrange : tp < 2 ^ 63)
    (hle : staleCutoff now vacuumMaxDays ≤ tp) :
    compare (cutoffText now vacuumMaxDays) (formatUtc tp) = .lt := by
  have hlt := staleCutoff_lt now vacuumMaxDays
  rw [cutoffText_of_nonneg hcut, formatUtc, List.append_assoc, List.append_assoc,
    ← List.append_nil (isoSeconds _), FixedWidth.compare_append (by simp),
    compare_isoSeconds (fourDigits_of_clock hcut hlt) (fourDigits_of_clock (by omega) hrange)]
  -- within one second the milliseconds make the text longer
  rcases Int.lt_trichotomy (staleCutoff now vacuumMaxDays / 1000000000) (tp / 1000000000) with
    hlt | heq | hgt
  · rw [compare_lt_iff_lt.mpr hlt]
    rfl
  · rw [compare_eq_iff_eq.mpr heq]
    rfl
  · omega

/-- The library reads what `format_utc` writes, to the millisecond. -/
def ReadsUtc (lib : DateLib) : Prop :=
  ∀ tp, fitsInt64 tp = true →
    parseIso8601 lib (formatUtc tp) = some (tp / 1000000 * 1000000)

/-- **A table whose timestamps were written by `format_utc` keeps its fresh rows**, if the
cutoff is computed without overflow and is not before 1970. -/
theorem remove_stale_keeps_utc {lib : DateLib} {cat : DatabaseCatalog} {field : ColumnName}
    {fault : Option DeleteFault} {dbSize : ℕ} {limitMb now vacuumMaxDays : ℤ}
    {w : WriterDatabase} (hlib : ReadsUtc lib) (hid : cat.HasRowId)
    (hfield : cat.knows field = true) (hids : ∀ r ∈ w.log, fitsInt64 r.id = true)
    (hplain : cat.compressedColumns.contains field = false)
    (hcut : 0 ≤ staleCutoff now vacuumMaxDays)
    (hfits : staleCutoff now vacuumMaxDays = now - vacuumMaxDays * 86400000000000)
    (hrows : ∀ r ∈ w.log, ∃ ci tp, cat.column field = some ci ∧
      r.value ci = .text (formatUtc tp) ∧ fitsInt64 tp = true) :
    KeepsFresh lib cat field fault dbSize now vacuumMaxDays limitMb w := by
  refine (remove_stale_keeps_fresh_iff hid hfield hids).mpr (.inr (.inr ?_))
  rintro r hr ⟨t, time, ht, htime, hlater⟩ hupTo
  obtain ⟨ci, tp, hci, htext, htp⟩ := hrows r hr
  rw [timestampText_of_text hci htext] at ht
  cases ht
  rw [hlib tp htp] at htime
  cases htime
  have hnumeric : isNumeric (cutoffText now vacuumMaxDays) = false :=
    isNumeric_of_mem (mem_isoSeconds _)
  rw [upTo_text_iff hci hplain htext hnumeric] at hupTo
  rw [fitsInt64_iff] at htp
  have hsorts := cutoffText_lt_formatUtc hcut htp.2 (by omega)
  rw [Std.OrientedOrd.eq_swap, hsorts] at hupTo
  exact absurd rfl hupTo

end LogLite
