import Mathlib.Data.List.Basic
import Mathlib.Tactic.Common

/-!
# Well-formed UTF-8

A decoder reads bytes one after another.  Within a character it knows how many bytes are
to come and in which range the next of them is.

## Main definitions

* `Utf8.State`, `Utf8.State.next` — the decoder.
* `wellFormed` — the bytes are well-formed UTF-8.

## Main results

* `wellFormed_append`, `wellFormed_append_ascii` — **text in front of other text and
  ASCII behind it do not matter.**
-/

namespace Utf8

/-- How many bytes of the character are to come, and the range of the next one. -/
structure State where
  need : ℕ
  lo : UInt8
  hi : UInt8
  deriving DecidableEq

namespace State

/-- Between two characters. -/
def accept : State := ⟨0, 0x80, 0xBF⟩

/-- The decoder reads one byte. -/
def next (s : State) (b : UInt8) : Option State :=
  if s.need = 0 then
    if b < 0x80 then some accept
    else if 0xC2 ≤ b ∧ b ≤ 0xDF then some ⟨1, 0x80, 0xBF⟩
    -- no overlong form, no surrogate, nothing above U+10FFFF
    else if b = 0xE0 then some ⟨2, 0xA0, 0xBF⟩
    else if b = 0xED then some ⟨2, 0x80, 0x9F⟩
    else if 0xE1 ≤ b ∧ b ≤ 0xEF then some ⟨2, 0x80, 0xBF⟩
    else if b = 0xF0 then some ⟨3, 0x90, 0xBF⟩
    else if 0xF1 ≤ b ∧ b ≤ 0xF3 then some ⟨3, 0x80, 0xBF⟩
    else if b = 0xF4 then some ⟨3, 0x80, 0x8F⟩
    else none
  else if s.lo ≤ b ∧ b ≤ s.hi then some ⟨s.need - 1, 0x80, 0xBF⟩
  else none

/-- The states the decoder can be in. -/
structure Valid (s : State) : Prop where
  lo : 0x80 ≤ s.lo
  idle : s.need = 0 → s = accept

theorem valid_accept : accept.Valid := ⟨by decide, fun _ => rfl⟩

theorem valid_of_need {s : State} (hlo : 0x80 ≤ s.lo) (h : 0 < s.need) : s.Valid :=
  ⟨hlo, fun h' => absurd h' (Nat.ne_of_gt h)⟩

theorem Valid.next {s t : State} {b : UInt8} (h : s.next b = some t) : t.Valid := by
  unfold State.next at h
  split at h
  · split_ifs at h
    all_goals cases h
    · exact valid_accept
    all_goals exact valid_of_need (by decide) (by decide)
  · split at h
    · cases h
      refine ⟨UInt8.le_refl 0x80, fun hneed => ?_⟩
      rw [show s.need - 1 = 0 from hneed]
      rfl
    · cases h

/-- A byte of ASCII is a character, and stands in no other. -/
theorem next_ascii {s : State} (h : s.Valid) {b : UInt8} (hb : b < 0x80) :
    s.next b = if s = accept then some accept else none := by
  unfold State.next
  by_cases hneed : s.need = 0
  · rw [if_pos hneed, if_pos hb, if_pos (h.idle hneed)]
  · have hlo : ¬ (s.lo ≤ b ∧ b ≤ s.hi) := fun hle =>
      absurd (UInt8.lt_of_le_of_lt hle.1 hb) (UInt8.not_lt.mpr h.lo)
    rw [if_neg hneed, if_neg hlo, if_neg fun heq => hneed (by rw [heq]; rfl)]

end State

/-- The bytes are well-formed UTF-8. -/
def wellFormed (s : List UInt8) : Bool := s.foldlM State.next .accept == some .accept

theorem wellFormed_iff {s : List UInt8} :
    wellFormed s = true ↔ s.foldlM State.next .accept = some .accept := beq_iff_eq

/-- **Well-formed text in front does not matter.** -/
theorem wellFormed_append {s t : List UInt8} (hs : wellFormed s = true) :
    wellFormed (s ++ t) = wellFormed t := by
  rw [wellFormed, List.foldlM_append, wellFormed_iff.mp hs]
  rfl

theorem valid_of_foldlM {s : List UInt8} : ∀ {u t : State}, u.Valid →
    s.foldlM State.next u = some t → t.Valid := by
  induction s with
  | nil =>
    intro u t hu h
    cases h
    exact hu
  | cons b s ih =>
    intro u t hu h
    rw [List.foldlM_cons] at h
    obtain ⟨v, hv, ht⟩ := Option.bind_eq_some_iff.mp h
    exact ih (.next hv) ht

theorem foldlM_ascii {t : List UInt8} (ht : ∀ b ∈ t, b < 0x80) :
    t.foldlM State.next .accept = some .accept := by
  induction t with
  | nil => rfl
  | cons b t ih =>
    obtain ⟨hb, ht⟩ := List.forall_mem_cons.mp ht
    rw [List.foldlM_cons, State.next_ascii State.valid_accept hb, if_pos rfl]
    exact ih ht

/-- **ASCII behind does not matter.** -/
theorem wellFormed_append_ascii {s t : List UInt8} (ht : ∀ b ∈ t, b < 0x80) :
    wellFormed (s ++ t) = wellFormed s := by
  rw [wellFormed, wellFormed, List.foldlM_append]
  cases hs : s.foldlM State.next .accept with
  | none => rfl
  | some u =>
    cases t with
    | nil => rfl
    | cons b t =>
      obtain ⟨hb, ht⟩ := List.forall_mem_cons.mp ht
      have hu : u.Valid := valid_of_foldlM State.valid_accept hs
      rw [Option.bind_eq_bind, Option.bind_some, List.foldlM_cons, State.next_ascii hu hb]
      by_cases hidle : u = .accept
      · rw [if_pos hidle, hidle, Option.bind_eq_bind, Option.bind_some, foldlM_ascii ht]
      · rw [if_neg hidle]
        symm
        simpa using hidle

end Utf8
