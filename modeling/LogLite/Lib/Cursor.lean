import Mathlib.Order.Lattice
import Mathlib.Data.List.Basic

/-!
# Delivery behind a cursor

A consumer reads a store whose items have keys, in pages, and remembers only a
cursor: the key up to which it has read.  It never looks below the cursor again,
so delivery is complete as long as two things hold: an advance of the cursor
delivers everything between its old and its new place, and whatever enters the
store later enters it above the cursor.  What leaves the store does not matter.

## Main definitions

* `Covered key lo c store delivered` — the items of the store with keys above `lo`
  and up to the cursor `c` have been delivered.

## Main results

* `Covered.append`, `Covered.subset`, `Covered.advance` — what the store and the
  consumer may do.
-/

namespace Cursor

variable {α K : Type*} [LinearOrder K] {key : α → K} {lo c c' : K} {store store' delivered : List α}

/-- Everything in the store above `lo` and up to the cursor has been delivered. -/
def Covered (key : α → K) (lo c : K) (store delivered : List α) : Prop :=
  ∀ a ∈ store, lo < key a → key a ≤ c → a ∈ delivered

/-- A cursor that has not moved has nothing behind it. -/
theorem Covered.start : Covered key c c store delivered := by
  intro a _ hlo hc
  exact absurd hc (not_le.mpr hlo)

/-- Items may leave the store. -/
theorem Covered.subset (h : Covered key lo c store delivered) (hsub : store' ⊆ store) :
    Covered key lo c store' delivered :=
  fun a ha => h a (hsub ha)

/-- Items may enter the store above the cursor. -/
theorem Covered.append (h : Covered key lo c store delivered) {new : List α}
    (hnew : ∀ a ∈ new, c < key a) : Covered key lo c (store ++ new) delivered := by
  intro a ha hlo hc
  rcases List.mem_append.mp ha with hold | hadded
  · exact h a hold hlo hc
  · exact absurd hc (not_le.mpr (hnew a hadded))

/-- **The cursor may advance** when everything it passes is delivered. -/
theorem Covered.advance (h : Covered key lo c store delivered) {page : List α}
    (hpage : ∀ a ∈ store, c < key a → key a ≤ c' → a ∈ page) :
    Covered key lo c' store (delivered ++ page) := by
  intro a ha hlo hc'
  rcases le_or_gt (key a) c with hc | hc
  · exact List.mem_append_left page (h a ha hlo hc)
  · exact List.mem_append_right delivered (hpage a ha hc hc')

end Cursor
