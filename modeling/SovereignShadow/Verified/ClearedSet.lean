import Mathlib

/-!
# A set that is emptied when it grows too large

Elements are inserted one at a time into a set with a bound on its size; an insertion that
exceeds the bound empties the set.  Up to then the set holds the elements recorded, from
then on it has forgotten them.

## Main results

* `stored_eq` — a history with few distinct elements is stored.
* `stored_snoc_of_lt` — the element that exceeds the bound empties the set.
-/

namespace SovereignShadow.Verified.ClearedSet

variable {α : Type*} [DecidableEq α]

/-- One insertion. -/
def record (bound : ℕ) (s : Finset α) (a : α) : Finset α :=
  if (insert a s).card > bound then ∅ else insert a s

/-- The set after a history of insertions. -/
def stored (bound : ℕ) (history : List α) : Finset α := history.foldl (record bound) ∅

variable {bound : ℕ} {history : List α}

theorem stored_snoc (a : α) :
    stored bound (history ++ [a]) = record bound (stored bound history) a := by
  rw [stored, List.foldl_append]
  rfl

theorem toFinset_snoc (a : α) : (history ++ [a]).toFinset = insert a history.toFinset := by
  ext b
  simp

theorem stored_eq (hFew : history.toFinset.card ≤ bound) :
    stored bound history = history.toFinset := by
  induction history using List.reverseRecOn with
  | nil => rfl
  | append_singleton history a ih =>
      rw [toFinset_snoc] at hFew ⊢
      have hBefore := (Finset.card_le_card (Finset.subset_insert a _)).trans hFew
      rw [stored_snoc, ih hBefore, record, if_neg (not_lt.mpr hFew)]

theorem stored_snoc_of_lt (hFew : history.toFinset.card ≤ bound) {a : α}
    (hMany : bound < (history ++ [a]).toFinset.card) : stored bound (history ++ [a]) = ∅ := by
  rw [toFinset_snoc] at hMany
  rw [stored_snoc, stored_eq hFew, record, if_pos hMany]

end SovereignShadow.Verified.ClearedSet
