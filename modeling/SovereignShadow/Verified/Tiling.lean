import Mathlib

/-!
# Ranges without gaps

A list of half-open ranges tiles a segment when the first range starts at its lower end,
every other one where the range before it ends, and the last one ends at its upper end.
No range is empty.

## Main results

* `Tiles.snoc` — a tiling grows at its upper end.
* `Tiles.within` — its ranges are non-empty and lie in the segment.
* `Tiles.count_eq_one` — a point of the segment lies in exactly one range.
* `Tiles.count_eq_zero` — a point from the upper end on lies in none.
-/

namespace SovereignShadow.Verified.Tiling

variable {α : Type*} [LinearOrder α]

/-- The ranges tile the segment from `lo` up to, and without, `hi`. -/
def Tiles : α → List (α × α) → α → Prop
  | lo, [], hi => lo = hi
  | lo, r :: rest, hi => r.1 = lo ∧ r.1 < r.2 ∧ Tiles r.2 rest hi

/-- The range contains the point. -/
def Contains (b : α) (r : α × α) : Prop := r.1 ≤ b ∧ b < r.2

instance (b : α) : DecidablePred (Contains b) := fun r =>
  inferInstanceAs (Decidable (r.1 ≤ b ∧ b < r.2))

/-- The number of ranges that contain the point. -/
def count (ranges : List (α × α)) (b : α) : ℕ := ranges.countP (Contains b)

variable {lo mid hi b : α} {ranges : List (α × α)}

@[simp] theorem tiles_nil : Tiles lo [] hi ↔ lo = hi := Iff.rfl

@[simp] theorem tiles_cons {r : α × α} :
    Tiles lo (r :: ranges) hi ↔ r.1 = lo ∧ r.1 < r.2 ∧ Tiles r.2 ranges hi := Iff.rfl

theorem Tiles.snoc (h : Tiles lo ranges mid) (hlt : mid < hi) :
    Tiles lo (ranges ++ [(mid, hi)]) hi := by
  induction ranges generalizing lo with
  | nil => exact ⟨h.symm, hlt, rfl⟩
  | cons r rest ih =>
      obtain ⟨hStart, hSome, hRest⟩ := h
      exact ⟨hStart, hSome, ih hRest⟩

theorem Tiles.le (h : Tiles lo ranges hi) : lo ≤ hi := by
  induction ranges generalizing lo with
  | nil => exact le_of_eq h
  | cons r rest ih =>
      obtain ⟨rfl, hSome, hRest⟩ := h
      exact hSome.le.trans (ih hRest)

theorem Tiles.within (h : Tiles lo ranges hi) {r : α × α} (hr : r ∈ ranges) :
    lo ≤ r.1 ∧ r.1 < r.2 ∧ r.2 ≤ hi := by
  induction ranges generalizing lo with
  | nil => cases hr
  | cons first rest ih =>
      obtain ⟨rfl, hSome, hRest⟩ := h
      rcases List.mem_cons.mp hr with rfl | hr
      · exact ⟨le_rfl, hSome, hRest.le⟩
      · obtain ⟨hLow, hInside, hHigh⟩ := ih hRest hr
        exact ⟨hSome.le.trans hLow, hInside, hHigh⟩

theorem Tiles.count_eq_zero_of_lt (h : Tiles lo ranges hi) (hb : b < lo) :
    count ranges b = 0 := by
  rw [count, List.countP_eq_zero]
  intro r hr hContains
  have hLow := (h.within hr).1
  exact absurd (hLow.trans (of_decide_eq_true hContains).1) hb.not_ge

theorem Tiles.count_eq_zero (h : Tiles lo ranges hi) (hb : hi ≤ b) : count ranges b = 0 := by
  rw [count, List.countP_eq_zero]
  intro r hr hContains
  have hHigh := (h.within hr).2.2
  exact absurd ((of_decide_eq_true hContains).2.trans_le hHigh) hb.not_gt

theorem Tiles.count_eq_one (h : Tiles lo ranges hi) (hlo : lo ≤ b) (hhi : b < hi) :
    count ranges b = 1 := by
  induction ranges generalizing lo with
  | nil =>
      rw [tiles_nil] at h
      exact absurd (h ▸ hlo) hhi.not_ge
  | cons r rest ih =>
      obtain ⟨rfl, hSome, hRest⟩ := h
      rw [count, List.countP_cons, ← count]
      rcases lt_or_ge b r.2 with hFirst | hLater
      · have hIn : Contains b r := ⟨hlo, hFirst⟩
        rw [hRest.count_eq_zero_of_lt hFirst, decide_eq_true hIn]
        rfl
      · have hOut : ¬ Contains b r := fun hContains => hContains.2.not_ge hLater
        rw [ih hRest hLater, decide_eq_false hOut]
        rfl

end SovereignShadow.Verified.Tiling
