import Mathlib

/-!
# Bisection

The search for the last index of an integer interval whose value is at most `x`, for an
increasing function.  The middle is rounded towards zero.

## Main results

* `search_spec` — the values up to the result are at most `x`, and those beyond above it.
* `Splits.isGreatest` — a result inside the interval is the greatest such index.
-/

namespace SovereignShadow.Verified.Bisection

variable {α : Type*} [LinearOrder α]

theorem tdiv_two_bounds {low high : ℤ} (h : low ≤ high) :
    low ≤ (low + high).tdiv 2 ∧ (low + high).tdiv 2 ≤ high := by
  rw [Int.tdiv_eq_ediv, show (2 : ℤ).sign = 1 from rfl]
  split <;> omega

def search (f : ℤ → α) (x : α) (low high : ℤ) : ℤ :=
  if _h : low ≤ high then
    let mid := (low + high).tdiv 2
    if f mid < x then search f x (mid + 1) high
    else if x < f mid then search f x low (mid - 1)
    else mid
  else high
termination_by (high + 1 - low).toNat
decreasing_by
  all_goals
    have hMid := tdiv_two_bounds _h
    omega

/-- What a search result says about an interval. -/
structure Splits (f : ℤ → α) (x : α) (low high r : ℤ) : Prop where
  low_le : low - 1 ≤ r
  le_high : r ≤ high
  below : ∀ i, low ≤ i → i ≤ r → f i ≤ x
  above : ∀ i, r < i → i ≤ high → x < f i

variable {f : ℤ → α} {x : α}

theorem search_spec {low high : ℤ} (hLow : low ≤ high + 1)
    (hf : StrictMonoOn f (Set.Icc low high)) : Splits f x low high (search f x low high) := by
  fun_induction search f x low high with
  | case1 low high h mid hLess ih =>
      have hMid : low ≤ mid ∧ mid ≤ high := tdiv_two_bounds h
      have hRest := ih (by omega) (hf.mono (Set.Icc_subset_Icc (by omega) le_rfl))
      refine ⟨by have := hRest.low_le; omega, hRest.le_high, fun i hi hr => ?_, hRest.above⟩
      by_cases hSide : i ≤ mid
      · exact (hf.monotoneOn ⟨hi, hSide.trans hMid.2⟩ ⟨hMid.1, hMid.2⟩ hSide).trans hLess.le
      · exact hRest.below i (by omega) hr
  | case2 low high h mid _ hMore ih =>
      have hMid : low ≤ mid ∧ mid ≤ high := tdiv_two_bounds h
      have hRest := ih (by omega) (hf.mono (Set.Icc_subset_Icc le_rfl (by omega)))
      refine ⟨hRest.low_le, by have := hRest.le_high; omega, hRest.below, fun i hr hi => ?_⟩
      by_cases hSide : mid ≤ i
      · exact hMore.trans_le (hf.monotoneOn ⟨hMid.1, hMid.2⟩ ⟨hMid.1.trans hSide, hi⟩ hSide)
      · exact hRest.above i hr (by omega)
  | case3 low high h mid hLess hMore =>
      have hMid : low ≤ mid ∧ mid ≤ high := tdiv_two_bounds h
      have hEq : f mid = x := le_antisymm (not_lt.mp hMore) (not_lt.mp hLess)
      refine ⟨by omega, hMid.2, fun i hi hr => ?_, fun i hr hi => ?_⟩
      · exact (hf.monotoneOn ⟨hi, hr.trans hMid.2⟩ ⟨hMid.1, hMid.2⟩ hr).trans hEq.le
      · exact hEq.ge.trans_lt (hf ⟨hMid.1, hMid.2⟩ ⟨hMid.1.trans hr.le, hi⟩ hr)
  | case4 low high h => exact ⟨by omega, le_rfl, fun i hi hr => by omega, fun i hr hi => by omega⟩

/-- A result inside the interval is the greatest index whose value is at most `x`. -/
theorem Splits.isGreatest {low high r : ℤ} (h : Splits f x low high r) (hr : low ≤ r) :
    IsGreatest {i | i ∈ Set.Icc low high ∧ f i ≤ x} r := by
  constructor
  · exact ⟨⟨hr, h.le_high⟩, h.below r hr le_rfl⟩
  · intro i hi
    by_contra hBeyond
    exact not_lt.mpr hi.2 (h.above i (not_le.mp hBeyond) hi.1.2)

/-- The search starts inside the interval as soon as the first value is at most `x`. -/
theorem Splits.low_le_of_first {low high r : ℤ} (h : Splits f x low high r)
    (hOrder : low ≤ high) (hFirst : f low ≤ x) : low ≤ r := by
  by_contra hBelow
  exact not_lt.mpr hFirst (h.above low (not_le.mp hBelow) hOrder)

end SovereignShadow.Verified.Bisection
