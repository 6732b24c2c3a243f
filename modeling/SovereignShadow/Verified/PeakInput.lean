import Mathlib

/-!
# The best input of a constant-product curve

The profit `gain * x / (base + damp * x) - x` of a constant-product curve that pays in its
own input.  Where the curve pays more than its input near zero, the profit has one peak, at
`(√(gain * base) - base) / damp`; elsewhere it is nowhere positive.  The whole part of the
peak can be read off integers alone.

## Main results

* `profit_le_peak`, `profit_nonpos` — where the profit is largest.
* `floor_peak` — the whole part of the peak.
* `abs_sub_le_one_iff` — the whole numbers within one of a real one.
-/

namespace SovereignShadow.Verified.PeakInput

noncomputable def profit (gain base damp x : ℝ) : ℝ := gain * x / (base + damp * x) - x

noncomputable def peak (gain base damp : ℝ) : ℝ := (√(gain * base) - base) / damp

/-- Two numbers with product `r * r` add up to at least `2 * r`. -/
theorem two_mul_le_div_add (r : ℝ) {u : ℝ} (hu : 0 < u) : 2 * r ≤ r * r / u + u := by
  have hSum : r * r / u + u - 2 * r = (r - u) ^ 2 / u := by
    field_simp
    ring
  have hSquare : 0 ≤ (r - u) ^ 2 / u := by positivity
  linarith

section Peak

variable {gain base damp : ℝ} (hBase : 0 < base) (hDamp : 0 < damp)
include hBase hDamp

/-- The profit through the denominator `u` alone: a hyperbola and a line. -/
theorem profit_eq {x : ℝ} (hx : 0 ≤ x) :
    damp * profit gain base damp x =
      gain + base - (gain * base / (base + damp * x) + (base + damp * x)) := by
  have hDenom : base + damp * x ≠ 0 := (add_pos_of_pos_of_nonneg hBase (by positivity)).ne'
  unfold profit
  field_simp
  ring

theorem peak_nonneg (hGain : base ≤ gain) : 0 ≤ peak gain base damp := by
  apply div_nonneg _ hDamp.le
  rw [sub_nonneg]
  exact Real.le_sqrt_of_sq_le (by nlinarith)

/-- **The peak is the best input.** -/
theorem profit_le_peak (hGain : base ≤ gain) {x : ℝ} (hx : 0 ≤ x) :
    profit gain base damp x ≤ profit gain base damp (peak gain base damp) := by
  have hPeak := peak_nonneg hBase hDamp hGain
  have hDenom : 0 < base + damp * x := add_pos_of_pos_of_nonneg hBase (by positivity)
  have hRoot : base + damp * peak gain base damp = √(gain * base) := by
    unfold peak
    field_simp
    ring
  have hSquare : √(gain * base) * √(gain * base) = gain * base :=
    Real.mul_self_sqrt (by nlinarith)
  apply le_of_mul_le_mul_left _ hDamp
  rw [profit_eq hBase hDamp hx, profit_eq hBase hDamp hPeak, hRoot]
  have hAtRoot : gain * base / √(gain * base) = √(gain * base) := Real.div_sqrt
  have hMean := two_mul_le_div_add (√(gain * base)) hDenom
  rw [hSquare] at hMean
  linarith

/-- A curve that pays no more than its input near zero never pays more. -/
theorem profit_nonpos (hGain : gain ≤ base) {x : ℝ} (hx : 0 ≤ x) :
    profit gain base damp x ≤ 0 := by
  have hDenom : 0 < base + damp * x := add_pos_of_pos_of_nonneg hBase (by positivity)
  unfold profit
  rw [sub_nonpos, div_le_iff₀ hDenom]
  nlinarith [mul_nonneg hx (mul_nonneg hDamp.le hx)]

end Peak

/-- **The whole part of the peak**, by an integer square root and an integer division. -/
theorem floor_peak {gain base : ℕ} (damp : ℕ) (hGain : base ≤ gain) :
    ⌊peak gain base damp⌋₊ = (Nat.sqrt (gain * base) - base) / damp := by
  have hCast : ((gain * base : ℕ) : ℝ) = (gain : ℝ) * base := Nat.cast_mul _ _
  have hRoot : base ≤ Nat.sqrt (gain * base) := Nat.le_sqrt.mpr (Nat.mul_le_mul_right _ hGain)
  have hReal : (base : ℝ) ≤ √(gain * base) := by
    rw [← hCast]
    exact (Nat.cast_le.mpr hRoot).trans Real.nat_sqrt_le_real_sqrt
  have hWhole : ⌊√((gain : ℝ) * base) - base⌋₊ + base = Nat.sqrt (gain * base) := by
    rw [← Nat.floor_add_natCast (sub_nonneg.mpr hReal), sub_add_cancel, ← hCast,
      Real.nat_floor_real_sqrt_eq_nat_sqrt]
  rw [peak, Nat.floor_div_natCast, ← hWhole, Nat.add_sub_cancel]

/-- A whole number that is not below the whole part of `x`. -/
theorem abs_sub_le_one_iff {x : ℝ} (hx : 0 ≤ x) {r : ℕ} (hr : ⌊x⌋₊ ≤ r) :
    |(r : ℝ) - x| ≤ 1 ↔ r ≤ ⌊x⌋₊ + 1 := by
  have hBelow : x ≤ r + 1 := by
    have hFloor : ((⌊x⌋₊ : ℕ) : ℝ) ≤ r := Nat.cast_le.mpr hr
    linarith [Nat.lt_floor_add_one x]
  rw [← Nat.floor_add_one hx, Nat.le_floor_iff (by linarith), abs_le]
  constructor
  · intro h
    linarith [h.2]
  · intro h
    exact ⟨by linarith, by linarith⟩

end SovereignShadow.Verified.PeakInput
