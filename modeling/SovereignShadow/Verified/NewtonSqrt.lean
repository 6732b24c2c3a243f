import Mathlib

/-!
# Integer square roots by Newton's method

The step `x ↦ (x + n / x) / 2` over the natural numbers.  From a guess that is not below the
root it never falls below it, and it descends exactly while the guess is above it; so a loop
that runs while the guess descends ends at the integer square root.

## Main results

* `sqrt_le_newton` — a step never falls below the root.
* `newton_lt_iff` — a step descends exactly above the root.
* `sqrt_le_start` — a first guess.
-/

namespace SovereignShadow.Verified.NewtonSqrt

/-- One step for the square root of `n`. -/
def newton (n x : ℕ) : ℕ := (x + n / x) / 2

/-- The mean of `x` and `n / x` is at least the root. -/
theorem sqrt_le_newton {n x : ℕ} (hx : 0 < x) : Nat.sqrt n ≤ newton n x := by
  have hRoot : Nat.sqrt n * Nat.sqrt n ≤ n := Nat.sqrt_le n
  have hMean : 2 * Nat.sqrt n ≤ x + n / x := by
    rcases Nat.le_total (2 * Nat.sqrt n) x with hSmall | hLarge
    · exact hSmall.trans (Nat.le_add_right _ _)
    · obtain ⟨rest, hRest⟩ := Nat.exists_eq_add_of_le hLarge
      have hSquares : 4 * (rest * x) ≤ 4 * n := by nlinarith [sq_nonneg ((x : ℤ) - rest)]
      have hQuotient : rest ≤ n / x :=
        (Nat.le_div_iff_mul_le hx).mpr (Nat.le_of_mul_le_mul_left hSquares (by norm_num))
      omega
  unfold newton
  omega

theorem newton_lt_iff {n x : ℕ} (hx : 0 < x) : newton n x < x ↔ Nat.sqrt n < x := by
  have hHalf : newton n x < x ↔ n / x < x := by
    unfold newton
    omega
  rw [hHalf, Nat.div_lt_iff_lt_mul hx, Nat.sqrt_lt]

/-- The other term of the mean is not far above a guess that is not below the root. -/
theorem div_le_add_two {n x : ℕ} (hRoot : Nat.sqrt n ≤ x) : n / x ≤ x + 2 := by
  apply Nat.div_le_of_le_mul
  calc n ≤ Nat.sqrt n * Nat.sqrt n + Nat.sqrt n + Nat.sqrt n := Nat.sqrt_le_add n
    _ ≤ x * x + x + x :=
        Nat.add_le_add (Nat.add_le_add (Nat.mul_le_mul hRoot hRoot) hRoot) hRoot
    _ = x * (x + 2) := by ring

/-- A power of two with half the bits of `n`, rounded up, is above the root. -/
theorem sqrt_le_start {n bits : ℕ} (h : n < 2 ^ bits) : Nat.sqrt n ≤ 2 ^ (bits / 2 + 1) := by
  apply le_of_lt
  rw [Nat.sqrt_lt, ← pow_add]
  exact h.trans_le (Nat.pow_le_pow_right (by norm_num) (by omega))

end SovereignShadow.Verified.NewtonSqrt
