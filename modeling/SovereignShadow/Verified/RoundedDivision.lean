import Mathlib

/-!
# Rounded division

Natural-number division rounded up or down, next to Mathlib's floor facts: rounding twice is
rounding once, and the rounded quotients are the ceiling and the floor of the rational one.

## Main results

* `div_le_div_of_cross` — division rounded down is monotone in the quotient.
* `truncated_div_eq_iff` — when a quotient of truncated numbers is the exact one.
* `ceilDiv_ceilDiv` — two upward roundings in a row.
* `ceil_cast_div` — the rational ceiling.
-/

namespace SovereignShadow.Verified.RoundedDivision

theorem lt_ceilDiv_iff {a b c : ℕ} (ha : 0 < a) : c < b ⌈/⌉ a ↔ a * c < b := by
  rw [← not_le, ceilDiv_le_iff_le_mul ha, not_le]

/-- Division rounded down is monotone in the quotient, compared by cross-multiplication. -/
theorem div_le_div_of_cross {a b c d : ℕ} (hb : 0 < b) (hd : 0 < d) (h : a * d ≤ c * b) :
    a / b ≤ c / d := by
  rw [Nat.le_div_iff_mul_le hd]
  apply Nat.le_of_mul_le_mul_right _ hb
  calc a / b * d * b = a / b * b * d := Nat.mul_right_comm _ _ _
    _ ≤ a * d := Nat.mul_le_mul_right d (Nat.div_mul_le_self a b)
    _ ≤ c * b := h

/-- **Dropped parts.**  A quotient whose divisor lost its remainder by `u`, and whose dividend
`a` was cut to `s`, is the exact one exactly when the dividend and the remainder of the division
make up, to less than one unit, for what the divisor lost. -/
theorem truncated_div_eq_iff {a s d u : ℕ} (hs : s ≤ a) (hTruncated : 0 < d / u) :
    s / (d / u) = a * u / d ↔
      a * (d % u) ≤ (a - s + s % (d / u)) * d ∧
        (a - s + s % (d / u)) * d < a * (d % u) + d / u * d := by
  have hd : 0 < d := Nat.pos_of_div_pos hTruncated
  have hDivisor : u * (d / u) + d % u = d := Nat.div_add_mod d u
  have hDividend : d / u * (s / (d / u)) + s % (d / u) = s := Nat.div_add_mod s (d / u)
  generalize d / u = t at *
  generalize s / t = q at *
  have hWhole : a - s + s % t + t * q = a := by omega
  -- both sides of the balance, `t` times over
  have hBalance : a * (d % u) + t * (a * u) = (a - s + s % t) * d + t * (q * d) := by
    calc a * (d % u) + t * (a * u) = a * (u * t + d % u) := by ring
      _ = (a - s + s % t + t * q) * (u * t + d % u) := by rw [hWhole]
      _ = (a - s + s % t) * d + t * (q * d) := by rw [hDivisor]; ring
  have hLow : t * (q * d) ≤ t * (a * u) ↔ q * d ≤ a * u := Nat.mul_le_mul_left_iff hTruncated
  have hHigh : t * (a * u) < t * (q * d + d) ↔ a * u < q * d + d := Nat.mul_lt_mul_left hTruncated
  rw [Nat.mul_add] at hHigh
  rw [eq_comm, Nat.div_eq_iff hd]
  constructor
  · rintro ⟨hLe, hLt⟩
    have hScaledLow := hLow.mpr hLe
    have hScaledHigh := hHigh.mpr (by omega)
    omega
  · rintro ⟨hLe, hLt⟩
    have hExactLow := hLow.mp (by omega)
    have hExactHigh := hHigh.mp (by omega)
    omega

/-- Two upward roundings in a row are one. -/
theorem ceilDiv_ceilDiv (a b c : ℕ) : (a ⌈/⌉ b) ⌈/⌉ c = a ⌈/⌉ (b * c) := by
  rcases Nat.eq_zero_or_pos b with hb | hb
  · rw [hb, ceilDiv_zero, zero_ceilDiv, Nat.zero_mul, ceilDiv_zero]
  · rcases Nat.eq_zero_or_pos c with hc | hc
    · rw [hc, ceilDiv_zero, Nat.mul_zero, ceilDiv_zero]
    · apply eq_of_forall_ge_iff
      intro n
      rw [ceilDiv_le_iff_le_mul hc, ceilDiv_le_iff_le_mul hb,
        ceilDiv_le_iff_le_mul (Nat.mul_pos hb hc), Nat.mul_assoc]

theorem ceil_cast_div {K : Type*} [Field K] [LinearOrder K] [IsStrictOrderedRing K]
    [FloorSemiring K] (a b : ℕ) : ⌈(a : K) / b⌉₊ = a ⌈/⌉ b := by
  rcases Nat.eq_zero_or_pos b with hb | hb
  · rw [hb, ceilDiv_zero, Nat.cast_zero, div_zero, Nat.ceil_zero]
  · have hCast : (0 : K) < b := Nat.cast_pos.mpr hb
    apply eq_of_forall_ge_iff
    intro n
    rw [Nat.ceil_le, div_le_iff₀ hCast, ceilDiv_le_iff_le_mul hb, Nat.mul_comm]
    exact_mod_cast Iff.rfl

end SovereignShadow.Verified.RoundedDivision
