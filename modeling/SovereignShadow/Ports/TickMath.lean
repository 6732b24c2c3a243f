import SovereignShadow.Ports.FullWidth
import SovereignShadow.Verified.PowerTable

/-!
# Tick prices

`get_sqrt_ratio_at_tick` multiplies the table entries at the set bits of the tick, rounding
down after each, and inverts the product for a positive tick.  Consecutive ratios differ by
far more than the rounding loses, so the prices increase strictly over all ticks, and the
bisection of `get_tick_at_sqrt_ratio` finds the last tick whose price is not above the given
one.

## Main results

* `sqrtRatio_strictMonoOn` — prices increase strictly from `MIN_TICK` to `MAX_TICK`.
* `getTickAtSqrtRatio_spec` — the tick of a price.
* `tick_price_galois` — the two functions are Galois-connected.
-/

namespace SovereignShadow.Ports.TickMath

open SovereignShadow.Verified
open SovereignShadow.Verified.PowerTable
open SovereignShadow.Ports.Models
open SovereignShadow.Ports.V3Math
open SovereignShadow.Ports.FullWidth

/-! ## The table -/

/-- The entries of bits 0 to 19. -/
def ratioTable : List ℕ := oddRatio.toNat :: ratioFactors.map BitVec.toNat

/-- `1.0001 ^ (-1 / 2)` lies below this. -/
def ratioStep : ℚ := 999951 / 1000000

theorem ratioTable_fits : ∀ c ∈ ratioTable, c ≤ 2 ^ 128 := by decide +kernel

theorem ratioTable_decreases : Decreases (2 ^ 128) ratioStep ratioTable := by decide +kernel

theorem ratioTable_prod : (2 ^ 52 : ℚ) ≤
    (2 ^ 128 : ℕ) * (ratioTable.map fun c : ℕ => (c : ℚ) / (2 ^ 128 : ℕ)).prod := by
  decide +kernel

theorem applyFactors_toNat (absTick : ℕ) (factors : List U128) (bit : ℕ) {ratio : U256}
    (h : ratio.toNat ≤ 2 ^ 128) :
    (applyFactors absTick bit factors ratio).toNat =
      truncated (2 ^ 128) (factors.map BitVec.toNat) (absTick / 2 ^ bit) ratio.toNat := by
  induction factors generalizing bit ratio with
  | nil => rfl
  | cons factor rest ih =>
      have hShift : absTick / 2 ^ bit / 2 = absTick / 2 ^ (bit + 1) := by
        rw [Nat.div_div_eq_div_mul, pow_succ]
      rw [applyFactors, List.map_cons, truncated, scaleBy, hShift,
        Nat.testBit_eq_decide_div_mod_eq]
      by_cases hBit : absTick / 2 ^ bit % 2 = 1
      · have hProduct := mulShift128_toNat h factor
        have hFits : ratio.toNat * factor.toNat / 2 ^ 128 ≤ 2 ^ 128 :=
          (Nat.div_le_of_le_mul (Nat.mul_le_mul h le_rfl)).trans factor.isLt.le
        rw [decide_eq_true hBit, if_pos rfl, if_pos hBit, ih _ (hProduct.trans_le hFits),
          hProduct]
      · rw [decide_eq_false hBit, if_neg Bool.false_ne_true, if_neg hBit, ih _ h]

theorem absTickRatio_toNat (absTick : ℕ) :
    (absTickRatio absTick).toNat = truncated (2 ^ 128) ratioTable absTick (2 ^ 128) := by
  have hStart : (if absTick.testBit 0 then oddRatio else q128).toNat =
      scaleBy (2 ^ 128) oddRatio.toNat absTick (2 ^ 128) := by
    rw [scaleBy, Nat.testBit_zero]
    by_cases hBit : absTick % 2 = 1
    · rw [decide_eq_true hBit, if_pos rfl, if_pos hBit, Nat.mul_div_cancel_left _ (by norm_num)]
    · rw [decide_eq_false hBit, if_neg Bool.false_ne_true, if_neg hBit]
      rfl
  have hFits : (if absTick.testBit 0 then oddRatio else q128).toNat ≤ 2 ^ 128 := by
    split <;> decide
  rw [absTickRatio, applyFactors_toNat _ _ _ hFits, hStart, pow_one, ratioTable, truncated]

/-! ## The ratio of a negative tick -/

/-- The ratio of the tick `-n`. -/
abbrev ratioOf (n : ℕ) : ℕ := (absTickRatio n).toNat

theorem ratioOf_le_exact (n : ℕ) :
    (ratioOf n : ℚ) ≤ (2 ^ 128 : ℕ) * PowerTable.exact (2 ^ 128) ratioTable n := by
  rw [ratioOf, absTickRatio_toNat]
  exact truncated_le (by norm_num) _ _ _

theorem exact_le_ratioOf (n : ℕ) :
    (2 ^ 128 : ℕ) * PowerTable.exact (2 ^ 128) ratioTable n - 20 ≤ (ratioOf n : ℚ) := by
  rw [ratioOf, absTickRatio_toNat]
  exact exact_sub_le ratioTable_fits (by norm_num) _ _

theorem ratioOf_le (n : ℕ) : ratioOf n ≤ 2 ^ 128 := by
  have hExact : (2 ^ 128 : ℕ) * PowerTable.exact (2 ^ 128) ratioTable n ≤ ((2 ^ 128 : ℕ) : ℚ) :=
    mul_le_of_le_one_right (Nat.cast_nonneg _) (exact_le_one ratioTable_fits n)
  exact_mod_cast (ratioOf_le_exact n).trans hExact

theorem absTickRatio_ge (n : ℕ) : 2 ^ 51 ≤ ratioOf n := by
  have hNonneg : (0 : ℚ) ≤ ((2 ^ 128 : ℕ) : ℚ) := Nat.cast_nonneg _
  have hProd := mul_le_mul_of_nonneg_left (prod_le_exact ratioTable_fits n) hNonneg
  have hRatio := exact_le_ratioOf n
  have hTable := ratioTable_prod
  have hLower : ((2 ^ 51 : ℕ) : ℚ) ≤ ratioOf n := by
    push_cast at hTable hProd hRatio ⊢
    linarith
  exact_mod_cast hLower

/-- One tick further down costs about half a basis point. -/
theorem ratioOf_succ {n : ℕ} (hn : n + 1 < 2 ^ 20) :
    1000000 * ratioOf (n + 1) ≤ 999951 * (ratioOf n + 20) := by
  have hUpper := ratioOf_le_exact (n + 1)
  have hStep := exact_succ_le ratioTable_fits ratioTable_decreases hn
  have hLower := exact_le_ratioOf n
  have hNonneg : (0 : ℚ) ≤ ((2 ^ 128 : ℕ) : ℚ) := Nat.cast_nonneg _
  have hScaled := mul_le_mul_of_nonneg_left hStep hNonneg
  have hRat : (1000000 * ratioOf (n + 1) : ℚ) ≤ 999951 * (ratioOf n + 20) := by
    rw [ratioStep] at hScaled
    push_cast at hUpper hScaled hLower
    linarith
  exact_mod_cast hRat

/-! ## Rounding to 96 bits -/

theorem shiftRatio_toNat (ratio : U256) :
    (shiftRatio ratio).toNat = ratio.toNat ⌈/⌉ 2 ^ 32 := by
  have hRatio := ratio.isLt
  have hMask : (0xFFFFFFFF : U256).toNat = 2 ^ 32 - 1 := rfl
  have hLow : (ratio &&& 0xFFFFFFFF).toNat = ratio.toNat % 2 ^ 32 := by
    rw [BitVec.toNat_and, hMask, Nat.and_two_pow_sub_one_eq_mod]
  have hHigh : (ratio >>> 32).toNat = ratio.toNat / 2 ^ 32 := by
    rw [BitVec.toNat_ushiftRight, Nat.shiftRight_eq_div_pow]
  have hZero : ratio &&& 0xFFFFFFFF ≠ 0 ↔ ratio.toNat % 2 ^ 32 ≠ 0 := by
    rw [← hLow, ne_eq, ne_eq, ← BitVec.toNat_inj]
    rfl
  rw [shiftRatio, Nat.ceilDiv_eq_add_pred_div, BitVec.toNat_add, hHigh]
  by_cases hLowBits : ratio.toNat % 2 ^ 32 = 0
  · have hNot : ¬ ratio &&& 0xFFFFFFFF ≠ 0 := fun h => hZero.mp h hLowBits
    rw [if_neg hNot]
    show (ratio.toNat / 2 ^ 32 + 0) % 2 ^ 256 = _
    omega
  · rw [if_pos (hZero.mpr hLowBits)]
    show (ratio.toNat / 2 ^ 32 + 1) % 2 ^ 256 = _
    omega

/-- The price of the tick `t`, as a number. -/
abbrev price (t : ℤ) : ℕ := (getSqrtRatioAtTick t).toNat

theorem getSqrtRatioAtTick_eq (t : ℤ) :
    getSqrtRatioAtTick t = getSqrtRatioAtTickUncached t := by
  unfold getSqrtRatioAtTick
  split
  · rename_i hRange
    have hIndex : (((t + 110000).toNat : ℤ) - 110000) = t := by omega
    rw [sqrtRatioLut, hIndex]
  · rfl

theorem price_out_of_range {t : ℤ} (h : t < minTick ∨ maxTick < t) : price t = 0 := by
  have hFar : 887272 < t.natAbs := by
    unfold minTick maxTick at h
    omega
  rw [price, getSqrtRatioAtTick_eq, getSqrtRatioAtTickUncached, if_pos hFar]
  rfl

theorem price_neg {n : ℕ} (hn : n ≤ 887272) : price (-n) = ratioOf n ⌈/⌉ 2 ^ 32 := by
  have hAbs : (-(n : ℤ)).natAbs = n := by omega
  rw [price, getSqrtRatioAtTick_eq, getSqrtRatioAtTickUncached, hAbs, if_neg (by omega)]
  show (shiftRatio (if 0 < -(n : ℤ) then _ else absTickRatio n)).toNat = _
  rw [if_neg (by omega), shiftRatio_toNat]

/-- At zero the inverse rounds to the same price. -/
theorem price_pos {n : ℕ} (hn : n ≤ 887272) :
    price n = (2 ^ 256 - 1) / ratioOf n ⌈/⌉ 2 ^ 32 := by
  by_cases hZero : n = 0
  · subst hZero
    decide
  · have hAbs : (n : ℤ).natAbs = n := by omega
    rw [price, getSqrtRatioAtTick_eq, getSqrtRatioAtTickUncached, hAbs, if_neg (by omega)]
    show (shiftRatio (if 0 < (n : ℤ) then BitVec.allOnes 256 / absTickRatio n else _)).toNat = _
    rw [if_pos (by omega), shiftRatio_toNat, BitVec.toNat_udiv, BitVec.toNat_allOnes]

/-! ## Monotonicity -/

theorem ceilDiv_lt_of_add_le {a b d : ℕ} (hd : 0 < d) (h : a + d ≤ b) : a ⌈/⌉ d < b ⌈/⌉ d := by
  rw [Nat.ceilDiv_eq_add_pred_div, Nat.ceilDiv_eq_add_pred_div]
  calc (a + d - 1) / d < (a + d - 1) / d + 1 := Nat.lt_succ_self _
    _ = (a + d - 1 + d) / d := (Nat.add_div_right _ hd).symm
    _ ≤ (b + d - 1) / d := Nat.div_le_div_right (by omega)

theorem price_lt_of_neg {n : ℕ} (hn : n + 1 ≤ 887272) : price (-(n + 1 : ℕ)) < price (-n) := by
  have hStep := ratioOf_succ (n := n) (by omega)
  have hLarge := absTickRatio_ge n
  rw [price_neg hn, price_neg (by omega)]
  apply ceilDiv_lt_of_add_le (by norm_num)
  omega

/-- Dividing by a smaller ratio. -/
theorem inverse_gap {m x y : ℕ} (hx : 0 < x) (hStep : 1000000 * y ≤ 999960 * x) (hy : 0 < y)
    (hLarge : 2 ^ 60 * x ≤ m) : m / x + 2 ^ 32 ≤ m / y := by
  have hFloor : m / x * x ≤ m := Nat.div_mul_le_self m x
  have hQuotient : 2 ^ 60 ≤ m / x := (Nat.le_div_iff_mul_le hx).mpr hLarge
  have hFactor : 999960 * (m / x + 2 ^ 32) ≤ 1000000 * (m / x) := by
    linarith
  rw [Nat.le_div_iff_mul_le hy]
  have hScaled : (m / x + 2 ^ 32) * (1000000 * y) ≤ 1000000 * m :=
    calc (m / x + 2 ^ 32) * (1000000 * y)
        ≤ (m / x + 2 ^ 32) * (999960 * x) := Nat.mul_le_mul_left _ hStep
      _ = (999960 * (m / x + 2 ^ 32)) * x := by ring
      _ ≤ (1000000 * (m / x)) * x := Nat.mul_le_mul_right _ hFactor
      _ = 1000000 * (m / x * x) := by ring
      _ ≤ 1000000 * m := Nat.mul_le_mul_left _ hFloor
  have hComm : (m / x + 2 ^ 32) * (1000000 * y) = 1000000 * ((m / x + 2 ^ 32) * y) := by ring
  rw [hComm] at hScaled
  exact Nat.le_of_mul_le_mul_left hScaled (by norm_num)

theorem price_lt_of_pos {n : ℕ} (hn : n + 1 ≤ 887272) : price n < price (n + 1 : ℕ) := by
  have hStep := ratioOf_succ (n := n) (by omega)
  have hLarge := absTickRatio_ge n
  have hNext := absTickRatio_ge (n + 1)
  have hSmall := ratioOf_le n
  rw [price_pos hn, price_pos (by omega)]
  apply ceilDiv_lt_of_add_le (by norm_num)
  apply inverse_gap (by omega) (by omega) (by omega)
  calc 2 ^ 60 * ratioOf n ≤ 2 ^ 60 * 2 ^ 128 := Nat.mul_le_mul_left _ hSmall
    _ ≤ 2 ^ 256 - 1 := by norm_num

/-- **Prices increase strictly.** -/
theorem sqrtRatio_strictMonoOn : StrictMonoOn price (Set.Icc minTick maxTick) := by
  apply strictMonoOn_of_lt_add_one Set.ordConnected_Icc
  intro t _ hMem hNext
  have hLow : -887272 ≤ t := hMem.1
  have hHigh : t + 1 ≤ 887272 := hNext.2
  by_cases hSign : 0 ≤ t
  · obtain ⟨n, rfl⟩ := Int.eq_ofNat_of_zero_le hSign
    exact price_lt_of_pos (by omega)
  · obtain ⟨n, rfl⟩ : ∃ n : ℕ, t = -(n + 1 : ℕ) := ⟨(-t - 1).toNat, by omega⟩
    have hEq : -((n + 1 : ℕ) : ℤ) + 1 = -n := by omega
    rw [hEq]
    exact price_lt_of_neg (by omega)

/-! ## The tick of a price -/

/-- The tick is the last whose price is at most `p`; below the first price it is
`MIN_TICK - 1`. -/
theorem getTickAtSqrtRatio_spec (p : U256) :
    Bisection.Splits price p.toNat minTick maxTick (getTickAtSqrtRatio p) :=
  Bisection.search_spec (by decide) sqrtRatio_strictMonoOn

theorem price_min : price minTick = 4295128739 := by decide +kernel

/-- From the first price on, the search finds the greatest tick. -/
theorem getTickAtSqrtRatio_isGreatest {p : U256} (hp : minSqrtRatio ≤ p) :
    IsGreatest {t | t ∈ Set.Icc minTick maxTick ∧ price t ≤ p.toNat} (getTickAtSqrtRatio p) := by
  have hSpec := getTickAtSqrtRatio_spec p
  have hRatio : minSqrtRatio.toNat = 4295128739 := by decide
  have hFirst : price minTick ≤ p.toNat := by
    rw [price_min, ← hRatio]
    exact BitVec.le_def.mp hp
  exact hSpec.isGreatest (hSpec.low_le_of_first (by decide) hFirst)

/-- No price is below the first. -/
theorem minSqrtRatio_le_price {t : ℤ} (ht : t ∈ Set.Icc minTick maxTick) :
    minSqrtRatio ≤ getSqrtRatioAtTick t := by
  have hRatio : minSqrtRatio.toNat = 4295128739 := by decide
  rw [BitVec.le_def, hRatio, ← price_min]
  exact sqrtRatio_strictMonoOn.monotoneOn ⟨le_rfl, by decide⟩ ht ht.1

/-- **Tick and price are Galois-connected.** -/
theorem tick_price_galois :
    StrictMonoOn price (Set.Icc minTick maxTick) ∧
      (∀ p : U256, minSqrtRatio ≤ p →
        IsGreatest {t | t ∈ Set.Icc minTick maxTick ∧ getSqrtRatioAtTick t ≤ p}
            (getTickAtSqrtRatio p) ∧
          ∀ t ∈ Set.Icc minTick maxTick,
            getSqrtRatioAtTick t ≤ p ↔ t ≤ getTickAtSqrtRatio p) ∧
      ∀ t ∈ Set.Icc minTick maxTick, getTickAtSqrtRatio (getSqrtRatioAtTick t) = t := by
  have hMono := sqrtRatio_strictMonoOn
  refine ⟨hMono, fun p hp => ?_, fun t ht => ?_⟩
  · have hGreatest := getTickAtSqrtRatio_isGreatest hp
    refine ⟨hGreatest, fun t ht => ⟨fun h => hGreatest.2 ⟨ht, BitVec.le_def.mp h⟩, fun h => ?_⟩⟩
    rw [BitVec.le_def]
    exact (hMono.monotoneOn ht hGreatest.1.1 h).trans hGreatest.1.2
  · have hGreatest := getTickAtSqrtRatio_isGreatest (minSqrtRatio_le_price ht)
    apply le_antisymm
    · exact (hMono.le_iff_le hGreatest.1.1 ht).mp hGreatest.1.2
    · exact hGreatest.2 ⟨ht, le_rfl⟩

end SovereignShadow.Ports.TickMath
