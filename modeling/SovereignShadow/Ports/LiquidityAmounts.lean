import SovereignShadow.Ports.ExactInputStep

/-!
# Amounts of a position

Port of `get_amount_0_for_liquidity` to `get_liquidity_for_amount_1`, next to the deltas of the
swap step.  The second token is computed as in the swap step.  For the first token the product
of the prices loses its low 96 bits before it divides, and the product of liquidity and gap is
kept in one word: at small prices the denominator is zero, at large ones the numerator
saturates, and in between the amount is the exact one only where the remainder of the division
outweighs the bits that were lost.  Converting back multiplies by the same truncated numbers and
never gains.

## Main results

* `amount0ForLiquidity_toNat`, `amount1ForLiquidity_toNat` — the amounts over the natural
  numbers.
* `liquidityForAmount0_le`, `liquidityForAmount1_le` — the way back never creates liquidity.
* `amountsAgree_iff` — when both implementations agree.
-/

namespace SovereignShadow.Ports.LiquidityAmounts

open SovereignShadow.Verified.RoundedDivision
open SovereignShadow.Ports.Models
open SovereignShadow.Ports.OptimalInput (saturatingSub_toNat toNat_pos_iff)
open SovereignShadow.Ports.V3Math
open SovereignShadow.Ports.FullWidth
open SovereignShadow.Ports.TokenAmounts
open SovereignShadow.Ports.ExactInputStep (PoolPrice)

/-! ## The code -/

def getAmount0ForLiquidity (lower upper liquidity : U256) : U256 :=
  let (lo, hi) := if lower ≤ upper then (lower, upper) else (upper, lower)
  let delta := hi - lo
  let num := (mulDiv liquidity delta 1).getD 0
  let den := (mulDiv hi lo q96).getD (BitVec.allOnes 256)
  if den = 0 then 0 else (mulDiv num 1 den).getD 0

def getAmount1ForLiquidity (lower upper liquidity : U256) : U256 :=
  let delta := saturatingSub upper lower
  (mulDiv liquidity delta q96).getD 0

def getLiquidityForAmount0 (lower upper amount0 : U256) : U256 :=
  let delta := saturatingSub upper lower
  if delta = 0 then 0
  else
    let den := (mulDiv upper lower q96).getD 0
    (mulDiv amount0 den delta).getD 0

/-- The product wraps. -/
def getLiquidityForAmount1 (lower upper amount1 : U256) : U256 :=
  let delta := saturatingSub upper lower
  if delta = 0 then 0 else amount1 * q96 / delta

/-! ## The amounts over the natural numbers -/

section Amounts

variable (lower upper liquidity : ℕ)

/-- The product of the prices without its low 96 bits. -/
def truncatedProduct : ℕ := lower * upper / 2 ^ 96

/-- Liquidity times gap, kept in one word. -/
def saturatedGap : ℕ := min (liquidity * (upper - lower)) maxWord

/-- **The drops cancel.**  There is no liquidity, or what saturation takes off the gap and what
the division leaves over makes up for the low 96 bits of the product, to less than one unit. -/
def TruncationsCancel : Prop :=
  liquidity = 0 ∨
    liquidity * (upper - lower) * (lower * upper % 2 ^ 96) ≤
        (liquidity * (upper - lower) - saturatedGap lower upper liquidity +
          saturatedGap lower upper liquidity % truncatedProduct lower upper) * (lower * upper) ∧
      (liquidity * (upper - lower) - saturatedGap lower upper liquidity +
          saturatedGap lower upper liquidity % truncatedProduct lower upper) * (lower * upper) <
        liquidity * (upper - lower) * (lower * upper % 2 ^ 96) +
          truncatedProduct lower upper * (lower * upper)

variable {lower upper liquidity}

theorem saturatedGap_le : saturatedGap lower upper liquidity ≤ liquidity * (upper - lower) :=
  min_le_left _ _

/-- Nothing is dropped from a product that is a multiple of `2^96`. -/
theorem truncationsCancel_of_dvd (hDen : 2 ^ 96 ≤ lower * upper) (hDvd : 2 ^ 96 ∣ lower * upper)
    (hFits : liquidity * (upper - lower) ≤ maxWord) :
    TruncationsCancel lower upper liquidity := by
  have hProduct : 0 < lower * upper := lt_of_lt_of_le (by norm_num) hDen
  have hTruncated : 0 < truncatedProduct lower upper := Nat.div_pos hDen (by norm_num)
  have hRest := Nat.mod_lt (liquidity * (upper - lower)) hTruncated
  right
  rw [saturatedGap, min_eq_left hFits, Nat.sub_self, Nat.zero_add, Nat.mod_eq_zero_of_dvd hDvd,
    Nat.mul_zero, Nat.zero_add]
  exact ⟨Nat.zero_le _, Nat.mul_lt_mul_of_pos_right hRest hProduct⟩

end Amounts

/-- A range of prices of a pool. -/
structure PriceRange (lower upper : U256) : Prop where
  lowerPrice : PoolPrice lower
  upperPrice : PoolPrice upper
  ordered : lower < upper

/-- Only a zero divisor asks for the default. -/
theorem mulDiv_getD {d : U256} (hd : d ≠ 0) (a b x : U256) :
    (mulDiv a b d).getD x = (mulDiv a b d).getD 0 := by
  rw [mulDiv, if_neg hd, Option.getD_some, Option.getD_some]

theorem q96_ne_zero : q96 ≠ 0 := by decide

theorem q96_toNat : q96.toNat = 2 ^ 96 := rfl

namespace PriceRange

variable {lower upper : U256} (h : PriceRange lower upper)
include h

theorem toNat_lt : lower.toNat < upper.toNat := BitVec.lt_def.mp h.ordered

theorem gap_pos : 0 < upper.toNat - lower.toNat := Nat.sub_pos_of_lt h.toNat_lt

omit h in
theorem gap_toNat : (saturatingSub upper lower).toNat = upper.toNat - lower.toNat :=
  saturatingSub_toNat upper lower

theorem gap_ne_zero : saturatingSub upper lower ≠ 0 := by
  apply toNat_pos_iff.mp
  rw [gap_toNat]
  exact h.gap_pos

theorem product_pos : 0 < lower.toNat * upper.toNat :=
  Nat.mul_pos h.lowerPrice.range.1 h.upperPrice.range.1

/-- The truncated product fits a word. -/
theorem truncatedProduct_le : truncatedProduct lower.toNat upper.toNat ≤ maxWord := by
  have hProduct : lower.toNat * upper.toNat ≤ 2 ^ 160 * 2 ^ 160 :=
    Nat.mul_le_mul h.lowerPrice.range.2.le h.upperPrice.range.2.le
  calc truncatedProduct lower.toNat upper.toNat ≤ 2 ^ 160 * 2 ^ 160 / 2 ^ 96 :=
        Nat.div_le_div_right hProduct
    _ ≤ maxWord := by norm_num

theorem denominator_toNat :
    ((mulDiv upper lower q96).getD 0).toNat = truncatedProduct lower.toNat upper.toNat := by
  have hLe := h.truncatedProduct_le
  rw [mulDiv_toNat, q96_toNat, Nat.mul_comm, ← truncatedProduct, min_eq_left hLe]

theorem numerator_toNat (liquidity : U256) :
    ((mulDiv liquidity (upper - lower) 1).getD 0).toNat =
      saturatedGap lower.toNat upper.toNat liquidity.toNat := by
  have hOne : (1 : U256).toNat = 1 := rfl
  have hLe : lower ≤ upper := BitVec.le_of_lt h.ordered
  rw [mulDiv_toNat, hOne, Nat.div_one, BitVec.toNat_sub_of_le hLe, saturatedGap]

theorem amount0ForLiquidity_toNat (liquidity : U256) :
    (getAmount0ForLiquidity lower upper liquidity).toNat =
      saturatedGap lower.toNat upper.toNat liquidity.toNat /
        truncatedProduct lower.toNat upper.toNat := by
  have hLe : lower ≤ upper := BitVec.le_of_lt h.ordered
  have hOne : (1 : U256).toNat = 1 := rfl
  have hDen := h.denominator_toNat
  have hNum := h.numerator_toNat liquidity
  rw [getAmount0ForLiquidity, if_pos hLe]
  dsimp only
  rw [mulDiv_getD q96_ne_zero]
  split
  · rename_i hZero
    rw [← hDen, hZero]
    exact (Nat.div_zero _).symm
  · rw [mulDiv_toNat, hNum, hDen, hOne, Nat.mul_one, min_eq_left]
    exact (Nat.div_le_self _ _).trans (min_le_right _ _)

/-- The other token is the delta of the swap step. -/
theorem amount1ForLiquidity_eq (liquidity : U256) :
    getAmount1ForLiquidity lower upper liquidity =
      getAmount1Delta lower upper liquidity false := by
  have hLe : lower ≤ upper := BitVec.le_of_lt h.ordered
  have hNot : ¬ upper < lower := BitVec.not_lt.mpr hLe
  have hMin : u256Min lower upper = lower := if_neg hNot
  have hMax : u256Max lower upper = upper := if_pos h.ordered
  rw [getAmount1Delta_eq, if_neg Bool.false_ne_true, hMin, hMax, getAmount1ForLiquidity,
    saturatingSub, if_pos hLe]

/-! ## The way back -/

/-- **Token 0.**  What the quotient by the truncated product lost is not regained. -/
theorem liquidityForAmount0_le (liquidity : U256) :
    (getLiquidityForAmount0 lower upper
      (getAmount0ForLiquidity lower upper liquidity)).toNat ≤ liquidity.toNat := by
  have hBack : saturatedGap lower.toNat upper.toNat liquidity.toNat /
      truncatedProduct lower.toNat upper.toNat * truncatedProduct lower.toNat upper.toNat ≤
        liquidity.toNat * (upper.toNat - lower.toNat) :=
    (Nat.div_mul_le_self _ _).trans (min_le_left _ _)
  rw [getLiquidityForAmount0, if_neg h.gap_ne_zero]
  dsimp only
  rw [mulDiv_toNat, h.amount0ForLiquidity_toNat, h.denominator_toNat, gap_toNat]
  apply (min_le_left _ _).trans
  apply Nat.div_le_of_le_mul
  rw [Nat.mul_comm _ liquidity.toNat]
  exact hBack

/-- **Token 1.**  A wrapped product only makes the liquidity smaller. -/
theorem liquidityForAmount1_le (liquidity : U256) :
    (getLiquidityForAmount1 lower upper
      (getAmount1ForLiquidity lower upper liquidity)).toNat ≤ liquidity.toNat := by
  have hAmount : (getAmount1ForLiquidity lower upper liquidity).toNat ≤
      liquidity.toNat * (upper.toNat - lower.toNat) / 2 ^ 96 := by
    rw [getAmount1ForLiquidity, mulDiv_toNat, gap_toNat, q96_toNat]
    exact min_le_left _ _
  have hBack : (getAmount1ForLiquidity lower upper liquidity).toNat * 2 ^ 96 ≤
      liquidity.toNat * (upper.toNat - lower.toNat) :=
    (Nat.mul_le_mul_right _ hAmount).trans (Nat.div_mul_le_self _ _)
  rw [getLiquidityForAmount1, if_neg h.gap_ne_zero, BitVec.toNat_udiv, BitVec.toNat_mul,
    gap_toNat, q96_toNat]
  apply Nat.div_le_of_le_mul
  rw [Nat.mul_comm _ liquidity.toNat]
  exact (Nat.mod_le _ _).trans hBack

/-! ## Agreement -/

theorem amount0Delta_toNat {liquidity : U256} (hLiquidity : liquidity.toNat < 2 ^ 128) :
    (getAmount0Delta lower upper liquidity false).toNat =
      liquidity.toNat * 2 ^ 96 * (upper.toNat - lower.toNat) / (lower.toNat * upper.toNat) := by
  have hWide : liquidity.toNat < 2 ^ 160 := hLiquidity.trans (by norm_num)
  have hLe := h.toNat_lt.le
  rw [amount0_toNat h.lowerPrice.range.1 hWide h.upperPrice.range.1, roundedDiv_down,
    max_eq_right hLe, min_eq_left hLe]

/-- Below the truncation the exact amount is at least one. -/
theorem product_le_of_truncated (hZero : truncatedProduct lower.toNat upper.toNat = 0)
    {liquidity : ℕ} (hSome : 0 < liquidity) :
    lower.toNat * upper.toNat ≤ liquidity * 2 ^ 96 * (upper.toNat - lower.toNat) := by
  have hSmall : lower.toNat * upper.toNat < 2 ^ 96 := Nat.lt_of_div_eq_zero (by norm_num) hZero
  have hUnits : 1 * 2 ^ 96 * 1 ≤ liquidity * 2 ^ 96 * (upper.toNat - lower.toNat) :=
    Nat.mul_le_mul (Nat.mul_le_mul_right _ hSome) h.gap_pos
  omega

/-- **Token 0.**  The rounded quotients agree exactly when the drops cancel. -/
theorem amount0_eq_iff {liquidity : U256} (hLiquidity : liquidity.toNat < 2 ^ 128) :
    getAmount0ForLiquidity lower upper liquidity =
        getAmount0Delta lower upper liquidity false ↔
      TruncationsCancel lower.toNat upper.toNat liquidity.toNat := by
  rw [← BitVec.toNat_inj, h.amount0ForLiquidity_toNat, h.amount0Delta_toNat hLiquidity,
    TruncationsCancel]
  rcases Nat.eq_zero_or_pos liquidity.toNat with hNone | hSome
  · rw [hNone, saturatedGap, Nat.zero_mul, Nat.zero_min, Nat.zero_mul, Nat.zero_mul,
      Nat.zero_div, Nat.zero_div]
    exact iff_of_true rfl (.inl rfl)
  · rw [or_iff_right hSome.ne', Nat.mul_right_comm liquidity.toNat]
    rcases Nat.eq_zero_or_pos (truncatedProduct lower.toNat upper.toNat) with hZero | hPos
    · -- a zero denominator gives zero, and the exact amount is positive
      have hExact : 0 < liquidity.toNat * (upper.toNat - lower.toNat) * 2 ^ 96 /
          (lower.toNat * upper.toNat) := by
        rw [Nat.mul_right_comm]
        exact Nat.div_pos (h.product_le_of_truncated hZero hSome) h.product_pos
      have hSmall : lower.toNat * upper.toNat < 2 ^ 96 :=
        Nat.lt_of_div_eq_zero (by norm_num) hZero
      rw [hZero, Nat.div_zero, Nat.mod_zero, Nat.sub_add_cancel saturatedGap_le,
        Nat.mod_eq_of_lt hSmall, Nat.zero_mul, Nat.add_zero]
      exact iff_of_false hExact.ne fun hBoth => lt_irrefl _ hBoth.2
    · exact truncated_div_eq_iff saturatedGap_le hPos

end PriceRange

/-- **When the implementations agree.**  Both amounts are the deltas of the swap step and
converting back creates no liquidity, exactly when what the first token's amount drops cancels. -/
theorem amountsAgree_iff {lower upper liquidity : U256} (h : PriceRange lower upper)
    (hLiquidity : liquidity.toNat < 2 ^ 128) :
    (getAmount0ForLiquidity lower upper liquidity =
          getAmount0Delta lower upper liquidity false ∧
        getAmount1ForLiquidity lower upper liquidity =
          getAmount1Delta lower upper liquidity false ∧
        getLiquidityForAmount0 lower upper (getAmount0ForLiquidity lower upper liquidity) ≤
          liquidity ∧
        getLiquidityForAmount1 lower upper (getAmount1ForLiquidity lower upper liquidity) ≤
          liquidity) ↔
      TruncationsCancel lower.toNat upper.toNat liquidity.toNat := by
  rw [h.amount0_eq_iff hLiquidity]
  exact and_iff_left ⟨h.amount1ForLiquidity_eq liquidity, h.liquidityForAmount0_le liquidity,
    h.liquidityForAmount1_le liquidity⟩

/-- The prices of ticks 0 and 2 up to their low bits, `2^96` and `2 * 2^96`: the truncation
drops nothing. -/
theorem amountsAgree_example :
    getAmount0ForLiquidity (1 <<< 96) (1 <<< 97) 1000 =
        getAmount0Delta (1 <<< 96) (1 <<< 97) 1000 false ∧
      getAmount1ForLiquidity (1 <<< 96) (1 <<< 97) 1000 =
        getAmount1Delta (1 <<< 96) (1 <<< 97) 1000 false ∧
      getLiquidityForAmount0 (1 <<< 96) (1 <<< 97)
          (getAmount0ForLiquidity (1 <<< 96) (1 <<< 97) 1000) ≤ 1000 ∧
      getLiquidityForAmount1 (1 <<< 96) (1 <<< 97)
          (getAmount1ForLiquidity (1 <<< 96) (1 <<< 97) 1000) ≤ 1000 := by
  have hRange : PriceRange (1 <<< 96) (1 <<< 97) := ⟨by decide, by decide, by decide⟩
  exact (amountsAgree_iff hRange (by decide)).mpr
    (truncationsCancel_of_dvd (by decide) (by decide) (by decide))

/-- **Small prices.**  Between the smallest price and the next one the truncated product is
zero, and so is the amount. -/
theorem not_amountsAgree :
    ¬ ∀ lower upper liquidity : U256, PriceRange lower upper → liquidity.toNat < 2 ^ 128 →
      getAmount0ForLiquidity lower upper liquidity =
          getAmount0Delta lower upper liquidity false ∧
        getAmount1ForLiquidity lower upper liquidity =
          getAmount1Delta lower upper liquidity false ∧
        getLiquidityForAmount0 lower upper (getAmount0ForLiquidity lower upper liquidity) ≤
          liquidity ∧
        getLiquidityForAmount1 lower upper (getAmount1ForLiquidity lower upper liquidity) ≤
          liquidity := by
  intro hAll
  have hBoth := (hAll minSqrtRatio (minSqrtRatio + 1) 1000000000000000000
    ⟨by decide, by decide, by decide⟩ (by decide)).1
  have hZero : getAmount0ForLiquidity minSqrtRatio (minSqrtRatio + 1) 1000000000000000000 = 0 :=
    by decide +kernel
  have hDelta : getAmount0Delta minSqrtRatio (minSqrtRatio + 1) 1000000000000000000 false ≠ 0 :=
    by decide +kernel
  exact hDelta (hBoth.symm.trans hZero)

end SovereignShadow.Ports.LiquidityAmounts
