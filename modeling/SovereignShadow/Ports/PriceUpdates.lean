import SovereignShadow.Ports.TwoPoolOptimum
import SovereignShadow.Ports.SwapStep

/-!
# The two price updates

Port of `get_v3_next_sqrt_price`, next to `get_next_sqrt_price_from_input` of the swap step.
One keeps every intermediate in 512 bits and rounds down, the other keeps them in 256 bits,
probes the product of amount and price for an overflow, and rounds up.  For an amount below
`2^95` and a price below `2^160` the product has 255 bits: the probe finds no overflow and
there is none, so both divide the same numbers.

## Main results

* `nextSqrtPrice_down_toNat`, `nextSqrtPrice_up_toNat` — the wide update, rounded down.
* `fromInput_down_toNat` — the narrow update takes the branch of the product.
* `priceUpdates_agree` — the two updates side by side.
-/

namespace SovereignShadow.Ports.PriceUpdates

open SovereignShadow.Ports.Models
open SovereignShadow.Ports.MathEngine (toU512 u512ToU256Safe)
open SovereignShadow.Ports.OptimalInput (toU512_toNat toNat_pos_iff mul_lt_pow)
open SovereignShadow.Ports.V3Math
open SovereignShadow.Ports.FullWidth
open SovereignShadow.Ports.TwoPoolOptimum (mul_exact)
open SovereignShadow.Ports.SwapStep (shifted_toNat)

/-! ## The wide update -/

/-- `U512::from(1u64) << 96`. -/
def wideQ96 : U512 := 1 <<< 96

def getV3NextSqrtPrice (sqrtPriceX96 liquidity amountIn : U256) (zeroForOne : Bool) : U256 :=
  if liquidity = 0 ∨ amountIn = 0 then sqrtPriceX96
  else
    let l := toU512 liquidity
    let sp := toU512 sqrtPriceX96
    let amt := toU512 amountIn
    if zeroForOne then
      let num := l * sp * wideQ96
      let den := l * wideQ96 + amt * sp
      if den = 0 then sqrtPriceX96 else u512ToU256Safe (num / den)
    else
      let delta := amt * wideQ96 / l
      u512ToU256Safe (sp + delta)

/-- The arguments of an update: a pool's liquidity, a price and an input below `2^95`. -/
structure UpdateArgs (price liquidity amount : U256) : Prop where
  liquidity_pos : 0 < liquidity.toNat
  liquidity_lt : liquidity.toNat < 2 ^ 128
  price_pos : 0 < price.toNat
  price_lt : price.toNat < 2 ^ 160
  amount_pos : 0 < amount.toNat
  amount_lt : amount.toNat < 2 ^ 95

/-- `L * 2^96 * p`. -/
def updateNumerator (price liquidity : U256) : ℕ := liquidity.toNat * 2 ^ 96 * price.toNat

/-- `L * 2^96 + amount * p`. -/
def updateDenominator (price liquidity amount : U256) : ℕ :=
  liquidity.toNat * 2 ^ 96 + amount.toNat * price.toNat

namespace UpdateArgs

variable {price liquidity amount : U256} (h : UpdateArgs price liquidity amount)
include h

theorem denominator_pos : 0 < updateDenominator price liquidity amount :=
  Nat.add_pos_right _ (Nat.mul_pos h.amount_pos h.price_pos)

theorem denominator_lt : updateDenominator price liquidity amount < 2 ^ 256 := by
  have hShifted : liquidity.toNat * 2 ^ 96 < 2 ^ 128 * 2 ^ 96 :=
    Nat.mul_lt_mul_of_pos_right h.liquidity_lt (by norm_num)
  have hProduct : amount.toNat * price.toNat < 2 ^ (95 + 160) :=
    mul_lt_pow h.amount_lt h.price_lt
  exact (Nat.add_lt_add hShifted hProduct).trans_le (by norm_num)

omit h in
/-- The next price is no higher than the price. -/
theorem floor_le_price : updateNumerator price liquidity /
    updateDenominator price liquidity amount ≤ price.toNat := by
  apply Nat.div_le_of_le_mul
  exact Nat.mul_le_mul_right _ (Nat.le_add_right _ _)

theorem ceil_le_price : updateNumerator price liquidity ⌈/⌉
    updateDenominator price liquidity amount ≤ price.toNat := by
  rw [ceilDiv_le_iff_le_mul h.denominator_pos]
  exact Nat.mul_le_mul_right _ (Nat.le_add_right _ _)

omit h in
theorem wideQ96_exact : wideQ96.toNat = 2 ^ 96 ∧ 2 ^ 96 < 2 ^ 97 := by
  constructor
  · decide +kernel
  · norm_num

theorem shifted_exact : (toU512 liquidity * wideQ96).toNat = liquidity.toNat * 2 ^ 96 ∧
    liquidity.toNat * 2 ^ 96 < 2 ^ (128 + 97) :=
  mul_exact ⟨toU512_toNat liquidity, h.liquidity_lt⟩ wideQ96_exact (by norm_num)

theorem wideNumerator_toNat : (toU512 liquidity * toU512 price * wideQ96).toNat =
    updateNumerator price liquidity := by
  have hProduct := mul_exact ⟨toU512_toNat liquidity, h.liquidity_lt⟩
    ⟨toU512_toNat price, h.price_lt⟩ (by norm_num)
  rw [(mul_exact hProduct wideQ96_exact (by norm_num)).1, updateNumerator, Nat.mul_right_comm]

theorem wideDenominator_toNat :
    (toU512 liquidity * wideQ96 + toU512 amount * toU512 price).toNat =
      updateDenominator price liquidity amount := by
  have hProduct := mul_exact ⟨toU512_toNat amount, h.amount_lt⟩ ⟨toU512_toNat price, h.price_lt⟩
    (by norm_num)
  have hFits := h.denominator_lt
  have hShifted := h.shifted_exact.1
  rw [BitVec.toNat_add_of_lt, hShifted, hProduct.1, updateDenominator]
  rw [hShifted, hProduct.1, wide_modulus]
  exact hFits.trans_le (Nat.le_mul_of_pos_right _ (by norm_num))

theorem proceeds : ¬ (liquidity = 0 ∨ amount = 0) := by
  rintro (hZero | hZero)
  · exact toNat_pos_iff.mp h.liquidity_pos hZero
  · exact toNat_pos_iff.mp h.amount_pos hZero

/-- **Down, in 512 bits.** -/
theorem nextSqrtPrice_down_toNat :
    (getV3NextSqrtPrice price liquidity amount true).toNat =
      updateNumerator price liquidity / updateDenominator price liquidity amount := by
  have hDenominator := h.wideDenominator_toNat
  have hNonzero : toU512 liquidity * wideQ96 + toU512 amount * toU512 price ≠ 0 := by
    apply toNat_pos_iff.mp
    rw [hDenominator]
    exact h.denominator_pos
  rw [getV3NextSqrtPrice, if_neg h.proceeds]
  dsimp only
  rw [if_pos rfl, if_neg hNonzero, u512ToU256Safe_eq_min, BitVec.toNat_udiv,
    h.wideNumerator_toNat, hDenominator, min_eq_left]
  exact floor_le_price.trans (Nat.le_sub_one_of_lt price.isLt)

/-- What an upward update adds. -/
theorem sum_lt : price.toNat + amount.toNat * 2 ^ 96 / liquidity.toNat < 2 ^ 256 := by
  have hShifted : amount.toNat * 2 ^ 96 < 2 ^ 95 * 2 ^ 96 :=
    Nat.mul_lt_mul_of_pos_right h.amount_lt (by norm_num)
  have hQuotient : amount.toNat * 2 ^ 96 / liquidity.toNat < 2 ^ 95 * 2 ^ 96 :=
    (Nat.div_le_self _ _).trans_lt hShifted
  exact (Nat.add_lt_add h.price_lt hQuotient).trans_le (by norm_num)

/-- **Up, in 512 bits.** -/
theorem nextSqrtPrice_up_toNat :
    (getV3NextSqrtPrice price liquidity amount false).toNat =
      price.toNat + amount.toNat * 2 ^ 96 / liquidity.toNat := by
  have hShifted := mul_exact ⟨toU512_toNat amount, h.amount_lt⟩ wideQ96_exact (by norm_num)
  have hDelta : (toU512 amount * wideQ96 / toU512 liquidity).toNat =
      amount.toNat * 2 ^ 96 / liquidity.toNat := by
    rw [BitVec.toNat_udiv, hShifted.1, toU512_toNat]
  have hFits := h.sum_lt
  rw [getV3NextSqrtPrice, if_neg h.proceeds]
  dsimp only
  rw [if_neg Bool.false_ne_true, u512ToU256Safe_eq_min, BitVec.toNat_add_of_lt, hDelta,
    toU512_toNat, min_eq_left (Nat.le_sub_one_of_lt hFits)]
  rw [hDelta, toU512_toNat, wide_modulus]
  exact hFits.trans_le (Nat.le_mul_of_pos_right _ (by norm_num))

/-! ## The narrow update -/

theorem product_toNat : (amount * price).toNat = amount.toNat * price.toNat := by
  apply BitVec.toNat_mul_of_lt
  exact (mul_lt_pow h.amount_lt h.price_lt).trans (by norm_num)

/-- The probe of the product. -/
theorem probe_passes : amount * price / amount = price := by
  apply BitVec.eq_of_toNat_eq
  rw [BitVec.toNat_udiv, h.product_toNat, Nat.mul_div_cancel_left _ h.amount_pos]

theorem narrowDenominator_toNat : (liquidity <<< 96 + amount * price).toNat =
    updateDenominator price liquidity amount := by
  have hShifted := shifted_toNat h.liquidity_lt
  have hFits := h.denominator_lt
  rw [updateDenominator] at hFits ⊢
  rw [BitVec.toNat_add_of_lt, hShifted, h.product_toNat]
  rw [hShifted, h.product_toNat]
  exact hFits

/-- The sum does not wrap either, so the second probe passes. -/
theorem sum_passes : liquidity <<< 96 ≤ liquidity <<< 96 + amount * price := by
  rw [BitVec.le_def, h.narrowDenominator_toNat, shifted_toNat h.liquidity_lt]
  exact Nat.le_add_right _ _

/-- **Down, in 256 bits.** -/
theorem fromInput_down_toNat :
    ∃ next, getNextSqrtPriceFromInput price liquidity amount true = some next ∧
      next.toNat =
        updateNumerator price liquidity ⌈/⌉ updateDenominator price liquidity amount := by
  have hProbe : u256Div (amount * price) amount = some price := by
    rw [u256Div, if_neg (toNat_pos_iff.mp h.amount_pos), h.probe_passes]
  refine ⟨(mulDivRoundUp (liquidity <<< 96) price (liquidity <<< 96 + amount * price)).getD 0,
    ?_, ?_⟩
  · rw [getNextSqrtPriceFromInput, if_pos rfl]
    simp only [hProbe, Option.bind_eq_bind, Option.bind_some]
    rw [if_pos ⟨trivial, h.sum_passes⟩]
  · rw [mulDivRoundUp_toNat, h.narrowDenominator_toNat, shifted_toNat h.liquidity_lt,
      ← updateNumerator, min_eq_left]
    exact h.ceil_le_price.trans (Nat.le_sub_one_of_lt price.isLt)

/-- **Up, in 256 bits.** -/
theorem fromInput_up_toNat :
    ∃ next, getNextSqrtPriceFromInput price liquidity amount false = some next ∧
      next.toNat = price.toNat + amount.toNat * 2 ^ 96 / liquidity.toNat := by
  have hAmount : amount.toNat < 2 ^ 128 := h.amount_lt.trans (by norm_num)
  have hQuotient : (amount <<< 96 / liquidity).toNat =
      amount.toNat * 2 ^ 96 / liquidity.toNat := by
    rw [BitVec.toNat_udiv, shifted_toNat hAmount]
  refine ⟨price + amount <<< 96 / liquidity, ?_, ?_⟩
  · rw [getNextSqrtPriceFromInput, if_neg Bool.false_ne_true, u256Div,
      if_neg (toNat_pos_iff.mp h.liquidity_pos)]
    rfl
  · rw [BitVec.toNat_add_of_lt, hQuotient]
    rw [hQuotient]
    exact h.sum_lt

end UpdateArgs

/-! ## Side by side -/

/-- **Agreement.**  One for zero both give the same price.  Zero for one the wide update is the
floor and the narrow one the ceiling of `L * 2^96 * p / (L * 2^96 + amount * p)`, so the narrow
price is the same or one more. -/
theorem priceUpdates_agree {price liquidity amount : U256}
    (h : UpdateArgs price liquidity amount) :
    getNextSqrtPriceFromInput price liquidity amount false =
        some (getV3NextSqrtPrice price liquidity amount false) ∧
      (getV3NextSqrtPrice price liquidity amount true).toNat =
        updateNumerator price liquidity / updateDenominator price liquidity amount ∧
      ∃ next, getNextSqrtPriceFromInput price liquidity amount true = some next ∧
        next.toNat =
          updateNumerator price liquidity ⌈/⌉ updateDenominator price liquidity amount ∧
        (getV3NextSqrtPrice price liquidity amount true).toNat ≤ next.toNat ∧
        next.toNat ≤ (getV3NextSqrtPrice price liquidity amount true).toNat + 1 := by
  have hFloor := h.nextSqrtPrice_down_toNat
  refine ⟨?_, hFloor, ?_⟩
  · obtain ⟨next, hNext, hValue⟩ := h.fromInput_up_toNat
    rw [hNext, BitVec.eq_of_toNat_eq (hValue.trans h.nextSqrtPrice_up_toNat.symm)]
  · obtain ⟨next, hNext, hCeil⟩ := h.fromInput_down_toNat
    refine ⟨next, hNext, hCeil, ?_, ?_⟩
    · rw [hFloor, hCeil, Nat.ceilDiv_eq_add_pred_div]
      apply Nat.div_le_div_right
      exact Nat.le_sub_of_add_le (Nat.add_le_add_left h.denominator_pos _)
    · rw [hFloor, hCeil, ceilDiv_le_iff_le_mul h.denominator_pos]
      exact (Nat.lt_mul_div_succ _ h.denominator_pos).le

/-- One ether into a pool at the price one. -/
theorem priceUpdates_agree_example :
    getNextSqrtPriceFromInput (1 <<< 96) 1000000000000000000000 1000000000000000000 false =
        some (getV3NextSqrtPrice (1 <<< 96) 1000000000000000000000 1000000000000000000 false) ∧
      (getV3NextSqrtPrice (1 <<< 96) 1000000000000000000000 1000000000000000000 true).toNat =
        updateNumerator (1 <<< 96) 1000000000000000000000 /
          updateDenominator (1 <<< 96) 1000000000000000000000 1000000000000000000 := by
  have hAgree := @priceUpdates_agree (1 <<< 96) 1000000000000000000000 1000000000000000000
    ⟨by decide, by decide, by decide, by decide, by decide, by decide⟩
  exact ⟨hAgree.1, hAgree.2.1⟩

end SovereignShadow.Ports.PriceUpdates
