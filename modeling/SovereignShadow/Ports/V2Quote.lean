import SovereignShadow.Ports.OptimalInput

/-!
# The V2 quote and the pair's own check

A pair accepts an output as long as the product of its reserves, with the fee taken off
the input, does not fall.  The quote is the greatest such output, for every input that a
word can hold: with reserves below `2 ^ 128` nothing wraps in 512 bits.

## Main results

* `getV2Output_greatest` — the quote and what follows from its being greatest.
-/

namespace SovereignShadow.Ports.V2Quote

open SovereignShadow.Verified.ConstantProduct
open SovereignShadow.Ports.Models
open SovereignShadow.Ports.Mirror
open SovereignShadow.Ports.MathEngine
open SovereignShadow.Ports.OptimalInput

/-- Both reserves are positive and below `2 ^ 128`. -/
structure InRange (state : PoolState) : Prop where
  reserves0_pos : 0 < state.reserves0.toNat
  reserves0_lt : state.reserves0.toNat < 2 ^ 128
  reserves1_pos : 0 < state.reserves1.toNat
  reserves1_lt : state.reserves1.toNat < 2 ^ 128

/-- The side a swap pays into. -/
def reserveIn (state : PoolState) (zeroForOne : Bool) : U256 := (reservesFor state zeroForOne).1

/-- The side it draws on. -/
def reserveOut (state : PoolState) (zeroForOne : Bool) : U256 := (reservesFor state zeroForOne).2

/-- The 512-bit intermediates of a quote are the numbers they stand for. -/
structure NoWrap (amountIn rIn rOut : U256) : Prop where
  amtInWithFee : (toU512 amountIn * 997).toNat = amountIn.toNat * 997
  numerator : (toU512 amountIn * 997 * toU512 rOut).toNat = amountIn.toNat * 997 * rOut.toNat
  reserveIn : (toU512 rIn * 1000).toNat = rIn.toNat * 1000
  denominator : (toU512 rIn * 1000 + toU512 amountIn * 997).toNat =
    rIn.toNat * 1000 + amountIn.toNat * 997

section Quote

variable {state : PoolState} (h : InRange state) (zeroForOne : Bool)
include h

theorem InRange.sides :
    (0 < (reserveIn state zeroForOne).toNat ∧ (reserveIn state zeroForOne).toNat < 2 ^ 128) ∧
      0 < (reserveOut state zeroForOne).toNat ∧
        (reserveOut state zeroForOne).toNat < 2 ^ 128 := by
  cases zeroForOne with
  | true => exact ⟨⟨h.reserves0_pos, h.reserves0_lt⟩, h.reserves1_pos, h.reserves1_lt⟩
  | false => exact ⟨⟨h.reserves1_pos, h.reserves1_lt⟩, h.reserves0_pos, h.reserves0_lt⟩

/-- The product of a quote fits, for every input. -/
theorem InRange.product_lt (amountIn : U256) :
    amountIn.toNat * 997 * (reserveOut state zeroForOne).toNat < 2 ^ 512 := by
  obtain ⟨-, -, hOut⟩ := h.sides zeroForOne
  have hFee : amountIn.toNat * 997 < 2 ^ (256 + 10) := mul_lt_pow amountIn.isLt (by norm_num)
  exact mul_lt_pow_le hFee hOut (by decide)

theorem InRange.noWrap (amountIn : U256) :
    NoWrap amountIn (reserveIn state zeroForOne) (reserveOut state zeroForOne) := by
  obtain ⟨hFee, hNumerator, hBase, hDenominator⟩ :=
    v2Intermediates_toNat (h.product_lt zeroForOne amountIn)
  exact ⟨hFee, hNumerator, hBase, hDenominator⟩

theorem InRange.getV2Output_toNat (amountIn : U256) :
    (getV2Output amountIn state zeroForOne).toNat =
      quote 997 1000 (reserveIn state zeroForOne).toNat (reserveOut state zeroForOne).toNat
        amountIn.toNat := by
  obtain ⟨⟨hIn, -⟩, hOut, -⟩ := h.sides zeroForOne
  exact getV2Output_eq_quote rfl hIn hOut (h.product_lt zeroForOne amountIn)

/-- As the market of a hop. -/
theorem InRange.market (hop : Hop) :
    Stocked (marketOf hop state) ∧ (marketOf hop state).2 < 2 ^ 128 := by
  obtain ⟨⟨hIn, -⟩, hOut⟩ := h.sides hop.zeroForOne
  exact ⟨⟨hIn, hOut.1⟩, hOut.2⟩

end Quote

/-- **The quote is the pair's limit.** -/
theorem getV2Output_greatest (state : PoolState) (zeroForOne : Bool) (amountIn : U256)
    (hRange : InRange state) :
    IsGreatest
      {out : ℕ | (1000 * (reserveIn state zeroForOne).toNat *
          (reserveOut state zeroForOne).toNat : ℤ) ≤
        (1000 * (reserveIn state zeroForOne).toNat + 997 * amountIn.toNat) *
          ((reserveOut state zeroForOne).toNat - out)}
      (getV2Output amountIn state zeroForOne).toNat ∧
    (getV2Output amountIn state zeroForOne).toNat < (reserveOut state zeroForOne).toNat ∧
    (reserveIn state zeroForOne).toNat * (reserveOut state zeroForOne).toNat ≤
      ((reserveIn state zeroForOne).toNat + amountIn.toNat) *
        ((reserveOut state zeroForOne).toNat - (getV2Output amountIn state zeroForOne).toNat) ∧
    (∀ more : U256, amountIn ≤ more →
      getV2Output amountIn state zeroForOne ≤ getV2Output more state zeroForOne) ∧
    NoWrap amountIn (reserveIn state zeroForOne) (reserveOut state zeroForOne) := by
  obtain ⟨⟨hIn, _⟩, hOut, _⟩ := hRange.sides zeroForOne
  have hUnit : 0 < 1000 := by norm_num
  have hValue := hRange.getV2Output_toNat zeroForOne amountIn
  refine ⟨?_, ?_, ?_, ?_, hRange.noWrap zeroForOne amountIn⟩
  · rw [hValue]
    exact_mod_cast quote_isGreatest hUnit hIn amountIn.toNat
  · rw [hValue]
    exact quote_lt hUnit hIn hOut _
  · rw [hValue]
    exact quote_product_le hUnit hIn hOut (by norm_num) _
  · intro more hMore
    rw [BitVec.le_def, hValue, hRange.getV2Output_toNat zeroForOne more]
    exact quote_mono hUnit hIn (BitVec.le_def.mp hMore)

/-- A pool of 1000 against 2000. -/
def examplePool : PoolState := ⟨1000, 2000, .uniswapV2, false⟩

/-- At 181 of 2000 the product would still hold; at 182 it would not. -/
theorem examplePool_greatest :
    IsGreatest {out : ℕ | (1000 * 1000 * 2000 : ℤ) ≤ (1000 * 1000 + 997 * 100) * (2000 - out)}
      181 := by
  have hRange : InRange examplePool := ⟨by decide, by decide, by decide, by decide⟩
  have hGreatest := (getV2Output_greatest examplePool true 100 hRange).1
  have hValue : (getV2Output 100 examplePool true).toNat = 181 := by decide +kernel
  rw [hValue] at hGreatest
  exact hGreatest

end SovereignShadow.Ports.V2Quote
