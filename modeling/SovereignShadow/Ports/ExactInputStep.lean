import SovereignShadow.Ports.TokenAmounts

/-!
# Value through an exact-input step

What an exact-input step takes.  The next price is rounded so that moving to it costs no
more than the input left after the fee, in both formulas of the source, with or without the
truncated shift; so the input and the fee fit the amount that remains, and what the step
returns is exactly the rest.

The step divides by the input after the fee.  That input can round to zero while there is
still a price to move, and then a downward step panics.

## Main results

* `inputBetween_le_down`, `inputBetween_le_up` — a step costs no more than its input.
* `step_conserves` — input, fee and remainder add up.
* `cleanRun_iff` — when a step runs without a panic or a wrapped subtraction.
-/

namespace SovereignShadow.Ports.ExactInputStep

open SovereignShadow.Verified.Checked (Build)
open SovereignShadow.Verified.RoundedDivision
open SovereignShadow.Ports.Models
open SovereignShadow.Ports.V3Math
open SovereignShadow.Ports.FullWidth
open SovereignShadow.Ports.OptimalInput (toNat_pos_iff)
open SovereignShadow.Ports.SwapStep
open SovereignShadow.Ports.TokenAmounts

/-! ## The cost of a move -/

section Cost

variable {current next liquidity amount : U256}

theorem inputBetween_down_toNat (hCurrent : 0 < current.toNat) (hNext : 0 < next.toNat)
    (hSide : next ≤ current) (hLiquidity : liquidity.toNat < 2 ^ 160) :
    (inputBetween current next liquidity true).toNat =
      liquidity.toNat * 2 ^ 96 * (current.toNat - next.toNat) ⌈/⌉
        (next.toNat * current.toNat) := by
  have hLe : next.toNat ≤ current.toNat := hSide
  rw [inputBetween, if_pos rfl, amount0_toNat hNext hLiquidity hCurrent, max_eq_right hLe,
    min_eq_left hLe, roundedDiv_up]

theorem inputBetween_up_toNat (hCurrent : current.toNat < 2 ^ 160) (hNext : next.toNat < 2 ^ 160)
    (hSide : current ≤ next) (hLiquidity : liquidity.toNat < 2 ^ 128) :
    (inputBetween current next liquidity false).toNat =
      liquidity.toNat * (next.toNat - current.toNat) ⌈/⌉ 2 ^ 96 := by
  have hLe : current.toNat ≤ next.toNat := hSide
  rw [inputBetween, if_neg Bool.false_ne_true, amount1_toNat hCurrent hNext hLiquidity,
    max_eq_right hLe, min_eq_left hLe, roundedDiv_up]

/-- Moving from `price` to `next` pays at most `amount` when `next` is no lower than the
exact price `numerator * price / (numerator + amount * price)`. -/
theorem move_pays {numerator price next amount : ℕ}
    (h : numerator * price ≤ next * (numerator + amount * price)) (hNext : next ≤ price) :
    numerator * (price - next) ≤ next * price * amount := by
  have hSplit : numerator * (price - next) + numerator * next = numerator * price := by
    rw [← Nat.mul_add, Nat.sub_add_cancel hNext]
  have hExpand : next * (numerator + amount * price) =
      next * price * amount + numerator * next := by ring
  rw [hExpand, ← hSplit] at h
  exact Nat.le_of_add_le_add_right h

/-- Both formulas for the price round it up far enough. -/
theorem product_covers (numerator price amount : ℕ) (hPos : 0 < numerator + amount * price) :
    numerator * price ≤
      numerator * price ⌈/⌉ (numerator + amount * price) * (numerator + amount * price) := by
  rw [Nat.mul_comm (_ ⌈/⌉ _)]
  exact (ceilDiv_le_iff_le_mul hPos).mp le_rfl

theorem quotient_covers (numerator price amount : ℕ) (hAmount : 0 < amount) :
    numerator * price ≤
      numerator ⌈/⌉ (numerator / price + amount) * (numerator + amount * price) := by
  have hPos : 0 < numerator / price + amount := Nat.add_pos_right _ hAmount
  have hCeil : numerator ≤ (numerator / price + amount) *
      (numerator ⌈/⌉ (numerator / price + amount)) := (ceilDiv_le_iff_le_mul hPos).mp le_rfl
  generalize numerator ⌈/⌉ (numerator / price + amount) = next at hCeil ⊢
  calc numerator * price
      ≤ (numerator / price + amount) * next * price := Nat.mul_le_mul_right _ hCeil
    _ = next * (numerator / price * price + amount * price) := by ring
    _ ≤ next * (numerator + amount * price) :=
        Nat.mul_le_mul_left _ (Nat.add_le_add_right (Nat.div_mul_le_self _ _) _)

/-- **Down: moving to the next price costs at most the input.** -/
theorem inputBetween_le_down {target : U256} (hLiquidity : liquidity.toNat < 2 ^ 128)
    (hAmount : amount.toNat < 2 ^ 255) (hSide : target ≤ current)
    (hShort : amount < inputBetween current target liquidity true)
    (h : getNextSqrtPriceFromInput current liquidity amount true = some next) :
    (inputBetween current next liquidity true).toNat ≤ amount.toNat := by
  have hBetween := nextPrice_down hLiquidity hAmount hSide hShort h
  have hCross := lt_input_down hLiquidity hSide hShort
  have hShift := shifted_toNat hLiquidity
  have hNextPos : 0 < next.toNat := (Nat.zero_le _).trans_lt (BitVec.lt_def.mp hBetween.1)
  have hCases := nextPrice_down_cases hLiquidity hAmount hSide hShort h
  have hCovers : (liquidity <<< 96).toNat * current.toNat ≤
      next.toNat * ((liquidity <<< 96).toNat + amount.toNat * current.toNat) := by
    rcases hCases.2 with hNext | hNext
    · rw [hNext]
      exact product_covers _ _ _ (Nat.add_pos_right _ (Nat.mul_pos hCases.1 hCross.2.1))
    · rw [hNext]
      exact quotient_covers _ _ _ hCases.1
  rw [inputBetween_down_toNat hCross.2.1 hNextPos hBetween.2 (hLiquidity.trans (by norm_num)),
    ← hShift, ceilDiv_le_iff_le_mul (Nat.mul_pos hNextPos hCross.2.1)]
  exact move_pays hCovers hBetween.2

/-- **Up.**  The shift may drop high bits; that only lowers the price. -/
theorem inputBetween_le_up {target : U256} (hCurrent : current.toNat < 2 ^ 160)
    (hTarget : target.toNat < 2 ^ 160) (hLiquidity : liquidity.toNat < 2 ^ 128)
    (hSide : current ≤ target)
    (hShort : amount < inputBetween current target liquidity false)
    (h : getNextSqrtPriceFromInput current liquidity amount false = some next) :
    (inputBetween current next liquidity false).toNat ≤ amount.toNat := by
  have hBetween := nextPrice_up hSide hShort h
  have hNextLt : next.toNat < 2 ^ 160 := (BitVec.lt_def.mp hBetween.2).trans hTarget
  have h : (u256Div (amount <<< 96) liquidity).bind (fun quotient => some (current + quotient)) =
      some next := h
  obtain ⟨quotient, hDiv, hNext⟩ := Option.bind_eq_some_iff.mp h
  have hMove : next.toNat - current.toNat ≤ quotient.toNat := by
    rw [← Option.some.inj hNext, BitVec.toNat_add, Nat.sub_le_iff_le_add,
      Nat.add_comm quotient.toNat]
    exact Nat.mod_le _ _
  have hPaid := shiftedQuotient_le hDiv
  rw [inputBetween_up_toNat hCurrent hNextLt hBetween.1 hLiquidity,
    ceilDiv_le_iff_le_mul (by norm_num), Nat.mul_comm (2 ^ 96)]
  exact (Nat.mul_le_mul_left _ hMove).trans hPaid

end Cost

/-! ## The step -/

/-- The arguments of an exact-input step: prices in range, the target on the trade's side,
and something to swap. -/
structure Arguments (current target liquidity : U256) (amountRemaining : I256) (feePips : U32)
    (zeroForOne : Bool) : Prop where
  current_pos : 0 < current.toNat
  current_lt : current.toNat < 2 ^ 160
  target_pos : 0 < target.toNat
  target_lt : target.toNat < 2 ^ 160
  side : Toward zeroForOne current target
  liquidity_lt : liquidity.toNat < 2 ^ 128
  remaining_pos : 0 < amountRemaining.toNat
  remaining_lt : amountRemaining.toNat < 2 ^ 255
  fee_lt : feePips.toNat < 1000000

/-- The amounts of the second half belong to the price of the first. -/
theorem stepAmounts_amountIn {current target liquidity : U256} {zeroForOne : Bool}
    {priced : SwapStepResult}
    (h : priced.amountIn = inputBetween current target liquidity zeroForOne) :
    (stepAmounts current target liquidity zeroForOne true priced).amountIn =
      inputBetween current priced.sqrtPriceNextX96 liquidity zeroForOne := by
  by_cases hReach : priced.sqrtPriceNextX96 = target
  · simp [stepAmounts, hReach, h]
  · simp [stepAmounts, hReach]

section Step

variable {build : Build} {current target liquidity : U256} {amountRemaining : I256}
  {feePips : U32} {zeroForOne : Bool}
  (hArgs : Arguments current target liquidity amountRemaining feePips zeroForOne)
include hArgs

/-- Moving to the next price is paid for. -/
theorem priceByInput_affordable {priced : SwapStepResult}
    (h : priceByInput build current target liquidity amountRemaining feePips zeroForOne =
      some priced) :
    priced.amountIn = inputBetween current target liquidity zeroForOne ∧
      (inputBetween current priced.sqrtPriceNextX96 liquidity zeroForOne).toNat ≤
        amountRemaining.toNat * (1000000 - feePips.toNat) / 1000000 := by
  obtain ⟨lessFee, hLessFee, hValue⟩ :=
    amountRemainingLessFee_eq build hArgs.remaining_lt hArgs.fee_lt
  rw [priceByInput, hLessFee, Option.bind_eq_bind, Option.bind_some] at h
  rw [← hValue]
  by_cases hReach : inputBetween current target liquidity zeroForOne ≤ lessFee
  · rw [if_pos hReach] at h
    obtain rfl := Option.some.inj h
    exact ⟨rfl, hReach⟩
  · rw [if_neg hReach] at h
    obtain ⟨next, hNext, h⟩ := Option.bind_eq_some_iff.mp h
    obtain rfl := Option.some.inj h
    have hShort := BitVec.not_le.mp hReach
    have hSide := hArgs.side
    refine ⟨rfl, ?_⟩
    cases zeroForOne with
    | true =>
        have hAmount : lessFee.toNat < 2 ^ 255 := by
          rw [hValue]
          exact (lessFee_le _ _).trans_lt hArgs.remaining_lt
        exact inputBetween_le_down hArgs.liquidity_lt hAmount hSide hShort hNext
    | false =>
        exact inputBetween_le_up hArgs.current_lt hArgs.target_lt hArgs.liquidity_lt hSide
          hShort hNext

/-- Whatever the first half finds, the step finishes and accounts for the whole amount. -/
theorem step_finishes {priced : SwapStepResult}
    (h : priceByInput build current target liquidity amountRemaining feePips zeroForOne =
      some priced) :
    ∃ result rem,
      computeSwapStep build current target liquidity amountRemaining feePips zeroForOne =
          some (result, rem) ∧
        result.sqrtPriceNextX96 = priced.sqrtPriceNextX96 ∧
        result.amountIn.toNat + result.feeAmount.toNat ≤ amountRemaining.toNat ∧
        rem.toNat = amountRemaining.toNat - (result.amountIn.toNat + result.feeAmount.toNat) ∧
        (result.sqrtPriceNextX96 ≠ target → rem = 0) := by
  have hPaid := priceByInput_affordable hArgs h
  have hExact := zero_slt hArgs.remaining_lt hArgs.remaining_pos
  have hIn := stepAmounts_amountIn hPaid.1
  have hAffordable := hPaid.2
  rw [← hIn] at hAffordable
  have hNext : (stepAmounts current target liquidity zeroForOne true priced).sqrtPriceNextX96 =
      priced.sqrtPriceNextX96 := rfl
  simp only [computeSwapStep, hExact, if_true, Option.bind_eq_bind, h, Option.bind_some]
  generalize stepAmounts current target liquidity zeroForOne true priced = paid at *
  have hFee : ∃ feeAmount,
      stepFee build target amountRemaining feePips true paid = some feeAmount ∧
        paid.amountIn.toNat + feeAmount.toNat ≤ amountRemaining.toNat := by
    by_cases hReach : paid.sqrtPriceNextX96 = target
    · exact stepFee_reached hArgs.fee_lt hReach hAffordable
    · have hLe : paid.amountIn.toNat ≤ amountRemaining.toNat :=
        hAffordable.trans (lessFee_le _ _)
      refine ⟨_, stepFee_missed hArgs.remaining_lt hReach, ?_⟩
      rw [BitVec.toNat_sub_of_le (BitVec.le_def.mpr hLe)]
      omega
  obtain ⟨feeAmount, hSome, hFits⟩ := hFee
  have hLeft : ∃ rem, stepRemainder build amountRemaining true { paid with feeAmount } =
      some rem ∧ rem.toNat = amountRemaining.toNat - (paid.amountIn.toNat + feeAmount.toNat) :=
    stepRemainder_input hArgs.remaining_lt hFits
  obtain ⟨rem, hRem, hValue⟩ := hLeft
  refine ⟨{ paid with feeAmount }, rem, ?_, hNext, hFits, hValue, fun hMiss => ?_⟩
  · rw [hSome, Option.bind_some, hRem, Option.bind_some]
  · exact settle_missed hArgs.remaining_lt hMiss hSome hRem

/-- **An exact-input step conserves value.** -/
theorem step_conserves {result : SwapStepResult} {rem : I256}
    (h : computeSwapStep build current target liquidity amountRemaining feePips zeroForOne =
      some (result, rem)) :
    Toward zeroForOne current result.sqrtPriceNextX96 ∧
      Toward zeroForOne result.sqrtPriceNextX96 target ∧
      result.amountIn.toNat + result.feeAmount.toNat ≤ amountRemaining.toNat ∧
      rem.toInt = amountRemaining.toInt - result.amountIn.toNat - result.feeAmount.toNat ∧
      0 ≤ rem.toInt ∧ (result.sqrtPriceNextX96 ≠ target → rem = 0) := by
  have hExact := zero_slt hArgs.remaining_lt hArgs.remaining_pos
  have hSpec := computeSwapStep_spec hArgs.side (fun _ => hArgs.liquidity_lt)
    hArgs.remaining_lt hArgs.remaining_pos hArgs.fee_lt h
  have hPriced : ∃ priced, priceByInput build current target liquidity amountRemaining feePips
      zeroForOne = some priced := by
    simp only [computeSwapStep, hExact, if_true, Option.bind_eq_bind] at h
    obtain ⟨priced, hPriced, _⟩ := Option.bind_eq_some_iff.mp h
    exact ⟨priced, hPriced⟩
  obtain ⟨priced, hPriced⟩ := hPriced
  obtain ⟨result', rem', hSame, _, hFits, hRest, hMissed⟩ := step_finishes hArgs hPriced
  rw [h] at hSame
  obtain ⟨rfl, rfl⟩ := Prod.mk.inj (Option.some.inj hSame)
  have hRemaining := hArgs.remaining_lt
  have hInt : rem.toInt = rem.toNat := toInt_small (by omega)
  refine ⟨hSpec.forward, hSpec.within, hFits, ?_, ?_, hMissed⟩
  · rw [hInt, toInt_small hRemaining]
    omega
  · rw [hInt]
    exact Int.natCast_nonneg _

end Step

/-- A million at a price of one, with the target out of reach. -/
theorem sampleStep :
    computeSwapStep .release 0x1000000000000000000000000 0x800000000000000000000000
      1000000000000000000 1000000 3000 true =
        some (⟨0xfffffffffee75e9428956a99, 997000, 996999, 3000⟩, 0) := by decide +kernel

theorem step_conserves_example :
    Toward true 0x1000000000000000000000000 0xfffffffffee75e9428956a99 ∧
      Toward true 0xfffffffffee75e9428956a99 0x800000000000000000000000 ∧
      (997000 : U256).toNat + (3000 : U256).toNat ≤ (1000000 : I256).toNat ∧
      (0 : I256).toInt =
        (1000000 : I256).toInt - (997000 : U256).toNat - (3000 : U256).toNat ∧
      0 ≤ (0 : I256).toInt ∧
      ((0xfffffffffee75e9428956a99 : U256) ≠ 0x800000000000000000000000 → (0 : I256) = 0) :=
  @step_conserves .release 0x1000000000000000000000000 0x800000000000000000000000
    1000000000000000000 1000000 3000 true
    ⟨by decide, by decide, by decide, by decide, by decide, by decide, by decide, by decide,
      by decide⟩ _ _ sampleStep

/-! ## Panics -/

section Panics

variable {build : Build} {current target liquidity : U256} {amountRemaining : I256}
  {feePips : U32} {zeroForOne : Bool}

/-- The step returns, and none of its subtractions wraps: the two prices of an amount, the
complement of the fee, the fee of a missed target and the remainder. -/
structure CleanRun (build : Build) (current target liquidity : U256) (amountRemaining : I256)
    (feePips : U32) (zeroForOne : Bool) (result : SwapStepResult) (rem : I256) : Prop where
  returns : computeSwapStep build current target liquidity amountRemaining feePips zeroForOne =
    some (result, rem)
  prices : ∀ p ∈ [target, result.sqrtPriceNextX96], u256Min current p ≤ u256Max current p
  complement : feePips.toNat ≤ 1000000
  fee : result.sqrtPriceNextX96 ≠ target → result.amountIn.toNat ≤ amountRemaining.toNat
  remainder : result.amountIn.toNat + result.feeAmount.toNat ≤ amountRemaining.toNat

/-- Where there is a price to move down, something is left after the fee. -/
def KeepsInput (current target liquidity : U256) (amountRemaining : I256) (feePips : U32)
    (zeroForOne : Bool) : Prop :=
  zeroForOne = true → 0 < liquidity.toNat → target < current →
    1000000 ≤ amountRemaining.toNat * (1000000 - feePips.toNat)

theorem u256Min_le_u256Max (a b : U256) : u256Min a b ≤ u256Max a b := by
  rw [BitVec.le_def, u256Min_toNat, u256Max_toNat]
  exact min_le_max

/-- Down, only a zero input is divided by. -/
theorem nextPrice_down_exists {amount : U256} (hCurrent : current ≠ 0) (hAmount : amount ≠ 0) :
    ∃ next, getNextSqrtPriceFromInput current liquidity amount true = some next := by
  simp only [getNextSqrtPriceFromInput, if_true, u256Div, if_neg hAmount, if_neg hCurrent,
    Option.bind_eq_bind, Option.bind_some]
  split
  · exact ⟨_, rfl⟩
  · exact ⟨_, rfl⟩

theorem nextPrice_down_zero : getNextSqrtPriceFromInput current liquidity 0 true = none := by
  simp only [getNextSqrtPriceFromInput, if_true, u256Div, Option.bind_eq_bind, Option.bind_none]

theorem nextPrice_up_exists {amount : U256} (hLiquidity : liquidity ≠ 0) :
    ∃ next, getNextSqrtPriceFromInput current liquidity amount false = some next := by
  simp only [getNextSqrtPriceFromInput, Bool.false_eq_true, if_false, u256Div,
    if_neg hLiquidity, Option.bind_eq_bind, Option.bind_some]
  exact ⟨_, rfl⟩

section

variable (hArgs : Arguments current target liquidity amountRemaining feePips zeroForOne)
include hArgs

/-- The first half panics only on an input that the fee rounds to zero. -/
theorem priceByInput_exists
    (hKeeps : KeepsInput current target liquidity amountRemaining feePips zeroForOne) :
    ∃ priced, priceByInput build current target liquidity amountRemaining feePips zeroForOne =
      some priced := by
  obtain ⟨lessFee, hLessFee, hValue⟩ :=
    amountRemainingLessFee_eq build hArgs.remaining_lt hArgs.fee_lt
  have hSide := hArgs.side
  rw [priceByInput, hLessFee, Option.bind_eq_bind, Option.bind_some]
  by_cases hReach : inputBetween current target liquidity zeroForOne ≤ lessFee
  · exact ⟨_, if_pos hReach⟩
  · rw [if_neg hReach]
    have hShort := BitVec.not_le.mp hReach
    have hNext : ∃ next,
        getNextSqrtPriceFromInput current liquidity lessFee zeroForOne = some next := by
      cases zeroForOne with
      | true =>
          have hCross := (lt_input_down hArgs.liquidity_lt hSide hShort).2.2
          have hMoves : 0 < liquidity.toNat * 2 ^ 96 * (current.toNat - target.toNat) :=
            (Nat.zero_le _).trans_lt hCross
          have hLiquidity : 0 < liquidity.toNat :=
            Nat.pos_of_mul_pos_right (Nat.pos_of_mul_pos_right hMoves)
          have hGap : 0 < current.toNat - target.toNat := Nat.pos_of_mul_pos_left hMoves
          have hInput := hKeeps rfl hLiquidity (BitVec.lt_def.mpr (by omega))
          have hAmount : 0 < lessFee.toNat := by
            rw [hValue]
            exact Nat.div_pos hInput (by norm_num)
          exact nextPrice_down_exists (toNat_pos_iff.mp hArgs.current_pos)
            (toNat_pos_iff.mp hAmount)
      | false =>
          have hCross := lt_input_up hSide hShort
          have hLiquidity : 0 < liquidity.toNat :=
            Nat.pos_of_mul_pos_right ((Nat.zero_le _).trans_lt hCross)
          exact nextPrice_up_exists (toNat_pos_iff.mp hLiquidity)
    obtain ⟨next, hNext⟩ := hNext
    exact ⟨_, Option.bind_eq_some_iff.mpr ⟨next, hNext, rfl⟩⟩

theorem priceByInput_panics
    (hLoses : ¬ KeepsInput current target liquidity amountRemaining feePips zeroForOne) :
    priceByInput build current target liquidity amountRemaining feePips zeroForOne = none := by
  unfold KeepsInput at hLoses
  push Not at hLoses
  obtain ⟨rfl, hLiquidity, hGap, hInput⟩ := hLoses
  obtain ⟨lessFee, hLessFee, hValue⟩ :=
    amountRemainingLessFee_eq build hArgs.remaining_lt hArgs.fee_lt
  rw [Nat.div_eq_of_lt hInput] at hValue
  have hZero : lessFee = 0 := BitVec.eq_of_toNat_eq hValue
  have hMoves : 0 < (inputBetween current target liquidity true).toNat := by
    rw [inputBetween_down_toNat hArgs.current_pos hArgs.target_pos hArgs.side
      (hArgs.liquidity_lt.trans (by norm_num)),
      lt_ceilDiv_iff (Nat.mul_pos hArgs.target_pos hArgs.current_pos), Nat.mul_zero]
    have hDifference := Nat.sub_pos_of_lt (BitVec.lt_def.mp hGap)
    positivity
  have hShort : ¬ inputBetween current target liquidity true ≤ lessFee := by
    rw [BitVec.le_def, hValue]
    exact not_le.mpr hMoves
  rw [priceByInput, hLessFee, Option.bind_eq_bind, Option.bind_some, if_neg hShort, hZero,
    nextPrice_down_zero, Option.bind_none]

end

/-- A step that panics in its first half. -/
theorem step_panics (hRemaining : amountRemaining.toNat < 2 ^ 255)
    (hPositive : 0 < amountRemaining.toNat)
    (h : priceByInput build current target liquidity amountRemaining feePips zeroForOne = none) :
    computeSwapStep build current target liquidity amountRemaining feePips zeroForOne = none := by
  have hExact := zero_slt hRemaining hPositive
  simp only [computeSwapStep, hExact, if_true, Option.bind_eq_bind, h, Option.bind_none]

/-- The prices of a pool. -/
def PoolPrice (p : U256) : Prop := minSqrtRatio ≤ p ∧ p ≤ maxSqrtRatio

instance (p : U256) : Decidable (PoolPrice p) :=
  inferInstanceAs (Decidable (minSqrtRatio ≤ p ∧ p ≤ maxSqrtRatio))

theorem PoolPrice.range {p : U256} (h : PoolPrice p) : 0 < p.toNat ∧ p.toNat < 2 ^ 160 := by
  have hMin : minSqrtRatio.toNat = 4295128739 := by decide
  have hMax : maxSqrtRatio.toNat < 2 ^ 160 := by decide
  have hLow := BitVec.le_def.mp h.1
  rw [hMin] at hLow
  exact ⟨by omega, (BitVec.le_def.mp h.2).trans_lt hMax⟩

/-- **The step runs clean exactly when something is left after the fee**, where there is a
price to move down. -/
theorem cleanRun_iff (build : Build) (hCurrent : PoolPrice current) (hTarget : PoolPrice target)
    (hSide : Toward zeroForOne current target) (hLiquidity : liquidity.toNat < 2 ^ 128)
    (hRemaining : 0 < amountRemaining.toNat ∧ amountRemaining.toNat < 2 ^ 255)
    (hFee : feePips.toNat < 1000000) :
    (∃ result rem, CleanRun build current target liquidity amountRemaining feePips zeroForOne
        result rem) ↔
      KeepsInput current target liquidity amountRemaining feePips zeroForOne := by
  have hArgs : Arguments current target liquidity amountRemaining feePips zeroForOne :=
    ⟨hCurrent.range.1, hCurrent.range.2, hTarget.range.1, hTarget.range.2, hSide, hLiquidity,
      hRemaining.1, hRemaining.2, hFee⟩
  constructor
  · intro hClean
    obtain ⟨result, rem, hRun⟩ := hClean
    by_contra hLoses
    have hReturns := hRun.returns
    rw [step_panics hRemaining.2 hRemaining.1 (priceByInput_panics hArgs hLoses)] at hReturns
    exact absurd hReturns (Option.some_ne_none _).symm
  · intro hKeeps
    have hPriced : ∃ priced, priceByInput build current target liquidity amountRemaining feePips
        zeroForOne = some priced := priceByInput_exists hArgs hKeeps
    obtain ⟨priced, hPriced⟩ := hPriced
    obtain ⟨result, rem, hReturns, _, hFits, _⟩ := step_finishes hArgs hPriced
    refine ⟨result, rem, hReturns, fun p _ => u256Min_le_u256Max current p, hFee.le, ?_, hFits⟩
    exact fun _ => (Nat.le_add_right _ _).trans hFits

/-- One unit of input, a fee, and a price to move down: `product / amount_in` panics. -/
theorem not_cleanRun_one :
    ¬ ∃ result rem, CleanRun .release 0x1000000000000000000000000 4295128740
      1000000000000000000 1 3000 true result rem := by
  have hArgs : Arguments 0x1000000000000000000000000 4295128740 1000000000000000000 1 3000 true :=
    ⟨by decide, by decide, by decide, by decide, by decide, by decide, by decide, by decide,
      by decide⟩
  have hLoses : ¬ KeepsInput 0x1000000000000000000000000 4295128740 1000000000000000000 1 3000
      true := fun hKeeps => absurd (hKeeps rfl (by decide) (by decide)) (by decide)
  intro hClean
  obtain ⟨result, rem, hRun⟩ := hClean
  have hReturns := hRun.returns
  rw [step_panics (by decide) (by decide) (priceByInput_panics hArgs hLoses)] at hReturns
  exact absurd hReturns (Option.some_ne_none _).symm

theorem cleanRun_iff_million :
    (∃ result rem, CleanRun .release 0x1000000000000000000000000 4295128740
        1000000000000000000 1000000 3000 true result rem) ↔
      KeepsInput 0x1000000000000000000000000 4295128740 1000000000000000000 1000000 3000 true :=
  cleanRun_iff .release (by decide) (by decide) (by decide) (by decide) (by decide) (by decide)

end Panics

end SovereignShadow.Ports.ExactInputStep
