import SovereignShadow.Ports.FullWidth
import SovereignShadow.Verified.RoundedDivision

/-!
# The exact-input swap step

What `compute_swap_step` does with a positive remainder and a target on the trade's side of
the price: the next price lies between the two, the remainder does not grow, and nothing
remains where the target is missed.

## Main results

* `nextPrice_down`, `nextPrice_up` — an input short of the target stops short of it.
* `computeSwapStep_spec` — the step.
-/

namespace SovereignShadow.Ports.SwapStep

open SovereignShadow.Verified.Checked (Build)
open SovereignShadow.Verified.RoundedDivision
open SovereignShadow.Ports.Models
open SovereignShadow.Ports.V3Math
open SovereignShadow.Ports.FullWidth
open SovereignShadow.Ports.OptimalInput (toNat_pos_iff)

theorem u256Min_of_le {a b : U256} (h : a ≤ b) : u256Min a b = a :=
  if_neg (BitVec.not_lt.mpr h)

theorem u256Max_of_le {a b : U256} (h : a ≤ b) : u256Max a b = b := by
  unfold u256Max
  split
  · rfl
  · exact BitVec.le_antisymm h (BitVec.not_lt.mp ‹_›)

/-- `b` lies on the trade's side of `a`. -/
def Toward (zeroForOne : Bool) (a b : U256) : Prop := if zeroForOne then b ≤ a else a ≤ b

instance (zeroForOne : Bool) (a b : U256) : Decidable (Toward zeroForOne a b) :=
  inferInstanceAs (Decidable (if zeroForOne then b ≤ a else a ≤ b))

theorem Toward.refl (zeroForOne : Bool) (a : U256) : Toward zeroForOne a a := by
  unfold Toward
  split <;> exact BitVec.le_refl a

theorem Toward.trans {zeroForOne : Bool} {a b c : U256} (hab : Toward zeroForOne a b)
    (hbc : Toward zeroForOne b c) : Toward zeroForOne a c := by
  unfold Toward at hab hbc ⊢
  cases zeroForOne with
  | true => exact BitVec.le_trans hbc hab
  | false => exact BitVec.le_trans hab hbc

/-! ## The inputs -/

/-- `numerator1`, where no bit is dropped. -/
theorem shiftedLiquidity_toNat {liquidity : U256} (h : liquidity.toNat < 2 ^ 160) :
    (liquidity <<< 96).toNat = liquidity.toNat * 2 ^ 96 := by
  have hFits : liquidity.toNat * 2 ^ 96 < 2 ^ 160 * 2 ^ 96 :=
    Nat.mul_lt_mul_of_pos_right h (by norm_num)
  rw [BitVec.toNat_shiftLeft, Nat.shiftLeft_eq, Nat.mod_eq_of_lt (hFits.trans_le (by norm_num))]

theorem shifted_toNat {liquidity : U256} (h : liquidity.toNat < 2 ^ 128) :
    (liquidity <<< 96).toNat = liquidity.toNat * 2 ^ 96 :=
  shiftedLiquidity_toNat (h.trans (by norm_num))

variable {current target liquidity amount : U256}

theorem input_down (hSide : target ≤ current) :
    inputBetween current target liquidity true =
      (mulDivRoundUp ((mulDivRoundUp (liquidity <<< 96) (current - target) current).getD 0) 1
        target).getD 0 := by
  have hMin := u256Min_of_le hSide
  have hMax := u256Max_of_le hSide
  simp only [inputBetween, getAmount0Delta, hMin, hMax, if_true]

theorem input_up (hSide : current ≤ target) :
    inputBetween current target liquidity false =
      (mulDivRoundUp liquidity (target - current) q96).getD 0 := by
  have hMin := u256Min_of_le hSide
  have hMax := u256Max_of_le hSide
  simp only [inputBetween, getAmount1Delta, hMin, hMax, if_true, Bool.false_eq_true, if_false]

/-- An amount below the input down to the target. -/
theorem lt_input_down (hLiquidity : liquidity.toNat < 2 ^ 128) (hSide : target ≤ current)
    (hShort : amount < inputBetween current target liquidity true) :
    0 < target.toNat ∧ 0 < current.toNat ∧
      current.toNat * (target.toNat * amount.toNat) <
        liquidity.toNat * 2 ^ 96 * (current.toNat - target.toNat) := by
  have hOne : (1 : U256).toNat = 1 := rfl
  rw [input_down hSide, BitVec.lt_def, mulDivRoundUp_toNat, mulDivRoundUp_toNat,
    shifted_toNat hLiquidity, BitVec.toNat_sub_of_le hSide, hOne, mul_one] at hShort
  have hOuter := hShort.trans_le (min_le_left _ _)
  have hTarget : 0 < target.toNat := by
    by_contra hZero
    rw [Nat.le_zero.mp (not_lt.mp hZero), ceilDiv_zero] at hOuter
    exact absurd hOuter (Nat.not_lt_zero _)
  have hCurrent : 0 < current.toNat := hTarget.trans_le (BitVec.le_def.mp hSide)
  have hInner := ((lt_ceilDiv_iff hTarget).mp hOuter).trans_le (min_le_left _ _)
  exact ⟨hTarget, hCurrent, (lt_ceilDiv_iff hCurrent).mp hInner⟩

/-- An amount below the input up to the target. -/
theorem lt_input_up (hSide : current ≤ target)
    (hShort : amount < inputBetween current target liquidity false) :
    2 ^ 96 * amount.toNat < liquidity.toNat * (target.toNat - current.toNat) := by
  have hUnit : q96.toNat = 2 ^ 96 := rfl
  rw [input_up hSide, BitVec.lt_def, mulDivRoundUp_toNat, BitVec.toNat_sub_of_le hSide,
    hUnit] at hShort
  exact (lt_ceilDiv_iff (by norm_num)).mp (hShort.trans_le (min_le_left _ _))

/-! ## The prices -/

theorem u256Div_eq_some {a b q : U256} (h : u256Div a b = some q) : b ≠ 0 ∧ q = a / b := by
  unfold u256Div at h
  split at h
  · exact absurd h (by simp)
  · exact ⟨‹_›, (Option.some.inj h).symm⟩

/-- `(amount << 96) / liquidity` is worth no more than the amount, whatever the shift drops. -/
theorem shiftedQuotient_le {liquidity amount quotient : U256}
    (h : u256Div (amount <<< 96) liquidity = some quotient) :
    liquidity.toNat * quotient.toNat ≤ amount.toNat * 2 ^ 96 := by
  rw [(u256Div_eq_some h).2, BitVec.toNat_udiv, BitVec.toNat_shiftLeft, Nat.shiftLeft_eq]
  exact (Nat.mul_div_le _ _).trans (Nat.mod_le _ _)

/-- The check `product / amount == price` finds every overflow of the product. -/
theorem product_exact {amount price : U256} (hAmount : 0 < amount.toNat)
    (h : amount * price / amount = price) :
    (amount * price).toNat = amount.toNat * price.toNat := by
  have hNat := congrArg BitVec.toNat h
  rw [BitVec.toNat_udiv] at hNat
  have hBack : amount.toNat * price.toNat ≤ (amount * price).toNat := by
    rw [Nat.mul_comm]
    exact (Nat.le_div_iff_mul_le hAmount).mp hNat.ge
  apply le_antisymm _ hBack
  rw [BitVec.toNat_mul]
  exact Nat.mod_le _ _

/-- The check `denominator >= numerator` finds every overflow of the sum. -/
theorem sum_exact {a b : U256} (h : a ≤ a + b) : (a + b).toNat = a.toNat + b.toNat := by
  have ha := a.isLt
  have hb := b.isLt
  rw [BitVec.le_def, BitVec.toNat_add] at h
  rw [BitVec.toNat_add]
  omega

/-- The two ways of the source to round `N * p / (N + a * p)` up. -/
theorem nextPrice_cases {numerator price next : U256}
    (hNumerator : numerator.toNat < 2 ^ 255) (hAmount : amount.toNat < 2 ^ 255)
    (h : (u256Div (amount * price) amount).bind (fun quotient =>
      if quotient = price ∧ numerator ≤ numerator + amount * price then
        some ((mulDivRoundUp numerator price (numerator + amount * price)).getD 0)
      else (u256Div numerator price).bind fun quotient =>
        some ((mulDivRoundUp numerator 1 (quotient + amount)).getD 0)) = some next) :
    0 < amount.toNat ∧
      (next.toNat = min (numerator.toNat * price.toNat ⌈/⌉
          (numerator.toNat + amount.toNat * price.toNat)) maxWord ∨
        next.toNat = min (numerator.toNat ⌈/⌉ (numerator.toNat / price.toNat + amount.toNat))
          maxWord) := by
  obtain ⟨quotient, hDiv, h⟩ := Option.bind_eq_some_iff.mp h
  obtain ⟨hNonzero, rfl⟩ := u256Div_eq_some hDiv
  have hPos := toNat_pos_iff.mpr hNonzero
  refine ⟨hPos, ?_⟩
  by_cases hExact : amount * price / amount = price ∧ numerator ≤ numerator + amount * price
  · left
    rw [if_pos hExact] at h
    rw [← Option.some.inj h, mulDivRoundUp_toNat, sum_exact hExact.2, product_exact hPos hExact.1]
  · right
    rw [if_neg hExact] at h
    obtain ⟨quotient, hDiv, h⟩ := Option.bind_eq_some_iff.mp h
    obtain ⟨_, rfl⟩ := u256Div_eq_some hDiv
    have hOne : (1 : U256).toNat = 1 := rfl
    have hQuotient : (numerator / price).toNat = numerator.toNat / price.toNat :=
      BitVec.toNat_udiv
    have hSmall : numerator.toNat / price.toNat ≤ numerator.toNat := Nat.div_le_self _ _
    rw [← Option.some.inj h, mulDivRoundUp_toNat, BitVec.toNat_add_of_lt (by omega), hQuotient,
      hOne, mul_one]

section Rounding

variable {numerator price amount target : ℕ} (hTarget : target ≤ price)
  (hCross : price * (target * amount) < numerator * (price - target))
include hTarget hCross

/-- The two sides of `target < N * p / (N + a * p)`. -/
theorem cross_terms : target * (numerator + amount * price) < numerator * price := by
  have hSplit : numerator * (price - target) + numerator * target = numerator * price := by
    rw [← Nat.mul_add, Nat.sub_add_cancel hTarget]
  calc target * (numerator + amount * price)
      = price * (target * amount) + numerator * target := by ring
    _ < numerator * (price - target) + numerator * target := Nat.add_lt_add_right hCross _
    _ = numerator * price := hSplit

theorem product_between :
    target < numerator * price ⌈/⌉ (numerator + amount * price) ∧
      numerator * price ⌈/⌉ (numerator + amount * price) ≤ price := by
  have hTerms := cross_terms hTarget hCross
  have hPos : 0 < numerator + amount * price := by
    by_contra hZero
    have hNone : numerator = 0 := by omega
    rw [hNone, Nat.zero_mul] at hTerms
    exact Nat.not_lt_zero _ hTerms
  rw [lt_ceilDiv_iff hPos, ceilDiv_le_iff_le_mul hPos]
  refine ⟨by rw [Nat.mul_comm]; exact hTerms, ?_⟩
  exact Nat.mul_le_mul_right _ (Nat.le_add_right _ _)

theorem quotient_between (hPrice : 0 < price) (hAmount : 0 < amount) :
    target < numerator ⌈/⌉ (numerator / price + amount) ∧
      numerator ⌈/⌉ (numerator / price + amount) ≤ price := by
  have hTerms := cross_terms hTarget hCross
  have hPos : 0 < numerator / price + amount := Nat.add_pos_right _ hAmount
  rw [lt_ceilDiv_iff hPos, ceilDiv_le_iff_le_mul hPos]
  constructor
  · apply Nat.lt_of_mul_lt_mul_right (a := price)
    calc (numerator / price + amount) * target * price
        = target * (numerator / price * price + amount * price) := by ring
      _ ≤ target * (numerator + amount * price) :=
          Nat.mul_le_mul_left _ (Nat.add_le_add_right (Nat.div_mul_le_self _ _) _)
      _ < numerator * price := hTerms
  · have hFloor : numerator < (numerator / price + 1) * price := by
      rw [← Nat.div_lt_iff_lt_mul hPrice]
      exact Nat.lt_succ_self _
    exact hFloor.le.trans (Nat.mul_le_mul_right _ (Nat.add_le_add_left hAmount _))

end Rounding

section Down

variable (hLiquidity : liquidity.toNat < 2 ^ 128) (hAmount : amount.toNat < 2 ^ 255)
  (hSide : target ≤ current) (hShort : amount < inputBetween current target liquidity true)
  {next : U256} (h : getNextSqrtPriceFromInput current liquidity amount true = some next)
include hLiquidity hAmount hSide hShort h

/-- Neither rounded price is narrowed. -/
theorem nextPrice_down_cases :
    0 < amount.toNat ∧
      (next.toNat = (liquidity <<< 96).toNat * current.toNat ⌈/⌉
          ((liquidity <<< 96).toNat + amount.toNat * current.toNat) ∨
        next.toNat = (liquidity <<< 96).toNat ⌈/⌉
          ((liquidity <<< 96).toNat / current.toNat + amount.toNat)) := by
  obtain ⟨_, hCurrent, hCross⟩ := lt_input_down hLiquidity hSide hShort
  have hShift := shifted_toNat hLiquidity
  have hFits : (liquidity <<< 96).toNat < 2 ^ 255 := by
    rw [hShift]
    exact (Nat.mul_lt_mul_of_pos_right hLiquidity (by norm_num)).trans_le (by norm_num)
  have hWord : current.toNat ≤ maxWord := Nat.le_sub_one_of_lt current.isLt
  rw [← hShift] at hCross
  obtain ⟨hPos, hNext | hNext⟩ := nextPrice_cases hFits hAmount h
  · have hHigh := (product_between hSide hCross).2
    rw [min_eq_left (hHigh.trans hWord)] at hNext
    exact ⟨hPos, Or.inl hNext⟩
  · have hHigh := (quotient_between hSide hCross hCurrent hPos).2
    rw [min_eq_left (hHigh.trans hWord)] at hNext
    exact ⟨hPos, Or.inr hNext⟩

/-- **Down: an input short of the target stops above it.** -/
theorem nextPrice_down : target < next ∧ next ≤ current := by
  obtain ⟨_, hCurrent, hCross⟩ := lt_input_down hLiquidity hSide hShort
  rw [← shifted_toNat hLiquidity] at hCross
  rw [BitVec.lt_def, BitVec.le_def]
  obtain ⟨hPos, hNext | hNext⟩ := nextPrice_down_cases hLiquidity hAmount hSide hShort h
  · rw [hNext]
    exact product_between hSide hCross
  · rw [hNext]
    exact quotient_between hSide hCross hCurrent hPos

end Down

/-- **Up: an input short of the target stops below it.** -/
theorem nextPrice_up (hSide : current ≤ target)
    (hShort : amount < inputBetween current target liquidity false) {next : U256}
    (h : getNextSqrtPriceFromInput current liquidity amount false = some next) :
    current ≤ next ∧ next < target := by
  have hCross := lt_input_up hSide hShort
  have h : (u256Div (amount <<< 96) liquidity).bind (fun quotient => some (current + quotient)) =
      some next := h
  obtain ⟨quotient, hDiv, hNext⟩ := Option.bind_eq_some_iff.mp h
  obtain rfl := Option.some.inj hNext
  have hQuotient : quotient.toNat < target.toNat - current.toNat := by
    apply Nat.lt_of_mul_lt_mul_left (a := liquidity.toNat)
    calc liquidity.toNat * quotient.toNat ≤ amount.toNat * 2 ^ 96 := shiftedQuotient_le hDiv
      _ = 2 ^ 96 * amount.toNat := Nat.mul_comm _ _
      _ < liquidity.toNat * (target.toNat - current.toNat) := hCross
  have hTarget := target.isLt
  have hSum : (current + quotient).toNat = current.toNat + quotient.toNat :=
    BitVec.toNat_add_of_lt (by omega)
  rw [BitVec.le_def, BitVec.lt_def, hSum]
  omega

/-! ## Signed amounts -/

section Signed

variable {x y : I256} (hx : x.toNat < 2 ^ 255)
include hx

theorem toInt_small : x.toInt = x.toNat := BitVec.toInt_eq_toNat_of_lt (by omega)

theorem i256Abs_small (build : Build) : i256Abs build x = some x := by
  have hMsb : x.msb = false := BitVec.msb_eq_false_iff_two_mul_lt.mpr (by omega)
  have hMin : ¬ (build = .debug ∧ x = BitVec.intMin 256) := by
    rintro ⟨_, rfl⟩
    exact absurd hx (by decide)
  rw [i256Abs, if_neg hMin, BitVec.abs_eq, hMsb, if_neg Bool.false_ne_true]

theorem zero_slt (hPos : 0 < x.toNat) : (0 : I256).slt x = true := by
  have hZero : (0 : I256).toInt = 0 := rfl
  rw [BitVec.slt_iff_toInt_lt, toInt_small hx, hZero]
  exact_mod_cast hPos

theorem i256Sub_small (build : Build) (hy : y ≤ x) : i256Sub build x y = some (x - y) := by
  have hy : y.toNat ≤ x.toNat := hy
  have hNone : ¬ (build = .debug ∧ BitVec.ssubOverflow x y = true) := by
    rintro ⟨_, h⟩
    simp only [BitVec.ssubOverflow, Bool.or_eq_true, decide_eq_true_eq, toInt_small hx,
      toInt_small (hy.trans_lt hx)] at h
    omega
  rw [i256Sub, if_neg hNone]

end Signed

/-! ## The step -/

section Step

variable {build : Build} {amountRemaining : I256} {feePips : U32} {zeroForOne : Bool}
  (hRemaining : amountRemaining.toNat < 2 ^ 255) (hPositive : 0 < amountRemaining.toNat)
  (hFee : feePips.toNat < 1000000)

section
include hFee

variable (build)

theorem feeComplement_eq :
    ∃ complement, feeComplement build feePips = some complement ∧
      (complement.setWidth 256).toNat = 1000000 - feePips.toNat := by
  have hMillion : (1000000 : U32).toNat = 1000000 := rfl
  have hNone : ¬ (build = .debug ∧ 1000000 < feePips) := by
    rintro ⟨_, h⟩
    rw [BitVec.lt_def, hMillion] at h
    omega
  refine ⟨1000000 - feePips, by rw [feeComplement, if_neg hNone], ?_⟩
  rw [BitVec.toNat_setWidth_of_le (by decide), BitVec.toNat_sub_of_le, hMillion]
  rw [BitVec.le_def, hMillion]
  omega

omit hFee in
theorem lessFee_le (remaining fee : ℕ) :
    remaining * (1000000 - fee) / 1000000 ≤ remaining := by
  apply Nat.div_le_of_le_mul
  rw [Nat.mul_comm 1000000]
  exact Nat.mul_le_mul_left _ (Nat.sub_le _ _)

include hRemaining

theorem amountRemainingLessFee_eq :
    ∃ lessFee, amountRemainingLessFee build amountRemaining feePips = some lessFee ∧
      lessFee.toNat = amountRemaining.toNat * (1000000 - feePips.toNat) / 1000000 := by
  obtain ⟨complement, hComplement, hValue⟩ := feeComplement_eq build hFee
  have hMillion : (1000000 : U256).toNat = 1000000 := rfl
  refine ⟨(mulDiv amountRemaining (complement.setWidth 256) 1000000).getD 0, ?_, ?_⟩
  · rw [amountRemainingLessFee, i256Abs_small hRemaining, hComplement]
    rfl
  · rw [mulDiv_toNat, hValue, hMillion, min_eq_left]
    exact (lessFee_le _ _).trans (Nat.le_sub_one_of_lt amountRemaining.isLt)

end

/-- A first half that fixes the price: at the target, paid for, or short of it. -/
theorem priceByInput_spec {current target liquidity : U256}
    (hSide : Toward zeroForOne current target)
    (hLiquidity : zeroForOne = true → liquidity.toNat < 2 ^ 128)
    (hRemaining : amountRemaining.toNat < 2 ^ 255) (hFee : feePips.toNat < 1000000)
    {priced : SwapStepResult}
    (h : priceByInput build current target liquidity amountRemaining feePips zeroForOne =
      some priced) :
    Toward zeroForOne current priced.sqrtPriceNextX96 ∧
      Toward zeroForOne priced.sqrtPriceNextX96 target ∧
      (priced.sqrtPriceNextX96 = target → priced.amountIn.toNat ≤
        amountRemaining.toNat * (1000000 - feePips.toNat) / 1000000) := by
  obtain ⟨lessFee, hLessFee, hValue⟩ :=
    amountRemainingLessFee_eq build hRemaining hFee
  rw [priceByInput, hLessFee, Option.bind_eq_bind, Option.bind_some] at h
  by_cases hReach : inputBetween current target liquidity zeroForOne ≤ lessFee
  · rw [if_pos hReach] at h
    obtain rfl := Option.some.inj h
    exact ⟨hSide, .refl _ _, fun _ => hValue ▸ BitVec.le_def.mp hReach⟩
  · rw [if_neg hReach] at h
    obtain ⟨next, hNext, h⟩ := Option.bind_eq_some_iff.mp h
    obtain rfl := Option.some.inj h
    have hShort := BitVec.not_le.mp hReach
    have hAmount : lessFee.toNat < 2 ^ 255 := by
      rw [hValue]
      exact (lessFee_le _ _).trans_lt hRemaining
    cases zeroForOne with
    | true =>
        obtain ⟨hLow, hHigh⟩ :=
          nextPrice_down (hLiquidity rfl) hAmount hSide hShort hNext
        refine ⟨hHigh, BitVec.le_of_lt hLow, fun hEq => ?_⟩
        exact absurd (hEq ▸ hLow) (BitVec.lt_irrefl _)
    | false =>
        obtain ⟨hLow, hHigh⟩ := nextPrice_up hSide hShort hNext
        refine ⟨hLow, BitVec.le_of_lt hHigh, fun hEq => ?_⟩
        exact absurd (hEq ▸ hHigh) (BitVec.lt_irrefl _)

/-- The fee on an input that fits the amount less its fee. -/
theorem fee_fits {amountIn remaining fee : ℕ} (hFee : fee < 1000000)
    (h : amountIn ≤ remaining * (1000000 - fee) / 1000000) :
    amountIn + (amountIn * fee ⌈/⌉ (1000000 - fee)) ≤ remaining := by
  have hPaid : amountIn * 1000000 ≤ remaining * (1000000 - fee) :=
    (Nat.le_div_iff_mul_le (by norm_num)).mp h
  have hLe : amountIn ≤ remaining := h.trans (lessFee_le _ _)
  have hPos : 0 < 1000000 - fee := by omega
  have hCeil : amountIn * fee ⌈/⌉ (1000000 - fee) ≤ remaining - amountIn := by
    rw [ceilDiv_le_iff_le_mul hPos, Nat.mul_sub, Nat.le_sub_iff_add_le]
    · calc amountIn * fee + (1000000 - fee) * amountIn
          = amountIn * (fee + (1000000 - fee)) := by ring
        _ = amountIn * 1000000 := by rw [Nat.add_sub_cancel' hFee.le]
        _ ≤ (1000000 - fee) * remaining := by rw [Nat.mul_comm _ remaining]; exact hPaid
    · exact Nat.mul_le_mul_left _ hLe
  omega

section Settle

variable {current target liquidity : U256} {result : SwapStepResult} {feeAmount : U256}
  {rem : I256} (hRemaining : amountRemaining.toNat < 2 ^ 255)
include hRemaining

omit hRemaining in
/-- The fee of a step that reaches the target fits what the input leaves. -/
theorem stepFee_reached (hFee : feePips.toNat < 1000000)
    (hReach : result.sqrtPriceNextX96 = target)
    (hPaid : result.amountIn.toNat ≤
      amountRemaining.toNat * (1000000 - feePips.toNat) / 1000000) :
    ∃ feeAmount, stepFee build target amountRemaining feePips true result = some feeAmount ∧
      result.amountIn.toNat + feeAmount.toNat ≤ amountRemaining.toNat := by
  obtain ⟨complement, hComplement, hValue⟩ := feeComplement_eq build hFee
  have hWide : (feePips.setWidth 256).toNat = feePips.toNat :=
    BitVec.toNat_setWidth_of_le (by decide)
  have hNot : ¬ (true = true ∧ result.sqrtPriceNextX96 ≠ target) := fun h => h.2 hReach
  refine ⟨(mulDivRoundUp result.amountIn (feePips.setWidth 256)
    (complement.setWidth 256)).getD 0, ?_, ?_⟩
  · rw [stepFee, if_neg hNot, hComplement]
    rfl
  · have hFits := fee_fits hFee hPaid
    rw [mulDivRoundUp_toNat, hWide, hValue]
    exact (Nat.add_le_add_left (min_le_left _ _) _).trans hFits

/-- A step that misses the target takes the rest as its fee. -/
theorem stepFee_missed (hMiss : result.sqrtPriceNextX96 ≠ target) :
    stepFee build target amountRemaining feePips true result =
      some (amountRemaining - result.amountIn) := by
  rw [stepFee, if_pos ⟨rfl, hMiss⟩, i256Abs_small hRemaining]
  rfl

/-- What is left after an input and a fee that fit. -/
theorem stepRemainder_input
    (hFits : result.amountIn.toNat + result.feeAmount.toNat ≤ amountRemaining.toNat) :
    ∃ rem, stepRemainder build amountRemaining true result = some rem ∧
      rem.toNat = amountRemaining.toNat - (result.amountIn.toNat + result.feeAmount.toNat) := by
  have hSum : (result.amountIn + result.feeAmount).toNat =
      result.amountIn.toNat + result.feeAmount.toNat := BitVec.toNat_add_of_lt (by omega)
  have hLe : result.amountIn + result.feeAmount ≤ amountRemaining := by
    rw [BitVec.le_def, hSum]
    exact hFits
  have hSub := i256Sub_small hRemaining build hLe
  exact ⟨_, hSub, by rw [BitVec.toNat_sub_of_le hLe, hSum]⟩

/-- The remainder of a step that reaches the target. -/
theorem settle_reached (hFee : feePips.toNat < 1000000)
    (hReach : result.sqrtPriceNextX96 = target)
    (hPaid : result.amountIn.toNat ≤
      amountRemaining.toNat * (1000000 - feePips.toNat) / 1000000)
    (hStepFee : stepFee build target amountRemaining feePips true result = some feeAmount)
    (hRem : stepRemainder build amountRemaining true { result with feeAmount } = some rem) :
    rem ≤ amountRemaining := by
  have hReached : ∃ fee, stepFee build target amountRemaining feePips true result = some fee ∧
      result.amountIn.toNat + fee.toNat ≤ amountRemaining.toNat :=
    stepFee_reached hFee hReach hPaid
  obtain ⟨fee, hSome, hFits⟩ := hReached
  rw [hStepFee] at hSome
  obtain rfl := Option.some.inj hSome
  have hInput : ∃ rest, stepRemainder build amountRemaining true { result with feeAmount } =
      some rest ∧ rest.toNat = amountRemaining.toNat - (result.amountIn.toNat + feeAmount.toNat) :=
    stepRemainder_input hRemaining hFits
  obtain ⟨rest, hRest, hValue⟩ := hInput
  rw [hRem] at hRest
  obtain rfl := Option.some.inj hRest
  rw [BitVec.le_def, hValue]
  exact Nat.sub_le _ _

/-- Nothing is left by a step that misses the target. -/
theorem settle_missed (hMiss : result.sqrtPriceNextX96 ≠ target)
    (hStepFee : stepFee build target amountRemaining feePips true result = some feeAmount)
    (hRem : stepRemainder build amountRemaining true { result with feeAmount } = some rem) :
    rem = 0 := by
  rw [stepFee_missed hRemaining hMiss] at hStepFee
  have hTotal : result.amountIn + feeAmount = amountRemaining := by
    rw [← Option.some.inj hStepFee, BitVec.add_comm, BitVec.sub_add_cancel]
  have hSub : i256Sub build amountRemaining (result.amountIn + feeAmount) = some rem := hRem
  rw [hTotal, i256Sub_small hRemaining build (BitVec.le_refl _), BitVec.sub_self] at hSub
  exact (Option.some.inj hSub).symm

end Settle

/-- What a step with a positive remainder leaves. -/
structure StepSpec (zeroForOne : Bool) (current target : U256) (amountRemaining : I256)
    (next : U256) (rem : I256) : Prop where
  forward : Toward zeroForOne current next
  within : Toward zeroForOne next target
  rem_le : rem ≤ amountRemaining
  missed : next ≠ target → rem = 0

/-- **The exact-input step.** -/
theorem computeSwapStep_spec {current target liquidity : U256}
    (hSide : Toward zeroForOne current target)
    (hLiquidity : zeroForOne = true → liquidity.toNat < 2 ^ 128)
    (hRemaining : amountRemaining.toNat < 2 ^ 255) (hPositive : 0 < amountRemaining.toNat)
    (hFee : feePips.toNat < 1000000) {result : SwapStepResult} {rem : I256}
    (h : computeSwapStep build current target liquidity amountRemaining feePips zeroForOne =
      some (result, rem)) :
    StepSpec zeroForOne current target amountRemaining result.sqrtPriceNextX96 rem := by
  have hExact := zero_slt hRemaining hPositive
  simp only [computeSwapStep, hExact, if_true, Option.bind_eq_bind] at h
  obtain ⟨priced, hPriced, h⟩ := Option.bind_eq_some_iff.mp h
  obtain ⟨hForward, hWithin, hPaid⟩ :=
    priceByInput_spec hSide hLiquidity hRemaining hFee hPriced
  obtain ⟨feeAmount, hStepFee, h⟩ := Option.bind_eq_some_iff.mp h
  obtain ⟨rest, hRest, h⟩ := Option.bind_eq_some_iff.mp h
  obtain ⟨rfl, rfl⟩ := Prod.mk.inj (Option.some.inj h)
  have hPrice : (stepAmounts current target liquidity zeroForOne true
      priced).sqrtPriceNextX96 = priced.sqrtPriceNextX96 := rfl
  have hKept : priced.sqrtPriceNextX96 = target →
      (stepAmounts current target liquidity zeroForOne true priced).amountIn =
        priced.amountIn := by
    intro hReach
    simp [stepAmounts, hReach]
  show StepSpec zeroForOne current target amountRemaining
    (stepAmounts current target liquidity zeroForOne true priced).sqrtPriceNextX96 rest
  generalize stepAmounts current target liquidity zeroForOne true priced = paid at *
  rw [hPrice]
  by_cases hReach : priced.sqrtPriceNextX96 = target
  · have hFits := hPaid hReach
    rw [← hKept hReach] at hFits
    have hLe := settle_reached hRemaining hFee (hPrice.trans hReach) hFits hStepFee hRest
    exact ⟨hForward, hWithin, hLe, fun h => absurd hReach h⟩
  · have hMiss : paid.sqrtPriceNextX96 ≠ target := hPrice ▸ hReach
    have hNone := settle_missed hRemaining hMiss hStepFee hRest
    refine ⟨hForward, hWithin, ?_, fun _ => hNone⟩
    rw [hNone]
    exact Nat.zero_le _

end Step

end SovereignShadow.Ports.SwapStep
