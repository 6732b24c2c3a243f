import SovereignShadow.Ports.TokenAmounts

/-!
# Value through an exact-output step

What an exact-output step hands out.  Downward the next price is rounded back toward the
current one, and the output never passes the amount asked for.  Upward the next price is the
least whole price that pays at least that amount, and nothing cuts the output back to it:
where one unit of price is worth more than the output still missing, the step hands out too
much and the remainder turns positive.

## Main results

* `paidUp_lt_iff` — the next price upward is the least one that pays the amount.
* `output_down_le` — the output downward.
* `output_within_iff` — when a step hands out no more than was asked for.
-/

namespace SovereignShadow.Ports.ExactOutputStep

open SovereignShadow.Verified.Checked (Build)
open SovereignShadow.Verified.RoundedDivision
open SovereignShadow.Ports.Models
open SovereignShadow.Ports.V3Math
open SovereignShadow.Ports.FullWidth
open SovereignShadow.Ports.OptimalInput (toNat_pos_iff)
open SovereignShadow.Ports.SwapStep
open SovereignShadow.Ports.TokenAmounts

/-! ## The output of a move up -/

/-- The output for moving up from `price` to `next`, of liquidity `numerator / 2 ^ 96`. -/
def paidUp (numerator price next : ℕ) : ℕ := numerator * (next - price) / (next * price)

section Paid

variable {numerator price next amount : ℕ}

theorem paidUp_le (hPrice : 0 < price) (hNext : price ≤ next) :
    paidUp numerator price next ≤ numerator := by
  have hPos : 0 < next * price := Nat.mul_pos (hPrice.trans_le hNext) hPrice
  apply Nat.div_le_of_le_mul
  calc numerator * (next - price)
      ≤ numerator * (next * price) :=
        Nat.mul_le_mul_left _ ((Nat.sub_le _ _).trans (Nat.le_mul_of_pos_right _ hPrice))
    _ = next * price * numerator := Nat.mul_comm _ _

/-- The exact price that pays the amount, rounded up. -/
def nextUp (numerator price amount : ℕ) : ℕ := numerator * price ⌈/⌉ (numerator - amount * price)

/-- **The rounded price is the least one that pays at least the amount.** -/
theorem paidUp_lt_iff (hPrice : 0 < price) (hNext : price ≤ next)
    (hPart : amount * price < numerator) :
    paidUp numerator price next < amount ↔ next < nextUp numerator price amount := by
  have hPos : 0 < next * price := Nat.mul_pos (hPrice.trans_le hNext) hPrice
  have hMove : numerator * (next - price) + numerator * price = numerator * next := by
    rw [← Nat.mul_add, Nat.sub_add_cancel hNext]
  have hRest : (numerator - amount * price) * next + amount * (next * price) =
      numerator * next := by
    calc (numerator - amount * price) * next + amount * (next * price)
        = (numerator - amount * price + amount * price) * next := by ring
      _ = numerator * next := by rw [Nat.sub_add_cancel hPart.le]
  rw [paidUp, nextUp, Nat.div_lt_iff_lt_mul hPos, lt_ceilDiv_iff (Nat.sub_pos_of_lt hPart)]
  omega

theorem le_nextUp (hPart : amount * price < numerator) : price ≤ nextUp numerator price amount := by
  have hRest : 0 < numerator - amount * price := Nat.sub_pos_of_lt hPart
  have hCeil : numerator * price ≤ (numerator - amount * price) * nextUp numerator price amount :=
    (ceilDiv_le_iff_le_mul hRest).mp le_rfl
  apply Nat.le_of_mul_le_mul_left _ ((Nat.zero_le _).trans_lt hPart)
  exact hCeil.trans (Nat.mul_le_mul_right _ (Nat.sub_le _ _))

/-- An amount that a move can pay is less than the whole. -/
theorem part_lt (hShort : amount < paidUp numerator price next) : amount * price < numerator := by
  have hPaid : (amount + 1) * (next * price) ≤ numerator * (next - price) :=
    (Nat.mul_le_mul_right _ hShort).trans (Nat.div_mul_le_self _ _)
  have hPos : 0 < next * price := by
    by_contra hZero
    rw [paidUp, Nat.le_zero.mp (not_lt.mp hZero), Nat.div_zero] at hShort
    exact Nat.not_lt_zero _ hShort
  apply Nat.lt_of_mul_lt_mul_right (a := next)
  calc amount * price * next
      = amount * (next * price) := by ring
    _ < (amount + 1) * (next * price) := Nat.mul_lt_mul_of_pos_right (Nat.lt_succ_self _) hPos
    _ ≤ numerator * (next - price) := hPaid
    _ ≤ numerator * next := Nat.mul_le_mul_left _ (Nat.sub_le _ _)

theorem nextUp_le {target : ℕ} (hPrice : 0 < price) (hSide : price ≤ target)
    (hShort : amount < paidUp numerator price target) : nextUp numerator price amount ≤ target := by
  by_contra hPast
  have hLess := (paidUp_lt_iff hPrice hSide (part_lt hShort)).mpr (not_le.mp hPast)
  exact Nat.lt_asymm hShort hLess

theorem paidUp_self (numerator price : ℕ) : paidUp numerator price price = 0 := by
  rw [paidUp, Nat.sub_self, Nat.mul_zero, Nat.zero_div]

/-- A higher price pays more. -/
theorem paidUp_mono {p q : ℕ} (hPrice : 0 < price) (hLow : price ≤ p) (hOrder : p ≤ q) :
    paidUp numerator price p ≤ paidUp numerator price q := by
  have hPos : 0 < p := hPrice.trans_le hLow
  have hTop : 0 < q * price := Nat.mul_pos (hPos.trans_le hOrder) hPrice
  have hCross : (p - price) * q ≤ (q - price) * p := by
    rw [Nat.sub_mul, Nat.sub_mul, Nat.mul_comm q p]
    exact Nat.sub_le_sub_left (Nat.mul_le_mul_left _ hOrder) _
  have hFloor : paidUp numerator price p * (p * price) ≤ numerator * (p - price) :=
    Nat.div_mul_le_self _ _
  generalize paidUp numerator price p = paid at hFloor ⊢
  rw [paidUp, Nat.le_div_iff_mul_le hTop]
  apply Nat.le_of_mul_le_mul_right _ hPos
  calc paid * (q * price) * p
      = paid * (p * price) * q := by ring
    _ ≤ numerator * (p - price) * q := Nat.mul_le_mul_right _ hFloor
    _ = numerator * ((p - price) * q) := by ring
    _ ≤ numerator * ((q - price) * p) := Nat.mul_le_mul_left _ hCross
    _ = numerator * (q - price) * p := by ring

/-! ## Steps over the amount -/

/-- Some unit of price between `price` and `target` steps over the amount: the lower of its
two ends pays less, the upper one more. -/
def StepsOver (numerator price target amount : ℕ) : Prop :=
  ∃ p, price ≤ p ∧ p < target ∧ paidUp numerator price p < amount ∧
    amount < paidUp numerator price (p + 1)

/-- No unit of price does where the whole move pays no more than the amount. -/
theorem not_stepsOver_of_reached {target : ℕ} (hPrice : 0 < price)
    (hReach : paidUp numerator price target ≤ amount) :
    ¬ StepsOver numerator price target amount := by
  intro hOver
  obtain ⟨p, hLow, hHigh, _, hMore⟩ := hOver
  have hLe : paidUp numerator price (p + 1) ≤ paidUp numerator price target :=
    paidUp_mono hPrice (hLow.trans (Nat.le_succ p)) hHigh
  exact absurd hMore (not_lt.mpr (hLe.trans hReach))

/-- Short of the target, the rounded price pays too much exactly when the unit of price below
it steps over the amount. -/
theorem lt_paid_nextUp_iff {target : ℕ} (hPrice : 0 < price) (hSide : price ≤ target)
    (hShort : amount < paidUp numerator price target) :
    amount < paidUp numerator price (nextUp numerator price amount) ↔
      StepsOver numerator price target amount := by
  have hPart := part_lt hShort
  have hWithin := nextUp_le hPrice hSide hShort
  have hAbove := le_nextUp hPart
  have hLeast : ∀ p, price ≤ p →
      (paidUp numerator price p < amount ↔ p < nextUp numerator price amount) :=
    fun p hLow => paidUp_lt_iff hPrice hLow hPart
  generalize nextUp numerator price amount = next at *
  constructor
  · intro hMore
    have hMoved : price ≠ next := by
      intro hStays
      rw [← hStays, paidUp_self] at hMore
      exact Nat.not_lt_zero _ hMore
    have hLow : price ≤ next - 1 := by omega
    have hSucc : next - 1 + 1 = next := by omega
    refine ⟨next - 1, hLow, by omega, (hLeast _ hLow).mpr (by omega), ?_⟩
    rw [hSucc]
    exact hMore
  · intro hOver
    obtain ⟨p, hLow, _, hLess, hMore⟩ := hOver
    have hLast : p + 1 ≤ next := (hLeast p hLow).mp hLess
    exact hMore.trans_le (paidUp_mono hPrice (hLow.trans (Nat.le_succ p)) hLast)

end Paid

/-! ## The next price -/

section Prices

variable {current next target liquidity amount : U256}

theorem outputBetween_up_toNat (hCurrent : 0 < current.toNat) (hSide : current ≤ next)
    (hLiquidity : liquidity.toNat < 2 ^ 128) :
    (outputBetween current next liquidity false).toNat =
      paidUp (liquidity.toNat * 2 ^ 96) current.toNat next.toNat := by
  have hLe : current.toNat ≤ next.toNat := hSide
  have hWide : liquidity.toNat < 2 ^ 160 := hLiquidity.trans (by norm_num)
  rw [outputBetween, if_neg Bool.false_ne_true,
    amount0_toNat hCurrent hWide (hCurrent.trans_le hLe), max_eq_right hLe, min_eq_left hLe,
    roundedDiv_down, paidUp, Nat.mul_comm current.toNat]

theorem outputBetween_down_toNat (hCurrent : current.toNat < 2 ^ 160) (hSide : next ≤ current)
    (hLiquidity : liquidity.toNat < 2 ^ 128) :
    (outputBetween current next liquidity true).toNat =
      liquidity.toNat * (current.toNat - next.toNat) / 2 ^ 96 := by
  have hLe : next.toNat ≤ current.toNat := hSide
  rw [outputBetween, if_pos rfl, amount1_toNat (hLe.trans_lt hCurrent) hCurrent hLiquidity,
    max_eq_right hLe, min_eq_left hLe, roundedDiv_down]

/-- Neither output reaches the sign bit. -/
theorem outputBetween_lt {zeroForOne : Bool} (hCurrent : 0 < current.toNat)
    (hRange : current.toNat < 2 ^ 160) (hSide : Toward zeroForOne current next)
    (hLiquidity : liquidity.toNat < 2 ^ 128) :
    (outputBetween current next liquidity zeroForOne).toNat < 2 ^ 255 := by
  cases zeroForOne with
  | true =>
      rw [outputBetween_down_toNat hRange hSide hLiquidity]
      have hGap : current.toNat - next.toNat ≤ 2 ^ 160 := (Nat.sub_le _ _).trans hRange.le
      apply Nat.div_lt_of_lt_mul
      exact (Nat.mul_le_mul hLiquidity.le hGap).trans_lt (by norm_num)
  | false =>
      rw [outputBetween_up_toNat hCurrent hSide hLiquidity]
      apply (paidUp_le hCurrent hSide).trans_lt
      exact (Nat.mul_lt_mul_of_pos_right hLiquidity (by norm_num)).trans (by norm_num)

/-- **Down: the price moves back far enough.**  The shift may drop high bits; that only keeps
the price closer. -/
theorem output_down_le (hCurrent : current.toNat < 2 ^ 160) (hSide : target ≤ current)
    (hLiquidity : liquidity.toNat < 2 ^ 128)
    (hShort : amount < outputBetween current target liquidity true)
    (h : getNextSqrtPriceFromOutput current liquidity amount true = some next) :
    next ≤ current ∧ (outputBetween current next liquidity true).toNat ≤ amount.toNat := by
  have h : (u256Div (amount <<< 96) liquidity).bind (fun quotient => some (current - quotient)) =
      some next := h
  obtain ⟨quotient, hDiv, hNext⟩ := Option.bind_eq_some_iff.mp h
  have hPaid := shiftedQuotient_le hDiv
  have hAsked : amount.toNat * 2 ^ 96 ≤ liquidity.toNat * (current.toNat - target.toNat) := by
    rw [BitVec.lt_def, outputBetween_down_toNat hCurrent hSide hLiquidity] at hShort
    exact (Nat.le_div_iff_mul_le (by norm_num)).mp hShort.le
  have hFits : quotient.toNat ≤ current.toNat := by
    have hPositive := toNat_pos_iff.mpr (u256Div_eq_some hDiv).1
    have hGap := Nat.le_of_mul_le_mul_left (hPaid.trans hAsked) hPositive
    exact hGap.trans (Nat.sub_le _ _)
  have hValue : next.toNat = current.toNat - quotient.toNat := by
    rw [← Option.some.inj hNext, BitVec.toNat_sub_of_le hFits]
  have hBelow : next ≤ current := by
    rw [BitVec.le_def, hValue]
    exact Nat.sub_le _ _
  refine ⟨hBelow, ?_⟩
  rw [outputBetween_down_toNat hCurrent hBelow hLiquidity, hValue, Nat.sub_sub_self hFits]
  exact Nat.div_le_of_le_mul (hPaid.trans_eq (Nat.mul_comm _ _))

/-- **Up: the exact price, rounded up**, with nothing wrapped or saturated. -/
theorem nextPrice_up_toNat (hCurrent : 0 < current.toNat) (hSide : current ≤ target)
    (hLiquidity : liquidity.toNat < 2 ^ 128)
    (hShort : amount.toNat < paidUp (liquidity.toNat * 2 ^ 96) current.toNat target.toNat)
    (h : getNextSqrtPriceFromOutput current liquidity amount false = some next) :
    next.toNat = nextUp (liquidity.toNat * 2 ^ 96) current.toNat amount.toNat := by
  have hPart := part_lt hShort
  have hShift := shifted_toNat hLiquidity
  have hWhole : liquidity.toNat * 2 ^ 96 < 2 ^ 256 := hShift ▸ (liquidity <<< 96).isLt
  have hProduct : (amount * current).toNat = amount.toNat * current.toNat := by
    rw [BitVec.toNat_mul, Nat.mod_eq_of_lt (hPart.trans hWhole)]
  have hRest : (liquidity <<< 96 - amount * current).toNat =
      liquidity.toNat * 2 ^ 96 - amount.toNat * current.toNat := by
    rw [BitVec.toNat_sub_of_le, hShift, hProduct]
    rw [BitVec.le_def, hShift, hProduct]
    exact hPart.le
  have hWord : nextUp (liquidity.toNat * 2 ^ 96) current.toNat amount.toNat ≤ maxWord :=
    (nextUp_le hCurrent hSide hShort).trans (Nat.le_sub_one_of_lt target.isLt)
  have hNext : (mulDivRoundUp (liquidity <<< 96) current
      (liquidity <<< 96 - amount * current)).getD 0 = next := Option.some.inj h
  rw [← hNext, mulDivRoundUp_toNat, hShift, hRest]
  exact min_eq_left hWord

end Prices

/-! ## The step -/

/-- The arguments of an exact-output step: prices in range, the target on the trade's side,
some liquidity, and something to hand out. -/
structure Arguments (current target liquidity : U256) (amountRemaining : I256)
    (zeroForOne : Bool) : Prop where
  current_pos : 0 < current.toNat
  current_lt : current.toNat < 2 ^ 160
  side : Toward zeroForOne current target
  liquidity_lt : liquidity.toNat < 2 ^ 128
  remaining_neg : amountRemaining.toInt < 0

/-- The amounts of the second half belong to the price of the first. -/
theorem stepAmounts_amountOut {current target liquidity : U256} {zeroForOne : Bool}
    {priced : SwapStepResult}
    (h : priced.amountOut = outputBetween current target liquidity zeroForOne) :
    (stepAmounts current target liquidity zeroForOne false priced).amountOut =
      outputBetween current priced.sqrtPriceNextX96 liquidity zeroForOne := by
  by_cases hReach : priced.sqrtPriceNextX96 = target
  · simp [stepAmounts, hReach, h]
  · simp [stepAmounts, hReach]

theorem i256Abs_toNat {build : Build} {x : I256} {magnitude : U256} (hNegative : x.toInt < 0)
    (h : i256Abs build x = some magnitude) : magnitude.toNat = x.toInt.natAbs := by
  have hMsb : x.msb = true :=
    BitVec.msb_eq_true_iff_two_mul_ge.mpr (BitVec.toInt_neg_iff.mp hNegative)
  have hInt : x.toInt = x.toNat - 2 ^ 256 := by
    rw [BitVec.toInt_eq_msb_cond, if_pos hMsb]
    norm_num
  have hWord := x.isLt
  unfold i256Abs at h
  split at h
  · exact absurd h (Option.some_ne_none _).symm
  · rw [← Option.some.inj h, BitVec.toNat_abs, if_pos hMsb, hInt]
    omega

/-- An output never takes a negative remainder past the largest number. -/
theorem i256Add_toInt {build : Build} {x y sum : I256} (hNegative : x.toInt < 0)
    (hSmall : y.toNat < 2 ^ 255) (h : i256Add build x y = some sum) :
    sum.toInt = x.toInt + y.toNat := by
  have hLow : -2 ^ 255 ≤ x.toInt := BitVec.le_toInt x
  have hNone : ¬ BitVec.saddOverflow x y = true := by
    simp only [BitVec.saddOverflow, Bool.or_eq_true, decide_eq_true_eq, toInt_small hSmall]
    omega
  rw [i256Add, if_neg fun hOver => hNone hOver.2] at h
  rw [← Option.some.inj h, BitVec.toInt_add_of_not_saddOverflow hNone, toInt_small hSmall]

section Step

variable {build : Build} {current target liquidity : U256} {amountRemaining : I256}
  {feePips : U32} {zeroForOne : Bool}
  (hArgs : Arguments current target liquidity amountRemaining zeroForOne)
include hArgs

/-- What the first half settles: the price, and whether moving to it pays too much. -/
theorem priceByOutput_spec {priced : SwapStepResult}
    (h : priceByOutput build current target liquidity amountRemaining zeroForOne = some priced) :
    priced.amountOut = outputBetween current target liquidity zeroForOne ∧
      Toward zeroForOne current priced.sqrtPriceNextX96 ∧
      ((outputBetween current priced.sqrtPriceNextX96 liquidity zeroForOne).toNat ≤
          amountRemaining.toInt.natAbs ↔
        (zeroForOne = true ∨ ¬ StepsOver (liquidity.toNat * 2 ^ 96) current.toNat target.toNat
          amountRemaining.toInt.natAbs)) := by
  obtain ⟨magnitude, hMagnitude, h⟩ := Option.bind_eq_some_iff.mp h
  have hValue := i256Abs_toNat hArgs.remaining_neg hMagnitude
  have hSide := hArgs.side
  rw [← hValue]
  by_cases hReach : outputBetween current target liquidity zeroForOne ≤ magnitude
  · rw [if_pos hReach] at h
    obtain rfl := Option.some.inj h
    refine ⟨rfl, hSide, iff_of_true hReach ?_⟩
    cases zeroForOne with
    | true => exact Or.inl rfl
    | false =>
        rw [BitVec.le_def, outputBetween_up_toNat hArgs.current_pos hSide hArgs.liquidity_lt]
          at hReach
        exact Or.inr (not_stepsOver_of_reached hArgs.current_pos hReach)
  · rw [if_neg hReach] at h
    obtain ⟨next, hNext, h⟩ := Option.bind_eq_some_iff.mp h
    obtain rfl := Option.some.inj h
    have hShort := BitVec.not_le.mp hReach
    cases zeroForOne with
    | true =>
        have hPaid := output_down_le hArgs.current_lt hSide hArgs.liquidity_lt hShort hNext
        exact ⟨rfl, hPaid.1, iff_of_true hPaid.2 (Or.inl rfl)⟩
    | false =>
        rw [BitVec.lt_def, outputBetween_up_toNat hArgs.current_pos hSide hArgs.liquidity_lt]
          at hShort
        have hPrice := nextPrice_up_toNat hArgs.current_pos hSide hArgs.liquidity_lt hShort hNext
        have hAbove : current ≤ next := by
          rw [BitVec.le_def, hPrice]
          exact le_nextUp (part_lt hShort)
        refine ⟨rfl, hAbove, ?_⟩
        rw [outputBetween_up_toNat hArgs.current_pos hAbove hArgs.liquidity_lt, hPrice,
          ← lt_paid_nextUp_iff hArgs.current_pos hSide hShort, not_lt]
        exact ⟨Or.inr, fun hCases => hCases.resolve_left Bool.false_ne_true⟩

/-- **When an exact-output step hands out no more than was asked for.** -/
theorem output_within_iff {result : SwapStepResult} {rem : I256}
    (h : computeSwapStep build current target liquidity amountRemaining feePips zeroForOne =
      some (result, rem)) :
    (result.amountOut.toNat ≤ amountRemaining.toInt.natAbs ∧ rem.toInt ≤ 0) ↔
      (zeroForOne = true ∨ ¬ StepsOver (liquidity.toNat * 2 ^ 96) current.toNat target.toNat
        amountRemaining.toInt.natAbs) := by
  have hExact : (0 : I256).slt amountRemaining = false := by
    have hZero : (0 : I256).toInt = 0 := rfl
    rw [Bool.eq_false_iff, ne_eq, BitVec.slt_iff_toInt_lt, hZero]
    exact not_lt.mpr hArgs.remaining_neg.le
  simp only [computeSwapStep, hExact, Bool.false_eq_true, if_false, Option.bind_eq_bind] at h
  obtain ⟨priced, hPriced, h⟩ := Option.bind_eq_some_iff.mp h
  obtain ⟨feeAmount, _, h⟩ := Option.bind_eq_some_iff.mp h
  obtain ⟨rest, hRest, h⟩ := Option.bind_eq_some_iff.mp h
  obtain ⟨rfl, rfl⟩ := Prod.mk.inj (Option.some.inj h)
  have hSpec := priceByOutput_spec hArgs hPriced
  have hOut := stepAmounts_amountOut hSpec.1
  have hSmall := outputBetween_lt hArgs.current_pos hArgs.current_lt hSpec.2.1
    hArgs.liquidity_lt
  rw [← hOut] at hSmall
  have hRemainder := i256Add_toInt hArgs.remaining_neg hSmall hRest
  have hNegative := hArgs.remaining_neg
  rw [hRemainder, ← hSpec.2.2, ← hOut]
  generalize (stepAmounts current target liquidity zeroForOne false priced).amountOut = paid at *
  show paid.toNat ≤ amountRemaining.toInt.natAbs ∧ amountRemaining.toInt + paid.toNat ≤ 0 ↔
    paid.toNat ≤ amountRemaining.toInt.natAbs
  omega

end Step

/-- A million asked for at a price of one, with the target out of reach. -/
theorem sampleStep :
    computeSwapStep .release 0x1000000000000000000000000 0x2000000000000000000000000
      1000000000000000000 (-1000000) 3000 false =
        some (⟨0x1000000000119799812dfd68e, 1000001, 1000000, 3010⟩, 0) := by decide +kernel

theorem output_within_iff_million :
    ((1000000 : U256).toNat ≤ (-1000000 : I256).toInt.natAbs ∧ (0 : I256).toInt ≤ 0) ↔
      (false = true ∨ ¬ StepsOver ((1000000000000000000 : U256).toNat * 2 ^ 96)
        (0x1000000000000000000000000 : U256).toNat (0x2000000000000000000000000 : U256).toNat
        (-1000000 : I256).toInt.natAbs) :=
  @output_within_iff .release 0x1000000000000000000000000 0x2000000000000000000000000
    1000000000000000000 (-1000000) 3000 false
    ⟨by decide, by decide, by decide, by decide, by decide⟩ _ _ sampleStep

/-- At a price of `2 ^ -64` one unit of price is worth 23 billion units of token 0. -/
theorem steepStep :
    computeSwapStep .release 0x10000000000000000 0x20000000000000000 100000000000000000000
      (-1) 3000 false = some (⟨0x10000000000000001, 1, 23283064365, 1⟩, 23283064364) := by
  decide +kernel

/-- One unit asked for there: the step hands out all of them, and the remainder flips. -/
theorem steepStep_overdelivers :
    ¬ ∀ result rem, computeSwapStep .release 0x10000000000000000 0x20000000000000000
        100000000000000000000 (-1) 3000 false = some (result, rem) →
      result.amountOut.toNat ≤ (-1 : I256).toInt.natAbs ∧ rem.toInt ≤ 0 := by
  intro hDelivers
  have hRun := (hDelivers _ _ steepStep).1
  exact absurd hRun (by decide)

end SovereignShadow.Ports.ExactOutputStep
