import SovereignShadow.Ports.SwapStep

/-!
# Exact token amounts

`get_amount0_delta` divides twice and rounds twice, `get_amount1_delta` once, each through a
512-bit product and a saturating narrowing.  Between prices and liquidities that a pool can
have, nothing saturates and no bit of a shift is lost, and the two roundings are one: both
amounts are the rational ones, rounded up or down as asked.

## Main results

* `amount0_toNat`, `amount1_toNat` — the amounts over the natural numbers.
* `tokenAmounts_rounded` — the amounts are the rounded rational ones.
-/

namespace SovereignShadow.Ports.TokenAmounts

open SovereignShadow.Verified.RoundedDivision
open SovereignShadow.Ports.Models
open SovereignShadow.Ports.MathEngine (toU512 u512ToU256Safe)
open SovereignShadow.Ports.OptimalInput (toU512_toNat toNat_pos_iff)
open SovereignShadow.Ports.V3Math
open SovereignShadow.Ports.FullWidth
open SovereignShadow.Ports.SwapStep

/-! ## What is narrowed -/

/-- The 512-bit quotient of `mul_div` or `mul_div_round_up`, before it is narrowed. -/
def wideQuotient (a b d : U256) (roundUp : Bool) : U512 :=
  if roundUp then (toU512 a * toU512 b + toU512 d - 1) / toU512 d
  else toU512 a * toU512 b / toU512 d

/-- `a / b`, rounded as asked. -/
def roundedDiv (roundUp : Bool) (a b : ℕ) : ℕ := if roundUp then a ⌈/⌉ b else a / b

@[simp] theorem roundedDiv_up (a b : ℕ) : roundedDiv true a b = a ⌈/⌉ b := if_pos rfl

@[simp] theorem roundedDiv_down (a b : ℕ) : roundedDiv false a b = a / b :=
  if_neg Bool.false_ne_true

theorem wideQuotient_toNat {d : U256} (hd : d ≠ 0) (a b : U256) (roundUp : Bool) :
    (wideQuotient a b d roundUp).toNat = roundedDiv roundUp (a.toNat * b.toNat) d.toNat := by
  cases roundUp with
  | true =>
      rw [wideQuotient, if_pos rfl, BitVec.toNat_udiv, roundUpSum_toNat hd, toU512_toNat,
        roundedDiv_up, Nat.ceilDiv_eq_add_pred_div]
  | false =>
      rw [wideQuotient, if_neg Bool.false_ne_true, BitVec.toNat_udiv, product_toNat,
        toU512_toNat, roundedDiv_down]

theorem roundedDiv_le (roundUp : Bool) {a b c : ℕ} (hb : 0 < b) (h : a ≤ b * c) :
    roundedDiv roundUp a b ≤ c := by
  cases roundUp with
  | true => exact (ceilDiv_le_iff_le_mul hb).mpr h
  | false => exact Nat.div_le_of_le_mul h

theorem roundedDiv_roundedDiv (roundUp : Bool) (a b c : ℕ) :
    roundedDiv roundUp (roundedDiv roundUp a b) c = roundedDiv roundUp a (b * c) := by
  cases roundUp with
  | true => exact ceilDiv_ceilDiv a b c
  | false => exact Nat.div_div_eq_div_mul a b c

theorem mulDivRounded_toNat (a b d : U256) (roundUp : Bool) :
    ((if roundUp then mulDivRoundUp a b d else mulDiv a b d).getD 0).toNat =
      min (roundedDiv roundUp (a.toNat * b.toNat) d.toNat) maxWord := by
  cases roundUp with
  | true => exact mulDivRoundUp_toNat a b d
  | false => exact mulDiv_toNat a b d

/-- The difference of the two prices never wraps. -/
theorem priceGap_toNat (a b : U256) :
    (u256Max a b - u256Min a b).toNat = max a.toNat b.toNat - min a.toNat b.toNat := by
  have hMax := u256Max_toNat a b
  have hMin := u256Min_toNat a b
  have hLe : u256Min a b ≤ u256Max a b := by
    rw [BitVec.le_def, hMin, hMax]
    exact min_le_max
  rw [BitVec.toNat_sub_of_le hLe, hMax, hMin]

/-! ## The amounts -/

/-- The product of the two prices, whichever is the larger. -/
theorem max_mul_min (a b : ℕ) : max a b * min a b = a * b := by
  rcases le_total a b with h | h
  · rw [max_eq_right h, min_eq_left h, Nat.mul_comm]
  · rw [max_eq_left h, min_eq_right h]

section Amounts

variable {a b liquidity : U256}

/-- The first division of `get_amount0_delta`. -/
def innerAmount (a b liquidity : U256) (roundUp : Bool) : U256 :=
  let numerator1 := liquidity <<< 96
  let numerator2 := u256Max a b - u256Min a b
  (if roundUp then mulDivRoundUp numerator1 numerator2 (u256Max a b)
    else mulDiv numerator1 numerator2 (u256Max a b)).getD 0

theorem getAmount0Delta_eq (a b liquidity : U256) (roundUp : Bool) :
    getAmount0Delta a b liquidity roundUp =
      (if roundUp then mulDivRoundUp (innerAmount a b liquidity roundUp) 1 (u256Min a b)
        else mulDiv (innerAmount a b liquidity roundUp) 1 (u256Min a b)).getD 0 := by
  cases roundUp with
  | true => simp only [getAmount0Delta, innerAmount, if_true]
  | false => simp only [getAmount0Delta, innerAmount, Bool.false_eq_true, if_false]

theorem getAmount1Delta_eq (a b liquidity : U256) (roundUp : Bool) :
    getAmount1Delta a b liquidity roundUp =
      (if roundUp then mulDivRoundUp liquidity (u256Max a b - u256Min a b) q96
        else mulDiv liquidity (u256Max a b - u256Min a b) q96).getD 0 := by
  cases roundUp with
  | true => simp only [getAmount1Delta, if_true]
  | false => simp only [getAmount1Delta, Bool.false_eq_true, if_false]

section

variable (ha : 0 < a.toNat) (hLiquidity : liquidity.toNat < 2 ^ 160)
include ha hLiquidity

theorem innerAmount_toNat (roundUp : Bool) :
    (innerAmount a b liquidity roundUp).toNat =
      roundedDiv roundUp (liquidity.toNat * 2 ^ 96 *
        (max a.toNat b.toNat - min a.toNat b.toNat)) (max a.toNat b.toNat) := by
  have hUpper : 0 < max a.toNat b.toNat := ha.trans_le (le_max_left _ _)
  have hShare : roundedDiv roundUp (liquidity.toNat * 2 ^ 96 *
      (max a.toNat b.toNat - min a.toNat b.toNat)) (max a.toNat b.toNat) ≤
        liquidity.toNat * 2 ^ 96 := by
    apply roundedDiv_le roundUp hUpper
    rw [Nat.mul_comm (max a.toNat b.toNat)]
    exact Nat.mul_le_mul_left _ (Nat.sub_le _ _)
  have hWord : liquidity.toNat * 2 ^ 96 ≤ maxWord := by
    unfold maxWord
    omega
  unfold innerAmount
  rw [mulDivRounded_toNat, shiftedLiquidity_toNat hLiquidity, priceGap_toNat, u256Max_toNat,
    min_eq_left (hShare.trans hWord)]

variable (hb : 0 < b.toNat)
include hb

/-- **Token 0**: the two roundings are one. -/
theorem amount0_toNat (roundUp : Bool) :
    (getAmount0Delta a b liquidity roundUp).toNat =
      roundedDiv roundUp (liquidity.toNat * 2 ^ 96 *
        (max a.toNat b.toNat - min a.toNat b.toNat)) (a.toNat * b.toNat) := by
  have hOne : (1 : U256).toNat = 1 := rfl
  have hLower : 0 < min a.toNat b.toNat := lt_min ha hb
  have hInner := innerAmount_toNat (b := b) ha hLiquidity roundUp
  have hLe := roundedDiv_le roundUp hLower
    (Nat.le_mul_of_pos_left (innerAmount a b liquidity roundUp).toNat hLower)
  have hWord := Nat.le_sub_one_of_lt (innerAmount a b liquidity roundUp).isLt
  rw [getAmount0Delta_eq, mulDivRounded_toNat, hOne, Nat.mul_one, u256Min_toNat,
    min_eq_left (hLe.trans hWord), hInner, roundedDiv_roundedDiv, max_mul_min]

end

/-- The quotient of `get_amount1_delta` fits a word. -/
theorem amount1_fits (ha : a.toNat < 2 ^ 160) (hb : b.toNat < 2 ^ 160)
    (hLiquidity : liquidity.toNat < 2 ^ 128) (roundUp : Bool) :
    roundedDiv roundUp (liquidity.toNat * (max a.toNat b.toNat - min a.toNat b.toNat))
      (2 ^ 96) ≤ maxWord := by
  have hGap : max a.toNat b.toNat - min a.toNat b.toNat ≤ 2 ^ 160 :=
    (Nat.sub_le _ _).trans (max_lt ha hb).le
  apply roundedDiv_le roundUp (by norm_num)
  calc liquidity.toNat * (max a.toNat b.toNat - min a.toNat b.toNat)
      ≤ 2 ^ 128 * 2 ^ 160 := Nat.mul_le_mul hLiquidity.le hGap
    _ ≤ 2 ^ 96 * maxWord := by norm_num

/-- **Token 1.** -/
theorem amount1_toNat (ha : a.toNat < 2 ^ 160) (hb : b.toNat < 2 ^ 160)
    (hLiquidity : liquidity.toNat < 2 ^ 128) (roundUp : Bool) :
    (getAmount1Delta a b liquidity roundUp).toNat =
      roundedDiv roundUp (liquidity.toNat * (max a.toNat b.toNat - min a.toNat b.toNat))
        (2 ^ 96) := by
  have hUnit : q96.toNat = 2 ^ 96 := rfl
  rw [getAmount1Delta_eq, mulDivRounded_toNat, priceGap_toNat, hUnit,
    min_eq_left (amount1_fits ha hb hLiquidity roundUp)]

end Amounts

/-! ## The rational amounts -/

/-- `L * 2^96 * |b - a| / (a * b)`. -/
def exactAmount0 (a b liquidity : ℕ) : ℚ := liquidity * 2 ^ 96 * |(b - a : ℚ)| / (a * b)

/-- `L * |b - a| / 2^96`. -/
def exactAmount1 (a b liquidity : ℕ) : ℚ := liquidity * |(b - a : ℚ)| / 2 ^ 96

/-- The amount that the rounding asks for. -/
def roundRat (roundUp : Bool) (x : ℚ) : ℕ := if roundUp then ⌈x⌉₊ else ⌊x⌋₊

theorem roundedDiv_eq_roundRat (roundUp : Bool) (a b : ℕ) :
    roundedDiv roundUp a b = roundRat roundUp ((a : ℚ) / b) := by
  cases roundUp with
  | true => exact (ceil_cast_div a b).symm
  | false => exact (Nat.floor_div_eq_div a b).symm

theorem cast_gap (a b : ℕ) : ((max a b - min a b : ℕ) : ℚ) = |(b - a : ℚ)| := by
  rcases le_total a b with h | h
  · have hCast : (a : ℚ) ≤ b := Nat.cast_le.mpr h
    rw [max_eq_right h, min_eq_left h, Nat.cast_sub h, abs_of_nonneg (sub_nonneg.mpr hCast)]
  · have hCast : (b : ℚ) ≤ a := Nat.cast_le.mpr h
    rw [max_eq_left h, min_eq_right h, Nat.cast_sub h, abs_of_nonpos (sub_nonpos.mpr hCast),
      neg_sub]

/-- In `get_amount0_delta` the shift drops no bit and neither quotient saturates. -/
structure Amount0Fits (a b liquidity : U256) (roundUp : Bool) : Prop where
  shift : (liquidity <<< 96).toNat = liquidity.toNat * 2 ^ 96
  inner : (wideQuotient (liquidity <<< 96) (u256Max a b - u256Min a b) (u256Max a b)
    roundUp).toNat ≤ maxWord
  outer : (wideQuotient (innerAmount a b liquidity roundUp) 1 (u256Min a b) roundUp).toNat ≤
    maxWord

/-- In `get_amount1_delta` the quotient does not saturate. -/
def Amount1Fits (a b liquidity : U256) (roundUp : Bool) : Prop :=
  (wideQuotient liquidity (u256Max a b - u256Min a b) q96 roundUp).toNat ≤ maxWord

section Rounded

variable {a b liquidity : U256}

theorem amount0Fits (ha : 0 < a.toNat) (hb : 0 < b.toNat)
    (hLiquidity : liquidity.toNat < 2 ^ 160) (roundUp : Bool) :
    Amount0Fits a b liquidity roundUp := by
  have hLower : 0 < (u256Min a b).toNat := by
    rw [u256Min_toNat]
    exact lt_min ha hb
  have hUpper : 0 < (u256Max a b).toNat := by
    rw [u256Max_toNat]
    exact ha.trans_le (le_max_left _ _)
  have hShift := shiftedLiquidity_toNat hLiquidity
  have hOne : (1 : U256).toNat = 1 := rfl
  refine ⟨hShift, ?_, ?_⟩
  · rw [wideQuotient_toNat (toNat_pos_iff.mp hUpper), hShift, priceGap_toNat, u256Max_toNat,
      ← innerAmount_toNat ha hLiquidity roundUp]
    exact Nat.le_sub_one_of_lt (innerAmount a b liquidity roundUp).isLt
  · rw [wideQuotient_toNat (toNat_pos_iff.mp hLower), hOne, Nat.mul_one]
    apply (roundedDiv_le roundUp hLower (Nat.le_mul_of_pos_left _ hLower)).trans
    exact Nat.le_sub_one_of_lt (innerAmount a b liquidity roundUp).isLt

/-- **The amounts are exactly rounded**, with nothing saturated or dropped on the way. -/
theorem tokenAmounts_rounded (ha : 0 < a.toNat ∧ a.toNat < 2 ^ 160)
    (hb : 0 < b.toNat ∧ b.toNat < 2 ^ 160) (hLiquidity : liquidity.toNat < 2 ^ 160)
    (roundUp : Bool) :
    Amount0Fits a b liquidity roundUp ∧
      (getAmount0Delta a b liquidity roundUp).toNat =
        roundRat roundUp (exactAmount0 a.toNat b.toNat liquidity.toNat) ∧
      (liquidity.toNat < 2 ^ 128 → Amount1Fits a b liquidity roundUp ∧
        (getAmount1Delta a b liquidity roundUp).toNat =
          roundRat roundUp (exactAmount1 a.toNat b.toNat liquidity.toNat)) := by
  have hUnit : q96.toNat = 2 ^ 96 := rfl
  have hUnitNe : q96 ≠ 0 := by decide
  refine ⟨amount0Fits ha.1 hb.1 hLiquidity roundUp, ?_, fun hNarrow => ⟨?_, ?_⟩⟩
  · rw [amount0_toNat ha.1 hLiquidity hb.1, roundedDiv_eq_roundRat, exactAmount0]
    push_cast [cast_gap]
    rfl
  · rw [Amount1Fits, wideQuotient_toNat hUnitNe, priceGap_toNat, hUnit]
    exact amount1_fits ha.2 hb.2 hNarrow roundUp
  · rw [amount1_toNat ha.2 hb.2 hNarrow, roundedDiv_eq_roundRat, exactAmount1]
    push_cast [cast_gap]
    rfl

theorem tokenAmounts_rounded_example :
    Amount0Fits 3 5 7 true ∧
      (getAmount0Delta 3 5 7 true).toNat = roundRat true (exactAmount0 3 5 7) ∧
      ((7 : U256).toNat < 2 ^ 128 → Amount1Fits 3 5 7 true ∧
        (getAmount1Delta 3 5 7 true).toNat = roundRat true (exactAmount1 3 5 7)) :=
  tokenAmounts_rounded (by decide) (by decide) (by decide) true

end Rounded

end SovereignShadow.Ports.TokenAmounts
