import SovereignShadow.Ports.TwoPoolOptimum
import SovereignShadow.Verified.RoundedDivision
import SovereignShadow.Verified.StableCurve

/-!
# The marginal price of a stable pool

Port of `get_aerodrome_marginal_price`.  The price is the quotient of two growth rates of the
stable curve, scaled by `10^18` and rounded down.  Swapping the reserves swaps numerator and
denominator, so a price and the price of the way back never multiply to more than one, and the
cross products of the curve carry over to the rounded quotients.

## Main results

* `price_fits` — nothing wraps in 512 bits.
* `price_toNat` — the price over the natural numbers.
* `marginalPrice_laws` — monotone, on the right side of one, and reciprocal.
-/

namespace SovereignShadow.Ports.StablePrice

open SovereignShadow.Verified.RoundedDivision
open SovereignShadow.Verified.StableCurve
open SovereignShadow.Ports.Models
open SovereignShadow.Ports.MathEngine (toU512 u512ToU256Safe)
open SovereignShadow.Ports.OptimalInput (toU512_toNat)
open SovereignShadow.Ports.TwoPoolOptimum (mul_exact add_exact)
open SovereignShadow.Ports.FullWidth

/-! ## The code -/

/-- `numerator`. -/
def priceNumerator (x y : U512) : U512 := 3 * (x * x) * y + y * y * y

/-- `denominator`. -/
def priceDenominator (x y : U512) : U512 := x * x * x + 3 * x * (y * y)

/-- `U512::from(10u128.pow(18))`. -/
def priceScale : U512 := 1000000000000000000

/-- `get_aerodrome_marginal_price`. -/
def getAerodromeMarginalPrice (rIn rOut : U256) : U256 :=
  let numerator := priceNumerator (toU512 rIn) (toU512 rOut)
  let denominator := priceDenominator (toU512 rIn) (toU512 rOut)
  if denominator = 0 then 0 else u512ToU256Safe (numerator * priceScale / denominator)

/-! ## Widths -/

/-- A product of words does not wrap. -/
def MulFits {w : ℕ} (a b : BitVec w) : Prop := a.toNat * b.toNat < 2 ^ w

instance {w : ℕ} (a b : BitVec w) : Decidable (MulFits a b) :=
  inferInstanceAs (Decidable (a.toNat * b.toNat < 2 ^ w))

theorem MulFits.toNat {w : ℕ} {a b : BitVec w} (h : MulFits a b) :
    (a * b).toNat = a.toNat * b.toNat := BitVec.toNat_mul_of_lt h

/-- A 512-bit sum does not wrap. -/
def AddFits (a b : U512) : Prop := a.toNat + b.toNat < 2 ^ 512

/-- No product and no sum of the price wraps. -/
structure PriceFits (x y : U512) : Prop where
  squareIn : MulFits x x
  squareOut : MulFits y y
  triple : MulFits 3 (x * x)
  cross : MulFits (3 * (x * x)) y
  cubeOut : MulFits (y * y) y
  numerator : AddFits (3 * (x * x) * y) (y * y * y)
  cubeIn : MulFits (x * x) x
  tripleIn : MulFits 3 x
  crossIn : MulFits (3 * x) (y * y)
  denominator : AddFits (x * x * x) (3 * x * (y * y))
  scaled : MulFits (priceNumerator x y) priceScale

theorem mulFits_of_exact {x y : U512} {a b i j : ℕ} (hx : x.toNat = a ∧ a < 2 ^ i)
    (hy : y.toNat = b ∧ b < 2 ^ j) (hij : i + j ≤ 512) : MulFits x y := by
  have hProduct := (mul_exact hx hy hij).2
  rw [MulFits, hx.1, hy.1]
  exact hProduct.trans_le (Nat.pow_le_pow_right Nat.two_pos hij)

theorem addFits_of_exact {x y : U512} {a b i : ℕ} (hx : x.toNat = a ∧ a < 2 ^ i)
    (hy : y.toNat = b ∧ b < 2 ^ i) (hi : i + 1 ≤ 512) : AddFits x y := by
  have hSum := (add_exact hx hy hi).2
  rw [AddFits, hx.1, hy.1]
  exact hSum.trans_le (Nat.pow_le_pow_right Nat.two_pos hi)

/-- A value has its own bits, and more. -/
theorem exact_mono {x : U512} {a i j : ℕ} (hx : x.toNat = a ∧ a < 2 ^ i) (hij : i ≤ j) :
    x.toNat = a ∧ a < 2 ^ j :=
  ⟨hx.1, hx.2.trans_le (Nat.pow_le_pow_right Nat.two_pos hij)⟩

theorem three_exact : (3 : U512).toNat = 3 ∧ 3 < 2 ^ 2 := by
  constructor
  · decide +kernel
  · norm_num

theorem scale_exact : priceScale.toNat = 10 ^ 18 ∧ 10 ^ 18 < 2 ^ 60 := by
  constructor
  · decide +kernel
  · norm_num

section Widths

variable {x y : U512} {a b : ℕ} (hx : x.toNat = a ∧ a < 2 ^ 112)
  (hy : y.toNat = b ∧ b < 2 ^ 112)
include hx hy

theorem cross_exact :
    (3 * (x * x) * y).toNat = 3 * (a * a) * b ∧ 3 * (a * a) * b < 2 ^ (2 + (112 + 112) + 112) :=
  mul_exact (mul_exact three_exact (mul_exact hx hx (by norm_num)) (by norm_num)) hy
    (by norm_num)

theorem crossIn_exact :
    (3 * x * (y * y)).toNat = 3 * a * (b * b) ∧ 3 * a * (b * b) < 2 ^ (2 + 112 + (112 + 112)) :=
  mul_exact (mul_exact three_exact hx (by norm_num)) (mul_exact hy hy (by norm_num))
    (by norm_num)

omit hy in
theorem cube_exact : (x * x * x).toNat = a * a * a ∧ a * a * a < 2 ^ (112 + 112 + 112) :=
  mul_exact (mul_exact hx hx (by norm_num)) hx (by norm_num)

theorem numerator_exact :
    (priceNumerator x y).toNat = growth a b ∧
      growth a b < 2 ^ (2 + (112 + 112) + 112 + 1) := by
  have hSum := add_exact (cross_exact hx hy) (exact_mono (cube_exact hy) (by norm_num))
    (by norm_num)
  have hValue : 3 * (a * a) * b + b * b * b = growth a b := by
    unfold growth
    ring
  rw [hValue] at hSum
  exact hSum

theorem priceDenominator_exact :
    (priceDenominator x y).toNat = growth b a ∧
      growth b a < 2 ^ (2 + 112 + (112 + 112) + 1) := by
  have hSum := add_exact (exact_mono (cube_exact hx) (by norm_num)) (crossIn_exact hx hy)
    (by norm_num)
  have hValue : a * a * a + 3 * a * (b * b) = growth b a := by
    unfold growth
    ring
  rw [hValue] at hSum
  exact hSum

/-- **Nothing wraps** for reserves below `2^112`. -/
theorem price_fits : PriceFits x y where
  squareIn := mulFits_of_exact hx hx (by norm_num)
  squareOut := mulFits_of_exact hy hy (by norm_num)
  triple := mulFits_of_exact three_exact (mul_exact hx hx (by norm_num)) (by norm_num)
  cross := mulFits_of_exact
    (mul_exact three_exact (mul_exact hx hx (by norm_num)) (by norm_num)) hy (by norm_num)
  cubeOut := mulFits_of_exact (mul_exact hy hy (by norm_num)) hy (by norm_num)
  numerator := addFits_of_exact (cross_exact hx hy) (exact_mono (cube_exact hy) (by norm_num))
    (by norm_num)
  cubeIn := mulFits_of_exact (mul_exact hx hx (by norm_num)) hx (by norm_num)
  tripleIn := mulFits_of_exact three_exact hx (by norm_num)
  crossIn := mulFits_of_exact (mul_exact three_exact hx (by norm_num))
    (mul_exact hy hy (by norm_num)) (by norm_num)
  denominator := addFits_of_exact (exact_mono (cube_exact hx) (by norm_num))
    (crossIn_exact hx hy) (by norm_num)
  scaled := mulFits_of_exact (numerator_exact hx hy) scale_exact (by norm_num)

end Widths

/-! ## The price -/

/-- A reserve that a pair can hold. -/
def Reserve (r : U256) : Prop := 0 < r.toNat ∧ r.toNat < 2 ^ 112

theorem Reserve.exact {r : U256} (h : Reserve r) :
    (toU512 r).toNat = r.toNat ∧ r.toNat < 2 ^ 112 := ⟨toU512_toNat r, h.2⟩

section Price

variable {rIn rOut : U256} (hIn : Reserve rIn) (hOut : Reserve rOut)
include hIn hOut

/-- The price is the scaled quotient of the growth rates, rounded down and saturated. -/
theorem price_toNat :
    (getAerodromeMarginalPrice rIn rOut).toNat =
      min (growth rIn.toNat rOut.toNat * 10 ^ 18 / growth rOut.toNat rIn.toNat) maxWord := by
  have hNumerator := numerator_exact hIn.exact hOut.exact
  have hDenominator := priceDenominator_exact hIn.exact hOut.exact
  have hScaled := (mul_exact hNumerator scale_exact (by norm_num)).1
  have hNonzero : priceDenominator (toU512 rIn) (toU512 rOut) ≠ 0 := by
    intro hZero
    have hWord : (0 : U512).toNat = 0 := BitVec.toNat_zero
    rw [hZero, hWord] at hDenominator
    exact (growth_pos hIn.1).ne hDenominator.1
  rw [getAerodromeMarginalPrice, if_neg hNonzero, u512ToU256Safe_eq_min, BitVec.toNat_udiv,
    hScaled, hDenominator.1]

omit hIn hOut in
/-- A dearer quotient stays dearer when it is rounded and saturated. -/
theorem saturated_mono {a b c d : ℕ} (hb : 0 < b) (hd : 0 < d) (h : a * d ≤ c * b) :
    min (a * 10 ^ 18 / b) maxWord ≤ min (c * 10 ^ 18 / d) maxWord := by
  apply min_le_min_right
  apply div_le_div_of_cross hb hd
  calc a * 10 ^ 18 * d = a * d * 10 ^ 18 := Nat.mul_right_comm _ _ _
    _ ≤ c * b * 10 ^ 18 := Nat.mul_le_mul_right _ h
    _ = c * 10 ^ 18 * b := Nat.mul_right_comm _ _ _

theorem price_antitone_in {rIn' : U256} (hIn' : Reserve rIn') (hLe : rIn ≤ rIn') :
    getAerodromeMarginalPrice rIn' rOut ≤ getAerodromeMarginalPrice rIn rOut := by
  rw [BitVec.le_def, price_toNat hIn' hOut, price_toNat hIn hOut]
  exact saturated_mono (growth_pos hIn'.1) (growth_pos hIn.1)
    (nat_growth_cross rOut.toNat (BitVec.le_def.mp hLe))

theorem price_monotone_out {rOut' : U256} (hOut' : Reserve rOut') (hLe : rOut ≤ rOut') :
    getAerodromeMarginalPrice rIn rOut ≤ getAerodromeMarginalPrice rIn rOut' := by
  have hCross := nat_growth_cross rIn.toNat (BitVec.le_def.mp hLe)
  rw [BitVec.le_def, price_toNat hIn hOut, price_toNat hIn hOut']
  apply saturated_mono (growth_pos hIn.1) (growth_pos hIn.1)
  rw [Nat.mul_comm (growth rIn.toNat rOut.toNat), Nat.mul_comm (growth rIn.toNat rOut'.toNat)]
  exact hCross

theorem price_le_one (hLe : rOut ≤ rIn) :
    (getAerodromeMarginalPrice rIn rOut).toNat ≤ 10 ^ 18 := by
  have hGrowth := nat_growth_le_growth (BitVec.le_def.mp hLe)
  rw [price_toNat hIn hOut]
  apply (min_le_left _ _).trans
  apply Nat.div_le_of_le_mul
  exact Nat.mul_le_mul_right _ hGrowth

theorem one_le_price (hLe : rIn ≤ rOut) :
    10 ^ 18 ≤ (getAerodromeMarginalPrice rIn rOut).toNat := by
  have hGrowth := nat_growth_le_growth (BitVec.le_def.mp hLe)
  rw [price_toNat hIn hOut]
  apply le_min
  · rw [Nat.le_div_iff_mul_le (growth_pos hIn.1), Nat.mul_comm]
    exact Nat.mul_le_mul_right _ hGrowth
  · norm_num

/-- The two prices are floors of reciprocal quotients. -/
theorem price_mul_price_le :
    (getAerodromeMarginalPrice rIn rOut).toNat * (getAerodromeMarginalPrice rOut rIn).toNat ≤
      10 ^ 36 := by
  rw [price_toNat hIn hOut, price_toNat hOut hIn]
  generalize hN : growth rIn.toNat rOut.toNat = n
  generalize hD : growth rOut.toNat rIn.toNat = d
  have hn : 0 < n := hN ▸ growth_pos hOut.1
  have hd : 0 < d := hD ▸ growth_pos hIn.1
  have hFloors : n * 10 ^ 18 / d * d * (d * 10 ^ 18 / n * n) ≤ n * 10 ^ 18 * (d * 10 ^ 18) :=
    Nat.mul_le_mul (Nat.div_mul_le_self _ _) (Nat.div_mul_le_self _ _)
  have hProduct : n * 10 ^ 18 / d * (d * 10 ^ 18 / n) ≤ 10 ^ 36 := by
    apply Nat.le_of_mul_le_mul_right _ (Nat.mul_pos hd hn)
    calc n * 10 ^ 18 / d * (d * 10 ^ 18 / n) * (d * n)
        = n * 10 ^ 18 / d * d * (d * 10 ^ 18 / n * n) := by ring
      _ ≤ n * 10 ^ 18 * (d * 10 ^ 18) := hFloors
      _ = 10 ^ 36 * (d * n) := by ring
  exact (Nat.mul_le_mul (min_le_left _ _) (min_le_left _ _)).trans hProduct

/-- **The laws of the marginal price.**  Without a wrapped intermediate it falls in the reserve
paid in, grows in the reserve paid out, is at most one when the first is the larger and at least
one when it is the smaller, and a round trip never pays. -/
theorem marginalPrice_laws :
    PriceFits (toU512 rIn) (toU512 rOut) ∧
      (∀ rIn', Reserve rIn' → rIn ≤ rIn' →
        getAerodromeMarginalPrice rIn' rOut ≤ getAerodromeMarginalPrice rIn rOut) ∧
      (∀ rOut', Reserve rOut' → rOut ≤ rOut' →
        getAerodromeMarginalPrice rIn rOut ≤ getAerodromeMarginalPrice rIn rOut') ∧
      (rOut ≤ rIn → (getAerodromeMarginalPrice rIn rOut).toNat ≤ 10 ^ 18) ∧
      (rIn ≤ rOut → 10 ^ 18 ≤ (getAerodromeMarginalPrice rIn rOut).toNat) ∧
      (getAerodromeMarginalPrice rIn rOut).toNat *
        (getAerodromeMarginalPrice rOut rIn).toNat ≤ 10 ^ 36 :=
  ⟨price_fits hIn.exact hOut.exact, fun _ hIn' hLe => price_antitone_in hIn hOut hIn' hLe,
    fun _ hOut' hLe => price_monotone_out hIn hOut hOut' hLe, price_le_one hIn hOut,
    one_le_price hIn hOut, price_mul_price_le hIn hOut⟩

end Price

/-- A pool with 2000 in and 1000 out, at 18 decimals. -/
theorem marginalPrice_laws_example :
    (getAerodromeMarginalPrice 2000000000000000000000 1000000000000000000000).toNat ≤ 10 ^ 18 ∧
      (getAerodromeMarginalPrice 2000000000000000000000 1000000000000000000000).toNat *
        (getAerodromeMarginalPrice 1000000000000000000000 2000000000000000000000).toNat ≤
          10 ^ 36 := by
  have hLaws := @marginalPrice_laws 2000000000000000000000 1000000000000000000000
    ⟨by decide, by decide⟩ ⟨by decide, by decide⟩
  exact ⟨hLaws.2.2.2.1 (by decide), hLaws.2.2.2.2.2⟩

end SovereignShadow.Ports.StablePrice
