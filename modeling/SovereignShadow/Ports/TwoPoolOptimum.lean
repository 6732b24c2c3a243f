import SovereignShadow.Ports.SquareRoot
import SovereignShadow.Verified.PeakInput

/-!
# The closed-form two-pool optimum

Port of `calculate_optimal_v2_v2`.  The input that earns most over two
constant-product pools has a closed form with one square root.  The code takes the root with
the factor `10^8` of the fees under it, which is the scale of the rest of the formula, and
then multiplies the whole difference by `10^4` once more: the root counts ten thousand times.

## Main results

* `optimum_maximises` — the closed form is the best input.
* `calculateOptimalV2V2_toNat` — the value of the code's formula.
* `nearOptimum_iff` — when that value is within one of the best input.
-/

namespace SovereignShadow.Ports.TwoPoolOptimum

open SovereignShadow.Verified.Checked (Build)
open SovereignShadow.Verified.PeakInput
open SovereignShadow.Ports.Models
open SovereignShadow.Ports.MathEngine (toU512 u512ToU256Safe)
open SovereignShadow.Ports.OptimalInput (u512ToU256Safe_toNat toU512_toNat toNat_pos_iff
  toNat_mul_exact toNat_add_exact mul_lt_pow)
open SovereignShadow.Ports.V3Math (U32)
open SovereignShadow.Ports.FullWidth (wide_modulus product_toNat)
open SovereignShadow.Ports.SquareRoot

/-- `10000 - fee_bps`. -/
def bpsComplement (build : Build) (feeBps : U32) : Option U32 :=
  if build = .debug ∧ 10000 < feeBps then none else some (10000 - feeBps)

def calculateOptimalV2V2 (build : Build) (r1In r1Out r2In r2Out : U256) (fee1Bps fee2Bps : U32) :
    Option U256 := do
  let complement1 ← bpsComplement build fee1Bps
  let complement2 ← bpsComplement build fee2Bps
  let g1 : U512 := complement1.setWidth 512
  let g2 : U512 := complement2.setWidth 512
  let p1 := toU512 r1In * toU512 r2In
  let p2 := toU512 r1Out * toU512 r2Out
  let p3 := g1 * g2
  let p4 : U512 := 100000000
  let product := p1 * p2 * p3 * p4
  let sqrtProduct ← uintSqrt512 product
  let term2 := p1 * 10000
  if sqrtProduct ≤ term2 then some 0
  else
    let numerator := sqrtProduct - term2
    let d1 := 10000 * toU512 r2In
    let d2 := g2 * toU512 r1Out
    let denominator := g1 * (d1 + d2)
    if denominator = 0 then some 0
    else some (u512ToU256Safe (numerator * 10000 / denominator))

/-! ## Pools -/

/-- A pool in the direction of the trade: reserves as the pair contract stores them, and a fee
that is not the whole. -/
structure Pool where
  reserveIn : U256
  reserveOut : U256
  feeBps : U32
  in_pos : 0 < reserveIn.toNat
  in_lt : reserveIn.toNat < 2 ^ 112
  out_pos : 0 < reserveOut.toNat
  out_lt : reserveOut.toNat < 2 ^ 112
  fee_lt : feeBps.toNat < 10000

namespace Pool

/-- The part of `10000` that trades: `g1` and `g2`. -/
def keep (pool : Pool) : ℕ := 10000 - pool.feeBps.toNat

theorem keep_pos (pool : Pool) : 0 < pool.keep := Nat.sub_pos_of_lt pool.fee_lt

theorem keep_le (pool : Pool) : pool.keep ≤ 10000 := Nat.sub_le _ _

theorem keep_lt (pool : Pool) : pool.keep < 2 ^ 14 := pool.keep_le.trans_lt (by norm_num)

end Pool

theorem bpsComplement_eq (build : Build) (pool : Pool) :
    ∃ complement, bpsComplement build pool.feeBps = some complement ∧
      (complement.setWidth 512).toNat = pool.keep := by
  have hWhole : (10000 : U32).toNat = 10000 := rfl
  have hLe : pool.feeBps ≤ 10000 := by
    rw [BitVec.le_def, hWhole]
    exact pool.fee_lt.le
  have hNone : ¬ (build = .debug ∧ 10000 < pool.feeBps) := fun h => BitVec.not_lt.mpr hLe h.2
  refine ⟨10000 - pool.feeBps, if_neg hNone, ?_⟩
  rw [BitVec.toNat_setWidth_of_le (by decide), BitVec.toNat_sub_of_le hLe, hWhole, Pool.keep]

/-! ## The closed form -/

section ClosedForm

variable (first second : Pool)

/-- The coefficients of the two pools as one curve `gain * x / (base + damp * x)`. -/
def gain : ℕ :=
  first.keep * second.keep * (first.reserveOut.toNat * second.reserveOut.toNat)

def base : ℕ := 10 ^ 8 * (first.reserveIn.toNat * second.reserveIn.toNat)

def damp : ℕ :=
  first.keep * (10 ^ 4 * second.reserveIn.toNat + second.keep * first.reserveOut.toNat)

/-- The square root, rounded down. -/
def root : ℕ := Nat.sqrt (gain first second * base first second)

/-- Some trade earns: `g1 * g2 * r1_out * r2_out > 10^8 * r1_in * r2_in`. -/
def Profitable : Prop := base first second < gain first second

instance : Decidable (Profitable first second) :=
  inferInstanceAs (Decidable (base first second < gain first second))

/-- `x*`. -/
noncomputable def optimum : ℝ :=
  (√(10 ^ 8 * first.keep * second.keep * first.reserveIn.toNat * first.reserveOut.toNat *
      second.reserveIn.toNat * second.reserveOut.toNat) -
    10 ^ 8 * first.reserveIn.toNat * second.reserveIn.toNat) /
  (first.keep * (10 ^ 4 * second.reserveIn.toNat + second.keep * first.reserveOut.toNat))

/-- What a pool pays for `x`, less its fee and unrounded. -/
noncomputable def Pool.pays (pool : Pool) (x : ℝ) : ℝ :=
  pool.keep * x * pool.reserveOut.toNat / (10 ^ 4 * pool.reserveIn.toNat + pool.keep * x)

/-- What the two pools return beyond `x`. -/
noncomputable def twoPoolProfit (x : ℝ) : ℝ := second.pays (first.pays x) - x

theorem base_pos : 0 < base first second :=
  Nat.mul_pos (by norm_num) (Nat.mul_pos first.in_pos second.in_pos)

theorem damp_pos : 0 < damp first second :=
  Nat.mul_pos first.keep_pos (Nat.add_pos_left (Nat.mul_pos (by norm_num) second.in_pos) _)

theorem optimum_eq :
    optimum first second = peak (gain first second) (base first second) (damp first second) := by
  unfold optimum peak gain base damp
  push_cast
  ring_nf

/-- The two pools in a row are one curve. -/
theorem twoPoolProfit_eq {x : ℝ} (hx : 0 ≤ x) :
    twoPoolProfit first second x =
      profit (gain first second) (base first second) (damp first second) x := by
  have hFirst : (0 : ℝ) < first.reserveIn.toNat := Nat.cast_pos.mpr first.in_pos
  have hDenom : (10 ^ 4 * first.reserveIn.toNat + first.keep * x : ℝ) ≠ 0 := by positivity
  have hAbove : second.keep * first.pays x * second.reserveOut.toNat =
      gain first second * x / (10 ^ 4 * first.reserveIn.toNat + first.keep * x) := by
    unfold Pool.pays gain
    push_cast
    ring
  have hBelow : 10 ^ 4 * second.reserveIn.toNat + second.keep * first.pays x =
      (base first second + damp first second * x) /
        (10 ^ 4 * first.reserveIn.toNat + first.keep * x) := by
    unfold Pool.pays base damp
    push_cast
    field_simp
    ring
  rw [twoPoolProfit, profit, Pool.pays, hAbove, hBelow, div_div_div_cancel_right₀ hDenom]

/-- **The closed form is the best input** where some trade earns, and nothing is where none
does. -/
theorem optimum_maximises {x : ℝ} (hx : 0 ≤ x) :
    (Profitable first second → 0 ≤ optimum first second ∧
      twoPoolProfit first second x ≤ twoPoolProfit first second (optimum first second)) ∧
    (¬ Profitable first second → twoPoolProfit first second x ≤ 0) := by
  have hBase : (0 : ℝ) < base first second := Nat.cast_pos.mpr (base_pos first second)
  have hDamp : (0 : ℝ) < damp first second := Nat.cast_pos.mpr (damp_pos first second)
  rw [twoPoolProfit_eq first second hx, optimum_eq]
  constructor
  · intro hEarns
    have hGain : (base first second : ℝ) ≤ gain first second :=
      Nat.cast_le.mpr (le_of_lt hEarns)
    have hPeak := peak_nonneg hBase hDamp hGain
    rw [twoPoolProfit_eq first second hPeak]
    exact ⟨hPeak, profit_le_peak hBase hDamp hGain hx⟩
  · intro hLoses
    exact profit_nonpos hBase hDamp (Nat.cast_le.mpr (not_lt.mp hLoses)) hx

end ClosedForm

/-! ## The code's formula -/

/-- A product of values with few enough bits, with its own bits. -/
theorem mul_exact {x y : U512} {a b i j : ℕ} (hx : x.toNat = a ∧ a < 2 ^ i)
    (hy : y.toNat = b ∧ b < 2 ^ j) (hij : i + j ≤ 512) :
    (x * y).toNat = a * b ∧ a * b < 2 ^ (i + j) := by
  constructor
  · rw [toNat_mul_exact (hx.1 ▸ hx.2) (hy.1 ▸ hy.2) hij, hx.1, hy.1]
  · exact mul_lt_pow hx.2 hy.2

theorem add_exact {x y : U512} {a b i : ℕ} (hx : x.toNat = a ∧ a < 2 ^ i)
    (hy : y.toNat = b ∧ b < 2 ^ i) (hi : i + 1 ≤ 512) :
    (x + y).toNat = a + b ∧ a + b < 2 ^ (i + 1) := by
  constructor
  · rw [toNat_add_exact (hx.1 ▸ hx.2) (hy.1 ▸ hy.2) hi, hx.1, hy.1]
  · rw [Nat.pow_succ]
    have hxLt := hx.2
    have hyLt := hy.2
    omega

theorem tenThousand : (10000 : U512).toNat = 10000 ∧ 10000 < 2 ^ 14 := by
  constructor
  · decide +kernel
  · norm_num

theorem reserves_exact (pool : Pool) :
    ((toU512 pool.reserveIn).toNat = pool.reserveIn.toNat ∧ pool.reserveIn.toNat < 2 ^ 112) ∧
      (toU512 pool.reserveOut).toNat = pool.reserveOut.toNat ∧
        pool.reserveOut.toNat < 2 ^ 112 :=
  ⟨⟨toU512_toNat _, pool.in_lt⟩, toU512_toNat _, pool.out_lt⟩

section Words

variable {first second : Pool} {g1 g2 : U512} (hFirst : g1.toNat = first.keep)
  (hSecond : g2.toNat = second.keep)

theorem term2_exact :
    (toU512 first.reserveIn * toU512 second.reserveIn * 10000).toNat =
      first.reserveIn.toNat * second.reserveIn.toNat * 10000 :=
  (mul_exact (mul_exact (reserves_exact first).1 (reserves_exact second).1 (by norm_num))
    tenThousand (by norm_num)).1

include hFirst hSecond

/-- The number under the root. -/
theorem product_exact :
    (toU512 first.reserveIn * toU512 second.reserveIn *
        (toU512 first.reserveOut * toU512 second.reserveOut) * (g1 * g2) * 100000000).toNat =
      gain first second * base first second := by
  have hScale : (100000000 : U512).toNat = 100000000 ∧ 100000000 < 2 ^ 27 := by
    constructor
    · decide +kernel
    · norm_num
  have hKeep := mul_exact ⟨hFirst, first.keep_lt⟩ ⟨hSecond, second.keep_lt⟩ (by norm_num)
  have hIn := mul_exact (reserves_exact first).1 (reserves_exact second).1 (by norm_num)
  have hOut := mul_exact (reserves_exact first).2 (reserves_exact second).2 (by norm_num)
  have hAll := mul_exact (mul_exact (mul_exact hIn hOut (by norm_num)) hKeep (by norm_num))
    hScale (by norm_num)
  have hValue : first.reserveIn.toNat * second.reserveIn.toNat *
      (first.reserveOut.toNat * second.reserveOut.toNat) * (first.keep * second.keep) *
        100000000 = gain first second * base first second := by
    unfold gain base
    ring
  rw [← hValue]
  exact hAll.1

theorem denominator_exact :
    (g1 * (10000 * toU512 second.reserveIn + g2 * toU512 first.reserveOut)).toNat =
      damp first second := by
  have hd1 := mul_exact tenThousand (reserves_exact second).1 (by norm_num)
  have hd2 := mul_exact ⟨hSecond, second.keep_lt⟩ (reserves_exact first).2 (by norm_num)
  have hSum := add_exact hd1 hd2 (by norm_num)
  exact (mul_exact ⟨hFirst, first.keep_lt⟩ hSum (by norm_num)).1

end Words

/-- The root fits 256 bits, and the four digits more stay within 512. -/
theorem numerator_exact {s : U512} (hs : s.toNat = root first second)
    (hRoot : root first second < 2 ^ 256) (hMore : ¬ s ≤
      toU512 first.reserveIn * toU512 second.reserveIn * 10000) :
    ((s - toU512 first.reserveIn * toU512 second.reserveIn * 10000) * 10000).toNat =
      10 ^ 4 * root first second - base first second := by
  have hTerm : (toU512 first.reserveIn * toU512 second.reserveIn * 10000).toNat =
      first.reserveIn.toNat * second.reserveIn.toNat * 10000 := term2_exact
  have hLess := BitVec.not_le.mp hMore
  have hRest : (s - toU512 first.reserveIn * toU512 second.reserveIn * 10000).toNat =
      root first second - first.reserveIn.toNat * second.reserveIn.toNat * 10000 := by
    rw [BitVec.toNat_sub_of_le (BitVec.le_of_lt hLess), hs, hTerm]
  have hRestLt : root first second - first.reserveIn.toNat * second.reserveIn.toNat * 10000 <
      2 ^ 256 := (Nat.sub_le _ _).trans_lt hRoot
  rw [(mul_exact ⟨hRest, hRestLt⟩ tenThousand (by norm_num)).1, base]
  omega

theorem quotient_le (first second : Pool) :
    (10 ^ 4 * root first second - base first second) / damp first second ≤
      root first second := by
  have hDamp : 10 ^ 4 ≤ damp first second := by
    have hSum : 10 ^ 4 ≤ 10 ^ 4 * second.reserveIn.toNat +
        second.keep * first.reserveOut.toNat :=
      (Nat.le_mul_of_pos_right _ second.in_pos).trans (Nat.le_add_right _ _)
    exact hSum.trans (Nat.le_mul_of_pos_left _ first.keep_pos)
  apply Nat.div_le_of_le_mul
  exact (Nat.sub_le _ _).trans (Nat.mul_le_mul_right _ hDamp)

/-- **What the code computes**: the root counts ten thousand times. -/
theorem calculateOptimalV2V2_toNat (build : Build) (first second : Pool) :
    ∃ r, calculateOptimalV2V2 build first.reserveIn first.reserveOut second.reserveIn
        second.reserveOut first.feeBps second.feeBps = some r ∧
      r.toNat = (10 ^ 4 * root first second - base first second) / damp first second := by
  obtain ⟨complement1, hComplement1, hFirst⟩ := bpsComplement_eq build first
  obtain ⟨complement2, hComplement2, hSecond⟩ := bpsComplement_eq build second
  obtain ⟨s, hSqrt, hs⟩ := uintSqrt512_toNat
    (toU512 first.reserveIn * toU512 second.reserveIn *
      (toU512 first.reserveOut * toU512 second.reserveOut) *
        (complement1.setWidth 512 * complement2.setWidth 512) * 100000000)
  rw [product_exact hFirst hSecond] at hs
  have hRoot : root first second < 2 ^ 256 := by
    have hWord := (toU512 first.reserveIn * toU512 second.reserveIn *
      (toU512 first.reserveOut * toU512 second.reserveOut) *
        (complement1.setWidth 512 * complement2.setWidth 512) * 100000000).isLt
    rw [product_exact hFirst hSecond, wide_modulus] at hWord
    exact Nat.sqrt_lt.mpr hWord
  have hDenominator := denominator_exact hFirst hSecond
  have hPos := damp_pos first second
  rw [calculateOptimalV2V2, hComplement1, hComplement2, Option.bind_eq_bind, Option.bind_some,
    Option.bind_eq_bind, Option.bind_some]
  simp only [hSqrt, Option.bind_some]
  by_cases hLess : s ≤ toU512 first.reserveIn * toU512 second.reserveIn * 10000
  · have hNat : root first second ≤
        first.reserveIn.toNat * second.reserveIn.toNat * 10000 := by
      rw [BitVec.le_def, hs, term2_exact] at hLess
      exact hLess
    have hNone : 10 ^ 4 * root first second - base first second = 0 := by
      unfold base
      omega
    rw [if_pos hLess, hNone, Nat.zero_div]
    exact ⟨0, rfl, BitVec.toNat_zero⟩
  · have hNonzero : complement1.setWidth 512 * (10000 * toU512 second.reserveIn +
        complement2.setWidth 512 * toU512 first.reserveOut) ≠ 0 := by
      rw [← toNat_pos_iff, hDenominator]
      exact hPos
    have hNumerator := numerator_exact hs hRoot hLess
    rw [if_neg hLess, if_neg hNonzero]
    refine ⟨_, rfl, ?_⟩
    have hQuotient := BitVec.toNat_udiv (x := ((s - toU512 first.reserveIn *
      toU512 second.reserveIn * 10000) * 10000)) (y := (complement1.setWidth 512 *
        (10000 * toU512 second.reserveIn + complement2.setWidth 512 * toU512 first.reserveOut)))
    rw [hNumerator, hDenominator] at hQuotient
    rw [u512ToU256Safe_toNat, hQuotient]
    rw [hQuotient]
    exact (quotient_le first second).trans_lt hRoot

/-! ## Where the scale does no harm -/

section Scale

variable (first second : Pool)

/-- Nothing where no trade earns, and otherwise the best input to within one. -/
def NearOptimum (r : U256) : Prop :=
  (¬ Profitable first second → r = 0) ∧
    (Profitable first second → |(r.toNat : ℝ) - optimum first second| ≤ 1)

/-- The `9999` roots too many are lost in the division. -/
def ScaleHarmless : Prop :=
  if Profitable first second then
    9999 * root first second + (root first second - base first second) % damp first second <
      2 * damp first second
  else 10 ^ 4 * root first second < base first second + damp first second

variable {first second}

theorem quotient_eq_zero_iff :
    (10 ^ 4 * root first second - base first second) / damp first second = 0 ↔
      10 ^ 4 * root first second < base first second + damp first second := by
  have hPos := damp_pos first second
  rw [Nat.div_eq_zero_iff]
  omega

/-- Where a trade earns, the root is at least the base that is taken off it. -/
theorem base_le_root (hEarns : Profitable first second) : base first second ≤ root first second :=
  Nat.le_sqrt.mpr (Nat.mul_le_mul_right _ (le_of_lt hEarns))

theorem quotient_le_succ_iff (hEarns : Profitable first second) :
    (10 ^ 4 * root first second - base first second) / damp first second ≤
        (root first second - base first second) / damp first second + 1 ↔
      9999 * root first second + (root first second - base first second) % damp first second <
        2 * damp first second := by
  have hPos := damp_pos first second
  have hBase := base_le_root hEarns
  have hParts := Nat.div_add_mod (root first second - base first second) (damp first second)
  rw [← Nat.lt_succ_iff, Nat.div_lt_iff_lt_mul hPos, Nat.succ_eq_add_one, Nat.add_assoc,
    Nat.add_mul, Nat.mul_comm (_ / _)]
  omega

/-- The best input, rounded down. -/
theorem floor_optimum (hEarns : Profitable first second) :
    ⌊optimum first second⌋₊ =
      (root first second - base first second) / damp first second := by
  rw [optimum_eq, floor_peak _ (le_of_lt hEarns), root]

/-- **When the code returns the best input**, to within one. -/
theorem nearOptimum_iff (build : Build) (first second : Pool) :
    (∃ r, calculateOptimalV2V2 build first.reserveIn first.reserveOut second.reserveIn
        second.reserveOut first.feeBps second.feeBps = some r ∧ NearOptimum first second r) ↔
      ScaleHarmless first second := by
  obtain ⟨r, hReturns, hValue⟩ := calculateOptimalV2V2_toNat build first second
  have hOnly : (∃ r', calculateOptimalV2V2 build first.reserveIn first.reserveOut
      second.reserveIn second.reserveOut first.feeBps second.feeBps = some r' ∧
        NearOptimum first second r') ↔ NearOptimum first second r := by
    rw [hReturns]
    exact ⟨fun h => Option.some.inj h.choose_spec.1 ▸ h.choose_spec.2, fun h => ⟨r, rfl, h⟩⟩
  rw [hOnly, NearOptimum, ScaleHarmless]
  by_cases hEarns : Profitable first second
  · have hPositive : 0 ≤ optimum first second :=
      ((optimum_maximises first second le_rfl).1 hEarns).1
    have hLow : ⌊optimum first second⌋₊ ≤ r.toNat := by
      rw [floor_optimum hEarns, hValue]
      apply Nat.div_le_div_right
      exact Nat.sub_le_sub_right (Nat.le_mul_of_pos_left _ (by norm_num)) _
    rw [if_pos hEarns, abs_sub_le_one_iff hPositive hLow, floor_optimum hEarns, hValue,
      quotient_le_succ_iff hEarns]
    exact ⟨fun h => h.2 hEarns, fun h => ⟨fun hLoses => absurd hEarns hLoses, fun _ => h⟩⟩
  · have hZero : r = 0 ↔ r.toNat = 0 := BitVec.toNat_inj.symm
    rw [if_neg hEarns, hZero, hValue, quotient_eq_zero_iff]
    exact ⟨fun h => h.1 hEarns, fun h => ⟨fun _ => h, fun hSome => absurd hSome hEarns⟩⟩

end Scale

/-- Two pools with the same reserves, a thousand units of 18 decimals each, and a fee of 30. -/
def evenPool : Pool :=
  ⟨1000000000000000000000, 1000000000000000000000, 30, by decide, by decide, by decide,
    by decide, by decide⟩

theorem root_evenPools :
    root evenPool evenPool = 99700000000000000000000000000000000000000000000000 := by
  apply Eq.symm
  rw [root, Nat.eq_sqrt]
  decide +kernel

/-- No trade earns there, and the code asks for five thousand times the reserves. -/
theorem evenPools_not_nearOptimum :
    ¬ ∃ r, calculateOptimalV2V2 .release evenPool.reserveIn evenPool.reserveOut
      evenPool.reserveIn evenPool.reserveOut evenPool.feeBps evenPool.feeBps = some r ∧
        NearOptimum evenPool evenPool r := by
  intro hNear
  obtain ⟨r, hReturns, hRight⟩ := hNear
  obtain ⟨r', hSame, hValue⟩ := calculateOptimalV2V2_toNat .release evenPool evenPool
  rw [hReturns] at hSame
  obtain rfl := Option.some.inj hSame
  have hLoses : ¬ Profitable evenPool evenPool := by decide +kernel
  have hZero : r.toNat = 0 := BitVec.toNat_inj.mpr (hRight.1 hLoses)
  rw [hValue, root_evenPools] at hZero
  exact absurd hZero (by decide +kernel)

end SovereignShadow.Ports.TwoPoolOptimum
