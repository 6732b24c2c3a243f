import SovereignShadow.Ports.OptimalInput
import SovereignShadow.Ports.V3Math

/-!
# Full-width products

The values of `mul_div`, `mul_div_round_up` and `mul_shift_128` as natural numbers: the
512-bit intermediate holds every product, with the rounding added, and a quotient past 256
bits is the largest word.

## Main results

* `u512ToU256Safe_eq_limbs` — the narrowing looks at the limbs.
* `mulDiv_toNat`, `mulDivRoundUp_toNat` — the rounded quotients, saturated.
* `fullWidth_spec` — what both return, for all words.
-/

namespace SovereignShadow.Ports.FullWidth

open SovereignShadow.Ports.Models
open SovereignShadow.Ports.MathEngine (toU512 u512ToU256Safe)
open SovereignShadow.Ports.OptimalInput (u512ToU256Safe_toNat toU512_toNat toNat_pos_iff
  mul_lt_pow)
open SovereignShadow.Ports.V3Math

/-- The largest `U256`. -/
abbrev maxWord : ℕ := 2 ^ 256 - 1

theorem u512ToU256Safe_eq_min (v : U512) : (u512ToU256Safe v).toNat = min v.toNat maxWord := by
  by_cases hFits : v.toNat < 2 ^ 256
  · rw [u512ToU256Safe_toNat hFits, min_eq_left]
    exact Nat.le_sub_one_of_lt hFits
  · have hHigh : v >>> 256 ≠ 0 := by
      intro hZero
      have hNat := congrArg BitVec.toNat hZero
      have hWord : (0 : U512).toNat = 0 := BitVec.toNat_zero
      rw [BitVec.toNat_ushiftRight, Nat.shiftRight_eq_div_pow, hWord] at hNat
      exact hFits ((Nat.div_eq_zero_iff.mp hNat).resolve_left (by norm_num))
    have hLarge : 2 ^ 256 ≤ v.toNat := not_lt.mp hFits
    rw [u512ToU256Safe, if_pos hHigh, BitVec.toNat_allOnes, min_eq_right]
    exact le_trans (Nat.sub_le _ 1) hLarge

theorem wide_modulus : (2 : ℕ) ^ 512 = 2 ^ 256 * 2 ^ 256 := by rw [← pow_add]

theorem mul_add_lt_mul {a b d n : ℕ} (ha : a < n) (hb : b < n) (hd : d < n) :
    a * b + d < n * n := by
  have hRow : a * b + b ≤ n * b := by
    rw [← Nat.succ_mul]
    exact Nat.mul_le_mul_right b ha
  have hColumn : n * b + n ≤ n * n := by
    rw [← Nat.mul_succ]
    exact Nat.mul_le_mul_left n hb
  omega

theorem product_toNat (a b : U256) : (toU512 a * toU512 b).toNat = a.toNat * b.toNat := by
  rw [BitVec.toNat_mul, toU512_toNat, toU512_toNat, Nat.mod_eq_of_lt]
  rw [wide_modulus]
  exact Nat.mul_lt_mul'' a.isLt b.isLt

theorem mulDiv_toNat (a b d : U256) :
    ((mulDiv a b d).getD 0).toNat = min (a.toNat * b.toNat / d.toNat) maxWord := by
  by_cases hZero : d = 0
  · simp [mulDiv, hZero]
  · rw [mulDiv, if_neg hZero, Option.getD_some, u512ToU256Safe_eq_min, BitVec.toNat_udiv,
      product_toNat, toU512_toNat]

/-- The numerator of a rounded-up division. -/
theorem roundUpSum_toNat {d : U256} (hd : d ≠ 0) (a b : U256) :
    (toU512 a * toU512 b + toU512 d - 1).toNat = a.toNat * b.toNat + d.toNat - 1 := by
  have hPos : 0 < d.toNat := toNat_pos_iff.mpr hd
  have hSum : (toU512 a * toU512 b + toU512 d).toNat = a.toNat * b.toNat + d.toNat := by
    rw [BitVec.toNat_add, product_toNat, toU512_toNat, Nat.mod_eq_of_lt]
    rw [wide_modulus]
    exact mul_add_lt_mul a.isLt b.isLt d.isLt
  have hOne : (1 : U512).toNat = 1 := BitVec.toNat_one (by norm_num)
  rw [BitVec.toNat_sub_of_le, hSum, hOne]
  rw [BitVec.le_def, hSum, hOne]
  omega

theorem mulDivRoundUp_toNat (a b d : U256) :
    ((mulDivRoundUp a b d).getD 0).toNat = min (a.toNat * b.toNat ⌈/⌉ d.toNat) maxWord := by
  by_cases hZero : d = 0
  · simp [mulDivRoundUp, hZero]
  · rw [mulDivRoundUp, if_neg hZero, Option.getD_some, u512ToU256Safe_eq_min,
      BitVec.toNat_udiv, roundUpSum_toNat hZero, toU512_toNat, Nat.ceilDiv_eq_add_pred_div]

/-! ## Limbs -/

/-- `v.as_limbs()[i]`. -/
def limb (v : U512) (i : ℕ) : BitVec 64 := v.extractLsb' (64 * i) 64

/-- `U256::from_limbs`. -/
def fromLimbs (l0 l1 l2 l3 : BitVec 64) : U256 :=
  BitVec.ofNat 256
    (l0.toNat + l1.toNat * 2 ^ 64 + l2.toNat * 2 ^ 128 + l3.toNat * 2 ^ 192)

theorem limb_toNat (v : U512) (i : ℕ) :
    (limb v i).toNat = v.toNat / 2 ^ (64 * i) % 2 ^ 64 := by
  rw [limb, BitVec.extractLsb'_toNat, Nat.shiftRight_eq_div_pow]

/-- The four high limbs hold what is past 256 bits. -/
theorem highLimbs_iff (v : U512) :
    (limb v 4 ≠ 0 ∨ limb v 5 ≠ 0 ∨ limb v 6 ≠ 0 ∨ limb v 7 ≠ 0) ↔ 2 ^ 256 ≤ v.toNat := by
  have hWord := v.isLt
  have hLimb : ∀ i, limb v i = 0 ↔ v.toNat / 2 ^ (64 * i) % 2 ^ 64 = 0 := by
    intro i
    rw [← limb_toNat, ← BitVec.toNat_inj]
    rfl
  rw [ne_eq, ne_eq, ne_eq, ne_eq, hLimb, hLimb, hLimb, hLimb]
  norm_num only
  omega

/-- `u512_to_u256_safe` limb by limb. -/
theorem u512ToU256Safe_eq_limbs (v : U512) :
    u512ToU256Safe v =
      if limb v 4 ≠ 0 ∨ limb v 5 ≠ 0 ∨ limb v 6 ≠ 0 ∨ limb v 7 ≠ 0 then BitVec.allOnes 256
      else fromLimbs (limb v 0) (limb v 1) (limb v 2) (limb v 3) := by
  apply BitVec.eq_of_toNat_eq
  rw [u512ToU256Safe_eq_min]
  by_cases hHigh : 2 ^ 256 ≤ v.toNat
  · rw [if_pos ((highLimbs_iff v).mpr hHigh), BitVec.toNat_allOnes, min_eq_right]
    exact (Nat.sub_le _ 1).trans hHigh
  · have hLow : v.toNat < 2 ^ 256 := not_le.mp hHigh
    rw [if_neg fun h => hHigh ((highLimbs_iff v).mp h), fromLimbs, BitVec.toNat_ofNat,
      limb_toNat, limb_toNat, limb_toNat, limb_toNat, min_eq_left (Nat.le_sub_one_of_lt hLow)]
    norm_num only
    omega

/-! ## Quotients of every width -/

/-- The product fits 512 bits, and so does its sum with the divisor. -/
structure WideFits (a b d : U256) : Prop where
  product : (toU512 a).toNat * (toU512 b).toNat < 2 ^ 512
  sum : (toU512 a * toU512 b).toNat + (toU512 d).toNat < 2 ^ 512

theorem wideFits (a b d : U256) : WideFits a b d where
  product := by
    rw [toU512_toNat, toU512_toNat, wide_modulus]
    exact Nat.mul_lt_mul'' a.isLt b.isLt
  sum := by
    rw [product_toNat, toU512_toNat, wide_modulus]
    exact mul_add_lt_mul a.isLt b.isLt d.isLt

/-- **Full-width multiply-divide.**  Nothing wraps, only a zero divisor gives nothing, and the
rest is the quotient, rounded down or up and saturated. -/
theorem fullWidth_spec (a b d : U256) :
    WideFits a b d ∧ (mulDiv a b d = none ↔ d = 0) ∧ (mulDivRoundUp a b d = none ↔ d = 0) ∧
      (d ≠ 0 → ∃ q, mulDiv a b d = some q ∧ q.toNat = min (a.toNat * b.toNat / d.toNat) maxWord) ∧
      (d ≠ 0 → ∃ q, mulDivRoundUp a b d = some q ∧
        q.toNat = min (a.toNat * b.toNat ⌈/⌉ d.toNat) maxWord) := by
  have hDown := mulDiv_toNat a b d
  have hUp := mulDivRoundUp_toNat a b d
  refine ⟨wideFits a b d, ?_, ?_, fun hd => ?_, fun hd => ?_⟩
  · simp [mulDiv]
  · simp [mulDivRoundUp]
  · rw [mulDiv, if_neg hd, Option.getD_some] at hDown
    exact ⟨_, if_neg hd, hDown⟩
  · rw [mulDivRoundUp, if_neg hd, Option.getD_some] at hUp
    exact ⟨_, if_neg hd, hUp⟩

/-- `mul_shift_128` of a fraction of `2 ^ 128`. -/
theorem mulShift128_toNat {a : U256} (ha : a.toNat ≤ 2 ^ 128) (b : U128) :
    (mulShift128 a b).toNat = a.toNat * b.toNat / 2 ^ 128 := by
  have hb := b.isLt
  have hProduct : a.toNat * b.toNat ≤ 2 ^ 256 :=
    (Nat.mul_le_mul ha hb.le).trans (by norm_num)
  have hFits : a.toNat * b.toNat < 2 ^ 256 * 2 ^ 256 := hProduct.trans_lt (by norm_num)
  have hWide : (b.setWidth 512).toNat = b.toNat := BitVec.toNat_setWidth_of_le (by decide)
  have hValue : ((toU512 a * b.setWidth 512) >>> 128).toNat = a.toNat * b.toNat / 2 ^ 128 := by
    rw [BitVec.toNat_ushiftRight, Nat.shiftRight_eq_div_pow, BitVec.toNat_mul, toU512_toNat,
      hWide, wide_modulus, Nat.mod_eq_of_lt hFits]
  rw [mulShift128, u512ToU256Safe_toNat, hValue]
  rw [hValue]
  exact (Nat.div_le_div_right hProduct).trans_lt (by norm_num)

end SovereignShadow.Ports.FullWidth
