import Mathlib

/-!
# Scanning a word for a set bit

The masks of the bits up to and from a position, built from shifts of one, and the highest
and lowest set bits of a word under such a mask.

## Main results

* `lastSet_spec` — the highest set bit at or below a position.
* `firstSet_spec` — the lowest set bit at or above a position.
-/

namespace SovereignShadow.Verified.BitScan

variable {w : ℕ}

/-- `(1 << b) - 1 + (1 << b)`. -/
def upToBit (b : ℕ) : BitVec w := ((1 : BitVec w) <<< b) - 1 + (1 : BitVec w) <<< b

/-- `!((1 << b) - 1)`. -/
def fromBit (b : ℕ) : BitVec w := ~~~ (((1 : BitVec w) <<< b) - 1)

theorem shift_toNat {b : ℕ} (hb : b < w) : ((1 : BitVec w) <<< b).toNat = 2 ^ b := by
  show (1#w <<< b).toNat = 2 ^ b
  rw [← BitVec.twoPow_eq, BitVec.toNat_twoPow,
    Nat.mod_eq_of_lt (Nat.pow_lt_pow_right (by norm_num) hb)]

theorem pred_shift_toNat {b : ℕ} (hb : b < w) :
    ((1 : BitVec w) <<< b - 1).toNat = 2 ^ b - 1 := by
  have hOne : (1 : BitVec w).toNat = 1 := BitVec.toNat_one (by omega)
  rw [BitVec.toNat_sub_of_le, shift_toNat hb, hOne]
  rw [BitVec.le_def, shift_toNat hb, hOne]
  exact Nat.one_le_two_pow

theorem getLsbD_upTo {b : ℕ} (hb : b < w) (i : ℕ) :
    (upToBit b : BitVec w).getLsbD i = decide (i ≤ b) := by
  have hDouble : 2 ^ b - 1 + 2 ^ b = 2 ^ (b + 1) - 1 := by
    have := Nat.one_le_two_pow (n := b)
    rw [pow_succ]
    omega
  have hFits : 2 ^ b - 1 + 2 ^ b < 2 ^ w := by
    have hPow : 2 ^ (b + 1) ≤ 2 ^ w := Nat.pow_le_pow_right (by norm_num) hb
    have := Nat.one_le_two_pow (n := b + 1)
    omega
  rw [BitVec.getLsbD, upToBit, BitVec.toNat_add, pred_shift_toNat hb, shift_toNat hb,
    Nat.mod_eq_of_lt hFits, hDouble, Nat.testBit_two_pow_sub_one]
  simp

theorem getLsbD_from {b : ℕ} (hb : b < w) {i : ℕ} (hi : i < w) :
    (fromBit b : BitVec w).getLsbD i = decide (b ≤ i) := by
  rw [fromBit, BitVec.getLsbD_not, BitVec.getLsbD, pred_shift_toNat hb,
    Nat.testBit_two_pow_sub_one, decide_eq_true hi, Bool.true_and, ← decide_not]
  exact decide_eq_decide.mpr not_lt

/-- The highest set bit. -/
theorem log2_spec {x : BitVec w} (hx : x ≠ 0) :
    x.getLsbD x.toNat.log2 = true ∧ ∀ i, x.toNat.log2 < i → x.getLsbD i = false := by
  have hNat : x.toNat ≠ 0 := fun h => hx (BitVec.eq_of_toNat_eq h)
  refine ⟨Nat.testBit_log2 hNat, fun i hi => ?_⟩
  apply Nat.testBit_lt_two_pow
  exact Nat.lt_log2_self.trans_le (Nat.pow_le_pow_right (by norm_num) hi)

variable {word : BitVec w} {b : ℕ} (hb : b < w)
include hb

/-- **The highest set bit at or below `b`.** -/
theorem lastSet_spec (hSome : word &&& upToBit b ≠ 0) :
    let last := (word &&& upToBit b).toNat.log2
    last ≤ b ∧ word.getLsbD last = true ∧
      ∀ i, last < i → i ≤ b → word.getLsbD i = false := by
  intro last
  obtain ⟨hSet, hAbove⟩ := log2_spec hSome
  rw [BitVec.getLsbD_and, getLsbD_upTo hb, Bool.and_eq_true, decide_eq_true_eq] at hSet
  refine ⟨hSet.2, hSet.1, fun i hi hib => ?_⟩
  have hClear := hAbove i hi
  rw [BitVec.getLsbD_and, getLsbD_upTo hb, decide_eq_true hib, Bool.and_true] at hClear
  exact hClear

theorem none_upTo (hNone : word &&& upToBit b = 0) {i : ℕ} (hi : i ≤ b) :
    word.getLsbD i = false := by
  have hClear := congrArg (BitVec.getLsbD · i) hNone
  simpa [BitVec.getLsbD_and, getLsbD_upTo hb, hi] using hClear

/-- **The lowest set bit at or above `b`.** -/
theorem firstSet_spec (hSome : word &&& fromBit b ≠ 0) :
    let first := (word &&& fromBit b).ctz.toNat
    b ≤ first ∧ first < w ∧ word.getLsbD first = true ∧
      ∀ i, b ≤ i → i < first → word.getLsbD i = false := by
  intro first
  have hSet : (word &&& fromBit b).getLsbD first = true :=
    BitVec.getLsbD_true_ctz_of_ne_zero hSome
  have hRange : first < w := by
    by_contra hOut
    rw [BitVec.getLsbD_of_ge _ _ (not_lt.mp hOut)] at hSet
    exact absurd hSet (by decide)
  rw [BitVec.getLsbD_and, getLsbD_from hb hRange, Bool.and_eq_true, decide_eq_true_eq] at hSet
  refine ⟨hSet.2, hRange, hSet.1, fun i hbi hi => ?_⟩
  have hClear : (word &&& fromBit b).getLsbD i = false := BitVec.getLsbD_false_of_lt_ctz hi
  rw [BitVec.getLsbD_and, getLsbD_from hb (hi.trans hRange), decide_eq_true hbi,
    Bool.and_true] at hClear
  exact hClear

theorem none_from (hNone : word &&& fromBit b = 0) {i : ℕ} (hbi : b ≤ i) :
    word.getLsbD i = false := by
  by_cases hi : i < w
  · have hClear := congrArg (BitVec.getLsbD · i) hNone
    simpa [BitVec.getLsbD_and, getLsbD_from hb hi, hbi] using hClear
  · exact BitVec.getLsbD_of_ge _ _ (not_lt.mp hi)

end SovereignShadow.Verified.BitScan
