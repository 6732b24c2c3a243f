import SovereignShadow.Ports.PathQuotes
import SovereignShadow.Ports.SearchRange
import SovereignShadow.Ports.StablePrice

/-!
# The refined stable quote

Port of `get_aerodrome_output` and `aerodrome_k`.  The first guess of the new reserve runs on
`f64` and is a parameter, of any 128 bits.  Three turns of a Newton refinement in 512 bits
follow, each clamped to half or twice the value.

For reserves and an input of 112 bits no product of a turn wraps, whatever the guess: the
value only grows while its level is short of `k`, and then it is not far above the reserve.

## Main results

* `refineLoop_toNat` — the loop is the refinement over the natural numbers.
* `stable_quote` — the quote, and where a refinement that has stopped meets the level.
* `path_total` — no path quote panics.
-/

namespace SovereignShadow.Ports.StableRefinement

open SovereignShadow.Verified.ConstantProduct (quote_lt)
open SovereignShadow.Verified.StableCurve (Settled wholeLevel wholeGrowth refined level
  settled_bracket coordinate_lt refineTurn_le)
open SovereignShadow.Verified
open SovereignShadow.Ports.Models
open SovereignShadow.Ports.Mirror
open SovereignShadow.Ports.MathEngine
open SovereignShadow.Ports.OptimalInput
open SovereignShadow.Ports.V2Quote (InRange reserveOut)
open SovereignShadow.Ports.SearchRange (findOptimalInput_returns middle_toNat)
open SovereignShadow.Ports.TwoPoolOptimum (mul_exact add_exact)
open SovereignShadow.Ports.FullWidth
open SovereignShadow.Ports.StablePrice (Reserve exact_mono three_exact)

/-! ## The code -/

/-- `max`. -/
def wordMax {w : Nat} (a b : BitVec w) : BitVec w := if a < b then b else a

/-- `min`. -/
def wordMin {w : Nat} (a b : BitVec w) : BitVec w := if b < a then b else a

/-- `SCALE_36`, and the `scale` of `aerodrome_k`. -/
def scale36 : U512 := 1000000000000000000000000000000000000

/-- `aerodrome_k`. -/
def aerodromeK (x y : U256) : U256 :=
  let xU := toU512 x
  let yU := toU512 y
  let x3y := xU * xU * xU * yU / scale36
  let y3x := yU * yU * yU * xU / scale36
  u512ToU256Safe (x3y + y3x)

/-- One turn of the refinement; `none` is its `break`. -/
def refineTurn (xNew k y : U256) : Option U256 :=
  let xU := toU512 xNew
  let yU := toU512 y
  let x3 := xU * xU * xU
  let y2 := yU * yU
  let fY := (x3 * yU + y2 * yU * xU) / scale36
  let fPrimeY := (x3 + 3 * y2 * xU) / scale36
  if toU512 k < fY then
    let diff := u512ToU256Safe ((fY - toU512 k) / wordMax fPrimeY 1)
    if diff = 0 then none else some (y - wordMin diff (y / 2))
  else
    let diff := u512ToU256Safe ((toU512 k - fY) / wordMax fPrimeY 1)
    if diff = 0 then none else some (y + wordMin diff y)

/-- `for _ in 0..3`. -/
def refineLoop (xNew k : U256) : Nat → U256 → U256
  | 0, y => y
  | turns + 1, y =>
      match refineTurn xNew k y with
      | none => y
      | some z => refineLoop xNew k turns z

/-- The stable branch of `get_aerodrome_output`, past its test for zeros.  `guess` stands for
`y_f as u128`, a function of `x_new` and the reserves. -/
def stableOutput (guess : Nat → Nat → Nat → BitVec 128) (amountIn rIn rOut : U256) :
    Option U256 := do
  let amountInFee := amountIn * 9997 / 10000
  let xNew := rIn + amountInFee
  let xF ← toU128 xNew
  let rInF ← toU128 rIn
  let rOutF ← toU128 rOut
  let y := (guess xF rInF rOutF).setWidth 256
  some (saturatingSub rOut (refineLoop xNew (aerodromeK rIn rOut) 3 y))

/-! ## Words -/

theorem wordMax_toNat {w : Nat} (a b : BitVec w) :
    (wordMax a b).toNat = max a.toNat b.toNat := by
  unfold wordMax
  by_cases h : a < b
  · rw [if_pos h, max_eq_right (BitVec.lt_def.mp h).le]
  · have hLe : b.toNat ≤ a.toNat := not_lt.mp fun hNat => h (BitVec.lt_def.mpr hNat)
    rw [if_neg h, max_eq_left hLe]

theorem wordMin_toNat {w : Nat} (a b : BitVec w) :
    (wordMin a b).toNat = min a.toNat b.toNat := by
  unfold wordMin
  by_cases h : b < a
  · rw [if_pos h, min_eq_right (BitVec.lt_def.mp h).le]
  · have hLe : a.toNat ≤ b.toNat := not_lt.mp fun hNat => h (BitVec.lt_def.mpr hNat)
    rw [if_neg h, min_eq_left hLe]

theorem scale36_toNat : scale36.toNat = 10 ^ 36 := by decide +kernel

theorem one_toNat : (1 : U512).toNat = 1 := by decide +kernel

theorem zero_toNat : (0 : U256).toNat = 0 := by decide

/-! ## One turn -/

section Turn

variable {xNew k y : U256} {a b : ℕ} (hx : xNew.toNat = a ∧ a < 2 ^ 113)
  (hy : y.toNat = b ∧ b < 2 ^ 128)

theorem word_exact {v : U256} {i n : ℕ} (h : v.toNat = n ∧ n < 2 ^ i) :
    (toU512 v).toNat = n ∧ n < 2 ^ i :=
  ⟨(toU512_toNat v).trans h.1, h.2⟩

include hx hy

theorem level_toNat :
    ((toU512 xNew * toU512 xNew * toU512 xNew * toU512 y +
      toU512 y * toU512 y * toU512 y * toU512 xNew) / scale36).toNat =
        wholeLevel (10 ^ 36) (a ^ 3) a b := by
  have hX := word_exact hx
  have hY := word_exact hy
  have hCubeIn := mul_exact (mul_exact hX hX (by norm_num)) hX (by norm_num)
  have hCubeOut := mul_exact (mul_exact hY hY (by norm_num)) hY (by norm_num)
  have hIn := mul_exact hCubeIn hY (by norm_num)
  have hOut := mul_exact hCubeOut hX (by norm_num)
  have hSum := add_exact (exact_mono hIn (by norm_num)) hOut (by norm_num)
  rw [BitVec.toNat_udiv, hSum.1, scale36_toNat, wholeLevel]
  congr 1
  ring

theorem growth_toNat :
    ((toU512 xNew * toU512 xNew * toU512 xNew +
      3 * (toU512 y * toU512 y) * toU512 xNew) / scale36).toNat =
        wholeGrowth (10 ^ 36) (a ^ 3) a b := by
  have hX := word_exact hx
  have hY := word_exact hy
  have hCubeIn := mul_exact (mul_exact hX hX (by norm_num)) hX (by norm_num)
  have hSquare := mul_exact hY hY (by norm_num)
  have hOut := mul_exact (mul_exact three_exact hSquare (by norm_num)) hX (by norm_num)
  have hSum := add_exact (exact_mono hCubeIn (by norm_num)) hOut (by norm_num)
  rw [BitVec.toNat_udiv, hSum.1, scale36_toNat, wholeGrowth]
  congr 1
  ring

omit hx hy in
/-- A clamped quotient is not touched by the saturation. -/
theorem clamp_toNat {q d : U512} {v : U256} (hv : v.toNat < 2 ^ 128) :
    (wordMin (u512ToU256Safe (q / d)) v).toNat = min (q.toNat / d.toNat) v.toNat := by
  have hWord : maxWord = 2 ^ 256 - 1 := rfl
  rw [wordMin_toNat, u512ToU256Safe_eq_min, BitVec.toNat_udiv]
  omega

omit hx hy in
theorem quotient_eq_zero_iff {q d : U512} :
    u512ToU256Safe (q / d) = 0 ↔ q.toNat / d.toNat = 0 := by
  have hWord : maxWord = 2 ^ 256 - 1 := rfl
  rw [← BitVec.toNat_inj, u512ToU256Safe_eq_min, BitVec.toNat_udiv, zero_toNat]
  omega

/-- **One turn** is a turn over the natural numbers. -/
theorem refineTurn_toNat :
    (refineTurn xNew k y).map BitVec.toNat =
      Verified.StableCurve.refineTurn (10 ^ 36) (a ^ 3) a k.toNat b := by
  have hLevel := level_toNat hx hy
  have hGrowth := growth_toNat hx hy
  have hHalf : (y / 2).toNat = b / 2 := by
    rw [BitVec.toNat_udiv, hy.1]
    rfl
  unfold refineTurn Verified.StableCurve.refineTurn
  simp only [BitVec.lt_def, toU512_toNat, quotient_eq_zero_iff, wordMax_toNat, one_toNat, hLevel,
    hGrowth]
  by_cases hAbove : k.toNat < wholeLevel (10 ^ 36) (a ^ 3) a b
  · have hDiff : ((toU512 xNew * toU512 xNew * toU512 xNew * toU512 y +
        toU512 y * toU512 y * toU512 y * toU512 xNew) / scale36 - toU512 k).toNat =
          wholeLevel (10 ^ 36) (a ^ 3) a b - k.toNat := by
      rw [BitVec.toNat_sub_of_le, hLevel, toU512_toNat]
      rw [BitVec.le_def, hLevel, toU512_toNat]
      exact hAbove.le
    rw [if_pos hAbove, if_pos hAbove, hDiff]
    split
    · rfl
    · rw [Option.map_some, BitVec.toNat_sub_of_le, clamp_toNat (by omega), wordMax_toNat, hGrowth,
        hDiff, one_toNat, hHalf, hy.1]
      rw [BitVec.le_def, clamp_toNat (by omega), hHalf, hy.1]
      omega
  · have hDiff : (toU512 k - (toU512 xNew * toU512 xNew * toU512 xNew * toU512 y +
        toU512 y * toU512 y * toU512 y * toU512 xNew) / scale36).toNat =
          k.toNat - wholeLevel (10 ^ 36) (a ^ 3) a b := by
      rw [BitVec.toNat_sub_of_le, hLevel, toU512_toNat]
      rw [BitVec.le_def, hLevel, toU512_toNat]
      exact not_lt.mp hAbove
    rw [if_neg hAbove, if_neg hAbove, hDiff]
    split
    · rfl
    · have hClamp := @clamp_toNat (toU512 k - (toU512 xNew * toU512 xNew * toU512 xNew * toU512 y +
        toU512 y * toU512 y * toU512 y * toU512 xNew) / scale36)
          (wordMax ((toU512 xNew * toU512 xNew * toU512 xNew +
            3 * (toU512 y * toU512 y) * toU512 xNew) / scale36) 1) y (by omega)
      rw [wordMax_toNat, hGrowth, hDiff, one_toNat, hy.1] at hClamp
      rw [Option.map_some, BitVec.toNat_add_of_lt, hClamp, hy.1]
      rw [hClamp, hy.1]
      omega

end Turn

/-! ## The loop -/

/-- Below the level `k` the value has a bit to spare. -/
def Roomy (a k : ℕ) : Prop := ∀ b, wholeLevel (10 ^ 36) (a ^ 3) a b ≤ k → b < 2 ^ 127

/-- **The loop** is the refinement over the natural numbers. -/
theorem refineLoop_toNat {xNew k : U256} {a : ℕ} (hx : xNew.toNat = a ∧ a < 2 ^ 113)
    (hRoomy : Roomy a k.toNat) (turns : ℕ) {y : U256} {b : ℕ} (hy : y.toNat = b ∧ b < 2 ^ 128) :
    (refineLoop xNew k turns y).toNat = refined (10 ^ 36) (a ^ 3) a k.toNat turns b ∧
      refined (10 ^ 36) (a ^ 3) a k.toNat turns b < 2 ^ 128 := by
  induction turns generalizing y b with
  | zero => exact hy
  | succ turns ih =>
      have hTurn := @refineTurn_toNat xNew k y a b hx hy
      unfold refineLoop refined
      rw [← hTurn]
      cases hNext : refineTurn xNew k y with
      | none => exact hy
      | some z =>
          rw [hNext] at hTurn
          have hSmall : z.toNat < 2 ^ 128 := by
            rcases refineTurn_le hTurn.symm with hDown | ⟨hBelow, hUp⟩
            · omega
            · have hRoom := hRoomy b hBelow
              omega
          exact ih ⟨rfl, hSmall⟩

/-! ## The level of a pool -/

section Pool

variable {rIn rOut : U256} (hIn : Reserve rIn) (hOut : Reserve rOut)

/-- `k`, saturated. -/
def poolLevel (rIn rOut : ℕ) : ℕ :=
  min (rIn ^ 3 * rOut / 10 ^ 36 + rOut ^ 3 * rIn / 10 ^ 36) maxWord

theorem poolLevel_mul_le (r o : ℕ) : 10 ^ 36 * poolLevel r o ≤ level r o := by
  have hFirst := Nat.mul_div_le (r ^ 3 * o) (10 ^ 36)
  have hSecond := Nat.mul_div_le (o ^ 3 * r) (10 ^ 36)
  calc 10 ^ 36 * poolLevel r o
      ≤ 10 ^ 36 * (r ^ 3 * o / 10 ^ 36 + o ^ 3 * r / 10 ^ 36) :=
        Nat.mul_le_mul_left _ (min_le_left _ _)
    _ = 10 ^ 36 * (r ^ 3 * o / 10 ^ 36) + 10 ^ 36 * (o ^ 3 * r / 10 ^ 36) := Nat.mul_add _ _ _
    _ ≤ level r o := Nat.add_le_add hFirst hSecond

include hIn hOut

theorem aerodromeK_toNat : (aerodromeK rIn rOut).toNat = poolLevel rIn.toNat rOut.toNat := by
  have hX := hIn.exact
  have hY := hOut.exact
  have hCubeIn := mul_exact (mul_exact hX hX (by norm_num)) hX (by norm_num)
  have hCubeOut := mul_exact (mul_exact hY hY (by norm_num)) hY (by norm_num)
  have hFirst := mul_exact hCubeIn hY (by norm_num)
  have hSecond := mul_exact hCubeOut hX (by norm_num)
  unfold aerodromeK poolLevel
  rw [u512ToU256Safe_eq_min, BitVec.toNat_add_of_lt]
  · rw [BitVec.toNat_udiv, BitVec.toNat_udiv, hFirst.1, hSecond.1, scale36_toNat]
    congr 3
    · ring
    · ring
  · rw [BitVec.toNat_udiv, BitVec.toNat_udiv, hFirst.1, hSecond.1, scale36_toNat]
    have hFirstLt := hFirst.2
    have hSecondLt := hSecond.2
    omega

/-- A larger input reserve than that of `k` leaves room. -/
theorem roomy {a : ℕ} (hLe : rIn.toNat ≤ a) : Roomy a (poolLevel rIn.toNat rOut.toNat) := by
  intro b hLevel
  have hMul := poolLevel_mul_le rIn.toNat rOut.toNat
  have hFloor := Nat.lt_mul_div_succ (a ^ 3 * b + b ^ 3 * a) (show 0 < 10 ^ 36 by norm_num)
  have hUnits := Nat.mul_le_mul_left (10 ^ 36) hLevel
  have hNear : level a b < level rIn.toNat rOut.toNat + (10 ^ 12) ^ 3 := by
    unfold wholeLevel at hUnits
    unfold level at hMul ⊢
    omega
  have hBound := coordinate_lt hIn.1 hLe hNear
  have hReserve := hOut.2
  omega

end Pool

/-! ## The quote -/

/-- `x_new`. -/
def inputReserve (amountIn rIn : ℕ) : ℕ := rIn + amountIn * 9997 / 10000

/-- The refined reserve of the output. -/
def newReserve (guess : ℕ → ℕ → ℕ → BitVec 128) (amountIn rIn rOut : ℕ) : ℕ :=
  let x := inputReserve amountIn rIn
  refined (10 ^ 36) (x ^ 3) x (poolLevel rIn rOut) 3 (guess x rIn rOut).toNat

section Quote

variable (guess : ℕ → ℕ → ℕ → BitVec 128) {amountIn rIn rOut : U256} (hIn : Reserve rIn)
  (hOut : Reserve rOut) (hAmount : amountIn.toNat < 2 ^ 112)
include hIn hAmount

theorem inputReserve_toNat :
    (rIn + amountIn * 9997 / 10000).toNat = inputReserve amountIn.toNat rIn.toNat ∧
      inputReserve amountIn.toNat rIn.toNat < 2 ^ 113 := by
  have hRate : (9997 : U256).toNat = 9997 := by decide
  have hBase : (10000 : U256).toNat = 10000 := by decide
  have hReserve := hIn.2
  have hShare : (amountIn * 9997 / 10000).toNat = amountIn.toNat * 9997 / 10000 := by
    rw [BitVec.toNat_udiv, BitVec.toNat_mul_of_lt, hRate, hBase]
    rw [hRate]
    omega
  unfold inputReserve
  constructor
  · rw [BitVec.toNat_add_of_lt, hShare]
    rw [hShare]
    omega
  · omega

include hOut

/-- **The quote** past the test for zeros. -/
theorem stableOutput_eq :
    ∃ out, stableOutput guess amountIn rIn rOut = some out ∧
      out.toNat = rOut.toNat - newReserve guess amountIn.toNat rIn.toNat rOut.toNat ∧
      newReserve guess amountIn.toNat rIn.toNat rOut.toNat < 2 ^ 128 := by
  have hNew := inputReserve_toNat hIn hAmount
  have hLe : rIn.toNat ≤ inputReserve amountIn.toNat rIn.toNat := Nat.le_add_right _ _
  have hRoomy := roomy hIn hOut hLe
  rw [← aerodromeK_toNat hIn hOut] at hRoomy
  have hGuess : ((guess (inputReserve amountIn.toNat rIn.toNat) rIn.toNat rOut.toNat).setWidth
      256).toNat = (guess (inputReserve amountIn.toNat rIn.toNat) rIn.toNat rOut.toNat).toNat :=
    BitVec.toNat_setWidth_of_le (by norm_num)
  have hLoop := refineLoop_toNat hNew hRoomy 3 ⟨hGuess, BitVec.isLt _⟩
  have hInSmall := hIn.2
  have hOutSmall := hOut.2
  rw [aerodromeK_toNat hIn hOut] at hLoop
  have hOutput : stableOutput guess amountIn rIn rOut =
      some (saturatingSub rOut (refineLoop (rIn + amountIn * 9997 / 10000) (aerodromeK rIn rOut) 3
        ((guess (inputReserve amountIn.toNat rIn.toNat) rIn.toNat rOut.toNat).setWidth 256))) := by
    unfold stableOutput toU128
    simp only [hNew.1]
    rw [if_pos (by omega), if_pos (by omega), if_pos (by omega)]
    rfl
  rw [hOutput]
  refine ⟨_, rfl, ?_, hLoop.2⟩
  rw [saturatingSub_toNat, hLoop.1]
  rfl

/-- **The refined quote.**  The code quotes the reserve over the refined value, which never
wraps; if the refinement has come to rest, the level of the pool is met between three units
below that value and one above. -/
theorem stable_quote :
    (∃ out, stableOutput guess amountIn rIn rOut = some out ∧
      out.toNat = rOut.toNat - newReserve guess amountIn.toNat rIn.toNat rOut.toNat) ∧
      let x := inputReserve amountIn.toNat rIn.toNat
      let y := newReserve guess amountIn.toNat rIn.toNat rOut.toNat
      let k := poolLevel rIn.toNat rOut.toNat
      Settled (10 ^ 36) (x ^ 3) x k y →
        wholeLevel (10 ^ 36) (x ^ 3) x (y - 3) ≤ k ∧
          k ≤ wholeLevel (10 ^ 36) (x ^ 3) x (y + 1) := by
  obtain ⟨out, hEq, hOutput, -⟩ := stableOutput_eq guess hIn hOut hAmount
  exact ⟨⟨out, hEq, hOutput⟩, fun hSettled => settled_bracket (by norm_num) hSettled⟩

end Quote

/-- A million and a million at six decimals, a thousand in, and a guess that is a few cents
off: the refinement comes to rest. -/
theorem stable_quote_million :
    let x := inputReserve (1000000000 : U256).toNat (1000000000000 : U256).toNat
    let y := newReserve (fun _ _ _ => 999000300000) (1000000000 : U256).toNat
      (1000000000000 : U256).toNat (1000000000000 : U256).toNat
    let k := poolLevel (1000000000000 : U256).toNat (1000000000000 : U256).toNat
    wholeLevel (10 ^ 36) (x ^ 3) x (y - 3) ≤ k ∧ k ≤ wholeLevel (10 ^ 36) (x ^ 3) x (y + 1) :=
  (@stable_quote (fun _ _ _ => 999000300000) 1000000000 1000000000000 1000000000000
    ⟨by decide, by decide⟩ ⟨by decide, by decide⟩ (by decide)).2 (by decide +kernel)

/-! ## Paths -/

/-- Reserves of 112 bits, possibly empty. -/
def Small (state : PoolState) : Prop :=
  state.reserves0.toNat < 2 ^ 112 ∧ state.reserves1.toNat < 2 ^ 112

theorem getV2Output_lt {state : PoolState} (h : Small state) (hop : Hop) (x : U256) :
    (getV2Output x state hop.zeroForOne).toNat < 2 ^ 112 := by
  by_cases hStocked : state.reserves0 ≠ 0 ∧ state.reserves1 ≠ 0
  · have hReserves : InRange state :=
      ⟨toNat_pos_iff.mpr hStocked.1, h.1.trans (by norm_num), toNat_pos_iff.mpr hStocked.2,
        h.2.trans (by norm_num)⟩
    obtain ⟨⟨hIn, -⟩, hOut, -⟩ := hReserves.sides hop.zeroForOne
    have hLast : (reserveOut state hop.zeroForOne).toNat < 2 ^ 112 := by
      unfold reserveOut reservesFor
      cases hop.zeroForOne
      · exact h.1
      · exact h.2
    rw [hReserves.getV2Output_toNat hop.zeroForOne x]
    exact (quote_lt (by norm_num) hIn hOut _).trans hLast
  · rw [getV2Output, if_neg hStocked]
    decide

section Path

variable (guess : ℕ → ℕ → ℕ → BitVec 128)

/-- One hop. -/
theorem hopOutput_lt {state : PoolState} (h : Small state) (hop : Hop) {x : U256}
    (hx : x.toNat < 2 ^ 112) :
    ∃ out, hopOutput (stableOutput guess) hop x state = some out ∧ out.toNat < 2 ^ 112 := by
  unfold hopOutput
  cases hop.dexType with
  | uniswapV2 => exact ⟨_, rfl, getV2Output_lt h hop x⟩
  | uniswapV3 => exact ⟨0, rfl, by decide⟩
  | maverickV2 => exact ⟨0, rfl, by decide⟩
  | aerodrome =>
      show ∃ out, getAerodromeOutput (stableOutput guess) x state hop.zeroForOne = some out ∧ _
      unfold getAerodromeOutput
      by_cases hStable : state.isStable
      · have hSides : (reservesFor state hop.zeroForOne).1.toNat < 2 ^ 112 ∧
            (reservesFor state hop.zeroForOne).2.toNat < 2 ^ 112 := by
          unfold reservesFor
          cases hop.zeroForOne
          · exact h.symm
          · exact h
        rw [if_neg (not_not.mpr hStable)]
        simp only
        by_cases hZero : x = 0 ∨ (reservesFor state hop.zeroForOne).1 = 0 ∨
            (reservesFor state hop.zeroForOne).2 = 0
        · rw [if_pos hZero]
          exact ⟨0, rfl, by decide⟩
        · rw [if_neg hZero]
          simp only [not_or] at hZero
          obtain ⟨out, hOut, hValue, -⟩ := stableOutput_eq guess
            ⟨toNat_pos_iff.mpr hZero.2.1, hSides.1⟩ ⟨toNat_pos_iff.mpr hZero.2.2, hSides.2⟩ hx
          have hReserve := hSides.2
          exact ⟨out, hOut, by omega⟩
      · rw [if_pos hStable]
        exact ⟨_, rfl, getV2Output_lt h hop x⟩

/-- **No path quote panics.** -/
theorem path_total {hops : List Hop} {states : List PoolState}
    (hLength : hops.length ≤ states.length) (hSmall : ∀ state ∈ states, Small state) {x : U256}
    (hx : x.toNat < 2 ^ 112) :
    ∃ out, getPathOutputWithStates (stableOutput guess) hops x states = some out ∧
      out.toNat < 2 ^ 112 := by
  induction hops generalizing x states with
  | nil => exact ⟨x, rfl, hx⟩
  | cons hop hops ih =>
      by_cases hZero : x = 0
      · exact ⟨0, by rw [hZero, pathOutput_zero], by decide⟩
      · cases states with
        | nil => exact absurd hLength (by simp)
        | cons state states =>
            rw [List.forall_mem_cons] at hSmall
            obtain ⟨mid, hMid, hMidLt⟩ := hopOutput_lt guess hSmall.1 hop hx
            obtain ⟨out, hOut, hOutLt⟩ := ih (Nat.le_of_succ_le_succ hLength) hSmall.2 hMidLt
            refine ⟨out, ?_, hOutLt⟩
            rw [getPathOutputWithStates, if_neg hZero]
            exact Option.bind_eq_some_iff.mpr ⟨mid, hMid, hOut⟩

theorem cycleProfit_eq {hops : List Hop} {states : List PoolState} {x out : U256}
    (h : getPathOutputWithStates (stableOutput guess) hops x states = some out)
    (hOut : out.toNat < 2 ^ 112) :
    cycleProfit (stableOutput guess) hops states x = some (saturatingSub out x) := by
  have hSub := saturatingSub_toNat out x
  rw [cycleProfit, h]
  show some (toI256OrZero (saturatingSub out x)) = some (saturatingSub out x)
  rw [toI256OrZero, if_pos (by omega)]

/-- The objective as a function of all inputs. -/
def profitAt (hops : List Hop) (states : List PoolState) (n : ℕ) : ℤ :=
  ((((getPathOutputWithStates (stableOutput guess) hops (BitVec.ofNat 256 n) states).getD 0).toNat -
    n : ℕ) : ℤ)

theorem profitAt_computes {hops : List Hop} {states : List PoolState}
    (hLength : hops.length ≤ states.length) (hSmall : ∀ state ∈ states, Small state) :
    ComputesOn (cycleProfit (stableOutput guess) hops states) (profitAt guess hops states)
      minInput.toNat maxInput.toNat := by
  intro x _ hHigh
  have hMax : maxInput.toNat = 100000000000000000000 := by decide
  obtain ⟨out, hOut, hLt⟩ := @path_total guess hops states hLength hSmall x (by omega)
  have hSub := saturatingSub_toNat out x
  refine ⟨_, cycleProfit_eq guess hOut hLt, ?_⟩
  rw [BitVec.toInt_eq_toNat_of_lt (by omega), hSub, profitAt, BitVec.ofNat_toNat,
    BitVec.setWidth_eq, hOut]
  rfl

/-- **The sizing of a path.**  Over as many states as hops, of 112-bit reserves each, no quote
panics and the search ends, with nothing or with an input in range that quotes itself and the
profit. -/
theorem sizing_total {hops : List Hop} {states : List PoolState}
    (hLength : hops.length ≤ states.length) (hSmall : ∀ state ∈ states, Small state) :
    (∀ x : U256, x.toNat < 2 ^ 112 →
      ∃ out, getPathOutputWithStates (stableOutput guess) hops x states = some out ∧
        out.toNat < 2 ^ 112) ∧
      ∃ input profit, optimalCycleInput (stableOutput guess) hops states = some (input, profit) ∧
        ((input = 0 ∧ profit = 0) ∨
          (minInput ≤ input ∧ input ≤ maxInput) ∧ 0 < profit ∧
            ∃ out, getPathOutputWithStates (stableOutput guess) hops input states = some out ∧
              out.toNat = input.toNat + profit.toNat) := by
  have hTotal := fun (x : U256) hx => @path_total guess hops states hLength hSmall x hx
  refine ⟨hTotal, ?_⟩
  have hComputes := profitAt_computes guess hLength hSmall
  have hMin : minInput.toNat = 1000000000000000 := by decide
  have hMax : maxInput.toNat = 100000000000000000000 := by decide
  have hOrder : minInput.toNat ≤ maxInput.toNat := by omega
  have hRoom : (maxInput.toNat - minInput.toNat) * GoldenSection.phiNum < 2 ^ 256 := by
    rw [hMin, hMax]
    norm_num [GoldenSection.phiNum]
  obtain ⟨_, s, v, hVisits, -, hValue, hResult⟩ :=
    findOptimalInput_returns hComputes hOrder hRoom (by omega)
  by_cases hLoss : v.sle 0 = true
  · rw [if_pos hLoss] at hResult
    exact ⟨0, 0, hResult, Or.inl ⟨rfl, rfl⟩⟩
  · rw [if_neg hLoss] at hResult
    obtain ⟨t, hAgrees, hTracked⟩ := hVisits.tracked hComputes hOrder hRoom
    have ha := hAgrees.a
    have hb := hAgrees.b
    have hLow := hTracked.low
    have hHigh := hTracked.high
    have hab := hTracked.ordered.ab
    have hMiddle := @middle_toNat s.a s.b (by omega) (by omega)
    obtain ⟨out, hOut, hLt⟩ := hTotal ((s.a + s.b) / 2) (by omega)
    rw [cycleProfit_eq guess hOut hLt] at hValue
    obtain rfl := Option.some.inj hValue
    have hSub := saturatingSub_toNat out ((s.a + s.b) / 2)
    have hProfit : 0 < (saturatingSub out ((s.a + s.b) / 2)).toNat := by
      rw [BitVec.sle_iff_toInt_le, BitVec.toInt_eq_toNat_of_lt (by omega)] at hLoss
      have hZero : (0 : I256).toInt = 0 := by decide
      omega
    refine ⟨_, _, hResult, Or.inr ⟨⟨?_, ?_⟩, hProfit, out, hOut, by omega⟩⟩
    · rw [BitVec.le_def]
      omega
    · rw [BitVec.le_def]
      omega

end Path

/-- A swap in a stable pool; the guess below is the reserve itself. -/
def stableHop : Hop where
  pool := 0x11
  poolAddress := 0x11
  tokenIn := 0xA
  tokenOut := 0xB
  dexType := .aerodrome
  dexName := .aerodrome
  zeroForOne := true
  isStable := true

def reserveGuess : ℕ → ℕ → ℕ → BitVec 128 := fun _ _ rOut => BitVec.ofNat 128 rOut

theorem sizing_total_stable :
    (∀ x : U256, x.toNat < 2 ^ 112 →
      ∃ out, getPathOutputWithStates (stableOutput reserveGuess) [stableHop] x
        [⟨1000000000000, 1000000000000, .aerodrome, true⟩] = some out ∧ out.toNat < 2 ^ 112) ∧
      ∃ input profit, optimalCycleInput (stableOutput reserveGuess) [stableHop]
        [⟨1000000000000, 1000000000000, .aerodrome, true⟩] = some (input, profit) ∧
        ((input = 0 ∧ profit = 0) ∨
          (minInput ≤ input ∧ input ≤ maxInput) ∧ 0 < profit ∧
            ∃ out, getPathOutputWithStates (stableOutput reserveGuess) [stableHop] input
              [⟨1000000000000, 1000000000000, .aerodrome, true⟩] = some out ∧
              out.toNat = input.toNat + profit.toNat) :=
  sizing_total reserveGuess (by decide) (by
    intro state hState
    rw [List.mem_singleton] at hState
    rw [hState]
    exact ⟨by decide, by decide⟩)

end SovereignShadow.Ports.StableRefinement
