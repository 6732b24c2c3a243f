import SovereignShadow.Ports.SwapLoop

/-!
# The swap loop between its start and its limit

With every iteration in bounds, the loop from a price and its tick ends, and no price leaves
the interval from the start to the limit.  Upwards past `MAX_TICK` the next tick's price is
zero, which is not above any limit, so it becomes the target.

## Main results

* `swap_between` — prices and termination of a run in bounds.
* `price_drops_to_zero` — an upward swap whose price falls to zero.
-/

namespace SovereignShadow.Ports.SwapTermination

open SovereignShadow.Verified
open SovereignShadow.Verified.Checked (Build)
open SovereignShadow.Verified.WhileLoop
open SovereignShadow.Ports.Models
open SovereignShadow.Ports.V3Math
open SovereignShadow.Ports.SwapStep
open SovereignShadow.Ports.SwapLoop

variable {build : Build} {params : SwapParams}

/-- A downward crossing never adds liquidity. -/
theorem crossedLiquidity_le (hDown : params.zeroForOne = true) (liquidity : U256) (next : ℤ) :
    params.crossedLiquidity liquidity next ≤ liquidity := by
  unfold SwapParams.crossedLiquidity
  split
  · exact BitVec.le_refl _
  · rw [hDown, if_pos rfl]
    show (saturatingSub liquidity _).toNat ≤ liquidity.toNat
    rw [OptimalInput.saturatingSub_toNat]
    exact Nat.sub_le _ _

/-- What every state of the loop keeps. -/
structure Inv (build : Build) (params : SwapParams) (sqrtPriceX96 : U256) (s : SwapState) :
    Prop extends OnTrack build params s where
  forward : Toward params.zeroForOne sqrtPriceX96 s.sqrtPriceX96
  liquidity : params.zeroForOne = true → s.liquidity.toNat < 2 ^ 128

theorem inv_step (hSound : Sound params) {sqrtPriceX96 : U256} {s s' : SwapState}
    (h : Inv build params sqrtPriceX96 s) (hGuard : (params.swapLoop build).guard s = true)
    (hBounds : InBounds build params s) (hStep : params.step build s = some s') :
    Inv build params sqrtPriceX96 s' := by
  have hReady := h.ready hGuard h.liquidity
  obtain ⟨hSteps, hMax, _⟩ := step_spec hSound hReady hGuard hBounds hStep
  refine ⟨hSteps.onTrack hSound.spacing hReady hMax, h.forward.trans hSteps.forward,
    fun hDown => ?_⟩
  have hLess : s'.liquidity ≤ s.liquidity := by
    by_cases hCross : s'.sqrtPriceX96 = getSqrtRatioAtTick (nextTickOf params s)
    · rw [(hSteps.crossed hCross).2]
      exact crossedLiquidity_le hDown _ _
    · rw [(hSteps.stopped hCross).2]
      exact BitVec.le_refl _
  exact (BitVec.le_def.mp hLess).trans_lt (h.liquidity hDown)

section Run

variable {sqrtPriceX96 : U256} {start : SwapState} (hSound : Sound params)
  (hStart : Inv build params sqrtPriceX96 start)
  (hBounds : ∀ s, Reaches (params.swapLoop build) start s →
    (params.swapLoop build).guard s = true → InBounds build params s)
include hSound hStart hBounds

theorem inv_reaches {s : SwapState} (h : Reaches (params.swapLoop build) start s) :
    Inv build params sqrtPriceX96 s := by
  apply Reaches.invariant (Inv build params sqrtPriceX96) (InBounds build params)
  · intro t t' hInv hGuard hOk hBody
    exact inv_step hSound hInv hGuard hOk hBody
  · exact hStart
  · exact hBounds
  · exact h

theorem loop_ends : ∃ n result, run (params.swapLoop build) n start = some result := by
  apply exists_run (fun s => Inv build params sqrtPriceX96 s ∧
    ((params.swapLoop build).guard s = true → InBounds build params s)) (ticksLeft params)
  · intro s s' hInv hGuard hBody hGuard'
    have hReady := hInv.1.ready hGuard hInv.1.liquidity
    obtain ⟨hSteps, hMax, _⟩ := step_spec hSound hReady hGuard (hInv.2 hGuard) hBody
    exact hSteps.ticksLeft_lt hSound.spacing hReady.inRange rfl hMax hGuard'
  · intro s hReach
    exact ⟨inv_reaches hSound hStart hBounds hReach, hBounds s hReach⟩

end Run

/-! ## The default limit -/

/-- The loop of the default limit, and its first state. -/
def defaultParams (ticks : TickMap) (tickBitmap : TickBitmap) (zeroForOne : Bool) (fee : U32)
    (tickSpacing : ℤ) : SwapParams :=
  ⟨ticks, tickBitmap, zeroForOne, fee, resolveLimit none zeroForOne, tickSpacing⟩

def startState (sqrtPriceX96 liquidity amountIn : U256) : SwapState :=
  ⟨sqrtPriceX96, getTickAtSqrtRatio sqrtPriceX96, liquidity, amountIn, 0⟩

theorem toward_resolveLimit {sqrtPriceX96 : U256} (hLow : minSqrtRatio < sqrtPriceX96)
    (hHigh : sqrtPriceX96 < maxSqrtRatio) (zeroForOne : Bool) :
    Toward zeroForOne sqrtPriceX96 (resolveLimit none zeroForOne) := by
  have hLow : minSqrtRatio.toNat < sqrtPriceX96.toNat := hLow
  have hHigh : sqrtPriceX96.toNat < maxSqrtRatio.toNat := hHigh
  cases zeroForOne with
  | true =>
      have hLimit : (resolveLimit none true).toNat = minSqrtRatio.toNat + 1 := by decide
      show (resolveLimit none true).toNat ≤ sqrtPriceX96.toNat
      omega
  | false =>
      have hLimit : (resolveLimit none false).toNat = maxSqrtRatio.toNat - 1 := by decide
      show sqrtPriceX96.toNat ≤ (resolveLimit none false).toNat
      omega

/-- **Prices and termination.**  Where every iteration is in bounds, all prices lie between
the start and the limit, and the loop ends, with a result or a panic. -/
theorem swap_between (build : Build) (sqrtPriceX96 liquidity amountIn : U256) (ticks : TickMap)
    (tickBitmap : TickBitmap) (zeroForOne : Bool) (fee : U32) (tickSpacing : ℤ)
    (hLow : minSqrtRatio < sqrtPriceX96) (hHigh : sqrtPriceX96 < maxSqrtRatio)
    (hLiquidity : liquidity.toNat < 2 ^ 128) (hSpacing : 1 ≤ tickSpacing)
    (hFee : fee.toNat < 1000000) (hAmount : 0 < amountIn.toNat ∧ amountIn.toNat < 2 ^ 255)
    (hBounds : ∀ s, Reaches
        ((defaultParams ticks tickBitmap zeroForOne fee tickSpacing).swapLoop build)
        (startState sqrtPriceX96 liquidity amountIn) s →
      s.amountRemaining ≠ 0 → s.sqrtPriceX96 ≠ resolveLimit none zeroForOne →
      InBounds build (defaultParams ticks tickBitmap zeroForOne fee tickSpacing) s) :
    (∀ s, Reaches ((defaultParams ticks tickBitmap zeroForOne fee tickSpacing).swapLoop build)
        (startState sqrtPriceX96 liquidity amountIn) s →
      Toward zeroForOne sqrtPriceX96 s.sqrtPriceX96 ∧
        Toward zeroForOne s.sqrtPriceX96 (resolveLimit none zeroForOne)) ∧
    (∃ n result, simulateSwapWithLimit n build sqrtPriceX96 (getTickAtSqrtRatio sqrtPriceX96)
      liquidity ticks tickBitmap amountIn zeroForOne fee none tickSpacing = some result) ∧
    ∀ n amount price tick liquidity',
      simulateSwapWithLimit n build sqrtPriceX96 (getTickAtSqrtRatio sqrtPriceX96) liquidity
          ticks tickBitmap amountIn zeroForOne fee none tickSpacing =
        some (some (amount, price, tick, liquidity')) →
      Toward zeroForOne sqrtPriceX96 price ∧
        Toward zeroForOne price (resolveLimit none zeroForOne) := by
  have hSound : Sound (defaultParams ticks tickBitmap zeroForOne fee tickSpacing) :=
    ⟨hSpacing, hFee⟩
  have hLimit := toward_resolveLimit hLow hHigh zeroForOne
  have hStart : Inv build (defaultParams ticks tickBitmap zeroForOne fee tickSpacing)
      sqrtPriceX96 (startState sqrtPriceX96 liquidity amountIn) :=
    ⟨⟨hLimit, hAmount.2, fun _ => inRange_tickAt _ rfl⟩, .refl _ _, fun _ => hLiquidity⟩
  have hOk := fun s hReach (hGuard : ((defaultParams ticks tickBitmap zeroForOne fee
      tickSpacing).swapLoop build).guard s = true) =>
    hBounds s hReach (of_decide_eq_true hGuard).1 (of_decide_eq_true hGuard).2
  refine ⟨fun s hReach => ?_, ?_, ?_⟩
  · have hInv := inv_reaches hSound hStart hOk hReach
    exact ⟨hInv.forward, hInv.limit⟩
  · obtain ⟨n, result, hRun⟩ := loop_ends hSound hStart hOk
    exact ⟨n, _, congrArg (Option.map _) hRun⟩
  · intro n amount price tick liquidity' hResult
    obtain ⟨amountRemaining, hRun⟩ := simulateSwapWithLimit_eq.mp hResult
    have hInv := inv_reaches hSound hStart hOk (reaches_of_run hRun).1
    exact ⟨hInv.forward, hInv.limit⟩

/-! ## Runs -/

def noTicks : TickMap := ⟨∅, fun _ => 0, by simp, by simp⟩

/-- A pool without initialized ticks. -/
abbrev emptyParams (zeroForOne : Bool) : SwapParams :=
  defaultParams noTicks (fun _ => none) zeroForOne 3000 1

/-- A downward swap of a million that stops in the range of its tick. -/
theorem swap_between_example :
    ∃ n result, simulateSwapWithLimit n .release (getSqrtRatioAtTick 10)
      (getTickAtSqrtRatio (getSqrtRatioAtTick 10)) 1000000000000 noTicks (fun _ => none) 1000000
      true 3000 none 1 = some result := by
  have hFirst : ((emptyParams true).step .release
      (startState (getSqrtRatioAtTick 10) 1000000000000 1000000)).map (·.amountRemaining) =
      some 0 := by
    decide +kernel
  obtain ⟨s, hStep, hSpent⟩ := Option.map_eq_some_iff.mp hFirst
  have hStop : ((emptyParams true).swapLoop .release).guard s = false := by
    simp [SwapParams.swapLoop, hSpent]
  have hBounds : ∀ t, Reaches ((emptyParams true).swapLoop .release)
      (startState (getSqrtRatioAtTick 10) 1000000000000 1000000) t →
      t.amountRemaining ≠ 0 → t.sqrtPriceX96 ≠ resolveLimit none true →
      InBounds .release (emptyParams true) t := by
    intro t hReach hRemaining _
    rcases hReach.eq_or_eq hStep hStop with rfl | rfl
    · decide +kernel
    · exact absurd hSpent hRemaining
  exact (swap_between .release (getSqrtRatioAtTick 10) 1000000000000 1000000 noTicks
    (fun _ => none) true 3000 1 (by decide +kernel) (by decide +kernel) (by decide)
    (by decide) (by decide) (by decide) hBounds).2.1

/-- Near `MAX_TICK` the end of the bitmap word has no price, and the swap takes zero for its
target: a price above the start becomes a price of zero. -/
theorem price_drops_to_zero :
    (minSqrtRatio < getSqrtRatioAtTick 887200 ∧ getSqrtRatioAtTick 887200 < maxSqrtRatio) ∧
    ∃ s, Reaches ((emptyParams false).swapLoop .release)
        (startState (getSqrtRatioAtTick 887200) 1000000 (10 ^ 30)) s ∧
      s.sqrtPriceX96 = 0 ∧ ¬ Toward false (getSqrtRatioAtTick 887200) s.sqrtPriceX96 := by
  have hFirst : ((emptyParams false).step .release
      (startState (getSqrtRatioAtTick 887200) 1000000 (10 ^ 30))).map (·.sqrtPriceX96) =
      some 0 := by
    decide +kernel
  have hRunning : ((emptyParams false).swapLoop .release).guard
      (startState (getSqrtRatioAtTick 887200) 1000000 (10 ^ 30)) = true := by
    decide +kernel
  obtain ⟨s, hStep, hZero⟩ := Option.map_eq_some_iff.mp hFirst
  refine ⟨by decide +kernel, s, .step .refl hRunning hStep, hZero, ?_⟩
  rw [hZero]
  show ¬ getSqrtRatioAtTick 887200 ≤ 0
  decide +kernel

end SovereignShadow.Ports.SwapTermination
