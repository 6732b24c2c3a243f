import SovereignShadow.Ports.SwapStep
import SovereignShadow.Ports.TickMath
import SovereignShadow.Ports.TickSearch

/-!
# One iteration of the swap loop

A state of `simulate_swap_with_limit` whose price lies in the range of its tick has the next
tick's price on the trade's side, so the target does too, and the iteration either reaches
the next tick, or ends the loop.  Upwards this fails past `MAX_TICK`, where
`get_sqrt_ratio_at_tick` is zero: `InBounds` leaves those iterations out.

## Main results

* `step_spec` — what an iteration does.
* `StepsTo.onTrack` — it keeps the price in range of the tick and short of the limit.
* `StepsTo.ticksLeft_lt` — between two iterations the tick moves on.
* `simulateSwapWithLimit_eq` — a result is the last state of a run.
-/

namespace SovereignShadow.Ports.SwapLoop

open SovereignShadow.Verified
open SovereignShadow.Verified.Checked (Build)
open SovereignShadow.Ports.Models
open SovereignShadow.Ports.V3Math
open SovereignShadow.Ports.OptimalInput (toNat_pos_iff)
open SovereignShadow.Ports.SwapStep
open SovereignShadow.Ports.TickMath
open SovereignShadow.Ports.TickSearch

/-! ## Prices below the last tick -/

/-- Below `MIN_TICK` the price is zero, so prices do not fall up to `MAX_TICK`. -/
theorem price_mono {t t' : ℤ} (h : t ≤ t') (hMax : t' ≤ maxTick) : price t ≤ price t' := by
  by_cases hLow : t < minTick
  · rw [price_out_of_range (.inl hLow)]
    exact Nat.zero_le _
  · have hLow := not_lt.mp hLow
    exact sqrtRatio_strictMonoOn.monotoneOn ⟨hLow, h.trans hMax⟩ ⟨hLow.trans h, hMax⟩ h

theorem price_strict {t t' : ℤ} (hMin : minTick ≤ t) (h : t < t') (hMax : t' ≤ maxTick) :
    price t < price t' :=
  sqrtRatio_strictMonoOn ⟨hMin, h.le.trans hMax⟩ ⟨hMin.trans h.le, hMax⟩ h

/-- The first price is above the zero below it. -/
theorem price_lt_succ {t : ℤ} (hMin : minTick - 1 ≤ t) (hMax : t < maxTick) :
    price t < price (t + 1) := by
  by_cases hLow : minTick ≤ t
  · exact price_strict hLow (by omega) (by omega)
  · have hFirst : t + 1 = minTick := by omega
    rw [price_out_of_range (.inl (not_le.mp hLow)), hFirst, price_min]
    norm_num

/-- The price lies in the range of the tick, its upper end included. -/
structure InRange (s : SwapState) : Prop where
  tick_low : minTick - 1 ≤ s.tick
  tick_high : s.tick ≤ maxTick
  low : price s.tick ≤ s.sqrtPriceX96.toNat
  high : s.tick < maxTick → s.sqrtPriceX96.toNat ≤ price (s.tick + 1)

/-- The tick of a price. -/
theorem tickAt_bounds (p : U256) :
    minTick - 1 ≤ getTickAtSqrtRatio p ∧ getTickAtSqrtRatio p ≤ maxTick ∧
      price (getTickAtSqrtRatio p) ≤ p.toNat ∧
      (getTickAtSqrtRatio p < maxTick → p.toNat < price (getTickAtSqrtRatio p + 1)) := by
  have hSpec := getTickAtSqrtRatio_spec p
  refine ⟨hSpec.low_le, hSpec.le_high, ?_, fun h => hSpec.above _ (by omega) (by omega)⟩
  by_cases hLow : minTick ≤ getTickAtSqrtRatio p
  · exact hSpec.below _ hLow le_rfl
  · rw [price_out_of_range (.inl (not_le.mp hLow))]
    exact Nat.zero_le _

/-- A tick whose price is at most `p` is not above the tick of `p`. -/
theorem le_tickAt {t : ℤ} {p : U256} (hMax : t ≤ maxTick) (h : price t ≤ p.toNat) :
    t ≤ getTickAtSqrtRatio p := by
  obtain ⟨hLow, hHigh, _, hNext⟩ := tickAt_bounds p
  by_contra hNot
  have hLt := hNext (by omega)
  have hMono : price (getTickAtSqrtRatio p + 1) ≤ price t := price_mono (by omega) hMax
  omega

/-- A tick whose price is above `p` is above the tick of `p`. -/
theorem tickAt_lt {t : ℤ} {p : U256} (h : p.toNat < price t) :
    getTickAtSqrtRatio p < t := by
  obtain ⟨_, hHigh, hAt, _⟩ := tickAt_bounds p
  by_contra hNot
  have hMono := price_mono (not_lt.mp hNot) hHigh
  omega

/-- The tick of a tick's price. -/
theorem tickAt_eq_of_price {t : ℤ} {p : U256} (hMin : minTick - 1 ≤ t) (hMax : t < maxTick)
    (h : p.toNat = price (t + 1)) : getTickAtSqrtRatio p = t + 1 := by
  apply le_antisymm
  · by_cases hLast : t + 1 < maxTick
    · have hNext : price (t + 1) < price (t + 2) :=
        price_strict (by omega) (by omega) (by omega)
      have hLt : getTickAtSqrtRatio p < t + 2 := tickAt_lt (by omega)
      omega
    · have hTop := (tickAt_bounds p).2.1
      omega
  · exact le_tickAt (by omega) h.ge

/-- The range of the last tick has no upper end. -/
theorem InRange.tick_lt_of_upper {s : SwapState} (h : InRange s)
    (hUpper : s.sqrtPriceX96 = getSqrtRatioAtTick (s.tick + 1)) : s.tick < maxTick := by
  by_contra hNot
  have hTop : s.tick = maxTick := le_antisymm h.tick_high (not_lt.mp hNot)
  have hLow := h.low
  have hPositive : 0 < price maxTick :=
    (Nat.zero_le _).trans_lt (price_strict le_rfl (by decide) le_rfl)
  rw [hUpper, hTop] at hLow
  have hLow : price maxTick ≤ price (maxTick + 1) := hLow
  rw [price_out_of_range (.inr (Int.lt_succ maxTick))] at hLow
  exact absurd hLow (not_le.mpr hPositive)

theorem inRange_tickAt (s : SwapState) (h : s.tick = getTickAtSqrtRatio s.sqrtPriceX96) :
    InRange s := by
  obtain ⟨hLow, hHigh, hAt, hNext⟩ := tickAt_bounds s.sqrtPriceX96
  rw [← h] at hLow hHigh hAt hNext
  exact ⟨hLow, hHigh, hAt, fun hTick => (hNext hTick).le⟩

/-! ## The iteration -/

variable {build : Build} {params : SwapParams}

/-- The next tick from `s`, before it is an `i32`. -/
def nextTickOf (params : SwapParams) (s : SwapState) : ℤ :=
  nextTick params.tickBitmap s.tick params.tickSpacing params.zeroForOne

/-- The next tick has a price, or is below all ticks.  An `i32` overflow is a panic of the
debug build, so nothing is asked there. -/
def InBounds (build : Build) (params : SwapParams) (s : SwapState) : Prop :=
  let next := nextTickOf params s
  (build = .debug ∧ ¬ (-2 ^ 31 ≤ next ∧ next < 2 ^ 31)) ∨
    if params.zeroForOne then -2 ^ 31 < next else next ≤ maxTick

instance (build : Build) (params : SwapParams) (s : SwapState) :
    Decidable (InBounds build params s) :=
  inferInstanceAs (Decidable (_ ∨ _))

/-- The search and the swap step of the iteration from `s`: the next tick, the result and
the remainder. -/
def swapStepOf (build : Build) (params : SwapParams) (s : SwapState) :
    Option (ℤ × SwapStepResult × I256) := do
  let (next, _) ← getNextInitializedTickPrecise build s.tick params.tickSpacing
    params.zeroForOne params.tickBitmap
  let (result, rem) ← computeSwapStep build s.sqrtPriceX96
    (params.targetPrice (getSqrtRatioAtTick next)) s.liquidity s.amountRemaining params.fee
    params.zeroForOne
  some (next, result, rem)

/-- The price that `compute_swap_step` gives in the iteration from `s`. -/
def stepPrice (build : Build) (params : SwapParams) (s : SwapState) : Option U256 :=
  (swapStepOf build params s).map (·.2.1.sqrtPriceNextX96)

theorem step_eq (build : Build) (params : SwapParams) (s : SwapState) :
    params.step build s = (swapStepOf build params s).bind fun found =>
      params.settle build s found.1 found.2.1 found.2.2 := by
  unfold SwapParams.step swapStepOf
  cases getNextInitializedTickPrecise build s.tick params.tickSpacing params.zeroForOne
    params.tickBitmap with
  | none => rfl
  | some found =>
      simp only [Option.bind_eq_bind, Option.bind_some]
      cases computeSwapStep build s.sqrtPriceX96
        (params.targetPrice (getSqrtRatioAtTick found.1)) s.liquidity s.amountRemaining
        params.fee params.zeroForOne with
      | none => rfl
      | some result => rfl

/-- The arguments that every iteration shares. -/
structure Sound (params : SwapParams) : Prop where
  spacing : 1 ≤ params.tickSpacing
  fee : params.fee.toNat < 1000000

/-- The state of an iteration. -/
structure Ready (params : SwapParams) (s : SwapState) : Prop where
  inRange : InRange s
  limit : Toward params.zeroForOne s.sqrtPriceX96 params.sqrtPriceLimit
  remaining : s.amountRemaining.toNat < 2 ^ 255
  liquidity : params.zeroForOne = true → s.liquidity.toNat < 2 ^ 128

/-- What an iteration from `s` to `s'` does, with `next` the next tick. -/
structure StepsTo (params : SwapParams) (s s' : SwapState) (next : ℤ) : Prop where
  forward : Toward params.zeroForOne s.sqrtPriceX96 s'.sqrtPriceX96
  within : Toward params.zeroForOne s'.sqrtPriceX96
    (params.targetPrice (getSqrtRatioAtTick next))
  rem_le : s'.amountRemaining ≤ s.amountRemaining
  missed : s'.sqrtPriceX96 ≠ params.targetPrice (getSqrtRatioAtTick next) →
    s'.amountRemaining = 0
  crossed : s'.sqrtPriceX96 = getSqrtRatioAtTick next →
    s'.tick = (if params.zeroForOne then next - 1 else next) ∧
      s'.liquidity = params.crossedLiquidity s.liquidity next
  stopped : s'.sqrtPriceX96 ≠ getSqrtRatioAtTick next →
    s'.tick = getTickAtSqrtRatio s'.sqrtPriceX96 ∧ s'.liquidity = s.liquidity

theorem next_down {s : SwapState} (hSpacing : 1 ≤ params.tickSpacing)
    (hDown : params.zeroForOne = true) : nextTickOf params s ≤ s.tick := by
  obtain ⟨hLe, _, _⟩ := nextIndex_down params.tickBitmap (s.tick / params.tickSpacing)
  rw [nextTickOf, nextTick, hDown]
  exact (Int.le_ediv_iff_mul_le (by omega)).mp hLe

theorem next_up {s : SwapState} (hSpacing : 1 ≤ params.tickSpacing)
    (hUp : params.zeroForOne = false) : s.tick < nextTickOf params s := by
  obtain ⟨hLt, _, _⟩ := nextIndex_up params.tickBitmap (s.tick / params.tickSpacing)
  rw [nextTickOf, nextTick, hUp]
  exact (Int.ediv_lt_iff_lt_mul (by omega)).mp hLt

/-! ## The target -/

theorem targetPrice_toward_limit (params : SwapParams) (ratio : U256) :
    Toward params.zeroForOne (params.targetPrice ratio) params.sqrtPriceLimit := by
  unfold Toward SwapParams.targetPrice
  cases params.zeroForOne with
  | true =>
      simp only [if_true]
      split
      · exact BitVec.le_refl _
      · exact BitVec.not_lt.mp ‹_›
  | false =>
      simp only [Bool.false_eq_true, if_false]
      split
      · exact BitVec.le_refl _
      · exact BitVec.not_lt.mp ‹_›

theorem targetPrice_toward_ratio (params : SwapParams) (ratio : U256) :
    Toward params.zeroForOne (params.targetPrice ratio) ratio := by
  unfold Toward SwapParams.targetPrice
  cases params.zeroForOne with
  | true =>
      simp only [if_true]
      split
      · exact BitVec.le_of_lt ‹_›
      · exact BitVec.le_refl _
  | false =>
      simp only [Bool.false_eq_true, if_false]
      split
      · exact BitVec.le_of_lt ‹_›
      · exact BitVec.le_refl _

theorem toward_targetPrice {a ratio : U256}
    (hLimit : Toward params.zeroForOne a params.sqrtPriceLimit)
    (hRatio : Toward params.zeroForOne a ratio) :
    Toward params.zeroForOne a (params.targetPrice ratio) := by
  unfold SwapParams.targetPrice
  split <;> split <;> assumption

/-- Every iteration in bounds has an `i32` next tick, or panics. -/
theorem i32_next {s : SwapState} (hSound : Sound params) (hRange : InRange s)
    (hBounds : InBounds build params s) {t : ℤ} (h : i32 build (nextTickOf params s) = some t) :
    t = nextTickOf params s ∧
      if params.zeroForOne then -2 ^ 31 < nextTickOf params s
      else nextTickOf params s ≤ maxTick := by
  have hHigh := hRange.tick_high
  have hLow := hRange.tick_low
  unfold maxTick at hHigh
  unfold minTick at hLow
  rcases hBounds with ⟨rfl, hOut⟩ | hIn
  · unfold i32 at h
    rw [if_neg hOut] at h
    exact absurd h (by simp)
  · refine ⟨?_, hIn⟩
    have hFits : -2 ^ 31 ≤ nextTickOf params s ∧ nextTickOf params s < 2 ^ 31 := by
      cases hDir : params.zeroForOne with
      | true =>
          have hNext := next_down (s := s) hSound.spacing hDir
          rw [hDir, if_pos rfl] at hIn
          omega
      | false =>
          have hNext := next_up (s := s) hSound.spacing hDir
          rw [hDir, if_neg Bool.false_ne_true] at hIn
          unfold maxTick at hIn
          omega
    rw [i32_of_range build hFits.1 hFits.2] at h
    exact (Option.some.inj h).symm

/-- The next tick's price is on the trade's side. -/
theorem toward_next {s : SwapState} (hSound : Sound params) (hRange : InRange s)
    (hNext : if params.zeroForOne then -2 ^ 31 < nextTickOf params s
      else nextTickOf params s ≤ maxTick) :
    Toward params.zeroForOne s.sqrtPriceX96 (getSqrtRatioAtTick (nextTickOf params s)) := by
  unfold Toward
  cases hDir : params.zeroForOne with
  | true =>
      have hLe := price_mono (next_down hSound.spacing hDir) hRange.tick_high
      exact hLe.trans hRange.low
  | false =>
      have hLt := next_up (s := s) hSound.spacing hDir
      rw [hDir, if_neg Bool.false_ne_true] at hNext
      have hLe := price_mono (Int.add_one_le_iff.mpr hLt) hNext
      exact (hRange.high (hLt.trans_le hNext)).trans hLe

/-- The running loop has something left to swap. -/
theorem remaining_pos {s : SwapState} (h : (params.swapLoop build).guard s = true) :
    0 < s.amountRemaining.toNat ∧ s.sqrtPriceX96 ≠ params.sqrtPriceLimit := by
  have h : s.amountRemaining ≠ 0 ∧ s.sqrtPriceX96 ≠ params.sqrtPriceLimit :=
    of_decide_eq_true h
  exact ⟨toNat_pos_iff.mpr h.1, h.2⟩

theorem crossedTick_eq {next : ℤ} (hLow : params.zeroForOne = true → -2 ^ 31 < next)
    (hHigh : next ≤ maxTick) :
    params.crossedTick build next = some (if params.zeroForOne then next - 1 else next) := by
  unfold SwapParams.crossedTick
  unfold maxTick at hHigh
  cases hDir : params.zeroForOne with
  | true =>
      have hLow := hLow hDir
      exact i32_of_range build (by omega) (by omega)
  | false => rfl

/-- What the search and the swap step find. -/
structure Found (params : SwapParams) (s : SwapState) (next : ℤ) (result : SwapStepResult)
    (rem : I256) : Prop where
  next_eq : next = nextTickOf params s
  next_le : next ≤ maxTick
  next_gt : params.zeroForOne = true → -2 ^ 31 < next
  spec : StepSpec params.zeroForOne s.sqrtPriceX96
    (params.targetPrice (getSqrtRatioAtTick next)) s.amountRemaining result.sqrtPriceNextX96 rem

theorem swapStepOf_spec (hSound : Sound params) {s : SwapState} (hReady : Ready params s)
    (hGuard : (params.swapLoop build).guard s = true) (hBounds : InBounds build params s)
    {next : ℤ} {result : SwapStepResult} {rem : I256}
    (h : swapStepOf build params s = some (next, result, rem)) :
    Found params s next result rem := by
  have hRange := hReady.inRange
  have hHigh : s.tick ≤ 2 ^ 20 := hRange.tick_high.trans (by decide)
  have hLow : -2 ^ 20 ≤ s.tick := le_trans (by decide) hRange.tick_low
  rw [swapStepOf, getNextInitializedTickPrecise_eq build hSound.spacing hLow hHigh] at h
  obtain ⟨⟨next', flag⟩, hSearch, h⟩ := Option.bind_eq_some_iff.mp h
  obtain ⟨next'', hNext, hPair⟩ := Option.map_eq_some_iff.mp hSearch
  obtain ⟨rfl, rfl⟩ := Prod.mk.inj hPair
  obtain ⟨⟨result', rem'⟩, hCompute, h⟩ := Option.bind_eq_some_iff.mp h
  obtain ⟨rfl, rfl, rfl⟩ : next'' = next ∧ result' = result ∧ rem' = rem := by
    simpa using h
  obtain ⟨hEq, hIn⟩ := i32_next hSound hRange hBounds hNext
  have hSide := toward_next hSound hRange hIn
  rw [← hEq] at hSide hIn
  refine ⟨hEq, ?_, fun hDir => by simpa [hDir] using hIn, ?_⟩
  · cases hDir : params.zeroForOne with
    | true => exact hEq ▸ (next_down hSound.spacing hDir).trans hRange.tick_high
    | false => simpa [hDir] using hIn
  · exact computeSwapStep_spec (toward_targetPrice hReady.limit hSide) hReady.liquidity
      hReady.remaining (remaining_pos hGuard).1 hSound.fee hCompute

/-- Settling gives a state, at the price of the result. -/
theorem settle_spec (build : Build) {s : SwapState} {next : ℤ} {result : SwapStepResult}
    {rem : I256} (hFound : Found params s next result rem) :
    ∃ s', params.settle build s next result rem = some s' ∧ StepsTo params s s' next ∧
      s'.sqrtPriceX96 = result.sqrtPriceNextX96 := by
  have hSpec := hFound.spec
  unfold SwapParams.settle
  by_cases hCross : result.sqrtPriceNextX96 = getSqrtRatioAtTick next
  · rw [if_pos hCross, crossedTick_eq hFound.next_gt hFound.next_le]
    exact ⟨_, rfl, ⟨hSpec.forward, hSpec.within, hSpec.rem_le, hSpec.missed,
      fun _ => ⟨rfl, rfl⟩, fun h => absurd hCross h⟩, rfl⟩
  · rw [if_neg hCross]
    exact ⟨_, rfl, ⟨hSpec.forward, hSpec.within, hSpec.rem_le, hSpec.missed,
      fun h => absurd h hCross, fun _ => ⟨rfl, rfl⟩⟩, rfl⟩

section Iteration

variable (hSound : Sound params) {s : SwapState} (hReady : Ready params s)
  (hGuard : (params.swapLoop build).guard s = true) (hBounds : InBounds build params s)
include hSound hReady hGuard hBounds

/-- **The iteration.** -/
theorem step_spec {s' : SwapState} (hStep : params.step build s = some s') :
    StepsTo params s s' (nextTickOf params s) ∧ nextTickOf params s ≤ maxTick ∧
      stepPrice build params s = some s'.sqrtPriceX96 := by
  rw [step_eq] at hStep
  obtain ⟨⟨next, result, rem⟩, hSwap, hSettle⟩ := Option.bind_eq_some_iff.mp hStep
  have hFound := swapStepOf_spec hSound hReady hGuard hBounds hSwap
  obtain ⟨s'', hSettle', hSteps, hPrice⟩ := settle_spec build hFound
  obtain rfl := Option.some.inj (hSettle'.symm.trans hSettle)
  rw [← hFound.next_eq, stepPrice, hSwap, hPrice]
  exact ⟨hSteps, hFound.next_le, rfl⟩

/-- The iteration panics only in its search or its swap step. -/
theorem exists_step {p : U256} (hPrice : stepPrice build params s = some p) :
    ∃ s', params.step build s = some s' ∧ s'.sqrtPriceX96 = p := by
  obtain ⟨⟨next, result, rem⟩, hSwap, rfl⟩ := Option.map_eq_some_iff.mp hPrice
  have hFound := swapStepOf_spec hSound hReady hGuard hBounds hSwap
  obtain ⟨s', hSettle, _, hEq⟩ := settle_spec build hFound
  refine ⟨s', ?_, hEq⟩
  rw [step_eq, hSwap]
  exact hSettle

end Iteration

section After

variable {s s' : SwapState} {next : ℤ} (h : StepsTo params s s' next)
include h

theorem StepsTo.toward_limit : Toward params.zeroForOne s'.sqrtPriceX96 params.sqrtPriceLimit :=
  h.within.trans (targetPrice_toward_limit params _)

/-- A price of zero is at the limit of a downward swap. -/
theorem StepsTo.min_le_next (hGuard : (params.swapLoop build).guard s' = true)
    (hDown : params.zeroForOne = true) (hCross : s'.sqrtPriceX96 = getSqrtRatioAtTick next) :
    minTick ≤ next := by
  by_contra hLow
  have hZero : s'.sqrtPriceX96.toNat = 0 := by
    rw [hCross]
    exact price_out_of_range (.inl (not_le.mp hLow))
  have hLimit := h.toward_limit
  rw [hDown] at hLimit
  have hLimit : params.sqrtPriceLimit.toNat ≤ s'.sqrtPriceX96.toNat := hLimit
  apply (remaining_pos hGuard).2
  apply BitVec.eq_of_toNat_eq
  omega

/-- **The price stays in range of the tick.** -/
theorem StepsTo.inRange (hMax : next ≤ maxTick)
    (hMin : params.zeroForOne = false → minTick ≤ next)
    (hGuard : (params.swapLoop build).guard s' = true) : InRange s' := by
  by_cases hCross : s'.sqrtPriceX96 = getSqrtRatioAtTick next
  · have hTick := (h.crossed hCross).1
    have hPrice : s'.sqrtPriceX96.toNat = price next := by rw [hCross]
    cases hDir : params.zeroForOne with
    | true =>
        have hLow := h.min_le_next hGuard hDir hCross
        rw [hDir, if_pos rfl] at hTick
        refine ⟨by omega, by omega, ?_, fun _ => ?_⟩
        · rw [hTick, hPrice]
          exact price_mono (by omega) hMax
        · rw [hTick, hPrice, sub_add_cancel]
    | false =>
        have hLow := hMin hDir
        rw [hDir, if_neg Bool.false_ne_true] at hTick
        refine ⟨by omega, by omega, by rw [hTick, hPrice], fun hNext => ?_⟩
        rw [hTick, hPrice]
        exact price_mono (by omega) (by omega)
  · exact inRange_tickAt s' (h.stopped hCross).1

/-- An iteration that another follows has crossed its next tick. -/
theorem StepsTo.crosses (hGuard : (params.swapLoop build).guard s' = true) :
    s'.sqrtPriceX96 = getSqrtRatioAtTick next := by
  obtain ⟨hRemaining, hLimit⟩ := remaining_pos hGuard
  have hTarget : s'.sqrtPriceX96 = params.targetPrice (getSqrtRatioAtTick next) := by
    by_contra hMiss
    rw [h.missed hMiss] at hRemaining
    exact absurd hRemaining (by decide)
  rw [hTarget]
  unfold SwapParams.targetPrice at hTarget ⊢
  split at hTarget <;> split at hTarget <;> simp_all

/-- The rest of the way of the tick. -/
def ticksLeft (params : SwapParams) (s : SwapState) : ℕ :=
  if params.zeroForOne then (s.tick - minTick + 2).toNat else (maxTick - s.tick).toNat

/-- **The tick moves on.** -/
theorem StepsTo.ticksLeft_lt (hSpacing : 1 ≤ params.tickSpacing) (hRange : InRange s)
    (hNext : next = nextTickOf params s) (hMax : next ≤ maxTick)
    (hGuard : (params.swapLoop build).guard s' = true) :
    ticksLeft params s' < ticksLeft params s := by
  have hTick := (h.crossed (h.crosses hGuard)).1
  have hLow := hRange.tick_low
  unfold ticksLeft
  cases hDir : params.zeroForOne with
  | true =>
      have hDown := next_down (s := s) hSpacing hDir
      rw [hDir, if_pos rfl] at hTick
      rw [if_pos rfl, if_pos rfl]
      omega
  | false =>
      have hUp := next_up (s := s) hSpacing hDir
      rw [hDir, if_neg Bool.false_ne_true] at hTick
      rw [if_neg Bool.false_ne_true, if_neg Bool.false_ne_true]
      omega

end After

/-! ## The invariant of the prices -/

/-- What every state of the loop keeps. -/
structure OnTrack (build : Build) (params : SwapParams) (s : SwapState) : Prop where
  limit : Toward params.zeroForOne s.sqrtPriceX96 params.sqrtPriceLimit
  remaining : s.amountRemaining.toNat < 2 ^ 255
  inRange : (params.swapLoop build).guard s = true → InRange s

theorem OnTrack.ready {s : SwapState} (h : OnTrack build params s)
    (hGuard : (params.swapLoop build).guard s = true)
    (hLiquidity : params.zeroForOne = true → s.liquidity.toNat < 2 ^ 128) : Ready params s :=
  ⟨h.inRange hGuard, h.limit, h.remaining, hLiquidity⟩

theorem StepsTo.onTrack {s s' : SwapState} (h : StepsTo params s s' (nextTickOf params s))
    (hSpacing : 1 ≤ params.tickSpacing) (hReady : Ready params s)
    (hMax : nextTickOf params s ≤ maxTick) : OnTrack build params s' := by
  have hMin : params.zeroForOne = false → minTick ≤ nextTickOf params s := by
    intro hUp
    have hLow := hReady.inRange.tick_low
    have hNext := next_up (s := s) hSpacing hUp
    omega
  exact ⟨h.toward_limit, (BitVec.le_def.mp h.rem_le).trans_lt hReady.remaining,
    fun hGuard => h.inRange hMax hMin hGuard⟩

/-! ## The result -/

/-- What `simulate_swap_with_limit` returns is read off the last state. -/
theorem simulateSwapWithLimit_eq {n : ℕ} {p liquidity amountIn amount price liquidity' : U256}
    {ticks : TickMap} {tickBitmap : TickBitmap} {tick tick' tickSpacing : ℤ} {zeroForOne : Bool}
    {fee : U32} {limit : Option U256} :
    simulateSwapWithLimit n build p tick liquidity ticks tickBitmap amountIn zeroForOne fee
        limit tickSpacing = some (some (amount, price, tick', liquidity')) ↔
    ∃ amountRemaining, WhileLoop.run
        (SwapParams.swapLoop ⟨ticks, tickBitmap, zeroForOne, fee,
          resolveLimit limit zeroForOne, tickSpacing⟩ build) n
        ⟨p, tick, liquidity, amountIn, 0⟩ =
      some (some ⟨price, tick', liquidity', amountRemaining, amount⟩) := by
  unfold simulateSwapWithLimit
  rw [Option.map_eq_some_iff]
  constructor
  · rintro ⟨result, hRun, hResult⟩
    obtain ⟨s, rfl, hTuple⟩ := Option.map_eq_some_iff.mp hResult
    obtain ⟨rfl, rfl, rfl, rfl⟩ := by simpa using hTuple
    exact ⟨s.amountRemaining, hRun⟩
  · rintro ⟨amountRemaining, hRun⟩
    exact ⟨_, hRun, rfl⟩

end SovereignShadow.Ports.SwapLoop
