import SovereignShadow.Ports.SwapLoop

/-!
# The liquidity of the swap loop

In range of a tick a pool's liquidity is the sum of `liquidity_net` over the ticks up to it.
The loop keeps that where every tick it crosses adds liquidity upwards: it adds and subtracts
the magnitude of `liquidity_net`, whatever its sign.  It also recomputes the tick where the
price has not moved, and then takes back the tick of a downward crossing.

## Main results

* `step_matches`, `crossOk_of_matches` — when one iteration keeps the sum.
* `liquidity_matches_iff` — when a run keeps it.
-/

namespace SovereignShadow.Ports.SwapLiquidity

open SovereignShadow.Verified
open SovereignShadow.Verified.Checked (Build)
open SovereignShadow.Verified.WhileLoop
open SovereignShadow.Ports.Models
open SovereignShadow.Ports.V3Math
open SovereignShadow.Ports.SwapStep
open SovereignShadow.Ports.TickMath
open SovereignShadow.Ports.TickSearch
open SovereignShadow.Ports.SwapLoop

/-! ## Sums of net liquidity -/

/-- The sum of `liquidity_net` over all ticks up to `t`. -/
def liquidityAt (ticks : TickMap) (t : ℤ) : ℤ := ∑ k ∈ ticks.keys with k ≤ t, ticks.net k

/-- What the tick `t` adds. -/
def netAt (ticks : TickMap) (t : ℤ) : ℤ := if t ∈ ticks.keys then ticks.net t else 0

theorem liquidityAt_succ (ticks : TickMap) (t : ℤ) :
    liquidityAt ticks (t + 1) = liquidityAt ticks t + netAt ticks (t + 1) := by
  unfold liquidityAt netAt
  by_cases hKey : t + 1 ∈ ticks.keys
  · have hSplit : (ticks.keys.filter (· ≤ t + 1)) =
        insert (t + 1) (ticks.keys.filter (· ≤ t)) := by
      ext k
      simp only [Finset.mem_filter, Finset.mem_insert]
      constructor
      · intro h
        by_cases hEq : k = t + 1
        · exact .inl hEq
        · exact .inr ⟨h.1, by omega⟩
      · intro h
        rcases h with rfl | h
        · exact ⟨hKey, le_rfl⟩
        · exact ⟨h.1, by omega⟩
    rw [hSplit, Finset.sum_insert (by simp), if_pos hKey, add_comm]
  · have hSame : (ticks.keys.filter (· ≤ t + 1)) = ticks.keys.filter (· ≤ t) := by
      apply Finset.filter_congr
      intro k hk
      have hNe : k ≠ t + 1 := fun h => hKey (h ▸ hk)
      omega
    rw [hSame, if_neg hKey, add_zero]

/-- Between two ticks without a key in between nothing is added. -/
theorem liquidityAt_eq {ticks : TickMap} {a b : ℤ} (hab : a ≤ b)
    (h : ∀ k ∈ ticks.keys, a < k → ¬ k ≤ b) : liquidityAt ticks b = liquidityAt ticks a := by
  unfold liquidityAt
  congr 1
  apply Finset.filter_congr
  intro k hk
  constructor
  · intro hkb
    by_contra hka
    exact h k hk (not_le.mp hka) hkb
  · exact fun hka => hka.trans hab

/-- The bitmap marks exactly the keys, divided by the spacing. -/
structure Marks (ticks : TickMap) (tickBitmap : TickBitmap) (tickSpacing : ℤ) : Prop where
  dvd : ∀ k ∈ ticks.keys, tickSpacing ∣ k
  marked_iff : ∀ c, Marked tickBitmap c ↔ c * tickSpacing ∈ ticks.keys

section Between

variable {params : SwapParams} {s : SwapState} (hSpacing : 1 ≤ params.tickSpacing)
  (hMarks : Marks params.ticks params.tickBitmap params.tickSpacing)
include hSpacing hMarks

theorem no_key_down (hDown : params.zeroForOne = true) {k : ℤ} (hk : k ∈ params.ticks.keys)
    (hNext : nextTickOf params s < k) : ¬ k ≤ s.tick := by
  intro hTick
  obtain ⟨c, rfl⟩ := hMarks.dvd k hk
  rw [Int.mul_comm] at hk hTick hNext
  obtain ⟨_, _, hNone⟩ := nextIndex_down params.tickBitmap (s.tick / params.tickSpacing)
  rw [nextTickOf, nextTick, hDown] at hNext
  exact hNone c (lt_of_mul_lt_mul_right hNext (by omega))
    ((Int.le_ediv_iff_mul_le (by omega)).mpr hTick) ((hMarks.marked_iff c).mpr hk)

theorem no_key_up (hUp : params.zeroForOne = false) {k : ℤ} (hk : k ∈ params.ticks.keys)
    (hTick : s.tick < k) : ¬ k < nextTickOf params s := by
  intro hNext
  obtain ⟨c, rfl⟩ := hMarks.dvd k hk
  rw [Int.mul_comm] at hk hTick hNext
  obtain ⟨_, _, hNone⟩ := nextIndex_up params.tickBitmap (s.tick / params.tickSpacing)
  rw [nextTickOf, nextTick, hUp] at hNext
  exact hNone c ((Int.ediv_lt_iff_lt_mul (by omega)).mpr hTick)
    (lt_of_mul_lt_mul_right hNext (by omega)) ((hMarks.marked_iff c).mpr hk)

end Between

/-! ## Crossing -/

theorem saturatingAdd_toNat (a b : U256) :
    (saturatingAdd a b).toNat = min (a.toNat + b.toNat) FullWidth.maxWord := by
  have ha := a.isLt
  have hb := b.isLt
  have hSum : (a + b).toNat = (a.toNat + b.toNat) % 2 ^ 256 := BitVec.toNat_add a b
  unfold saturatingAdd
  split
  · rename_i hOver
    rw [BitVec.lt_def, hSum] at hOver
    rw [BitVec.toNat_allOnes, min_eq_right]
    show 2 ^ 256 - 1 ≤ _
    omega
  · rename_i hFits
    rw [BitVec.lt_def, hSum] at hFits
    rw [hSum, min_eq_left]
    · omega
    · show _ ≤ 2 ^ 256 - 1
      omega

section Crossing

variable {params : SwapParams} (liquidity : U256) (next : ℤ)

/-- The magnitude of an `i128` is a word. -/
theorem magnitude_toNat (h : next ∈ params.ticks.keys) :
    (BitVec.ofNat 256 (params.ticks.net next).natAbs : U256).toNat =
      (netAt params.ticks next).natAbs := by
  have hRange := params.ticks.net_range next h
  rw [netAt, if_pos h, BitVec.toNat_ofNat, Nat.mod_eq_of_lt (by omega)]

theorem crossedLiquidity_down (hDown : params.zeroForOne = true) :
    (params.crossedLiquidity liquidity next).toNat =
      liquidity.toNat - (netAt params.ticks next).natAbs := by
  unfold SwapParams.crossedLiquidity TickMap.get
  by_cases hKey : next ∈ params.ticks.keys
  · rw [if_pos hKey]
    show (if params.zeroForOne then saturatingSub liquidity _ else _).toNat = _
    rw [hDown, if_pos rfl, OptimalInput.saturatingSub_toNat, magnitude_toNat next hKey]
  · rw [if_neg hKey, netAt, if_neg hKey]
    rfl

theorem crossedLiquidity_up (hUp : params.zeroForOne = false) :
    (params.crossedLiquidity liquidity next).toNat =
      min (liquidity.toNat + (netAt params.ticks next).natAbs) FullWidth.maxWord := by
  unfold SwapParams.crossedLiquidity TickMap.get
  by_cases hKey : next ∈ params.ticks.keys
  · rw [if_pos hKey]
    show (if params.zeroForOne then _ else saturatingAdd liquidity _).toNat = _
    rw [hUp, if_neg Bool.false_ne_true, saturatingAdd_toNat, magnitude_toNat next hKey]
  · rw [if_neg hKey, netAt, if_neg hKey]
    exact (min_eq_left (Nat.le_sub_one_of_lt liquidity.isLt)).symm

end Crossing

/-! ## One iteration -/

/-- The liquidity is the sum up to the tick. -/
def Matches (ticks : TickMap) (s : SwapState) : Prop :=
  (s.liquidity.toNat : ℤ) = liquidityAt ticks s.tick

/-- All sums are amounts of liquidity. -/
def SumsFit (ticks : TickMap) : Prop :=
  ∀ t, 0 ≤ liquidityAt ticks t ∧ liquidityAt ticks t < 2 ^ 128

/-- The iteration crosses no tick that takes liquidity away upwards, and does not stand still
at an initialized tick just crossed downwards. -/
structure CrossOk (build : Build) (params : SwapParams) (s : SwapState) : Prop where
  net_nonneg : stepPrice build params s = some (getSqrtRatioAtTick (nextTickOf params s)) →
    0 ≤ netAt params.ticks (nextTickOf params s)
  moves : params.zeroForOne = true → netAt params.ticks (s.tick + 1) ≠ 0 →
    s.sqrtPriceX96 = getSqrtRatioAtTick (s.tick + 1) →
    stepPrice build params s ≠ some s.sqrtPriceX96

section Step

variable {build : Build} {params : SwapParams} {s s' : SwapState}

/-- The sum on the far side of the next tick. -/
theorem liquidityAt_next (hSpacing : 1 ≤ params.tickSpacing)
    (hMarks : Marks params.ticks params.tickBitmap params.tickSpacing) :
    liquidityAt params.ticks (if params.zeroForOne then nextTickOf params s - 1
      else nextTickOf params s) =
    if params.zeroForOne then
      liquidityAt params.ticks s.tick - netAt params.ticks (nextTickOf params s)
    else liquidityAt params.ticks s.tick + netAt params.ticks (nextTickOf params s) := by
  have hSplit := liquidityAt_succ params.ticks (nextTickOf params s - 1)
  rw [sub_add_cancel] at hSplit
  cases hDir : params.zeroForOne with
  | true =>
      have hSame := liquidityAt_eq (next_down (s := s) hSpacing hDir)
        fun k hk hNext => no_key_down hSpacing hMarks hDir hk hNext
      simp only [if_true]
      omega
  | false =>
      have hTick := next_up (s := s) hSpacing hDir
      have hSame := liquidityAt_eq (a := s.tick) (b := nextTickOf params s - 1) (by omega)
        fun k hk hk' hNext => no_key_up hSpacing hMarks hDir hk hk' (by omega)
      simp only [Bool.false_eq_true, if_false]
      omega

/-- A crossing keeps the sum exactly where the net liquidity is not negative. -/
theorem matches_crossed_iff (hSpacing : 1 ≤ params.tickSpacing)
    (hMarks : Marks params.ticks params.tickBitmap params.tickSpacing)
    (hSums : SumsFit params.ticks) (hMatches : Matches params.ticks s)
    (hTick : s'.tick = if params.zeroForOne then nextTickOf params s - 1
      else nextTickOf params s)
    (hLiquidity : s'.liquidity = params.crossedLiquidity s.liquidity (nextTickOf params s)) :
    Matches params.ticks s' ↔ 0 ≤ netAt params.ticks (nextTickOf params s) := by
  have hNext := liquidityAt_next (s := s) hSpacing hMarks
  have hFar := hSums s'.tick
  have hNear := hSums s.tick
  unfold Matches at hMatches ⊢
  rw [← hTick] at hNext
  rw [hLiquidity]
  cases hDir : params.zeroForOne with
  | true =>
      rw [hDir, if_pos rfl] at hNext
      rw [crossedLiquidity_down _ _ hDir]
      omega
  | false =>
      rw [hDir, if_neg Bool.false_ne_true] at hNext
      rw [crossedLiquidity_up _ _ hDir]
      have hWord : FullWidth.maxWord = 2 ^ 256 - 1 := rfl
      omega

/-- The iteration stands still at the upper end of its tick's range. -/
def StandsStill (s s' : SwapState) : Prop :=
  s.sqrtPriceX96 = getSqrtRatioAtTick (s.tick + 1) ∧ s'.sqrtPriceX96 = s.sqrtPriceX96

section Stop

variable (hSteps : StepsTo params s s' (nextTickOf params s)) (hRange : InRange s)
  (hStop : s'.sqrtPriceX96 ≠ getSqrtRatioAtTick (nextTickOf params s))
include hSteps hRange hStop

theorem stop_up (hUp : params.zeroForOne = false) :
    s.tick ≤ s'.tick ∧ s'.tick < nextTickOf params s := by
  obtain ⟨hTick, _⟩ := hSteps.stopped hStop
  have hForward := hSteps.forward
  have hWithin := hSteps.within.trans (targetPrice_toward_ratio params _)
  rw [hUp] at hForward hWithin
  rw [hTick]
  refine ⟨le_tickAt hRange.tick_high (hRange.low.trans hForward), tickAt_lt ?_⟩
  apply lt_of_le_of_ne hWithin
  exact fun hEq => hStop (BitVec.eq_of_toNat_eq hEq)

theorem stop_down (hMax : nextTickOf params s ≤ maxTick) (hDown : params.zeroForOne = true) :
    nextTickOf params s ≤ s'.tick ∧
      (s'.tick ≤ s.tick ∨ s'.tick = s.tick + 1 ∧ StandsStill s s') := by
  obtain ⟨hTick, _⟩ := hSteps.stopped hStop
  have hForward := hSteps.forward
  have hWithin := hSteps.within.trans (targetPrice_toward_ratio params _)
  rw [hDown] at hForward hWithin
  have hForward : s'.sqrtPriceX96.toNat ≤ s.sqrtPriceX96.toNat := hForward
  rw [hTick]
  refine ⟨le_tickAt hMax hWithin, ?_⟩
  by_cases hInside : s'.sqrtPriceX96.toNat < price (s.tick + 1)
  · exact .inl (Int.lt_add_one_iff.mp (tickAt_lt hInside))
  · obtain ⟨_, hTop, hAt, _⟩ := tickAt_bounds s'.sqrtPriceX96
    by_cases hLast : s.tick < maxTick
    · -- the price is the upper end of the range, where it was before
      have hUpper := hRange.high hLast
      refine .inr ⟨tickAt_eq_of_price hRange.tick_low hLast ?_, ?_, ?_⟩
      · omega
      · apply BitVec.eq_of_toNat_eq
        show _ = price (s.tick + 1)
        omega
      · apply BitVec.eq_of_toNat_eq
        omega
    · left
      have hHigh := hRange.tick_high
      omega

/-- Standing still moves the tick up by one. -/
theorem stop_still (hStill : StandsStill s s') : s'.tick = s.tick + 1 := by
  rw [(hSteps.stopped hStop).1]
  apply tickAt_eq_of_price hRange.tick_low (hRange.tick_lt_of_upper hStill.1)
  rw [hStill.2, hStill.1]

end Stop

/-- Short of the next tick the sum stays, unless the iteration stands still below a tick
with net liquidity. -/
theorem matches_stopped (hSpacing : 1 ≤ params.tickSpacing)
    (hMarks : Marks params.ticks params.tickBitmap params.tickSpacing)
    (hMatches : Matches params.ticks s) (hSteps : StepsTo params s s' (nextTickOf params s))
    (hRange : InRange s) (hMax : nextTickOf params s ≤ maxTick)
    (hStop : s'.sqrtPriceX96 ≠ getSqrtRatioAtTick (nextTickOf params s))
    (hMoves : params.zeroForOne = true → netAt params.ticks (s.tick + 1) ≠ 0 →
      ¬ StandsStill s s') : Matches params.ticks s' := by
  have hLiquidity := (hSteps.stopped hStop).2
  unfold Matches at hMatches ⊢
  rw [hLiquidity, hMatches]
  cases hDir : params.zeroForOne with
  | true =>
      obtain ⟨hNext, hTick⟩ := stop_down hSteps hRange hStop hMax hDir
      rcases hTick with hTick | ⟨hTick, hStill⟩
      · exact liquidityAt_eq hTick fun k hk hLow =>
          no_key_down hSpacing hMarks hDir hk (hNext.trans_lt hLow)
      · have hNone : netAt params.ticks (s.tick + 1) = 0 := by
          by_contra hNet
          exact hMoves hDir hNet hStill
        rw [hTick, liquidityAt_succ, hNone, add_zero]
  | false =>
      obtain ⟨hTick, hNext⟩ := stop_up hSteps hRange hStop hDir
      exact (liquidityAt_eq hTick fun k hk hLow hHigh =>
        no_key_up hSpacing hMarks hDir hk hLow (hHigh.trans_lt hNext)).symm

section Iteration

variable (hSound : Sound params)
  (hMarks : Marks params.ticks params.tickBitmap params.tickSpacing)
  (hSums : SumsFit params.ticks) (hReady : Ready params s)
  (hGuard : (params.swapLoop build).guard s = true) (hBounds : InBounds build params s)
  (hMatches : Matches params.ticks s)
include hSound hMarks hSums hReady hGuard hBounds hMatches

/-- **An iteration keeps the sum.** -/
theorem step_matches (hOk : CrossOk build params s) (hStep : params.step build s = some s') :
    Matches params.ticks s' := by
  obtain ⟨hSteps, hMax, hPrice⟩ := step_spec hSound hReady hGuard hBounds hStep
  by_cases hCross : s'.sqrtPriceX96 = getSqrtRatioAtTick (nextTickOf params s)
  · obtain ⟨hTick, hLiquidity⟩ := hSteps.crossed hCross
    rw [matches_crossed_iff hSound.spacing hMarks hSums hMatches hTick hLiquidity]
    exact hOk.net_nonneg (hPrice.trans (congrArg some hCross))
  · apply matches_stopped hSound.spacing hMarks hMatches hSteps hReady.inRange hMax hCross
    intro hDown hNet hStill
    exact hOk.moves hDown hNet hStill.1 (hPrice.trans (congrArg some hStill.2))

/-- Conversely, an iteration that keeps the sum is one of these. -/
theorem crossOk_of_matches
    (hKeeps : ∀ s', params.step build s = some s' → Matches params.ticks s') :
    CrossOk build params s := by
  constructor
  · intro hPrice
    obtain ⟨s', hStep, hCross⟩ := exists_step hSound hReady hGuard hBounds hPrice
    obtain ⟨hSteps, _, _⟩ := step_spec hSound hReady hGuard hBounds hStep
    obtain ⟨hTick, hLiquidity⟩ := hSteps.crossed hCross
    exact (matches_crossed_iff hSound.spacing hMarks hSums hMatches hTick hLiquidity).mp
      (hKeeps s' hStep)
  · intro hDown hNet hUpper hPrice
    obtain ⟨s', hStep, hSame⟩ := exists_step hSound hReady hGuard hBounds hPrice
    obtain ⟨hSteps, _, _⟩ := step_spec hSound hReady hGuard hBounds hStep
    have hStop : s'.sqrtPriceX96 ≠ getSqrtRatioAtTick (nextTickOf params s) := by
      intro hCross
      have hNext := price_mono (next_down (s := s) hSound.spacing hDown) hReady.inRange.tick_high
      have hLast := hReady.inRange.tick_lt_of_upper hUpper
      have hStrict := price_lt_succ hReady.inRange.tick_low hLast
      rw [hSame, hUpper] at hCross
      have hEq : price (s.tick + 1) = price (nextTickOf params s) :=
        congrArg BitVec.toNat hCross
      omega
    have hTick := stop_still hSteps hReady.inRange hStop ⟨hUpper, hSame⟩
    have hAfter := hKeeps s' hStep
    unfold Matches at hMatches hAfter
    rw [(hSteps.stopped hStop).2, hTick, liquidityAt_succ, ← hMatches] at hAfter
    omega

end Iteration

end Step

/-! ## Runs -/

/-- What the simulation is promised: a marked bitmap, sums that are liquidities, a limit on
the proper side, and the liquidity of the start. -/
structure Begins (params : SwapParams) (start : SwapState) : Prop where
  sound : Sound params
  marks : Marks params.ticks params.tickBitmap params.tickSpacing
  sums : SumsFit params.ticks
  amount : 0 < start.amountRemaining.toNat ∧ start.amountRemaining.toNat < 2 ^ 255
  limit : Toward params.zeroForOne start.sqrtPriceX96 params.sqrtPriceLimit
  liquidity : Matches params.ticks start

/-- `P` holds before every iteration of the run. -/
def Throughout (build : Build) (params : SwapParams) (start : SwapState)
    (P : SwapState → Prop) : Prop :=
  ∀ s, Reaches (params.swapLoop build) start s → (params.swapLoop build).guard s = true → P s

section Run

variable {build : Build} {params : SwapParams} {start : SwapState}
  (hStart : Begins params start) (hRange : InRange start)
  (hBounds : Throughout build params start (InBounds build params))
include hStart

theorem Begins.ready {s : SwapState} (hTrack : OnTrack build params s)
    (hGuard : (params.swapLoop build).guard s = true) (hMatches : Matches params.ticks s) :
    Ready params s := by
  refine hTrack.ready hGuard fun _ => ?_
  have hSum := (hStart.sums s.tick).2
  unfold Matches at hMatches
  omega

include hRange

theorem Begins.onTrack : OnTrack build params start :=
  ⟨hStart.limit, hStart.amount.2, fun _ => hRange⟩

include hBounds

/-- Iterations that keep the sum keep it in every state. -/
theorem matches_reached (hOk : Throughout build params start (CrossOk build params))
    {s : SwapState} (hReach : Reaches (params.swapLoop build) start s) :
    Matches params.ticks s := by
  have hBoth : OnTrack build params s ∧ Matches params.ticks s := by
    apply Reaches.invariant (fun s => OnTrack build params s ∧ Matches params.ticks s)
      fun s => InBounds build params s ∧ CrossOk build params s
    · intro t t' hInv hGuard hAllowed hBody
      have hReady := hStart.ready hInv.1 hGuard hInv.2
      obtain ⟨hSteps, hMax, _⟩ := step_spec hStart.sound hReady hGuard hAllowed.1 hBody
      exact ⟨hSteps.onTrack hStart.sound.spacing hReady hMax,
        step_matches hStart.sound hStart.marks hStart.sums hReady hGuard hAllowed.1 hInv.2
          hAllowed.2 hBody⟩
    · exact ⟨hStart.onTrack hRange, hStart.liquidity⟩
    · exact fun t ht hGuard => ⟨hBounds t ht hGuard, hOk t ht hGuard⟩
    · exact hReach
  exact hBoth.2

/-- States that all hold the sum come from iterations that keep it. -/
theorem crossOk_throughout
    (hMatches : ∀ s, Reaches (params.swapLoop build) start s → Matches params.ticks s) :
    Throughout build params start (CrossOk build params) := by
  intro s hReach hGuard
  have hTrack : OnTrack build params s := by
    apply Reaches.invariant (OnTrack build params)
      fun s => InBounds build params s ∧ Matches params.ticks s
    · intro t t' hInv hGuard hAllowed hBody
      have hReady := hStart.ready hInv hGuard hAllowed.2
      obtain ⟨hSteps, hMax, _⟩ := step_spec hStart.sound hReady hGuard hAllowed.1 hBody
      exact hSteps.onTrack hStart.sound.spacing hReady hMax
    · exact hStart.onTrack hRange
    · exact fun t ht hGuard => ⟨hBounds t ht hGuard, hMatches t ht⟩
    · exact hReach
  have hSum := hMatches s hReach
  exact crossOk_of_matches hStart.sound hStart.marks hStart.sums
    (hStart.ready hTrack hGuard hSum) hGuard (hBounds s hReach hGuard) hSum
    fun s' hStep => hMatches s' (hReach.step hGuard hStep)

end Run

/-- The loop of `simulate_swap_with_limit`, and its first state. -/
def loopParams (ticks : TickMap) (tickBitmap : TickBitmap) (zeroForOne : Bool) (fee : U32)
    (limit : Option U256) (tickSpacing : ℤ) : SwapParams :=
  ⟨ticks, tickBitmap, zeroForOne, fee, resolveLimit limit zeroForOne, tickSpacing⟩

def firstState (sqrtPriceX96 : U256) (tick : ℤ) (liquidity amountIn : U256) : SwapState :=
  ⟨sqrtPriceX96, tick, liquidity, amountIn, 0⟩

/-- **The liquidity of a run and of its result.**  From a price in range of its tick, with
every iteration in bounds, the states of the run all hold the sum up to their tick exactly
where the iterations cross no negative tick and do not stand still, and then the result
does. -/
theorem liquidity_matches_iff (build : Build) (ticks : TickMap) (tickBitmap : TickBitmap)
    (sqrtPriceX96 : U256) (tick : ℤ) (liquidity amountIn : U256) (zeroForOne : Bool) (fee : U32)
    (limit : Option U256) (tickSpacing : ℤ)
    (hStart : Begins (loopParams ticks tickBitmap zeroForOne fee limit tickSpacing)
      (firstState sqrtPriceX96 tick liquidity amountIn))
    (hRange : InRange (firstState sqrtPriceX96 tick liquidity amountIn))
    (hBounds : Throughout build (loopParams ticks tickBitmap zeroForOne fee limit tickSpacing)
      (firstState sqrtPriceX96 tick liquidity amountIn)
      (InBounds build (loopParams ticks tickBitmap zeroForOne fee limit tickSpacing))) :
    (Throughout build (loopParams ticks tickBitmap zeroForOne fee limit tickSpacing)
        (firstState sqrtPriceX96 tick liquidity amountIn)
        (CrossOk build (loopParams ticks tickBitmap zeroForOne fee limit tickSpacing)) ↔
      ∀ s, Reaches ((loopParams ticks tickBitmap zeroForOne fee limit tickSpacing).swapLoop build)
          (firstState sqrtPriceX96 tick liquidity amountIn) s →
        (s.liquidity.toNat : ℤ) = liquidityAt ticks s.tick) ∧
    (Throughout build (loopParams ticks tickBitmap zeroForOne fee limit tickSpacing)
        (firstState sqrtPriceX96 tick liquidity amountIn)
        (CrossOk build (loopParams ticks tickBitmap zeroForOne fee limit tickSpacing)) →
      ∀ n amount price tick' liquidity',
        simulateSwapWithLimit n build sqrtPriceX96 tick liquidity ticks tickBitmap amountIn
            zeroForOne fee limit tickSpacing = some (some (amount, price, tick', liquidity')) →
        (liquidity'.toNat : ℤ) = liquidityAt ticks tick') := by
  refine ⟨⟨?_, crossOk_throughout hStart hRange hBounds⟩, ?_⟩
  · intro hOk s hReach
    exact matches_reached hStart hRange hBounds hOk hReach
  · intro hOk n amount price tick' liquidity' hResult
    obtain ⟨amountRemaining, hRun⟩ := simulateSwapWithLimit_eq.mp hResult
    exact matches_reached hStart hRange hBounds hOk (reaches_of_run hRun).1

/-! ## A pool with three ticks -/

/-- A wide position from -60 and a narrow one from 0, both up to 60. -/
def threeTicks : TickMap where
  keys := {-60, 0, 60}
  net := fun t => if t = -60 then 2 ^ 100 else if t = 0 then 5 else -(2 ^ 100 + 5)
  key_range := by decide
  net_range := by decide

def threeTicksBitmap : TickBitmap := fun position =>
  if position = -1 then some (1 <<< 255) else if position = 0 then some 3 else none

theorem threeTicks_sum (t : ℤ) : liquidityAt threeTicks t =
    if t < -60 then 0 else if t < 0 then 2 ^ 100 else if t < 60 then 2 ^ 100 + 5 else 0 := by
  rw [liquidityAt, Finset.sum_filter]
  simp [threeTicks]
  split_ifs <;> omega

theorem threeTicks_fit : SumsFit threeTicks := by
  intro t
  rw [threeTicks_sum]
  split_ifs <;> omega

theorem threeTicks_marks : Marks threeTicks threeTicksBitmap 60 := by
  refine ⟨by decide, fun c => ?_⟩
  have hKeys : c * 60 ∈ threeTicks.keys ↔ c = -1 ∨ c = 0 ∨ c = 1 := by
    simp [threeTicks]
    omega
  rw [hKeys]
  unfold Marked wordOf threeTicksBitmap
  by_cases hNeg : c / 256 = -1
  · have hBit : (1#256 <<< 255).getLsbD (c % 256).toNat = decide ((c % 256).toNat = 255) := by
      rw [← BitVec.twoPow_eq, BitVec.getLsbD_twoPow]
      simp [eq_comm]
    rw [if_pos hNeg]
    show _ ∧ _ ∧ (1#256 <<< 255).getLsbD _ = true ↔ _
    rw [hBit, decide_eq_true_eq]
    omega
  · rw [if_neg hNeg]
    by_cases hZero : c / 256 = 0
    · have hBits : ∀ i < 256, (3 : U256).getLsbD i = decide (i ≤ 1) := by
        intro i _
        have hTwo : (3 : U256).getLsbD i = Nat.testBit (2 ^ 2 - 1) i := rfl
        rw [hTwo, Nat.testBit_two_pow_sub_one]
        simp
      rw [if_pos hZero]
      show _ ∧ _ ∧ (3 : U256).getLsbD _ = true ↔ _
      rw [hBits _ (by omega), decide_eq_true_eq]
      omega
    · rw [if_neg hZero]
      show _ ∧ _ ∧ (0 : U256).getLsbD _ = true ↔ _
      simp
      omega

/-- Both directions start inside the two positions. -/
theorem threeTicks_begins {zeroForOne : Bool} {fee : U32} {limit p amount : U256} {tick : ℤ}
    (hFee : fee.toNat < 1000000) (hLimit : Toward zeroForOne p limit)
    (hAmount : 0 < amount.toNat ∧ amount.toNat < 2 ^ 255) (hTick : 0 ≤ tick ∧ tick < 60) :
    Begins ⟨threeTicks, threeTicksBitmap, zeroForOne, fee, limit, 60⟩
      ⟨p, tick, 2 ^ 100 + 5, amount, 0⟩ := by
  have hSpacing : (1 : ℤ) ≤ 60 := by norm_num
  have hValue : (2 ^ 100 + 5 : U256).toNat = 2 ^ 100 + 5 := by simp
  refine ⟨⟨hSpacing, hFee⟩, threeTicks_marks, threeTicks_fit, hAmount, hLimit, ?_⟩
  show ((2 ^ 100 + 5 : U256).toNat : ℤ) = liquidityAt threeTicks tick
  rw [threeTicks_sum, if_neg (by omega), if_neg (by omega), if_pos (by omega), hValue]
  norm_num

/-- Where a downward swap has crossed 0. -/
def crossedState : SwapState where
  sqrtPriceX96 := getSqrtRatioAtTick 0
  tick := -1
  liquidity := 2 ^ 100
  amountRemaining := 364458177649970394084102271
  amountCalculated := 633952077851277363947415408

/-- A downward swap that crosses 0, goes on and stops in the range of its tick. -/
theorem liquidity_matches_example :
    ∃ amount price,
      simulateSwapWithLimit 3 .release (getSqrtRatioAtTick 10) 10 (2 ^ 100 + 5) threeTicks
          threeTicksBitmap 1000000000000000000000000000 true 3000 none 60 =
        some (some (amount, price, -6, 2 ^ 100)) ∧
      ((2 ^ 100 : U256).toNat : ℤ) = liquidityAt threeTicks (-6) := by
  obtain ⟨params, hParams⟩ : ∃ params : SwapParams,
      params = loopParams threeTicks threeTicksBitmap true 3000 none 60 := ⟨_, rfl⟩
  obtain ⟨start, hStart⟩ : ∃ start : SwapState, start = firstState (getSqrtRatioAtTick 10) 10
      (2 ^ 100 + 5) 1000000000000000000000000000 := ⟨_, rfl⟩
  have hFirst : params.step .release start = some crossedState := by
    rw [hParams, hStart]
    decide +kernel
  have hSecond : (params.step .release crossedState).map (·.amountRemaining) = some 0 := by
    rw [hParams]
    decide +kernel
  obtain ⟨s, hStep, hSpent⟩ := Option.map_eq_some_iff.mp hSecond
  have hStop : (params.swapLoop .release).guard s = false := by
    simp [SwapParams.swapLoop, hSpent]
  have hTwice : ∀ P : SwapState → Prop, P start → P crossedState →
      Throughout .release params start P := by
    intro P hHere hCrossed t hReach hGuard
    rcases hReach.eq_or_reaches hFirst with rfl | hLater
    · exact hHere
    · rcases hLater.eq_or_eq hStep hStop with rfl | rfl
      · exact hCrossed
      · rw [hStop] at hGuard
        exact absurd hGuard (by decide)
  -- The price has just been left, and the second iteration moves on from it.
  have hMoves : stepPrice .release params crossedState ≠ some crossedState.sqrtPriceX96 := by
    rw [hParams]
    decide +kernel
  subst hParams hStart
  have hResult : simulateSwapWithLimit 3 .release (getSqrtRatioAtTick 10) 10 (2 ^ 100 + 5)
      threeTicks threeTicksBitmap 1000000000000000000000000000 true 3000 none 60 =
        some (some (997212754370495742152277360, 79205458721981886444906146464, -6,
          2 ^ 100)) := by
    decide +kernel
  refine ⟨_, _, hResult, (liquidity_matches_iff .release threeTicks threeTicksBitmap
    (getSqrtRatioAtTick 10) 10 (2 ^ 100 + 5) 1000000000000000000000000000 true 3000 none 60
    ?_ ?_ (hTwice _ ?_ ?_)).2 (hTwice _ ⟨?_, ?_⟩ ⟨?_, fun _ _ _ => hMoves⟩) _ _ _ _ _ hResult⟩
  · exact threeTicks_begins (by decide) (by decide +kernel) (by decide) (by decide)
  · exact ⟨by decide, by decide, by decide +kernel, fun _ => by decide +kernel⟩
  · decide +kernel
  · decide +kernel
  · intro _
    decide +kernel
  · intro _ hNet
    exact absurd rfl hNet
  · intro _
    decide +kernel

/-- Crossing 60 upwards adds the liquidity that leaves there; and after crossing 0 downwards
an amount too small to move the price moves the tick back. -/
theorem liquidity_mismatch :
    (Begins ⟨threeTicks, threeTicksBitmap, false, 3000, getSqrtRatioAtTick 60, 60⟩
        ⟨getSqrtRatioAtTick 10, 10, 2 ^ 100 + 5, 2 ^ 120, 0⟩ ∧
      InRange ⟨getSqrtRatioAtTick 10, 10, 2 ^ 100 + 5, 2 ^ 120, 0⟩ ∧
      (∃ amount price, simulateSwapWithLimit 4 .release (getSqrtRatioAtTick 10) 10
          (2 ^ 100 + 5) threeTicks threeTicksBitmap (2 ^ 120) false 3000
          (some (getSqrtRatioAtTick 60)) 60 =
        some (some (amount, price, 60, 2 * (2 ^ 100 + 5)))) ∧
      liquidityAt threeTicks 60 = 0) ∧
    (Begins ⟨threeTicks, threeTicksBitmap, true, 0, resolveLimit none true, 60⟩
        ⟨getSqrtRatioAtTick 0, 0, 2 ^ 100 + 5, 1, 0⟩ ∧
      InRange ⟨getSqrtRatioAtTick 0, 0, 2 ^ 100 + 5, 1, 0⟩ ∧
      (∃ amount price, simulateSwapWithLimit 4 .release (getSqrtRatioAtTick 0) 0
          (2 ^ 100 + 5) threeTicks threeTicksBitmap 1 true 0 none 60 =
        some (some (amount, price, 0, 2 ^ 100))) ∧
      liquidityAt threeTicks 0 = 2 ^ 100 + 5) := by
  refine ⟨⟨?_, ?_, ⟨3163428310873923553871044380, getSqrtRatioAtTick 60, ?_⟩, ?_⟩,
    ⟨?_, ?_, ⟨0, getSqrtRatioAtTick 0, ?_⟩, ?_⟩⟩
  · exact threeTicks_begins (by decide) (by decide +kernel) (by decide +kernel) (by decide)
  · exact ⟨by decide, by decide, by decide +kernel, fun _ => by decide +kernel⟩
  · decide +kernel
  · rw [threeTicks_sum]
    norm_num
  · exact threeTicks_begins (by decide) (by decide +kernel) (by decide +kernel) (by decide)
  · exact ⟨by decide, by decide, by decide +kernel, fun _ => by decide +kernel⟩
  · decide +kernel
  · rw [threeTicks_sum]
    norm_num

end SovereignShadow.Ports.SwapLiquidity
