import SovereignShadow.Ports.MathEngine
import SovereignShadow.Verified.Bisection
import SovereignShadow.Verified.Checked
import SovereignShadow.Verified.WhileLoop

/-!
# Concentrated-liquidity arithmetic

Port of `v3_math.rs`: tick prices, the swap step, the search of the tick bitmap and the
swap loop.  A `none` is a panic.  `U256` arithmetic wraps in every build; `i32`, `u32` and
`I256` arithmetic wraps in a release build and panics in a debug build.
-/

namespace SovereignShadow.Ports.V3Math

open SovereignShadow.Verified.Checked (Build)
open SovereignShadow.Verified.WhileLoop
open SovereignShadow.Ports.Models
open SovereignShadow.Ports.MathEngine (toU512 u512ToU256Safe)

abbrev U32 := BitVec 32

abbrev U128 := BitVec 128

/-! ## Build-dependent arithmetic -/

/-- The result of an `i32` operation. -/
def i32 (build : Build) (x : ℤ) : Option ℤ :=
  if -2 ^ 31 ≤ x ∧ x < 2 ^ 31 then some x
  else
    match build with
    | .debug => none
    | .release => some (x.bmod (2 ^ 32))

/-- `a / b`, towards zero; a zero divisor and `i32::MIN / -1` panic in both builds. -/
def i32Div (a b : ℤ) : Option ℤ :=
  if b = 0 ∨ (a = -2 ^ 31 ∧ b = -1) then none else some (a.tdiv b)

/-- `1_000_000 - fee_pips`. -/
def feeComplement (build : Build) (feePips : U32) : Option U32 :=
  if build = .debug ∧ 1000000 < feePips then none else some (1000000 - feePips)

/-- `I256::abs`. -/
def i256Abs (build : Build) (x : I256) : Option U256 :=
  if build = .debug ∧ x = BitVec.intMin 256 then none else some x.abs

def i256Add (build : Build) (x y : I256) : Option I256 :=
  if build = .debug ∧ BitVec.saddOverflow x y then none else some (x + y)

def i256Sub (build : Build) (x y : I256) : Option I256 :=
  if build = .debug ∧ BitVec.ssubOverflow x y then none else some (x - y)

/-! ## Full-width multiplication -/

def mulDiv (a b denominator : U256) : Option U256 :=
  if denominator = 0 then none
  else some (u512ToU256Safe (toU512 a * toU512 b / toU512 denominator))

def mulDivRoundUp (a b denominator : U256) : Option U256 :=
  if denominator = 0 then none
  else
    let product := toU512 a * toU512 b
    some (u512ToU256Safe ((product + toU512 denominator - 1) / toU512 denominator))

def mulShift128 (a : U256) (b : U128) : U256 :=
  u512ToU256Safe ((toU512 a * b.setWidth 512) >>> 128)

/-! ## Tick prices -/

def minTick : ℤ := -887272

def maxTick : ℤ := 887272

def q96 : U256 := 1 <<< 96

def q128 : U256 := 1 <<< 128

def minSqrtRatio : U256 := 4295128739

/-- The limbs `0x5d951d5263988d25`, `0xefd1fc6a50648849` and `0xfffd8963`. -/
def maxSqrtRatio : U256 := 0xfffd8963efd1fc6a506488495d951d5263988d25

/-- The ratio that bit 0 of the tick selects. -/
def oddRatio : U256 := 0xfffcb933bd6fad37aa2d162d1a594001

/-- The factors of bits 1 to 19. -/
def ratioFactors : List U128 :=
  [0xfff97272373d413259a46990580e213a, 0xfff2e50f5f656932ef12357cf3c7fdcc,
    0xffe5caca7e10e4e61c3624eaa0941cd0, 0xffcb9843d60f6159c9db58835c926644,
    0xff973b41fa98c081472e6896dfb254c0, 0xff2ea16466c96a3843ec78b326b52861,
    0xfe5dee046a99a2a811c461f1969c3053, 0xfcbe86c7900a88aedcffc83b479aa3a4,
    0xf987a7253ac413176f2b074cf7815e54, 0xf3392b0822b70005940c7a398e4b70f3,
    0xe7159475a2c29b7443b29c7fa6e889d9, 0xd097f3bdfd2022b8845ad8f792aa5825,
    0xa9f746462d870fdf8a65dc1f90e061e5, 0x70d869a156d2a1b890bb3df62baf32f7,
    0x31be135f97d08fd981231505542fcfa6, 0x9aa508b5b7a84e1c677de54f3e99bc9,
    0x5d6af8dedb81196699c329225ee604, 0x2216e584f5fa1ea926041bedfe98,
    0x48a170391f7dc42444e8fa2]

/-- The run of `if abs_tick & .. != 0` from bit `bit` on. -/
def applyFactors (absTick : ℕ) : (bit : ℕ) → List U128 → U256 → U256
  | _, [], ratio => ratio
  | bit, factor :: rest, ratio =>
      applyFactors absTick (bit + 1) rest
        (if absTick.testBit bit then mulShift128 ratio factor else ratio)

/-- The ratio of the tick `-absTick`, as a fraction of `2 ^ 128`. -/
def absTickRatio (absTick : ℕ) : U256 :=
  applyFactors absTick 1 ratioFactors (if absTick.testBit 0 then oddRatio else q128)

/-- The shift by 32 bits, rounding up. -/
def shiftRatio (ratio : U256) : U256 :=
  ratio >>> 32 + if ratio &&& 0xFFFFFFFF ≠ 0 then 1 else 0

/-- The division never meets a zero ratio (`absTickRatio_ge`). -/
def getSqrtRatioAtTickUncached (tick : ℤ) : U256 :=
  if 887272 < tick.natAbs then 0
  else
    let ratio := absTickRatio tick.natAbs
    shiftRatio (if 0 < tick then BitVec.allOnes 256 / ratio else ratio)

/-- `SQRT_RATIO_LUT[i]`: the table starts at tick `-110000`. -/
def sqrtRatioLut (i : ℕ) : U256 := getSqrtRatioAtTickUncached ((i : ℤ) - 110000)

def getSqrtRatioAtTick (tick : ℤ) : U256 :=
  if -110000 ≤ tick ∧ tick ≤ 110000 then sqrtRatioLut (tick + 110000).toNat
  else getSqrtRatioAtTickUncached tick

def getTickAtSqrtRatio (sqrtPriceX96 : U256) : ℤ :=
  Verified.Bisection.search (fun tick => (getSqrtRatioAtTick tick).toNat) sqrtPriceX96.toNat
    minTick maxTick

/-! ## Amounts and prices of a step -/

def getAmount0Delta (sqrtRatioA sqrtRatioB liquidity : U256) (roundUp : Bool) : U256 :=
  let lower := u256Min sqrtRatioA sqrtRatioB
  let upper := u256Max sqrtRatioA sqrtRatioB
  let numerator1 := liquidity <<< 96
  let numerator2 := upper - lower
  if roundUp then
    (mulDivRoundUp ((mulDivRoundUp numerator1 numerator2 upper).getD 0) 1 lower).getD 0
  else (mulDiv ((mulDiv numerator1 numerator2 upper).getD 0) 1 lower).getD 0

def getAmount1Delta (sqrtRatioA sqrtRatioB liquidity : U256) (roundUp : Bool) : U256 :=
  let lower := u256Min sqrtRatioA sqrtRatioB
  let upper := u256Max sqrtRatioA sqrtRatioB
  if roundUp then (mulDivRoundUp liquidity (upper - lower) q96).getD 0
  else (mulDiv liquidity (upper - lower) q96).getD 0

/-- `get_next_sqrt_price_from_input`; `product / amount_in` panics on a zero amount. -/
def getNextSqrtPriceFromInput (sqrtPriceX96 liquidity amountIn : U256) (zeroForOne : Bool) :
    Option U256 :=
  if zeroForOne then do
    let numerator := liquidity <<< 96
    let product := amountIn * sqrtPriceX96
    let quotient ← u256Div product amountIn
    let denominator := numerator + product
    if quotient = sqrtPriceX96 ∧ numerator ≤ denominator then
      some ((mulDivRoundUp numerator sqrtPriceX96 denominator).getD 0)
    else do
      let quotient ← u256Div numerator sqrtPriceX96
      some ((mulDivRoundUp numerator 1 (quotient + amountIn)).getD 0)
  else do
    let quotient ← u256Div (amountIn <<< 96) liquidity
    some (sqrtPriceX96 + quotient)

def getNextSqrtPriceFromOutput (sqrtPriceX96 liquidity amountOut : U256) (zeroForOne : Bool) :
    Option U256 :=
  if zeroForOne then do
    let quotient ← u256Div (amountOut <<< 96) liquidity
    some (sqrtPriceX96 - quotient)
  else
    let numerator := liquidity <<< 96
    let denominator := numerator - amountOut * sqrtPriceX96
    some ((mulDivRoundUp numerator sqrtPriceX96 denominator).getD 0)

/-! ## The swap step -/

structure SwapStepResult where
  sqrtPriceNextX96 : U256
  amountIn : U256
  amountOut : U256
  feeAmount : U256
  deriving DecidableEq, Repr

section Step

variable (build : Build) (sqrtPriceCurrent sqrtPriceTarget liquidity : U256)
  (amountRemaining : I256) (feePips : U32) (zeroForOne : Bool)

/-- `amount_remaining_less_fee`. -/
def amountRemainingLessFee : Option U256 := do
  let magnitude ← i256Abs build amountRemaining
  let complement ← feeComplement build feePips
  some ((mulDiv magnitude (complement.setWidth 256) 1000000).getD 0)

/-- The input that takes the price from one ratio to the other. -/
def inputBetween (current next liquidity : U256) (zeroForOne : Bool) : U256 :=
  if zeroForOne then getAmount0Delta next current liquidity true
  else getAmount1Delta current next liquidity true

/-- The output for taking the price from one ratio to the other. -/
def outputBetween (current next liquidity : U256) (zeroForOne : Bool) : U256 :=
  if zeroForOne then getAmount1Delta next current liquidity false
  else getAmount0Delta current next liquidity false

/-- The first half for an exact input: the next price. -/
def priceByInput : Option SwapStepResult := do
  let lessFee ← amountRemainingLessFee build amountRemaining feePips
  let amountIn := inputBetween sqrtPriceCurrent sqrtPriceTarget liquidity zeroForOne
  if amountIn ≤ lessFee then some ⟨sqrtPriceTarget, amountIn, 0, 0⟩
  else do
    let next ← getNextSqrtPriceFromInput sqrtPriceCurrent liquidity lessFee zeroForOne
    some ⟨next, amountIn, 0, 0⟩

/-- The first half for an exact output. -/
def priceByOutput : Option SwapStepResult := do
  let magnitude ← i256Abs build amountRemaining
  let amountOut := outputBetween sqrtPriceCurrent sqrtPriceTarget liquidity zeroForOne
  if amountOut ≤ magnitude then some ⟨sqrtPriceTarget, 0, amountOut, 0⟩
  else do
    let next ← getNextSqrtPriceFromOutput sqrtPriceCurrent liquidity magnitude zeroForOne
    some ⟨next, 0, amountOut, 0⟩

/-- The amounts of the second half, where the first did not fix them. -/
def stepAmounts (exactInput : Bool) (result : SwapStepResult) : SwapStepResult :=
  let max := decide (result.sqrtPriceNextX96 = sqrtPriceTarget)
  { result with
    amountIn :=
      if !max || !exactInput then
        inputBetween sqrtPriceCurrent result.sqrtPriceNextX96 liquidity zeroForOne
      else result.amountIn
    amountOut :=
      if !max || exactInput then
        outputBetween sqrtPriceCurrent result.sqrtPriceNextX96 liquidity zeroForOne
      else result.amountOut }

def stepFee (exactInput : Bool) (result : SwapStepResult) : Option U256 :=
  if exactInput ∧ result.sqrtPriceNextX96 ≠ sqrtPriceTarget then do
    let magnitude ← i256Abs build amountRemaining
    some (magnitude - result.amountIn)
  else do
    let complement ← feeComplement build feePips
    some ((mulDivRoundUp result.amountIn (feePips.setWidth 256)
      (complement.setWidth 256)).getD 0)

def stepRemainder (exactInput : Bool) (result : SwapStepResult) : Option I256 :=
  if exactInput then i256Sub build amountRemaining (result.amountIn + result.feeAmount)
  else i256Add build amountRemaining result.amountOut

def computeSwapStep : Option (SwapStepResult × I256) := do
  let exactInput := (0 : I256).slt amountRemaining
  let priced ←
    if exactInput then
      priceByInput build sqrtPriceCurrent sqrtPriceTarget liquidity amountRemaining feePips
        zeroForOne
    else
      priceByOutput build sqrtPriceCurrent sqrtPriceTarget liquidity amountRemaining zeroForOne
  let paid := stepAmounts sqrtPriceCurrent sqrtPriceTarget liquidity zeroForOne exactInput priced
  let feeAmount ← stepFee build sqrtPriceTarget amountRemaining feePips exactInput paid
  let result := { paid with feeAmount }
  let rem ← stepRemainder build amountRemaining exactInput result
  some (result, rem)

end Step

/-! ## The tick bitmap -/

/-- The words by position. -/
abbrev TickBitmap := ℤ → Option U256

/-- `(tick >> 8) as i16` and `tick as u8`; `/` rounds down, as the shift does. -/
def tickBitmapPosition (tick : ℤ) : ℤ × ℕ := ((tick / 256).bmod (2 ^ 16), (tick % 256).toNat)

def mostSignificantBit (x : U256) : ℕ := if x = 0 then 0 else x.toNat.log2

/-- `trailing_zeros() as u8`, of a word that is not zero. -/
def leastSignificantBit (x : U256) : ℕ := x.ctz.toNat % 256

/-- `compressed`: the tick over the spacing, rounded down. -/
def compressTick (build : Build) (tick tickSpacing : ℤ) : Option ℤ := do
  let compressed ← i32Div tick tickSpacing
  if tick < 0 ∧ tick.tmod tickSpacing ≠ 0 then i32 build (compressed - 1) else some compressed

def getNextInitializedTickPrecise (build : Build) (tick tickSpacing : ℤ) (lte : Bool)
    (tickBitmap : TickBitmap) : Option (ℤ × Bool) := do
  let compressed ← compressTick build tick tickSpacing
  if lte then do
    let (wordPos, bitPos) := tickBitmapPosition compressed
    let mask := ((1 : U256) <<< bitPos) - 1 + (1 : U256) <<< bitPos
    let masked := (tickBitmap wordPos).getD 0 &&& mask
    let initialized := decide (masked ≠ 0)
    let next ← i32 build <|
      if initialized then compressed - ((bitPos : ℤ) - mostSignificantBit masked)
      else compressed - bitPos
    let nextTick ← i32 build (next * tickSpacing)
    some (nextTick, initialized)
  else do
    let above ← i32 build (compressed + 1)
    let (wordPos, bitPos) := tickBitmapPosition above
    let mask := ~~~ (((1 : U256) <<< bitPos) - 1)
    let masked := (tickBitmap wordPos).getD 0 &&& mask
    let initialized := decide (masked ≠ 0)
    let next ← i32 build <|
      if initialized then above + ((leastSignificantBit masked : ℤ) - bitPos)
      else above + (255 - bitPos)
    let nextTick ← i32 build (next * tickSpacing)
    some (nextTick, initialized)

/-! ## The swap loop -/

/-- The ticks of a pool, with `liquidity_net` of each. -/
structure TickMap where
  keys : Finset ℤ
  net : ℤ → ℤ
  key_range : ∀ t ∈ keys, -2 ^ 31 ≤ t ∧ t < 2 ^ 31
  net_range : ∀ t ∈ keys, -2 ^ 127 ≤ net t ∧ net t < 2 ^ 127

/-- `ticks.get(&tick)`. -/
def TickMap.get (ticks : TickMap) (tick : ℤ) : Option ℤ :=
  if tick ∈ ticks.keys then some (ticks.net tick) else none

/-- The arguments that the loop does not change. -/
structure SwapParams where
  ticks : TickMap
  tickBitmap : TickBitmap
  zeroForOne : Bool
  fee : U32
  sqrtPriceLimit : U256
  tickSpacing : ℤ

/-- The mutable locals. -/
structure SwapState where
  sqrtPriceX96 : U256
  tick : ℤ
  liquidity : U256
  amountRemaining : I256
  amountCalculated : U256
  deriving DecidableEq, Repr

namespace SwapParams

variable (params : SwapParams)

/-- `target_price`. -/
def targetPrice (nextSqrtPrice : U256) : U256 :=
  if params.zeroForOne then
    if nextSqrtPrice < params.sqrtPriceLimit then params.sqrtPriceLimit else nextSqrtPrice
  else if params.sqrtPriceLimit < nextSqrtPrice then params.sqrtPriceLimit else nextSqrtPrice

/-- The liquidity past `nextTick`: `unsigned_abs` drops the sign of `liquidity_net`. -/
def crossedLiquidity (liquidity : U256) (nextTick : ℤ) : U256 :=
  match params.ticks.get nextTick with
  | none => liquidity
  | some liquidityNet =>
      let magnitude : U256 := BitVec.ofNat 256 liquidityNet.natAbs
      if params.zeroForOne then saturatingSub liquidity magnitude
      else saturatingAdd liquidity magnitude

/-- The tick past `nextTick`. -/
def crossedTick (build : Build) (nextTick : ℤ) : Option ℤ :=
  if params.zeroForOne then i32 build (nextTick - 1) else some nextTick

/-- The end of the loop body: at the price of `nextTick` the tick is crossed. -/
def settle (build : Build) (s : SwapState) (nextTick : ℤ) (result : SwapStepResult)
    (rem : I256) : Option SwapState :=
  let sqrtPriceX96 := result.sqrtPriceNextX96
  let amountCalculated := s.amountCalculated + result.amountOut
  if sqrtPriceX96 = getSqrtRatioAtTick nextTick then do
    let tick ← params.crossedTick build nextTick
    some ⟨sqrtPriceX96, tick, params.crossedLiquidity s.liquidity nextTick, rem,
      amountCalculated⟩
  else
    some ⟨sqrtPriceX96, getTickAtSqrtRatio sqrtPriceX96, s.liquidity, rem, amountCalculated⟩

/-- The body of the loop. -/
def step (build : Build) (s : SwapState) : Option SwapState := do
  let (nextTick, _) ← getNextInitializedTickPrecise build s.tick params.tickSpacing
    params.zeroForOne params.tickBitmap
  let target := params.targetPrice (getSqrtRatioAtTick nextTick)
  let (result, rem) ← computeSwapStep build s.sqrtPriceX96 target s.liquidity s.amountRemaining
    params.fee params.zeroForOne
  params.settle build s nextTick result rem

def swapLoop (build : Build) : Loop SwapState where
  guard := fun s => decide (s.amountRemaining ≠ 0 ∧ s.sqrtPriceX96 ≠ params.sqrtPriceLimit)
  body := params.step build

end SwapParams

/-- `sqrt_price_limit_x96.unwrap_or(..)`. -/
def resolveLimit (sqrtPriceLimitX96 : Option U256) (zeroForOne : Bool) : U256 :=
  sqrtPriceLimitX96.getD (if zeroForOne then minSqrtRatio + 1 else maxSqrtRatio - 1)

/-- `simulate_swap_with_limit` within `n` tests of the loop guard: the amount, the price,
the tick and the liquidity. -/
def simulateSwapWithLimit (n : ℕ) (build : Build) (sqrtPriceX96 : U256) (tick : ℤ)
    (liquidity : U256) (ticks : TickMap) (tickBitmap : TickBitmap) (amountIn : U256)
    (zeroForOne : Bool) (fee : U32) (sqrtPriceLimitX96 : Option U256) (tickSpacing : ℤ) :
    Option (Option (U256 × U256 × ℤ × U256)) :=
  let sqrtPriceLimit := resolveLimit sqrtPriceLimitX96 zeroForOne
  let params : SwapParams := ⟨ticks, tickBitmap, zeroForOne, fee, sqrtPriceLimit, tickSpacing⟩
  (run (params.swapLoop build) n ⟨sqrtPriceX96, tick, liquidity, amountIn, 0⟩).map
    (·.map fun s => (s.amountCalculated, s.sqrtPriceX96, s.tick, s.liquidity))

end SovereignShadow.Ports.V3Math
