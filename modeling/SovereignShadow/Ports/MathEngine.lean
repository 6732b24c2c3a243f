import SovereignShadow.Ports.StateMirror

/-!
# The quote and sizing functions

Port of the parts of `math_engine.rs` behind the cycle search: the quote of one pool,
the quote of a path from fetched states, `find_optimal_input`, the golden-section
search, and the projection of a pending swap on the reserves.  A `none` is a panic of the
Rust code.  The stable-pool quote runs on `f64`; it is a parameter of the paths that may
reach it.
-/

namespace SovereignShadow.Ports.MathEngine

open SovereignShadow.Verified.Bytes
open SovereignShadow.Ports.Models
open SovereignShadow.Ports.Mirror

/-! ## Quotes -/

/-- `u512_to_u256_safe`. -/
def u512ToU256Safe (v : U512) : U256 :=
  if v >>> 256 ≠ 0 then BitVec.allOnes 256 else v.setWidth 256

/-- `U512::from`. -/
def toU512 (x : U256) : U512 := x.setWidth 512

/-- `(reserve_in, reserve_out)`. -/
def reservesFor (state : PoolState) (zeroForOne : Bool) : U256 × U256 :=
  if zeroForOne then (state.reserves0, state.reserves1)
  else (state.reserves1, state.reserves0)

/-- `get_v2_output`.  The divisor is never zero: it is at least `reserve_in * 1000`. -/
def getV2Output (amountIn : U256) (state : PoolState) (zeroForOne : Bool) : U256 :=
  if state.reserves0 ≠ 0 ∧ state.reserves1 ≠ 0 then
    let (reserveIn, reserveOut) := reservesFor state zeroForOne
    if amountIn = 0 ∨ reserveIn = 0 ∨ reserveOut = 0 then 0
    else
      let amtInWithFee := toU512 amountIn * 997
      let numerator := amtInWithFee * toU512 reserveOut
      let denominator := toU512 reserveIn * 1000 + amtInWithFee
      u512ToU256Safe (numerator / denominator)
  else 0

/-- `get_aerodrome_output`.  `stableOutput amountIn rIn rOut` is the stable curve. -/
def getAerodromeOutput (stableOutput : U256 → U256 → U256 → Option U256) (amountIn : U256)
    (state : PoolState) (zeroForOne : Bool) : Option U256 :=
  if ¬ state.isStable then some (getV2Output amountIn state zeroForOne)
  else
    let (rIn, rOut) := reservesFor state zeroForOne
    if amountIn = 0 ∨ rIn = 0 ∨ rOut = 0 then some 0 else stableOutput amountIn rIn rOut

/-- The quote of one hop in `get_path_output_with_states`. -/
def hopOutput (stableOutput : U256 → U256 → U256 → Option U256) (hop : Hop)
    (amountIn : U256) (state : PoolState) : Option U256 :=
  match hop.dexType with
  | .uniswapV2 => some (getV2Output amountIn state hop.zeroForOne)
  | .aerodrome => getAerodromeOutput stableOutput amountIn state hop.zeroForOne
  | _ => some 0

/-- `get_path_output_with_states`; a hop without a state is an index panic, unless
nothing is left to swap. -/
def getPathOutputWithStates (stableOutput : U256 → U256 → U256 → Option U256) :
    List Hop → U256 → List PoolState → Option U256
  | [], currentAmount, _ => some currentAmount
  | hop :: hops, currentAmount, states =>
      if currentAmount = 0 then some 0
      else
        match states with
        | [] => none
        | state :: rest => do
            let out ← hopOutput stableOutput hop currentAmount state
            getPathOutputWithStates stableOutput hops out rest

/-! ## Golden-section search -/

/-- `U256::from(PHI_NUM)`. -/
def phiNum : U256 := 618033988749895

/-- `U256::from(PHI_DEN)`. -/
def phiDen : U256 := 1000000000000000

/-- `(b - a) * PHI_NUM / PHI_DEN`. -/
def phiPart (a b : U256) : U256 := (b - a) * phiNum / phiDen

/-- `tolerance`. -/
def tolerance : U256 := 100000000000

/-- The mutable locals of the search. -/
structure Search where
  a : U256
  b : U256
  c : U256
  d : U256
  fC : I256
  fD : I256

/-- The body of the loop. -/
def searchStep (f : U256 → Option I256) (s : Search) : Option Search :=
  if s.fD.slt s.fC then do
    let c := s.d - phiPart s.a s.d
    let fC ← f c
    some { a := s.a, b := s.d, c, d := s.c, fC, fD := s.fC }
  else do
    let d := s.c + phiPart s.c s.b
    let fD ← f d
    some { a := s.c, b := s.b, c := s.d, d, fC := s.fD, fD }

/-- The loop, with its early exit. -/
def searchLoop (f : U256 → Option I256) : Nat → Search → Option Search
  | 0, s => some s
  | n + 1, s =>
      if s.b - s.a < tolerance then some s
      else do
        let s' ← searchStep f s
        searchLoop f n s'

/-- `find_optimal_input`. -/
def findOptimalInput (minIn maxIn : U256) (f : U256 → Option I256) : Option (U256 × U256) := do
  let c := maxIn - phiPart minIn maxIn
  let d := minIn + phiPart minIn maxIn
  let fC ← f c
  let fD ← f d
  let s ← searchLoop f 40 { a := minIn, b := maxIn, c, d, fC, fD }
  let optimalInput := (s.a + s.b) / 2
  let maxProfit ← f optimalInput
  if maxProfit.sle 0 then some (0, 0) else some (optimalInput, maxProfit)

/-! ## Projected reserves -/

/-- `U256::from_be_slice` of the 32 bytes at `p`. -/
def wordAt (data : List UInt8) (p : Nat) : U256 :=
  BitVec.ofNat 256 (readBE (ofList data) p 32)

/-- The input side that a swap of `out` leaves.  The divisor is not zero: `newOut` is
not, and 997 is odd. -/
def projectedInput (rIn out newOut : U256) : U256 := rIn * out * 1000 / (newOut * 997)

/-- The reserves after a V2 `swap` call with these two output amounts. -/
def projectSwap (ps : PoolState) (amt0Out amt1Out : U256) : Option (U256 × U256) :=
  if 0 < amt0Out then
    let newR0 := saturatingSub ps.reserves0 amt0Out
    if newR0 ≠ 0 then
      some (newR0, ps.reserves1 + projectedInput ps.reserves1 amt0Out newR0)
    else none
  else if 0 < amt1Out then
    let newR1 := saturatingSub ps.reserves1 amt1Out
    if newR1 ≠ 0 then
      some (ps.reserves0 + projectedInput ps.reserves0 amt1Out newR1, newR1)
    else none
  else none

/-- `project_reserve_impact`: the impacts by pool, at most one. -/
def projectReserveImpact (tx : MempoolTx) (mirror : StateMirror) :
    List (Address × U256 × U256) :=
  if tx.data.length < 4 then []
  else
    match tx.toAddr with
    | none => []
    | some target =>
        if tx.data.take 4 = [0x02, 0x2c, 0x0d, 0x9f] ∧ tx.data.length ≥ 100 then
          match mirror.pools target with
          | none => []
          | some ps =>
              match projectSwap ps (wordAt tx.data 4) (wordAt tx.data 36) with
              | none => []
              | some reserves => [(target, reserves)]
        else []

/-! ## The call in `process_event` -/

/-- `I256::try_from(x).unwrap_or_default()`. -/
def toI256OrZero (x : U256) : I256 := if x.toNat < 2 ^ 255 then x else 0

/-- The objective: `out.saturating_sub(amt)`. -/
def cycleProfit (stableOutput : U256 → U256 → U256 → Option U256) (hops : List Hop)
    (states : List PoolState) (amt : U256) : Option I256 := do
  let out ← getPathOutputWithStates stableOutput hops amt states
  some (toI256OrZero (saturatingSub out amt))

/-- `10^15`. -/
def minInput : U256 := 1000000000000000

/-- `100 * 10^18`. -/
def maxInput : U256 := 100000000000000000000

/-- The sizing of a path without an Aerodrome hop. -/
def optimalCycleInput (stableOutput : U256 → U256 → U256 → Option U256) (hops : List Hop)
    (states : List PoolState) : Option (U256 × U256) :=
  findOptimalInput minInput maxInput (cycleProfit stableOutput hops states)

end SovereignShadow.Ports.MathEngine
