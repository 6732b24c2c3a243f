import SovereignShadow.Ports.Chain
import SovereignShadow.Ports.GhostPayload

/-!
# `ShadowBot`

Every entry point of the contract as a program over the chain: the owner's two
ways in, the two lender callbacks with their hop executors, the V3 swap callback
and the withdrawals.  Words are 256-bit and wrap as the Yul blocks do.

The ERC-20 and pool calls are the calls the code is written to make.  The hop
records come from the readers of `GhostPayload`, which serve calldata and memory
alike, so each pair of executors (`_executeV2` and `_executeV2_Mem`, and so on)
is one definition.
-/

namespace SovereignShadow.Ports.ShadowBot

open SovereignShadow.Verified.Bytes
open SovereignShadow.Verified.Callback.Prog
open SovereignShadow.Ports.Models
open SovereignShadow.Ports.Evm
open SovereignShadow.Ports.Chain
open SovereignShadow.Ports.GhostPayload

/-! ## Constants and context -/

/-- `BALANCER_VAULT`. -/
def balancerVault : Address := 0xBA12222222228d8Ba445958a75a0704d566BF2C8

/-- `AAVE_V3_POOL`. -/
def aaveV3Pool : Address := 0xA238Dd80C259a72e81d7e4664a9801593F98d1c5

/-- The fee vault that `receiveFlashLoan` tips. -/
def sequencerFeeVault : Address := 0x4200000000000000000000000000000000000011

/-- `address()`, the immutable `owner`, `msg.sender` and `block.coinbase`. -/
structure Context where
  self : Address
  owner : Address
  sender : Address
  coinbase : Address
  deriving DecidableEq, Repr

/-- One entry of the lender's `assets`/`amounts`/`premiums` arrays. -/
structure Loan where
  asset : Address
  amount : U256
  fee : U256
  deriving DecidableEq, Repr

/-- A `bytes calldata` argument: where its bytes lie in the calldata. -/
structure CalldataSlice where
  calldata : ByteMem
  offset : Nat
  length : Nat

/-- The bytes that `calldatacopy` takes. -/
def CalldataSlice.bytes (data : CalldataSlice) : List UInt8 :=
  (List.range data.length).map fun i => data.calldata (data.offset + i)

/-! ## Token calls -/

/-- `_safeTransfer`. -/
def safeTransfer (token dst : Address) (value : U256) : Script Unit := do
  let reply ← query (.transfer token dst value)
  require reply.accepted

/-- `_safeApprove`: first to zero, ignoring the outcome, then to `value`. -/
def safeApprove (token spender : Address) (value : U256) : Script Unit := do
  let _ ← query (.approve token spender 0)
  let reply ← query (.approve token spender value)
  require reply.accepted

/-- A high-level `token0()` / `token1()` call: the decoder wants one clean address. -/
def poolToken (pool : Address) (getter : Getter) : Script Address := do
  let reply ← query (.getter pool getter)
  require (reply.success ∧ 32 ≤ reply.returndatasize ∧ reply.word0.toNat < 2 ^ 160)
  return toAddress reply.word0

/-! ## Hop executors -/

/-- `_getV2TokenLogic` and `_getV3TokenIn`. -/
def getTokenIn (pool : Address) (zfo : Nat) : Script Address := do
  let reply ← query (.getter pool (if zfo ≠ 0 then .token0 else .token1))
  require reply.success
  return toAddress reply.word0

/-- `r0` and `r1` of `getReserves()`. -/
def getReserves (pool : Address) : Script (U256 × U256) := do
  let reply ← query (.getter pool .getReserves)
  require reply.success
  return (reply.word0, reply.word1)

/-- `_getV2AmountOut`. -/
def getV2AmountOut (pool : Address) (zfo : Nat) : Script U256 := do
  let (r0, r1) ← getReserves pool
  let resIn := if zfo ≠ 0 then r0 else r1
  let resOut := if zfo ≠ 0 then r1 else r0
  let tokenIn ← getTokenIn pool zfo
  let balance ← staticBalanceOf tokenIn pool
  let amountIn := balance - resIn
  let amountInWithFee := amountIn * 997
  return amountInWithFee * resOut / (resIn * 1000 + amountInWithFee)

/-- `1000000000000000000`. -/
def wad : U256 := 1000000000000000000

/-- One Newton step of `_getAerodromeStableAmountOut`. -/
def aerodromeStep (xNew x3 k yCurr : U256) : U256 :=
  let y2 := yCurr * yCurr
  let fY := x3 * yCurr / wad + y2 * yCurr * xNew / wad - k
  let fPrime := x3 / wad + 3 * y2 * xNew / wad
  yCurr - fY * wad / fPrime

/-- `_getAerodromeStableAmountOut`: two Newton steps on `x³y + y³x = k`. -/
def getAerodromeStableAmountOut (pool : Address) (amtIn : U256) (zfo : Nat) : Script U256 := do
  let (r0, r1) ← getReserves pool
  let x := if zfo ≠ 0 then r0 else r1
  let y := if zfo ≠ 0 then r1 else r0
  let k := (x * x * x * y + y * y * y * x) / wad
  let xNew := x + amtIn * 9998 / 10000
  let x3 := xNew * xNew * xNew
  return y - aerodromeStep xNew x3 k (aerodromeStep xNew x3 k y)

/-- The V2 `swap` call.  Yul's `if` has no `else`: the block after
`if zfo { out1 := amountOut }` runs in either case, so `out0` is always set. -/
def swapV2 (self pool : Address) (amountOut : U256) (zfo : Nat) : Script Unit :=
  let out0 := amountOut
  let out1 := if zfo ≠ 0 then amountOut else 0
  callOrRevert (.swap pool (.swapV2 out0 out1 (addressWord self)))

/-- `_executeV2`. -/
def executeV2 (self pool : Address) (zfo : Nat) : Script Unit := do
  let tokenIn ← getTokenIn pool zfo
  let balance ← staticBalanceOf tokenIn self
  require (balance ≠ 0)
  callOrRevert (.transfer tokenIn pool balance)
  let amountOut ← getV2AmountOut pool zfo
  swapV2 self pool amountOut zfo

/-- `_executeAerodrome`: no check that there is anything to swap. -/
def executeAerodrome (self pool : Address) (zfo isStable : Nat) : Script Unit := do
  let tokenIn ← getTokenIn pool zfo
  let balance ← staticBalanceOf tokenIn self
  callOrRevert (.transfer tokenIn pool balance)
  let amountOut ←
    if isStable = 1 then getAerodromeStableAmountOut pool balance zfo
    else getV2AmountOut pool zfo
  swapV2 self pool amountOut zfo

/-- `_executeV3`: the amount is `sub(0, bal)`. -/
def executeV3 (self pool : Address) (zfo : Nat) : Script Unit := do
  let tokenIn ← getTokenIn pool zfo
  let balance ← staticBalanceOf tokenIn self
  require (balance ≠ 0)
  let sqrtLimit : U256 :=
    if zfo = 0 then 1461446703485210103287273052203988822378723970341 else 4295128740
  callOrRevert
    (.swap pool (.swapV3 (addressWord self) (BitVec.ofNat 256 zfo) (0 - balance) sqrtLimit []))

/-- One iteration of the hop loop; any other `dexType` is skipped. -/
def executeHop (self : Address) (hop : HopWords) : Script Unit :=
  let pool := toAddress hop.pool
  if hop.dexType = 0 then executeV2 self pool hop.zfo
  else if hop.dexType = 3 then executeAerodrome self pool hop.zfo hop.isStable
  else if hop.dexType = 1 then executeV3 self pool hop.zfo
  else pure ()

/-- The hop loop over the decoded records. -/
def executeHops (self : Address) : List HopWords → Script Unit
  | [] => pure ()
  | hop :: rest => do
      executeHop self hop
      executeHops self rest

/-! ## Flash loans -/

/-- `_initBalancerFlash` and `_initAaveFlash`, which copy the same columns. -/
def initFlash (lender : Address) (self : Address) (data : CalldataSlice)
    (loans : List U256 × List U256) : Script Unit :=
  callOrRevert (.flashLoan lender self loans.1 loans.2 data.bytes)

/-- `_initiateExecution`. -/
def initiateExecution (self : Address) (data : CalldataSlice) : Script Unit :=
  let (lenderId, loansLen) := GhostPayload.initiateExecution data.calldata data.offset
  if lenderId = 0 then
    initFlash balancerVault self data
      (initBalancerFlashLoans data.calldata data.offset loansLen)
  else if lenderId = 1 then
    initFlash aaveV3Pool self data
      (initAaveFlashLoans data.calldata data.offset loansLen)
  else pure ()

/-- Send the whole ether balance to `recipient`, whatever comes of it. -/
def tip (recipient : Address) : Script Unit := do
  let balance ← query .selfbalance
  if 0 < balance.word0 then
    let _ ← query (.sendEther recipient balance.word0)
    pure ()
  else pure ()

/-- The first entry of the arrays.  On empty arrays the memory words that
`receiveFlashLoan` reads are the zero lengths of the arrays that follow. -/
def primaryLoan (loans : List Loan) : Loan := loans.headD ⟨0, 0, 0⟩

/-- The repayment loop of `receiveFlashLoan`; the sum wraps. -/
def repayVault : List Loan → Script Unit
  | [] => pure ()
  | loan :: rest => do
      callOrRevert (.transfer loan.asset balancerVault (loan.amount + loan.fee))
      repayVault rest

/-- `receiveFlashLoan` up to its shield, around whatever runs between the two balance
checks. -/
def receiveFlashLoanShield (ctx : Context) (loans : List Loan) (minProfit : U256)
    (hops : Script Unit) : Script Unit := do
  require (ctx.sender = balancerVault)
  let primaryToken := (primaryLoan loans).asset
  let balance ← staticBalanceOf primaryToken ctx.self
  let balanceBefore := balance - (primaryLoan loans).amount
  hops
  repayVault loans
  let balanceAfter ← staticBalanceOf primaryToken ctx.self
  require (¬ balanceAfter < balanceBefore + minProfit)

/-- `receiveFlashLoan`: the ether is sent once the shield is passed. -/
def receiveFlashLoanWith (ctx : Context) (loans : List Loan) (minProfit : U256)
    (hops : Script Unit) : Script Unit := do
  receiveFlashLoanShield ctx loans minProfit hops
  tip sequencerFeeVault

/-- `receiveFlashLoan` with its payload at `userData` in memory. -/
def receiveFlashLoan (ctx : Context) (loans : List Loan) (memory : ByteMem)
    (userData : Nat) : Script Unit :=
  receiveFlashLoanWith ctx loans (minProfitMemory memory userData)
    (executeHops ctx.self (executeArbitrageHops memory userData))

/-- `amounts.offset` in calldata that the pool encodes: the selector, five head
words, `assets`, then the length word of `amounts`. -/
def amountsOffset (loansLen : Nat) : Nat := 4 + 0xa0 + (0x20 + 0x20 * loansLen) + 0x20

/-- The memory of `executeOperation` once the balance is read: the arguments of
`balanceOf` from `0x04`, its result at `0x20`, the free pointer at `0x40`, and
nothing allocated. -/
def executeOperationMemory (self : Address) (balance : U256) : ByteMem :=
  ofList (List.replicate 4 0 ++ (u256Bytes (addressWord self)).take 28 ++ u256Bytes balance ++
    u256Bytes 0x80)

/-- The approval loop of `executeOperation`; the sum is checked. -/
def approvePool : List Loan → Script Unit
  | [] => pure ()
  | loan :: rest => do
      require (loan.amount.toNat + loan.fee.toNat < 2 ^ 256)
      safeApprove loan.asset aaveV3Pool (loan.amount + loan.fee)
      approvePool rest

/-- `executeOperation` up to its shield, around whatever runs between the two balance
checks.  The loan is read by `mload` at a calldata offset. -/
def executeOperationShield (ctx : Context) (loans : List Loan) (minProfit : U256)
    (hops : Script Unit) : Script Unit := do
  require (ctx.sender = aaveV3Pool)
  require (loans ≠ [])
  let primaryToken := (primaryLoan loans).asset
  let balance ← staticBalanceOf primaryToken ctx.self
  let balanceBefore := balance -
    loadWord (executeOperationMemory ctx.self balance) (amountsOffset loans.length + 0x20)
  hops
  approvePool loans
  let balanceAfter ← staticBalanceOf primaryToken ctx.self
  require (¬ balanceAfter < balanceBefore + minProfit)

/-- `executeOperation`: the ether is sent once the shield is passed. -/
def executeOperationWith (ctx : Context) (loans : List Loan) (minProfit : U256)
    (hops : Script Unit) : Script Bool := do
  executeOperationShield ctx loans minProfit hops
  tip ctx.coinbase
  return true

/-- `executeOperation` with its payload at `paramsOffset` in the calldata. -/
def executeOperation (ctx : Context) (loans : List Loan) (calldata : ByteMem)
    (paramsOffset : Nat) : Script Bool :=
  executeOperationWith ctx loans (minProfitCalldata calldata paramsOffset)
    (executeHops ctx.self (executeArbitrageHopsCalldata calldata paramsOffset))

/-! ## The other entry points -/

/-- `onlyOwner`. -/
def onlyOwner (ctx : Context) : Script Unit := require (ctx.sender = ctx.owner)

/-- `executeArbitrage`. -/
def executeArbitrage (ctx : Context) (pathData : CalldataSlice) : Script Unit := do
  onlyOwner ctx
  initiateExecution ctx.self pathData

/-- `fallback`. -/
def fallback (ctx : Context) (data : CalldataSlice) : Script Unit := do
  onlyOwner ctx
  require (¬ data.length < 34)
  initiateExecution ctx.self data

/-- `uniswapV3SwapCallback`: whoever calls is paid. -/
def uniswapV3SwapCallback (ctx : Context) (amount0Delta amount1Delta : U256) :
    Script Unit := do
  if 0 < amount0Delta.toInt then
    let token ← poolToken ctx.sender .token0
    safeTransfer token ctx.sender amount0Delta
  else if 0 < amount1Delta.toInt then
    let token ← poolToken ctx.sender .token1
    safeTransfer token ctx.sender amount1Delta
  else pure ()

/-- `withdrawETH`. -/
def withdrawETH (ctx : Context) : Script Unit := do
  onlyOwner ctx
  let balance ← query .selfbalance
  let _ ← query (.sendEther ctx.sender balance.word0)
  pure ()

/-- `withdrawToken`. -/
def withdrawToken (ctx : Context) (token : Address) : Script Unit := do
  onlyOwner ctx
  let balance ← staticBalanceOf token ctx.self
  safeTransfer token ctx.owner balance

/-- A call of the contract, by entry point. -/
inductive Call where
  | executeArbitrage (pathData : CalldataSlice)
  | fallback (data : CalldataSlice)
  /-- Plain ether. -/
  | receive
  /-- `owner()`, `BALANCER_VAULT()` and `AAVE_V3_POOL()`. -/
  | constantGetter
  | receiveFlashLoan (loans : List Loan) (memory : ByteMem) (userData : Nat)
  | executeOperation (loans : List Loan) (calldata : ByteMem) (paramsOffset : Nat)
  | uniswapV3SwapCallback (amount0Delta amount1Delta : U256)
  | withdrawETH
  | withdrawToken (token : Address)

/-- The code behind each entry point. -/
def program (ctx : Context) : Call → Script Unit
  | .executeArbitrage pathData => executeArbitrage ctx pathData
  | .fallback data => fallback ctx data
  | .receive => pure ()
  | .constantGetter => pure ()
  | .receiveFlashLoan loans memory userData => receiveFlashLoan ctx loans memory userData
  | .executeOperation loans calldata paramsOffset => do
      let _ ← executeOperation ctx loans calldata paramsOffset
      pure ()
  | .uniswapV3SwapCallback amount0Delta amount1Delta =>
      uniswapV3SwapCallback ctx amount0Delta amount1Delta
  | .withdrawETH => withdrawETH ctx
  | .withdrawToken token => withdrawToken ctx token

end SovereignShadow.Ports.ShadowBot
