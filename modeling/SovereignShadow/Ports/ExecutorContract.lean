import SovereignShadow.Ports.Chain

/-!
# `Executor`

Every entry point of the contract as a program over the chain.  The Balancer
callback is one Yul block: it reads token, first pool, hop count and hops from
`userData`, sends the loan to the first pool, walks the hops in 42-byte steps and
repays `amounts[0]` of `tokens[0]`.  Before each hop it stores the pool in a
transient slot, which the V3 swap callback compares with its caller.

The block writes the `transfer` arguments to memory from `4` to `68`, over the top
four bytes of the free memory pointer at `0x40`; whatever is later written through
that pointer lies `amountIn % 2 ^ 32` times `2 ^ 224` bytes up.
-/

namespace SovereignShadow.Ports.ExecutorContract

open SovereignShadow.Verified.Bytes
open SovereignShadow.Verified.Callback.Prog
open SovereignShadow.Ports.Models
open SovereignShadow.Ports.Evm
open SovereignShadow.Ports.Chain

/-! ## Context -/

/-- `address()`, the immutables `owner` and `balancerVault`, and `msg.sender`. -/
structure Context where
  self : Address
  owner : Address
  balancerVault : Address
  sender : Address
  deriving DecidableEq, Repr

/-- `userData` of the callback: where it lies in memory. -/
structure UserData where
  memory : ByteMem
  pointer : Nat

namespace UserData

/-- `dataStart`. -/
def dataStart (data : UserData) : Nat := data.pointer + 32

/-- `tokenIn` before the first hop. -/
def loanToken (data : UserData) : U256 := shr96 (loadWord data.memory data.dataStart)

/-- `pathDataPtr`. -/
def pathDataPtr (data : UserData) : Nat := data.dataStart + 20

/-- `firstPool`. -/
def firstPool (data : UserData) : U256 :=
  shr96 (loadWord data.memory (data.pathDataPtr + 1))

/-- `hops`. -/
def hops (data : UserData) : Nat := byteOf 0 (loadWord data.memory data.pathDataPtr)

end UserData

/-! ## Memory -/

/-- The free pointer once the four arguments are decoded to memory. -/
def decodedEnd (loansLen userDataLen : Nat) : Nat :=
  0x80 + 3 * (0x20 + 0x20 * loansLen) + (0x20 + (userDataLen + 31) / 32 * 32)

/-- `mload(0x40)` after `mstore(36, amountIn)`: the low four bytes of `amountIn` have
replaced the top four of the pointer. -/
def freePointer (amountIn : U256) (pointer : Nat) : Nat :=
  amountIn.toNat % 2 ^ 32 * 2 ^ 224 + pointer % 2 ^ 224

/-- A write at `pointer`: the expansion of memory to there has to be paid for, which
no amount of gas does from `2 ^ 64` on. -/
def touch (pointer : Nat) : Script Unit := require (pointer < 2 ^ 64)

/-! ## Hops -/

/-- The `UniswapV2` case; the result is the next `amountIn`. -/
def swapV2 (pool recipient : U256) (zeroForOne : Nat) (amountIn : U256) (ptr : Nat) :
    Script U256 := do
  let reserves ← query (.getter (toAddress pool) .getReserves)
  require reserves.success
  let r0 := reserves.word0
  let r1 := reserves.word1
  require (r0 * r1 ≠ 0)
  let reserveIn := if zeroForOne ≠ 0 then r0 else r1
  let reserveOut := if zeroForOne ≠ 0 then r1 else r0
  let amountInWithFee := amountIn * 997
  let amountOut := amountInWithFee * reserveOut / (reserveIn * 1000 + amountInWithFee)
  touch ptr
  let amount0Out := if zeroForOne = 1 then 0 else amountOut
  let amount1Out := if zeroForOne = 1 then amountOut else 0
  callOrRevert (.swap (toAddress pool) (.swapV2 amount0Out amount1Out recipient))
  return amountOut

/-- The default case, `UniswapV3`: the smaller delta, without its sign. -/
def swapV3 (pool recipient : U256) (zeroForOne : Nat) (amountIn tokenIn : U256) (ptr : Nat) :
    Script U256 := do
  touch ptr
  let sqrtLimit : U256 :=
    if zeroForOne = 0 then 1461446703485210103287273052203988822378723970341 else 4295128739
  let reply ← query (.swap (toAddress pool)
    (.swapV3 recipient (BitVec.ofNat 256 zeroForOne) amountIn sqrtLimit [tokenIn]))
  require reply.success
  require (64 ≤ reply.returndatasize)
  let a0 := reply.word0
  let a1 := reply.word1
  let amount := if a1.slt a0 then a1 else a0
  return if amount.slt 0 then 0 - amount else amount

/-- The hop loop from hop `i` on, with `left` hops to go. -/
def runHops (self : Address) (data : UserData) (ptr : Nat) :
    Nat → Nat → U256 → U256 → Script Unit
  | 0, _, _, _ => pure ()
  | left + 1, i, amountIn, tokenIn => do
      let hopPtr := data.pathDataPtr + 1 + i * 42
      let pool := shr96 (loadWord data.memory hopPtr)
      let flagsWord := loadWord data.memory (hopPtr + 40)
      let dexType := byteOf 0 flagsWord
      let zeroForOne := byteOf 1 flagsWord
      callOrRevert (.tstore pool)
      let recipient :=
        if i + 1 < data.hops then shr96 (loadWord data.memory (hopPtr + 42))
        else addressWord self
      let amountOut ←
        if dexType = 0 then swapV2 pool recipient zeroForOne amountIn ptr
        else swapV3 pool recipient zeroForOne amountIn tokenIn ptr
      runHops self data ptr left (i + 1) amountOut
        (shr96 (loadWord data.memory (hopPtr + 20)))

/-! ## Entry points -/

/-- `if (msg.sender != owner) revert Unauthorized()`. -/
def onlyOwner (ctx : Context) : Script Unit := require (ctx.sender = ctx.owner)

/-- A high-level `balanceOf`. -/
def balanceOf (token holder : Address) : Script U256 := do
  let reply ← query (.balanceOf token holder)
  require (reply.success ∧ 32 ≤ reply.returndatasize)
  return reply.word0

/-- `require(IERC20(token).transfer(dst, value), "TF")`. -/
def transferOrTF (token dst : Address) (value : U256) : Script Unit := do
  let reply ← query (.transfer token dst value)
  require (reply.success ∧ 32 ≤ reply.returndatasize ∧ reply.word0 = 1)

/-- The repayment: `tokens[0]` and `amounts[0]` panic on empty arrays. -/
def repay (ctx : Context) (loans : List (Address × U256)) (ptr : Nat) : Script Unit :=
  match loans with
  | [] => .revert
  | loan :: _ => do
      touch ptr
      transferOrTF loan.1 ctx.balancerVault loan.2

/-- `amounts[0]`, read as the word after the length; zero on empty arrays, where the
next array's length lies. -/
def firstAmount (loans : List (Address × U256)) : U256 := (loans.headD (0, 0)).2

/-- The free pointer that the callback works with. -/
def callbackPointer (loans : List (Address × U256)) (data : UserData) : Nat :=
  freePointer (firstAmount loans)
    (decodedEnd loans.length (loadWord data.memory data.pointer).toNat)

/-- The payment to the first pool, and the loop. -/
def payAndRun (ctx : Context) (loans : List (Address × U256)) (data : UserData) :
    Script Unit := do
  let amountIn := firstAmount loans
  callOrRevert (.transfer (toAddress data.loanToken) (toAddress data.firstPool) amountIn)
  runHops ctx.self data (callbackPointer loans data) data.hops 0 amountIn data.loanToken

/-- `receiveFlashLoan`, on the vault's token and amount arrays. -/
def receiveFlashLoan (ctx : Context) (loans : List (Address × U256)) (data : UserData) :
    Script Unit := do
  require (ctx.sender = ctx.balancerVault)
  payAndRun ctx loans data
  repay ctx loans (callbackPointer loans data)

/-- `uniswapV3SwapCallback`; `tokenWord` is the first word of `data`. -/
def uniswapV3SwapCallback (ctx : Context) (amount0Delta amount1Delta tokenWord : U256) :
    Script Unit := do
  let activePool ← query .tload
  require (addressWord ctx.sender = activePool.word0)
  let amount := if (0 : U256).slt amount1Delta then amount1Delta else amount0Delta
  callOrRevert (.transfer (toAddress tokenWord) ctx.sender amount)

/-- `executeArbitrage`. -/
def executeArbitrage (ctx : Context) (loanToken : Address) (loanAmount : U256)
    (pathData : List UInt8) (minProfit : U256) : Script U256 := do
  onlyOwner ctx
  let balanceBefore ← balanceOf loanToken ctx.self
  callOrRevert (.flashLoan ctx.balancerVault ctx.self [addressWord loanToken] [loanAmount]
    (addressBytes loanToken ++ pathData))
  let balanceAfter ← balanceOf loanToken ctx.self
  require (balanceBefore.toNat + minProfit.toNat < 2 ^ 256)
  require (¬ balanceAfter < balanceBefore + minProfit)
  return balanceAfter - balanceBefore

/-- `withdraw`. -/
def withdraw (ctx : Context) (token : Address) : Script Unit := do
  onlyOwner ctx
  let balance ← balanceOf token ctx.self
  transferOrTF token ctx.owner balance

/-- `withdrawETH`. -/
def withdrawETH (ctx : Context) : Script Unit := do
  onlyOwner ctx
  let balance ← query .selfbalance
  callOrRevert (.sendEther ctx.owner balance.word0)

/-- A call of the contract, by entry point. -/
inductive Call where
  | executeArbitrage (loanToken : Address) (loanAmount : U256) (pathData : List UInt8)
      (minProfit : U256)
  | withdraw (token : Address)
  | withdrawETH
  /-- Plain ether. -/
  | receive
  /-- `aavePool()`, `balancerVault()` and `owner()`. -/
  | constantGetter
  | receiveFlashLoan (loans : List (Address × U256)) (data : UserData)
  | uniswapV3SwapCallback (amount0Delta amount1Delta tokenWord : U256)

/-- The code behind each entry point. -/
def program (ctx : Context) : Call → Script Unit
  | .executeArbitrage loanToken loanAmount pathData minProfit => do
      let _ ← executeArbitrage ctx loanToken loanAmount pathData minProfit
      pure ()
  | .withdraw token => withdraw ctx token
  | .withdrawETH => withdrawETH ctx
  | .receive => pure ()
  | .constantGetter => pure ()
  | .receiveFlashLoan loans data => receiveFlashLoan ctx loans data
  | .uniswapV3SwapCallback amount0Delta amount1Delta tokenWord =>
      uniswapV3SwapCallback ctx amount0Delta amount1Delta tokenWord

/-! ## The vault -/

/-- The payout loop of the vault's `flashLoan`. -/
def payLoans (recipient : Address) : List (Address × U256) → Script Unit
  | [] => pure ()
  | loan :: rest => do
      callOrRevert (.transfer loan.1 recipient loan.2)
      payLoans recipient rest

end SovereignShadow.Ports.ExecutorContract
