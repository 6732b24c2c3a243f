import SovereignShadow.Ports.FlashCalldata
import SovereignShadow.Verified.Asked

/-!
# The calls of `ShadowBot`, byte by byte

Port of the Yul blocks of `ShadowBot` with their memory writes.  Each site puts a selector into
the low bytes of the word at `ptr` and the first argument at `ptr + 4`, over it, or passes the
first four bytes alone.  So no call carries a selector: it starts with four zero bytes.

The memory is passed on from site to site, and any reply may fill the output areas.  The two hop
loops differ in where they read the hops, the calldata or the memory of the moment.

## Main results

* `slice_encodeCall` — the bytes of a call site.
* `program_sent` — every call of every entry point, whatever is replied.
* `contract_silent` — which entry points complete where such calls are refused.
-/

namespace SovereignShadow.Ports.EmptySelectors

open SovereignShadow.Verified.Bytes
open SovereignShadow.Verified.Abi
open SovereignShadow.Verified.Callback
open SovereignShadow.Verified.Callback.Prog
open SovereignShadow.Ports.Models
open SovereignShadow.Ports.Evm
open SovereignShadow.Ports.Chain (toAddress)
open SovereignShadow.Ports.GhostPayload (HopWords readHop minProfitMemory minProfitCalldata)
open SovereignShadow.Ports.ShadowBot (Context Loan CalldataSlice balancerVault aaveV3Pool
  sequencerFeeVault wad aerodromeStep primaryLoan amountsOffset)
open SovereignShadow.Ports.FlashCalldata

/-! ## Calls -/

/-- What the contract asks of the chain. -/
inductive Ask where
  | call (target : Address) (value : U256) (data : List UInt8)
  | staticcall (target : Address) (data : List UInt8)
  | selfbalance
  deriving DecidableEq, Repr

/-- The success flag and the returned data, or the word of an opcode. -/
structure RawReply where
  success : Bool
  returndata : List UInt8
  word : U256
  deriving DecidableEq, Repr

abbrev Yul := Prog Ask RawReply

/-- `mstore`s of words one after another. -/
def storeWords : ByteMem → Nat → List U256 → ByteMem
  | m, _, [] => m
  | m, p, word :: rest => storeWords (mstore m p word) (p + 0x20) rest

/-- `mstore(ptr, selector)`, and the arguments from `add(ptr, 0x04)` on. -/
def encodeCall (m : ByteMem) (ptr : Nat) (selector : U256) (args : List U256) : ByteMem :=
  storeWords (mstore m ptr selector) (ptr + 0x04) args

/-- The memory after the output of a call. -/
def output (m : ByteMem) (out outSize : Nat) (reply : RawReply) : ByteMem :=
  store m out (reply.returndata.take outSize)

/-- A call with the `size` bytes from `ptr` on, which reverts if it fails. -/
def invoke (ask : List UInt8 → Ask) (m : ByteMem) (ptr : Nat) (selector : U256)
    (args : List U256) (size out outSize : Nat) : Yul ByteMem := do
  let m := encodeCall m ptr selector args
  let reply ← query (ask (slice m ptr size))
  require reply.success
  return output m out outSize reply

/-! ## Tokens -/

/-- `_getContractBalance` and `_getContractBalance_for_pool`. -/
def getContractBalance (m : ByteMem) (token holder : U256) : Yul (U256 × ByteMem) := do
  let ptr := freePointer m
  let m ← invoke (.staticcall (toAddress token)) m ptr 0x70a08231 [holder] 0x24 ptr 0x20
  return (loadWord m ptr, m)

/-- The balance reads in the scratch space. -/
def scratchBalance (m : ByteMem) (token self : Address) : Yul (U256 × ByteMem) := do
  let m ← invoke (.staticcall token) m 0x00 0x70a08231 [addressWord self] 0x24 0x20 0x20
  return (loadWord m 0x20, m)

/-- `_safeTransferYul`, and the turn of the repayment loop. -/
def safeTransferYul (m : ByteMem) (token dst value : U256) : Yul ByteMem :=
  invoke (.call (toAddress token) 0) m (freePointer m) 0xa9059cbb [dst, value] 0x44 0 0

/-- `success`, and the returned word if there is one. -/
def checkReply (m : ByteMem) (ptr : Nat) (reply : RawReply) : Yul ByteMem := do
  let m := output m ptr 0x20 reply
  require (reply.success ∧ (0 < reply.returndata.length → loadWord m ptr ≠ 0))
  return m

/-- `_safeTransfer`. -/
def safeTransfer (m : ByteMem) (token dst : Address) (value : U256) : Yul ByteMem := do
  let ptr := freePointer m
  let m := encodeCall m ptr 0xa9059cbb [addressWord dst, value]
  let reply ← query (.call token 0 (slice m ptr 0x44))
  checkReply m ptr reply

/-- `_safeApprove`: the second amount is stored over the first. -/
def safeApprove (m : ByteMem) (token spender : Address) (value : U256) : Yul ByteMem := do
  let ptr := freePointer m
  let m := encodeCall m ptr 0x095ea7b3 [addressWord spender, 0]
  let _ ← query (.call token 0 (slice m ptr 0x44))
  let m := mstore m (ptr + 0x24) value
  let reply ← query (.call token 0 (slice m ptr 0x44))
  checkReply m ptr reply

/-! ## Hops -/

/-- `_getV2TokenLogic` and `_getV3TokenIn`. -/
def getTokenIn (m : ByteMem) (pool : U256) (zfo : Nat) : Yul (U256 × ByteMem) := do
  let ptr := freePointer m
  let selector : U256 := if zfo ≠ 0 then 0x0dfe1681 else 0xd21220a7
  let m ← invoke (.staticcall (toAddress pool)) m ptr selector [] 0x04 ptr 0x20
  return (loadWord m ptr, m)

/-- `getReserves()`, its first two words. -/
def getReserves (m : ByteMem) (pool : U256) : Yul (U256 × U256 × ByteMem) := do
  let ptr := freePointer m
  let m ← invoke (.staticcall (toAddress pool)) m ptr 0x0902f1ac [] 0x04 ptr 0x64
  return (loadWord m ptr, loadWord m (ptr + 0x20), m)

/-- `_getV2AmountOut`. -/
def getV2AmountOut (m : ByteMem) (pool : U256) (zfo : Nat) : Yul (U256 × ByteMem) := do
  let (r0, r1, m) ← getReserves m pool
  let resIn := if zfo ≠ 0 then r0 else r1
  let resOut := if zfo ≠ 0 then r1 else r0
  let (tokenIn, m) ← getTokenIn m pool zfo
  let (balance, m) ← getContractBalance m tokenIn pool
  let amountInWithFee := (balance - resIn) * 997
  return (amountInWithFee * resOut / (resIn * 1000 + amountInWithFee), m)

/-- `_getAerodromeStableAmountOut`. -/
def getAerodromeStableAmountOut (m : ByteMem) (pool amtIn : U256) (zfo : Nat) :
    Yul (U256 × ByteMem) := do
  let (r0, r1, m) ← getReserves m pool
  let x := if zfo ≠ 0 then r0 else r1
  let y := if zfo ≠ 0 then r1 else r0
  let k := (x * x * x * y + y * y * y * x) / wad
  let xNew := x + amtIn * 9998 / 10000
  let x3 := xNew * xNew * xNew
  return (y - aerodromeStep xNew x3 k (aerodromeStep xNew x3 k y), m)

/-- The V2 `swap`; the block that sets `out0` is not under the condition. -/
def swapV2 (self : Address) (m : ByteMem) (pool amountOut : U256) (zfo : Nat) : Yul ByteMem :=
  let out0 := amountOut
  let out1 := if zfo ≠ 0 then amountOut else 0
  invoke (.call (toAddress pool) 0) m (freePointer m) 0x022c0d9f
    [out0, out1, addressWord self, 0x80, 0] 0xa4 0 0

/-- `_executeV2` and `_executeV2_Mem`. -/
def executeV2 (self : Address) (m : ByteMem) (pool : U256) (zfo : Nat) : Yul ByteMem := do
  let (tokenIn, m) ← getTokenIn m pool zfo
  let (bal, m) ← getContractBalance m tokenIn (addressWord self)
  require (bal ≠ 0)
  let m ← safeTransferYul m tokenIn pool bal
  let (amountOut, m) ← getV2AmountOut m pool zfo
  swapV2 self m pool amountOut zfo

/-- `amountOut` of a hop over Aerodrome. -/
def aerodromeAmountOut (m : ByteMem) (pool bal : U256) (zfo isStable : Nat) :
    Yul (U256 × ByteMem) :=
  if isStable = 1 then getAerodromeStableAmountOut m pool bal zfo else getV2AmountOut m pool zfo

/-- `_executeAerodrome` and `_executeAerodrome_Mem`. -/
def executeAerodrome (self : Address) (m : ByteMem) (pool : U256) (zfo isStable : Nat) :
    Yul ByteMem := do
  let (tokenIn, m) ← getTokenIn m pool zfo
  let (bal, m) ← getContractBalance m tokenIn (addressWord self)
  let m ← safeTransferYul m tokenIn pool bal
  let (amountOut, m) ← aerodromeAmountOut m pool bal zfo isStable
  swapV2 self m pool amountOut zfo

/-- `_executeV3` and `_executeV3_Mem`. -/
def executeV3 (self : Address) (m : ByteMem) (pool : U256) (zfo : Nat) : Yul ByteMem := do
  let (tokenIn, m) ← getTokenIn m pool zfo
  let (bal, m) ← getContractBalance m tokenIn (addressWord self)
  require (bal ≠ 0)
  let sqrtLimit : U256 :=
    if zfo = 0 then 1461446703485210103287273052203988822378723970341 else 4295128740
  invoke (.call (toAddress pool) 0) m (freePointer m) 0x128acb08
    [addressWord self, BitVec.ofNat 256 zfo, 0 - bal, sqrtLimit, 0xa0, 0] 0xc4 0 0

/-- One turn of the loop; any other `dexType` is skipped. -/
def executeHop (self : Address) (m : ByteMem) (hop : HopWords) : Yul ByteMem :=
  if hop.dexType = 0 then executeV2 self m hop.pool hop.zfo
  else if hop.dexType = 3 then executeAerodrome self m hop.pool hop.zfo hop.isStable
  else if hop.dexType = 1 then executeV3 self m hop.pool hop.zfo
  else pure m

/-- The loop over the hops, which are read from `source` of the memory. -/
def executeHops (self : Address) (source : ByteMem → ByteMem) : ByteMem → Nat → Nat → Yul ByteMem
  | m, _, 0 => pure m
  | m, currentHop, hopsLen + 1 => do
      let m ← executeHop self m (readHop (loadWord (source m)) currentHop)
      executeHops self source m (currentHop + 43) hopsLen

/-- `_executeArbitrageHops` and `_executeArbitrageHopsCalldata`, on the payload whose first byte
is at `content`. -/
def executeArbitrageHops (self : Address) (source : ByteMem → ByteMem) (m : ByteMem)
    (content : Nat) : Yul ByteMem :=
  let loansLen := byteOf 1 (loadWord (source m) (content + 32))
  let hopsPtr := content + 34 + loansLen * 52
  let hopsLen := byteOf 0 (loadWord (source m) hopsPtr)
  executeHops self source m (hopsPtr + 1) hopsLen

/-! ## Entry points -/

/-- One of the flash-loan calls. -/
def callLender (lender : Address) (data : List UInt8) : Yul Unit := do
  let reply ← query (.call lender 0 data)
  require reply.success

/-- `_initiateExecution`. -/
def initiateExecution (self : Address) (m : ByteMem) (data : CalldataSlice) : Yul Unit :=
  let (lenderId, loansLen) := GhostPayload.initiateExecution data.calldata data.offset
  if lenderId = 0 then callLender balancerVault (initBalancerFlash self m data loansLen)
  else if lenderId = 1 then callLender aaveV3Pool (initAaveFlash self m data loansLen)
  else pure ()

/-- Send the whole ether balance to `recipient`, whatever comes of it. -/
def tip (recipient : Address) : Yul Unit := do
  let balance ← query .selfbalance
  if 0 < balance.word then
    let value ← query .selfbalance
    let _ ← query (.call recipient value.word [])
    pure ()
  else pure ()

/-- The repayment loop of `receiveFlashLoan`; the sum wraps. -/
def repayVault : ByteMem → List Loan → Yul ByteMem
  | m, [] => pure m
  | m, loan :: rest => do
      let m ← safeTransferYul m (addressWord loan.asset) (addressWord balancerVault)
        (loan.amount + loan.fee)
      repayVault m rest

/-- `receiveFlashLoan`. -/
def receiveFlashLoan (ctx : Context) (loans : List Loan) (m : ByteMem) (userData : Nat) :
    Yul Unit := do
  require (ctx.sender = balancerVault)
  let minProfit := minProfitMemory m userData
  let (balance, m) ← scratchBalance m (primaryLoan loans).asset ctx.self
  let balanceBefore := balance - (primaryLoan loans).amount
  let m ← executeArbitrageHops ctx.self id m (userData + 0x20)
  let m ← repayVault m loans
  let (balanceAfter, _) ← scratchBalance m (primaryLoan loans).asset ctx.self
  require (¬ balanceAfter < balanceBefore + minProfit)
  tip sequencerFeeVault

/-- The approval loop of `executeOperation`; the sum is checked. -/
def approvePool : ByteMem → List Loan → Yul ByteMem
  | m, [] => pure m
  | m, loan :: rest => do
      require (loan.amount.toNat + loan.fee.toNat < 2 ^ 256)
      let m ← safeApprove m loan.asset aaveV3Pool (loan.amount + loan.fee)
      approvePool m rest

/-- `executeOperation`; the loan is read by `mload` at a calldata offset. -/
def executeOperation (ctx : Context) (loans : List Loan) (m calldata : ByteMem)
    (paramsOffset : Nat) : Yul Unit := do
  require (ctx.sender = aaveV3Pool)
  require (loans ≠ [])
  let minProfit := minProfitCalldata calldata paramsOffset
  let (balance, m) ← scratchBalance m (primaryLoan loans).asset ctx.self
  let balanceBefore := balance - loadWord m (amountsOffset loans.length + 0x20)
  let m ← executeArbitrageHops ctx.self (fun _ => calldata) m paramsOffset
  let m ← approvePool m loans
  let (balanceAfter, _) ← scratchBalance m (primaryLoan loans).asset ctx.self
  require (¬ balanceAfter < balanceBefore + minProfit)
  tip ctx.coinbase

/-- `token0()` and `token1()`, as the compiler encodes them. -/
def token0Data : List UInt8 := [0x0d, 0xfe, 0x16, 0x81]
def token1Data : List UInt8 := [0xd2, 0x12, 0x20, 0xa7]

/-- A call of a getter of the compiler; the decoder wants one clean address. -/
def poolToken (pool : Address) (data : List UInt8) : Yul Address := do
  let reply ← query (.staticcall pool data)
  let word := loadWord (ofList reply.returndata) 0
  require (reply.success ∧ 32 ≤ reply.returndata.length ∧ word.toNat < 2 ^ 160)
  return toAddress word

/-- `uniswapV3SwapCallback`. -/
def uniswapV3SwapCallback (ctx : Context) (m : ByteMem) (amount0Delta amount1Delta : U256) :
    Yul Unit := do
  if 0 < amount0Delta.toInt then
    let token ← poolToken ctx.sender token0Data
    let _ ← safeTransfer m token ctx.sender amount0Delta
    pure ()
  else if 0 < amount1Delta.toInt then
    let token ← poolToken ctx.sender token1Data
    let _ ← safeTransfer m token ctx.sender amount1Delta
    pure ()
  else pure ()

/-- `onlyOwner`. -/
def onlyOwner (ctx : Context) : Yul Unit := require (ctx.sender = ctx.owner)

/-- `withdrawETH`. -/
def withdrawETH (ctx : Context) : Yul Unit := do
  onlyOwner ctx
  let balance ← query .selfbalance
  let _ ← query (.call ctx.sender balance.word [])
  pure ()

/-- `withdrawToken`. -/
def withdrawToken (ctx : Context) (m : ByteMem) (token : Address) : Yul Unit := do
  onlyOwner ctx
  let (bal, m) ← scratchBalance m token ctx.self
  let _ ← safeTransfer m token ctx.owner bal
  pure ()

/-- The code behind each entry point, on the memory that it finds. -/
def program (ctx : Context) (m : ByteMem) : ShadowBot.Call → Yul Unit
  | .executeArbitrage pathData => do
      onlyOwner ctx
      initiateExecution ctx.self m pathData
  | .fallback data => do
      onlyOwner ctx
      require (¬ data.length < 34)
      initiateExecution ctx.self m data
  | .receive => pure ()
  | .constantGetter => pure ()
  | .receiveFlashLoan loans memory userData => receiveFlashLoan ctx loans memory userData
  | .executeOperation loans calldata paramsOffset =>
      executeOperation ctx loans m calldata paramsOffset
  | .uniswapV3SwapCallback amount0Delta amount1Delta =>
      uniswapV3SwapCallback ctx m amount0Delta amount1Delta
  | .withdrawETH => withdrawETH ctx
  | .withdrawToken token => withdrawToken ctx m token

/-! ## The bytes of a call -/

/-- Words stored one after another, behind what is laid. -/
theorem laid_storeWords {m₀ m : ByteMem} {ptr : Nat} {ws : List U256} (h : Laid m₀ m ptr ws)
    (args : List U256) {p : Nat} (hp : p = ptr + (4 + 32 * ws.length)) :
    Laid m₀ (storeWords m p args) ptr (ws ++ args) := by
  induction args generalizing m p ws with
  | nil =>
      rw [List.append_nil]
      exact h
  | cons word rest ih =>
      have hStep := ih (laid_mstore h hp word)
        (show p + 0x20 = _ by rw [List.length_append, List.length_singleton]; omega)
      rwa [List.append_assoc] at hStep

/-- The selectors are in the low bytes of their words. -/
theorem take_wordBytes {selector : U256} (h : selector.toNat < 2 ^ 224) :
    (wordBytes selector.toNat).take 4 = List.replicate 4 0 := by
  have hHigh : selector.toNat / 256 ^ 28 = 0 := Nat.div_eq_of_lt (by norm_num at h ⊢; exact h)
  rw [wordBytes, show 32 = 4 + 28 from rfl, encodeBE_add, hHigh]
  rfl

/-- So the word of a selector starts with four zero bytes. -/
theorem holds_selector {selector : U256} (h : selector.toNat < 2 ^ 224) (m : ByteMem)
    (ptr : Nat) : Holds (mstore m ptr selector) ptr (List.replicate 4 0) := by
  have hHeld : Holds (mstore m ptr selector) ptr (wordBytes selector.toNat) :=
    (Written.first m ptr (wordBytes selector.toNat)).holds
  have hSplit : wordBytes selector.toNat =
      List.replicate 4 0 ++ (wordBytes selector.toNat).drop 4 := by
    rw [← take_wordBytes h, List.take_append_drop]
  rw [hSplit, Holds.append_iff] at hHeld
  exact hHeld.1

/-- The first argument is stored over the selector, the others behind it. -/
theorem laid_encodeCall {selector : U256} (hSelector : selector.toNat < 2 ^ 224) (m : ByteMem)
    (ptr : Nat) (word : U256) (rest : List U256) :
    Laid m (encodeCall m ptr selector (word :: rest)) ptr (word :: rest) :=
  laid_storeWords (laid_selector m ptr selector (take_wordBytes hSelector) word) rest
    (p := ptr + 0x04 + 0x20) (by simp)

/-- **A call site** sends four zero bytes and its arguments. -/
theorem slice_encodeCall {selector : U256} (hSelector : selector.toNat < 2 ^ 224)
    (m : ByteMem) (ptr : Nat) (args : List U256) :
    slice (encodeCall m ptr selector args) ptr (4 + 32 * args.length) =
      List.replicate 4 0 ++ words args := by
  cases args with
  | nil =>
      have hHeld : Holds (encodeCall m ptr selector []) ptr (List.replicate 4 0) :=
        holds_selector hSelector m ptr
      exact hHeld.slice
  | cons word rest => exact (laid_encodeCall hSelector m ptr word rest).slice (by simp; omega)

/-! ## What is sent -/

/-- Where a callee looks for a selector there are zeros. -/
def Selectorless (data : List UInt8) : Prop := data.take 4 = List.replicate 4 0

/-- Plain ether, the two getters of the compiler, or a call without a selector. -/
def Sent : Ask → Prop
  | .call _ _ data => data = [] ∨ Selectorless data
  | .staticcall _ data => data = token0Data ∨ data = token1Data ∨ Selectorless data
  | .selfbalance => True

/-- A call without a selector. -/
def Refusable : Ask → Prop
  | .call _ _ data | .staticcall _ data => Selectorless data
  | .selfbalance => False

theorem selectorless_append (data : List UInt8) : Selectorless (List.replicate 4 0 ++ data) :=
  List.take_left' List.length_replicate

theorem selectorless_site {selector : U256} (hSelector : selector.toNat < 2 ^ 224)
    (m : ByteMem) (ptr : Nat) {args : List U256} {size : Nat}
    (hSize : size = 4 + 32 * args.length) :
    Selectorless (slice (encodeCall m ptr selector args) ptr size) := by
  rw [hSize, slice_encodeCall hSelector]
  exact selectorless_append _

/-- The memory has four zero bytes at `ptr`. -/
def Blank (m : ByteMem) (ptr : Nat) : Prop := Holds m ptr (List.replicate 4 0)

section Blank

variable {m : ByteMem} {ptr : Nat}

theorem blank_selector {selector : U256} (h : selector.toNat < 2 ^ 224) (m : ByteMem)
    (ptr : Nat) : Blank (mstore m ptr selector) ptr := holds_selector h m ptr

/-- Nothing behind them is stored over them. -/
theorem Blank.store (h : Blank m ptr) {q : Nat} (hq : ptr + 4 ≤ q) (bs : List UInt8) :
    Blank (Verified.Bytes.store m q bs) ptr := by
  intro i hi
  rw [List.length_replicate] at hi
  rw [store_before m bs (by omega)]
  exact h i (by rwa [List.length_replicate])

theorem Blank.mstore (h : Blank m ptr) {q : Nat} (hq : ptr + 4 ≤ q) (word : U256) :
    Blank (FlashCalldata.mstore m q word) ptr := h.store hq _

theorem Blank.storeWords (h : Blank m ptr) {q : Nat} (hq : ptr + 4 ≤ q) (args : List U256) :
    Blank (EmptySelectors.storeWords m q args) ptr := by
  induction args generalizing m q with
  | nil => exact h
  | cons word rest ih => exact ih (h.mstore hq word) (by omega)

theorem blank_encodeCall {selector : U256} (h : selector.toNat < 2 ^ 224) (m : ByteMem)
    (ptr : Nat) (args : List U256) : Blank (encodeCall m ptr selector args) ptr :=
  (blank_selector h m ptr).storeWords le_rfl args

theorem Blank.copyColumn (value : Nat → U256) (h : Blank m ptr) {dst : Nat}
    (hDst : ptr + 4 ≤ dst) (dataPtr n : Nat) :
    Blank (FlashCalldata.copyColumn value m dst dataPtr n) ptr := by
  induction n generalizing m dst dataPtr with
  | zero => exact h
  | succ n ih => exact ih (h.mstore hDst (value dataPtr)) (by omega) (dataPtr + 52)

theorem Blank.selectorless (h : Blank m ptr) {n : Nat} (hn : 4 ≤ n) :
    Selectorless (slice m ptr n) := by
  have hTake : (slice m ptr n).take 4 = slice m ptr 4 := by
    rw [slice, slice, ← List.map_take, List.take_range, Nat.min_eq_left hn]
  rw [Selectorless, hTake]
  exact h.slice

end Blank

theorem selectorless_balancer (self : Address) (m : ByteMem) (data : CalldataSlice)
    (loansLen : Nat) : Selectorless (initBalancerFlash self m data loansLen) := by
  rw [initBalancerFlash_eq, List.append_assoc]
  exact selectorless_append _

/-- Whatever lies behind the free pointer. -/
theorem selectorless_aave (self : Address) (m : ByteMem) (data : CalldataSlice)
    (loansLen : Nat) : Selectorless (initAaveFlash self m data loansLen) := by
  have hBlank := @blank_selector 0x0b69324d (by decide) m (freePointer m)
  unfold initAaveFlash
  refine Blank.selectorless (Blank.store ?_ (by omega) _) (by omega)
  -- The modes are not stored; every other column and word lies behind the selector.
  repeat
    first
    | exact hBlank
    | refine Blank.mstore ?_ (by omega) _
    | refine Blank.copyColumn _ ?_ (by omega) _ _

/-- The asks of a call site. -/
theorem invoke_sent {ask : List UInt8 → Ask} (hAsk : ∀ data, Selectorless data → Sent (ask data))
    {selector : U256} (hSelector : selector.toNat < 2 ^ 224) {args : List U256} {size : Nat}
    (hSize : size = 4 + 32 * args.length) (m : ByteMem) (ptr out outSize : Nat) :
    Asked Sent (invoke ask m ptr selector args size out outSize) :=
  asked_bind (asked_query (hAsk _ (selectorless_site hSelector m ptr hSize))) fun _ =>
    asked_bind (asked_require _) fun _ => asked_pure _

section Sent

theorem call_sent (target : Address) (value : U256) :
    ∀ data, Selectorless data → Sent (.call target value data) := fun _ => .inr

theorem staticcall_sent (target : Address) :
    ∀ data, Selectorless data → Sent (.staticcall target data) := fun _ h => .inr (.inr h)

theorem getContractBalance_sent (m : ByteMem) (token holder : U256) :
    Asked Sent (getContractBalance m token holder) :=
  asked_bind (invoke_sent (staticcall_sent _) (by decide) rfl m _ _ _) fun _ => asked_pure _

theorem scratchBalance_sent (m : ByteMem) (token self : Address) :
    Asked Sent (scratchBalance m token self) :=
  asked_bind (invoke_sent (staticcall_sent _) (by decide) rfl m _ _ _) fun _ => asked_pure _

theorem safeTransferYul_sent (m : ByteMem) (token dst value : U256) :
    Asked Sent (safeTransferYul m token dst value) :=
  invoke_sent (call_sent _ 0) (by decide) rfl m _ _ _

theorem checkReply_sent (m : ByteMem) (ptr : Nat) (reply : RawReply) :
    Asked Sent (checkReply m ptr reply) :=
  asked_bind (asked_require _) fun _ => asked_pure _

theorem safeTransfer_sent (m : ByteMem) (token dst : Address) (value : U256) :
    Asked Sent (safeTransfer m token dst value) :=
  asked_bind (asked_query (.inr (selectorless_site (by decide) m _ rfl))) fun reply =>
    checkReply_sent _ _ reply

/-- The second amount is stored behind the first argument. -/
theorem safeApprove_sent (m : ByteMem) (token spender : Address) (value : U256) :
    Asked Sent (safeApprove m token spender value) := by
  have hBlank := @blank_encodeCall 0x095ea7b3 (by decide) m (freePointer m) [addressWord spender, 0]
  have hData := (hBlank.mstore (q := freePointer m + 0x24) (by omega) value).selectorless
    (n := 0x44) (by decide)
  exact asked_bind (asked_query (.inr (selectorless_site (by decide) m _ rfl))) fun _ =>
    asked_bind (asked_query (.inr hData)) fun reply => checkReply_sent _ _ reply

theorem getTokenIn_sent (m : ByteMem) (pool : U256) (zfo : Nat) :
    Asked Sent (getTokenIn m pool zfo) := by
  have hSelector : (if zfo ≠ 0 then 0x0dfe1681 else 0xd21220a7 : U256).toNat < 2 ^ 224 := by
    split <;> decide
  exact asked_bind (invoke_sent (staticcall_sent _) hSelector rfl m _ _ _) fun _ => asked_pure _

theorem getReserves_sent (m : ByteMem) (pool : U256) : Asked Sent (getReserves m pool) :=
  asked_bind (invoke_sent (staticcall_sent _) (by decide) rfl m _ _ _) fun _ => asked_pure _

theorem getV2AmountOut_sent (m : ByteMem) (pool : U256) (zfo : Nat) :
    Asked Sent (getV2AmountOut m pool zfo) :=
  asked_bind (getReserves_sent m pool) fun ⟨_, _, m⟩ =>
    asked_bind (getTokenIn_sent m pool zfo) fun ⟨tokenIn, m⟩ =>
      asked_bind (getContractBalance_sent m tokenIn pool) fun _ => asked_pure _

theorem getAerodromeStableAmountOut_sent (m : ByteMem) (pool amtIn : U256) (zfo : Nat) :
    Asked Sent (getAerodromeStableAmountOut m pool amtIn zfo) :=
  asked_bind (getReserves_sent m pool) fun _ => asked_pure _

theorem aerodromeAmountOut_sent (m : ByteMem) (pool bal : U256) (zfo isStable : Nat) :
    Asked Sent (aerodromeAmountOut m pool bal zfo isStable) := by
  unfold aerodromeAmountOut
  split
  · exact getAerodromeStableAmountOut_sent m pool bal zfo
  · exact getV2AmountOut_sent m pool zfo

variable (self : Address)

theorem swapV2_sent (m : ByteMem) (pool amountOut : U256) (zfo : Nat) :
    Asked Sent (swapV2 self m pool amountOut zfo) :=
  invoke_sent (call_sent _ 0) (by decide) rfl m _ _ _

theorem executeV2_sent (m : ByteMem) (pool : U256) (zfo : Nat) :
    Asked Sent (executeV2 self m pool zfo) :=
  asked_bind (getTokenIn_sent m pool zfo) fun ⟨tokenIn, m⟩ =>
    asked_bind (getContractBalance_sent m tokenIn _) fun ⟨bal, m⟩ =>
      asked_bind (asked_require _) fun _ =>
        asked_bind (safeTransferYul_sent m tokenIn pool bal) fun m =>
          asked_bind (getV2AmountOut_sent m pool zfo) fun ⟨amountOut, m⟩ =>
            swapV2_sent self m pool amountOut zfo

theorem executeAerodrome_sent (m : ByteMem) (pool : U256) (zfo isStable : Nat) :
    Asked Sent (executeAerodrome self m pool zfo isStable) :=
  asked_bind (getTokenIn_sent m pool zfo) fun ⟨tokenIn, m⟩ =>
    asked_bind (getContractBalance_sent m tokenIn _) fun ⟨bal, m⟩ =>
      asked_bind (safeTransferYul_sent m tokenIn pool bal) fun m =>
        asked_bind (aerodromeAmountOut_sent m pool bal zfo isStable) fun ⟨amountOut, m⟩ =>
          swapV2_sent self m pool amountOut zfo

theorem executeV3_sent (m : ByteMem) (pool : U256) (zfo : Nat) :
    Asked Sent (executeV3 self m pool zfo) :=
  asked_bind (getTokenIn_sent m pool zfo) fun ⟨tokenIn, m⟩ =>
    asked_bind (getContractBalance_sent m tokenIn _) fun ⟨_, m⟩ =>
      asked_bind (asked_require _) fun _ => invoke_sent (call_sent _ 0) (by decide) rfl m _ _ _

theorem executeHop_sent (m : ByteMem) (hop : HopWords) : Asked Sent (executeHop self m hop) := by
  unfold executeHop
  split
  · exact executeV2_sent self m hop.pool hop.zfo
  split
  · exact executeAerodrome_sent self m hop.pool hop.zfo hop.isStable
  split
  · exact executeV3_sent self m hop.pool hop.zfo
  · exact asked_pure m

theorem executeHops_sent (source : ByteMem → ByteMem) (m : ByteMem) (currentHop hopsLen : Nat) :
    Asked Sent (executeHops self source m currentHop hopsLen) := by
  induction hopsLen generalizing m currentHop with
  | zero => exact asked_pure m
  | succ hopsLen ih => exact asked_bind (executeHop_sent self m _) fun m => ih m (currentHop + 43)

theorem callLender_sent (lender : Address) {data : List UInt8} (h : Selectorless data) :
    Asked Sent (callLender lender data) :=
  asked_bind (asked_query (.inr h)) fun _ => asked_require _

theorem initiateExecution_sent (m : ByteMem) (data : CalldataSlice) :
    Asked Sent (initiateExecution self m data) := by
  unfold initiateExecution
  dsimp only
  split
  · exact callLender_sent balancerVault (selectorless_balancer self m data _)
  split
  · exact callLender_sent aaveV3Pool (selectorless_aave self m data _)
  · exact asked_pure ()

theorem tip_sent (recipient : Address) : Asked Sent (tip recipient) := by
  refine asked_bind (asked_query trivial) fun balance => ?_
  split
  · exact asked_bind (asked_query trivial) fun _ =>
      asked_bind (asked_query (.inl rfl)) fun _ => asked_pure ()
  · exact asked_pure ()

theorem repayVault_sent (m : ByteMem) (loans : List Loan) : Asked Sent (repayVault m loans) := by
  induction loans generalizing m with
  | nil => exact asked_pure m
  | cons loan rest ih => exact asked_bind (safeTransferYul_sent m _ _ _) fun m => ih m

theorem receiveFlashLoan_sent (ctx : Context) (loans : List Loan) (m : ByteMem)
    (userData : Nat) : Asked Sent (receiveFlashLoan ctx loans m userData) :=
  asked_bind (asked_require _) fun _ =>
    asked_bind (scratchBalance_sent m _ ctx.self) fun ⟨_, m⟩ =>
      asked_bind (executeHops_sent ctx.self id m _ _) fun m =>
        asked_bind (repayVault_sent m loans) fun m =>
          asked_bind (scratchBalance_sent m _ ctx.self) fun _ =>
            asked_bind (asked_require _) fun _ => tip_sent sequencerFeeVault

theorem approvePool_sent (m : ByteMem) (loans : List Loan) : Asked Sent (approvePool m loans) := by
  induction loans generalizing m with
  | nil => exact asked_pure m
  | cons loan rest ih =>
      exact asked_bind (asked_require _) fun _ =>
        asked_bind (safeApprove_sent m _ _ _) fun m => ih m

theorem executeOperation_sent (ctx : Context) (loans : List Loan) (m calldata : ByteMem)
    (paramsOffset : Nat) : Asked Sent (executeOperation ctx loans m calldata paramsOffset) :=
  asked_bind (asked_require _) fun _ =>
    asked_bind (asked_require _) fun _ =>
      asked_bind (scratchBalance_sent m _ ctx.self) fun ⟨_, m⟩ =>
        asked_bind (executeHops_sent ctx.self _ m _ _) fun m =>
          asked_bind (approvePool_sent m loans) fun m =>
            asked_bind (scratchBalance_sent m _ ctx.self) fun _ =>
              asked_bind (asked_require _) fun _ => tip_sent ctx.coinbase

theorem poolToken_sent (pool : Address) {data : List UInt8}
    (h : data = token0Data ∨ data = token1Data) : Asked Sent (poolToken pool data) := by
  have hSent : Sent (.staticcall pool data) := h.imp_right .inl
  exact asked_bind (asked_query hSent) fun _ =>
    asked_bind (asked_require _) fun _ => asked_pure _

theorem uniswapV3SwapCallback_sent (ctx : Context) (m : ByteMem)
    (amount0Delta amount1Delta : U256) :
    Asked Sent (uniswapV3SwapCallback ctx m amount0Delta amount1Delta) := by
  unfold uniswapV3SwapCallback
  split
  · exact asked_bind (poolToken_sent ctx.sender (.inl rfl)) fun token =>
      asked_bind (safeTransfer_sent m token ctx.sender amount0Delta) fun _ => asked_pure ()
  split
  · exact asked_bind (poolToken_sent ctx.sender (.inr rfl)) fun token =>
      asked_bind (safeTransfer_sent m token ctx.sender amount1Delta) fun _ => asked_pure ()
  · exact asked_pure ()

end Sent

/-- **No call carries a selector**, whatever the chain replies. -/
theorem program_sent (ctx : Context) (m : ByteMem) (call : ShadowBot.Call) :
    Asked Sent (program ctx m call) := by
  cases call with
  | executeArbitrage pathData =>
      exact asked_bind (asked_require _) fun _ => initiateExecution_sent ctx.self m pathData
  | fallback data =>
      exact asked_bind (asked_require _) fun _ =>
        asked_bind (asked_require _) fun _ => initiateExecution_sent ctx.self m data
  | receive => exact asked_pure ()
  | constantGetter => exact asked_pure ()
  | receiveFlashLoan loans memory userData =>
      exact receiveFlashLoan_sent ctx loans memory userData
  | executeOperation loans calldata paramsOffset =>
      exact executeOperation_sent ctx loans m calldata paramsOffset
  | uniswapV3SwapCallback amount0Delta amount1Delta =>
      exact uniswapV3SwapCallback_sent ctx m amount0Delta amount1Delta
  | withdrawETH =>
      exact asked_bind (asked_require _) fun _ =>
        asked_bind (asked_query trivial) fun _ =>
          asked_bind (asked_query (.inl rfl)) fun _ => asked_pure ()
  | withdrawToken token =>
      exact asked_bind (asked_require _) fun _ =>
        asked_bind (scratchBalance_sent m token ctx.self) fun ⟨bal, m⟩ =>
          asked_bind (safeTransfer_sent m token ctx.owner bal) fun _ => asked_pure ()

/-! ## Where such calls are refused -/

section Refused

variable {W : Type} {service : Ask → W → Service W RawReply} {F : W → W → Prop}

/-- A site that reverts on failure. -/
theorem stuck_invoke (hRefuses : Refuses service Refusable RawReply.success)
    {ask : List UInt8 → Ask} (hAsk : ∀ data, Selectorless data → Refusable (ask data))
    {selector : U256} (hSelector : selector.toNat < 2 ^ 224) {args : List U256} {size : Nat}
    (hSize : size = 4 + 32 * args.length) (m : ByteMem) (ptr out outSize : Nat) :
    Stuck service F (invoke ask m ptr selector args size out outSize) := by
  refine stuck_ask hRefuses (hAsk _ (selectorless_site hSelector m ptr hSize))
    fun reply hReply => ?_
  refine stuck_require fun hSuccess => ?_
  rw [hReply] at hSuccess
  cases hSuccess

theorem staticcall_refusable (target : Address) :
    ∀ data, Selectorless data → Refusable (.staticcall target data) := fun _ h => h

theorem stuck_scratchBalance (hRefuses : Refuses service Refusable RawReply.success)
    (m : ByteMem) (token self : Address) : Stuck service F (scratchBalance m token self) :=
  stuck_bind (stuck_invoke hRefuses (staticcall_refusable token) (by decide) rfl m _ _ _) _

theorem stuck_safeTransfer (hRefuses : Refuses service Refusable RawReply.success)
    (m : ByteMem) (token dst : Address) (value : U256) :
    Stuck service F (safeTransfer m token dst value) := by
  refine stuck_ask hRefuses (q := .call token 0 _) (selectorless_site (by decide) m _ rfl)
    fun reply hReply => ?_
  refine stuck_require fun hSuccess => ?_
  rw [hReply] at hSuccess
  cases hSuccess.1

theorem stuck_callLender (hRefuses : Refuses service Refusable RawReply.success)
    (lender : Address) {data : List UInt8} (h : Selectorless data) :
    Stuck service F (callLender lender data) := by
  refine stuck_ask hRefuses (q := .call lender 0 data) h fun reply hReply w r w' hRuns => ?_
  obtain ⟨hSuccess, -⟩ := runs_require.mp hRuns
  rw [hReply] at hSuccess
  cases hSuccess

theorem stuck_initiateExecution (hRefuses : Refuses service Refusable RawReply.success)
    (self : Address) (m : ByteMem) {data : CalldataSlice}
    (hLender : ¬ 1 < (GhostPayload.initiateExecution data.calldata data.offset).1) :
    Stuck service F (initiateExecution self m data) := by
  unfold initiateExecution
  dsimp only
  split
  · exact stuck_callLender hRefuses balancerVault (selectorless_balancer self m data _)
  split
  · exact stuck_callLender hRefuses aaveV3Pool (selectorless_aave self m data _)
  · omega

theorem stuck_uniswapV3SwapCallback (hRefuses : Refuses service Refusable RawReply.success)
    (ctx : Context) (m : ByteMem) {amount0Delta amount1Delta : U256}
    (hOwed : ¬ (amount0Delta.toInt ≤ 0 ∧ amount1Delta.toInt ≤ 0)) :
    Stuck service F (uniswapV3SwapCallback ctx m amount0Delta amount1Delta) := by
  unfold uniswapV3SwapCallback
  split
  · exact stuck_rest _ fun token => stuck_bind (stuck_safeTransfer hRefuses m token _ _) _
  split
  · exact stuck_rest _ fun token => stuck_bind (stuck_safeTransfer hRefuses m token _ _) _
  · omega

end Refused

/-- Calls that ask nothing of a token, a pool or a lender, or go to an unknown lender. -/
def Idle : ShadowBot.Call → Prop
  | .executeArbitrage data | .fallback data =>
      1 < (GhostPayload.initiateExecution data.calldata data.offset).1
  | .receive | .constantGetter | .withdrawETH => True
  | .uniswapV3SwapCallback amount0Delta amount1Delta =>
      amount0Delta.toInt ≤ 0 ∧ amount1Delta.toInt ≤ 0
  | .receiveFlashLoan .. | .executeOperation .. | .withdrawToken _ => False

/-- **Where calls without a selector are refused**, an entry point completes only if it is
idle. -/
theorem completes_idle {W : Type} {service : Ask → W → Service W RawReply} {F : W → W → Prop}
    (hRefuses : Refuses service Refusable RawReply.success) {ctx : Context} {m : ByteMem}
    {call : ShadowBot.Call} {w w' : W}
    (hRuns : Runs service F (program ctx m call) w () w') : Idle call := by
  by_contra hBusy
  have hStuck : Stuck service F (program ctx m call) := by
    cases call with
    | executeArbitrage pathData =>
        exact stuck_rest _ fun _ => stuck_initiateExecution hRefuses ctx.self m hBusy
    | fallback data =>
        exact stuck_rest _ fun _ => stuck_rest _ fun _ =>
          stuck_initiateExecution hRefuses ctx.self m hBusy
    | receive => exact absurd trivial hBusy
    | constantGetter => exact absurd trivial hBusy
    | receiveFlashLoan loans memory userData =>
        exact stuck_rest _ fun _ => stuck_bind (stuck_scratchBalance hRefuses memory _ _) _
    | executeOperation loans calldata paramsOffset =>
        exact stuck_rest _ fun _ => stuck_rest _ fun _ =>
          stuck_bind (stuck_scratchBalance hRefuses m _ _) _
    | uniswapV3SwapCallback amount0Delta amount1Delta =>
        exact stuck_uniswapV3SwapCallback hRefuses ctx m hBusy
    | withdrawETH => exact absurd trivial hBusy
    | withdrawToken token =>
        exact stuck_rest _ fun _ => stuck_bind (stuck_scratchBalance hRefuses m token _) _
  exact hStuck w () w' hRuns

/-- **The contract calls no function.**  Every call that its Yul blocks make starts with four
zero bytes; so where tokens, pools and lenders refuse that, no loan is taken or paid back, no
hop is swapped and no token is withdrawn. -/
theorem contract_silent (ctx : Context) (m : ByteMem) (call : ShadowBot.Call) :
    Asked Sent (program ctx m call) ∧
      ∀ (W : Type) (service : Ask → W → Service W RawReply) (F : W → W → Prop),
        Refuses service Refusable RawReply.success →
          ∀ w w', Runs service F (program ctx m call) w () w' → Idle call :=
  ⟨program_sent ctx m call, fun _ _ _ hRefuses _ _ hRuns => completes_idle hRefuses hRuns⟩

end SovereignShadow.Ports.EmptySelectors
