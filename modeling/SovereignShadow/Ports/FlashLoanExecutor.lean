import SovereignShadow.Ports.BiddingEngine
import SovereignShadow.Ports.CircuitBreaker
import SovereignShadow.Ports.L1DataFee
import SovereignShadow.Ports.StateMirror
import SovereignShadow.Ports.StateSimulator
import SovereignShadow.Verified.Runs

/-!
# Simulate and execute

Port of `FlashLoanExecutor::simulate_and_execute`, stage by stage in the
source's order.  `ExecState` is what survives a call: the lock table, the vetted
tokens, the nonce counter, the bidding engine, the breaker and the global pause.
`CallEnv` is everything one call reads from elsewhere: clocks, the block
tracker, the mirror, the simulations and validations, the signer and the relays.
The build is the release build: words wrap and a panic ends the process.

The bytecode fetches before the validations only fill the mirror's cache, so
their effect is inside the outcomes of the validations and simulations.
-/

namespace SovereignShadow.Ports.FlashLoanExecutor

open SovereignShadow.Verified.Runs
open SovereignShadow.Ports.Models
open SovereignShadow.Ports.Constants
open SovereignShadow.Ports.Bidding
open SovereignShadow.Ports.Breaker
open SovereignShadow.Ports.L1DataFee
open SovereignShadow.Ports.Mirror
open SovereignShadow.Ports.StateSimulator

/-! ## Data -/

/-- The floating-point expressions on the way. -/
structure FloatOps where
  /-- `(current as f64 / prev as f64) - 1.0 > 0.15`. -/
  heatRising : Nat → Nat → Bool
  /-- `(gas_used as f64 * 1.1) as u64`. -/
  gasTimes11 : UInt64 → UInt64

/-- `TransactionRequest`. -/
structure TxRequest where
  toAddr : Address
  fromAddr : Address
  input : List UInt8
  nonce : UInt64
  accessList : AccessList
  gasLimit : Nat
  maxFeePerGas : Nat
  maxPriorityFeePerGas : Nat
  chainId : Nat
  deriving DecidableEq, Repr

structure SignedTx where
  rlp : List UInt8
  hash : B256
  deriving DecidableEq, Repr

/-- The parts of `BundleBuilderConfig` that the executor reads. -/
structure BuilderConfig where
  signer : Address
  chainId : Nat

structure Config where
  contractAddress : Address
  minProfitWei : U256
  chain : Chain
  bundleBuilder : Option BuilderConfig
  floats : FloatOps
  showAddress : Address → String

structure ExecState where
  occupiedPools : Nat × Address → Option String
  vettedTokens : Address → Bool
  nonce : UInt64
  biddingEngine : BiddingEngine
  circuitBreaker : CircuitBreaker
  globalPause : Bool

/-- One reply per relay. -/
abbrev RelayReplies := List (Except String Unit)

structure CallEnv where
  currentBlock : Nat
  openReads : BreakerReads
  openClock : Nat
  lastBlockTimestamp : Nat
  freshnessClock : Nat
  uniqueTraders : Address → Option Nat
  checkHoneypot : Address → Address → U256 → Except MEVError Nat
  simulateStrategy : Lender → SimulationBranch → Option SimResult
  gasState : GasState
  scalars : EcotoneScalars
  cachedBalance : U256
  firstBribe : BribeReads
  /-- What other tasks do to the engine between the two bribe calculations. -/
  meanwhile : BiddingEngine → BiddingEngine
  secondBribe : BribeReads
  /-- What they do between the second one and the fee. -/
  beforeFee : BiddingEngine → BiddingEngine
  feeReads : FeeReads
  sign : TxRequest → Except String SignedTx
  relays : Nat → RelayReplies
  outcomeClock : Nat
  outcomeInstant : Instant

/-- Why a call stops early. -/
inductive Stop where
  | err (e : MEVError)
  | panicked
  deriving DecidableEq, Repr

/-- What one attempt sends: the bundle, and the request its transaction signs. -/
structure Broadcast where
  bundle : Bundle
  tx : TxRequest
  deriving DecidableEq, Repr

structure CallResult where
  state : ExecState
  ended : Except Stop B256
  broadcasts : List Broadcast

/-! ## Locking -/

/-- Some hop's pool is already locked for the block. -/
def collides (occupied : Nat × Address → Option String) (targetBlock : Nat)
    (hops : List Hop) : Bool :=
  hops.any fun hop => (occupied (targetBlock, hop.poolAddress)).isSome

/-- The lock table after the hops' pools are locked for the block. -/
def lockPools (occupied : Nat × Address → Option String) (targetBlock : Nat) (id : String) :
    List Hop → Nat × Address → Option String
  | [] => occupied
  | hop :: rest =>
      lockPools
        (fun key => if key = (targetBlock, hop.poolAddress) then some id else occupied key)
        targetBlock id rest

/-- From the builder check to the locks: the target block. -/
def acquire (cfg : Config) (env : CallEnv) (opp : Opportunity) (s : ExecState) :
    ExecState × Except Stop (BuilderConfig × Nat) :=
  match cfg.bundleBuilder with
  | none => (s, .error (.err (.other "BundleBuilder missing")))
  | some builder =>
      let targetBlock := (env.currentBlock + 1) % u64Size
      if (s.circuitBreaker.observe env.openReads).isOpen env.openClock then
        (s, .error (.err .circuitBreakerOpen))
      else if collides s.occupiedPools targetBlock opp.path.hops then
        (s, .error (.err (.other "Self-collision detected")))
      else
        ({ s with
            occupiedPools := lockPools s.occupiedPools targetBlock opp.id opp.path.hops },
          .ok (builder, targetBlock))

/-! ## Vetting -/

/-- The first error of a check over the hops, in order. -/
def firstError (check : Hop → Except MEVError Unit) : List Hop → Except MEVError Unit
  | [] => .ok ()
  | hop :: rest =>
      match check hop with
      | .error e => .error e
      | .ok () => firstError check rest

/-- The validation task of one hop, if it is spawned. -/
def validateHop (env : CallEnv) (vetted : Address → Bool) (amount : U256) (hop : Hop) :
    Except MEVError Unit :=
  if ¬ vetted hop.tokenOut ∧ ¬ coreTokens.contains hop.tokenOut then
    match env.checkHoneypot hop.tokenOut hop.poolAddress amount with
    | .error e => .error e
    | .ok _ => .ok ()
  else .ok ()

/-- Freshness, wash traps, validations; on success the output tokens are vetted. -/
def vet (cfg : Config) (env : CallEnv) (opp : Opportunity) (s : ExecState) :
    ExecState × Except Stop Unit :=
  match verifyStateFreshness env.lastBlockTimestamp env.freshnessClock with
  | .error e => (s, .error (.err e))
  | .ok () =>
      match firstError (fun hop => detectWashTrap cfg.showAddress
          (env.uniqueTraders hop.poolAddress) hop.poolAddress) opp.path.hops with
      | .error e => (s, .error (.err e))
      | .ok () =>
          match firstError (validateHop env s.vettedTokens opp.inputAmount) opp.path.hops with
          | .error e => (s, .error (.err e))
          | .ok () =>
              ({ s with
                  vettedTokens := fun token =>
                    s.vettedTokens token || opp.path.hops.any fun hop => hop.tokenOut = token },
                .ok ())

/-! ## Candidate selection -/

/-- The selector of `executeArbitrage(bytes)`. -/
def executeArbitrageSelector : List UInt8 := [0x51, 0x8a, 0x7e, 0x9a]

/-- `abi_encode` of one `bytes` argument: offset, length, padded data. -/
def abiEncodeBytes (data : List UInt8) : List UInt8 :=
  u256Bytes 0x20 ++ u256Bytes (BitVec.ofNat 256 data.length) ++ data ++
    List.replicate ((32 - data.length % 32) % 32) 0

/-- `build_calldata_with_lender`. -/
def buildCalldataWithLender (cfg : Config) (opp : Opportunity) (lender : Lender) :
    List UInt8 :=
  let loans := [(opp.inputToken, opp.inputAmount)]
  let path : ArbitragePath := { hops := opp.path.hops, loans := loans, lender := lender }
  executeArbitrageSelector ++ abiEncodeBytes (path.encodeGhostMulti loans cfg.minProfitWei)

/-- The tuple that `best_candidate` holds. -/
structure Candidate where
  lender : Lender
  topSim : SimResult
  calldata : List UInt8
  netProfit : U256
  l1Fee : U256
  l2Fee : U256
  adjustedNet : U256
  deriving DecidableEq, Repr

/-- The robustness condition on a branch after the first. -/
def branchRobust (minProfitWei : U256) (topSim r : SimResult) : Bool :=
  r.success ∧ r.profit ≥ minProfitWei ∧
    saturatingSub topSim.profit r.profit * 10000 / u256Max topSim.profit 1 ≤ maxBranchLossBps

/-- `is_robust`, after the condition on the first result. -/
def isRobust (minProfitWei : U256) (simResults : List SimResult) (topSim : SimResult) : Bool :=
  topSim.success ∧ topSim.profit ≥ minProfitWei ∧
    (simResults.drop 1).all (branchRobust minProfitWei topSim)

/-- The costs of a robust lender; the `none` is the panic of the L1 estimate. -/
def costCandidate (cfg : Config) (env : CallEnv) (opp : Opportunity) (lender : Lender)
    (topSim : SimResult) (totalGasPrice : U256) : Option Candidate :=
  let calldata := buildCalldataWithLender cfg opp lender
  match estimateL1Fee env.scalars cfg.chain calldata with
  | none => none
  | some estimate =>
      let l1Fee : U256 := match estimate with
        | .ok fee => fee
        | .error _ => 0
      let l2Fee := BitVec.ofNat 256 topSim.gasUsed.toNat * totalGasPrice
      let netProfit := saturatingSub topSim.profit (l1Fee + l2Fee)
      let adjustedNet :=
        if lender = .balancer then netProfit + 50000000000000 else netProfit
      some
        { lender := lender, topSim := topSim, calldata := calldata, netProfit := netProfit,
          l1Fee := l1Fee, l2Fee := l2Fee, adjustedNet := adjustedNet }

/-- One turn of the selection loop. -/
def considerLender (cfg : Config) (env : CallEnv) (opp : Opportunity) (totalGasPrice : U256)
    (best : Option Candidate) (lender : Lender) : Except Stop (Option Candidate) :=
  let simResults := runBranchSimulation (env.simulateStrategy lender)
  match simResults.head? with
  | none => .ok best
  | some topSim =>
      if isRobust cfg.minProfitWei simResults topSim then
        match costCandidate cfg env opp lender topSim totalGasPrice with
        | none => .error .panicked
        | some candidate =>
            match best with
            | none => .ok (some candidate)
            | some prev =>
                if candidate.adjustedNet > prev.adjustedNet then .ok (some candidate)
                else .ok best
      else .ok best

/-- `base_fee + priority_fee`. -/
def CallEnv.totalGasPrice (env : CallEnv) : U256 :=
  env.gasState.baseFee + env.gasState.priorityFee

/-- The selection loop over the two lenders and its final `ok_or`. -/
def selectCandidate (cfg : Config) (env : CallEnv) (opp : Opportunity) :
    Except Stop Candidate :=
  match considerLender cfg env opp env.totalGasPrice none .balancer with
  | .error stop => .error stop
  | .ok best =>
      match considerLender cfg env opp env.totalGasPrice best .aaveV3 with
      | .error stop => .error stop
      | .ok none =>
          .error (.err (.simulationFailed "No lender provided profitable/robust results"))
      | .ok (some candidate) => .ok candidate

/-! ## The protection check -/

/-- `l1_fee * 120 / 100`. -/
def l1Buffer (candidate : Candidate) : U256 := candidate.l1Fee * 120 / 100

/-- `l1_buffer + l2_execution_fee`. -/
def adjustedTotalCost (candidate : Candidate) : U256 := l1Buffer candidate + candidate.l2Fee

/-- `net_profit * bribe_pct / 100`. -/
def bribeWei (candidate : Candidate) (bribePct : Nat) : U256 :=
  candidate.netProfit * BitVec.ofNat 256 bribePct / 100

/-- From the budget cap to the scavenger veto. -/
def protect (cfg : Config) (env : CallEnv) (opp : Opportunity) (candidate : Candidate)
    (s : ExecState) : ExecState × Except Stop Unit :=
  let cost := adjustedTotalCost candidate
  if env.cachedBalance ≠ 0 ∧ cost > env.cachedBalance / 10 then
    (s, .error (.err (.simulationFailed "Gas cost exceeds safety budget cap")))
  else
    match s.biddingEngine.calculateBribe cfg.floats.heatRising opp env.firstBribe with
    | none => (s, .error .panicked)
    | some (bribePct, engine) =>
        let s := { s with biddingEngine := engine }
        let executionCost := cost + bribeWei candidate bribePct
        if candidate.topSim.profit ≤ executionCost then
          (s, .error (.err (.simulationFailed ("PROTECTION: Profit " ++
            toString candidate.topSim.profit.toNat ++ " <= Total Cost " ++
            toString executionCost.toNat ++
            " (L1+L2+Bribe). Dropping to save gas budget."))))
        else if ¬ candidate.topSim.success then
          (s, .error (.err (.simulationFailed
            "Local EVM Revert detected. Dropping bundle.")))
        else if candidate.netProfit < 200000000000000 then
          (s, .error (.err (.simulationFailed ("Scavenger Veto: Net profit " ++
            toString candidate.netProfit.toNat ++ " < dynamic threshold"))))
        else (s, .ok ())

/-! ## Commitment -/

/-- The competitor bump on a percentage. -/
def bumpBribe (opp : Opportunity) (bribePct : Nat) : Nat :=
  if isPredatorActive opp then min maxBribePct ((bribePct + 10) % 2 ^ 32) else bribePct

/-- What is fixed before the first broadcast. -/
structure Commitment where
  tx : TxRequest
  signed : SignedTx
  bribePct : Nat
  bribe : U256

/-- The second bribe, the fees, the nonce and the signature.  The nonce is taken
before the narrowing of the fees and before signing. -/
def commit (cfg : Config) (env : CallEnv) (opp : Opportunity) (builder : BuilderConfig)
    (candidate : Candidate) (s : ExecState) : ExecState × Except Stop Commitment :=
  match (env.meanwhile s.biddingEngine).calculateBribe cfg.floats.heatRising opp
      env.secondBribe with
  | none => (s, .error .panicked)
  | some (pct, engine) =>
      let engine := env.beforeFee engine
      let s := { s with biddingEngine := engine }
      let bribePct := bumpBribe opp pct
      match engine.suggestPriorityFee opp env.gasState.priorityFee env.feeReads with
      | none => (s, .error .panicked)
      | some suggested =>
          let nonce := s.nonce
          let s := { s with nonce := s.nonce + 1 }
          match toU128 (env.gasState.baseFee + suggested), toU128 suggested with
          | some maxFee, some maxPriority =>
              let tx : TxRequest :=
                { toAddr := cfg.contractAddress, fromAddr := builder.signer,
                  input := candidate.calldata, nonce := nonce,
                  accessList := candidate.topSim.accessList,
                  gasLimit :=
                    ((cfg.floats.gasTimes11 candidate.topSim.gasUsed).toNat + 10000) % u64Size,
                  maxFeePerGas := maxFee, maxPriorityFeePerGas := maxPriority,
                  chainId := builder.chainId }
              match env.sign tx with
              | .error e => (s, .error (.err (.other ("FlashLoan Signing Failed: " ++ e))))
              | .ok signed =>
                  (s, .ok
                    { tx := tx, signed := signed, bribePct := bribePct,
                      bribe := bribeWei candidate bribePct })
          | _, _ => (s, .error .panicked)

/-! ## Broadcasting -/

/-- A character as `{:?}` prints it inside a string.  The characters that would
print as `\u{..}` are kept: that cannot form or break a word searched for. -/
def debugChar (c : Char) : List Char :=
  if c = '"' then ['\\', '"']
  else if c = '\\' then ['\\', '\\']
  else if c = '\n' then ['\\', 'n']
  else if c = '\r' then ['\\', 'r']
  else if c = '\t' then ['\\', 't']
  else if c.toNat = 0 then ['\\', '0']
  else [c]

/-- One reply as `{:?}` prints it. -/
def debugReply : Except String Unit → List Char
  | .ok () => "Ok(())".toList
  | .error e => "Err(\"".toList ++ e.toList.flatMap debugChar ++ "\")".toList

/-- `format!("{:?}", broadcast_results)`. -/
def debugReplies (replies : RelayReplies) : List Char :=
  '[' :: (", ".toList).intercalate (replies.map debugReply) ++ [']']

/-- `text.contains(word)`. -/
def containsWord (text : List Char) (word : String) : Bool :=
  text.tails.any fun rest => word.toList.isPrefixOf rest

/-- `success_count > 0`. -/
def accepted (replies : RelayReplies) : Bool := replies.any fun reply => reply.isOk

/-- `is_stale`. -/
def isStale (replies : RelayReplies) : Bool :=
  let errMsg := debugReplies replies
  containsWord errMsg "already passed" || containsWord errMsg "stale" ||
    containsWord errMsg "expired"

/-- The failure that a rejection is recorded as. -/
def rejectionType (replies : RelayReplies) : FailureType :=
  let errMsg := debugReplies replies
  if containsWord errMsg "0x937c4424" ||
      containsWord (errMsg.map Char.toLower) "zerolossshield" then .slippage
  else .other

/-- The engine and the breaker after an accepted bundle. -/
def settleSuccess (env : CallEnv) (opp : Opportunity) (bribePct : Nat) (s : ExecState) :
    ExecState :=
  { s with
    biddingEngine := s.biddingEngine.recordSuccess opp bribePct env.outcomeInstant
    circuitBreaker := s.circuitBreaker.recordSuccess }

/-- The breaker, the pause and the engine after a final rejection. -/
def settleFailure (env : CallEnv) (opp : Opportunity) (replies : RelayReplies)
    (s : ExecState) : ExecState :=
  let breaker := s.circuitBreaker.recordFailure (rejectionType replies) env.outcomeClock
  { s with
    circuitBreaker := breaker
    globalPause := s.globalPause || breaker.vetoes
    biddingEngine := s.biddingEngine.recordFailure opp }

/-- The bundle of one attempt. -/
def attemptBundle (c : Commitment) (targetBlock : Nat) : Broadcast where
  bundle := { transactions := [c.signed.rlp], targetBlock := targetBlock, bribe := c.bribe }
  tx := c.tx

/-- The broadcast loop.  `retries` is how many block skips are left. -/
def broadcastLoop (env : CallEnv) (opp : Opportunity) (c : Commitment) (s : ExecState) :
    Nat → Nat → Nat → CallResult
  | retries, attempts, targetBlock =>
      let sent := attemptBundle c targetBlock
      let replies := env.relays attempts
      if accepted replies then
        { state := settleSuccess env opp c.bribePct s
          ended := .ok c.signed.hash
          broadcasts := [sent] }
      else
        match retries with
        | retries + 1 =>
            if isStale replies then
              let rest :=
                broadcastLoop env opp c s retries (attempts + 1)
                  ((targetBlock + 1) % u64Size)
              { rest with broadcasts := sent :: rest.broadcasts }
            else
              { state := settleFailure env opp replies s
                ended := .error (.err .noRelayAccepted)
                broadcasts := [sent] }
        | 0 =>
            { state := settleFailure env opp replies s
              ended := .error (.err .noRelayAccepted)
              broadcasts := [sent] }

/-- `max_resilience_attempts`. -/
def maxResilienceAttempts : Nat := 2

/-- `simulate_and_execute`. -/
def simulateAndExecute (cfg : Config) (env : CallEnv) (opp : Opportunity) (s : ExecState) :
    CallResult :=
  match acquire cfg env opp s with
  | (s, .error stop) => { state := s, ended := .error stop, broadcasts := [] }
  | (s, .ok (builder, targetBlock)) =>
      match vet cfg env opp s with
      | (s, .error stop) => { state := s, ended := .error stop, broadcasts := [] }
      | (s, .ok ()) =>
          match selectCandidate cfg env opp with
          | .error stop => { state := s, ended := .error stop, broadcasts := [] }
          | .ok candidate =>
              match protect cfg env opp candidate s with
              | (s, .error stop) => { state := s, ended := .error stop, broadcasts := [] }
              | (s, .ok ()) =>
                  match commit cfg env opp builder candidate s with
                  | (s, .error stop) =>
                      { state := s, ended := .error stop, broadcasts := [] }
                  | (s, .ok c) =>
                      broadcastLoop env opp c s (maxResilienceAttempts - 1) 0 targetBlock

/-! ## Runs -/

/-- One call of a run: the state it met, its opportunity and its result. -/
structure CallLog where
  before : ExecState
  opp : Opportunity
  result : CallResult

/-- One call after another; a panic aborts the process. -/
def callStep (cfg : Config) (s : ExecState) (call : CallEnv × Opportunity) :
    Step ExecState CallLog :=
  let result := simulateAndExecute cfg call.1 call.2 s
  { output := { before := s, opp := call.2, result := result }
    next := match result.ended with
      | .error .panicked => none
      | _ => some result.state }

end SovereignShadow.Ports.FlashLoanExecutor
