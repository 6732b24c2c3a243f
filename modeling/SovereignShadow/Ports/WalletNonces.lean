import SovereignShadow.Ports.EngineLoop
import SovereignShadow.Ports.InventorySweep
import SovereignShadow.Ports.ProfitHandler
import SovereignShadow.Verified.Tickets

/-!
# The nonces of the wallet

Port of `NonceManager` and of `unwrap_weth_if_needed`.  The executor, the profit manager and the
inventory manager draw their nonces from one counter.  Nothing gives a nonce back, and
`NonceManager::resync` is never called.

A run interleaves the engine loop, any number of profit handlers, sweeps and unwraps at their
await points, and the chain, which mines a transaction of the wallet only if its nonce is the
wallet's count of mined transactions.  The wallet has no other user.  A panic anywhere ends the
process; the chain goes on.

## Main results

* `call_draws` — a call of the executor draws at most one nonce, and sends nothing else.
* `run_accounted` — over every run: no nonce is used twice, what is mined is a prefix of what was
  sent, and a nonce that was drawn for nothing stops the wallet for good.
-/

namespace SovereignShadow.Ports.WalletNonces

open SovereignShadow.Verified.Tasks
open SovereignShadow.Verified.Tasks.Task
open SovereignShadow.Verified.Tickets
open SovereignShadow.Verified.Tickets.Numbering
open SovereignShadow.Ports.Models
open SovereignShadow.Ports.Constants
open SovereignShadow.Ports.Bidding
open SovereignShadow.Ports.Breaker
open SovereignShadow.Ports.FlashLoanExecutor
open SovereignShadow.Ports.ExecutorStages
open SovereignShadow.Ports.EngineLoop

/-! ## Unwrapping -/

/-- `withdraw(wad)` on WETH. -/
structure WithdrawTx where
  toAddr : Address
  wad : U256
  nonce : UInt64
  deriving DecidableEq, Repr

inductive UnwrapRequest where
  | ethBalance
  | wethBalance
  | withdraw (tx : WithdrawTx)

abbrev UnwrapReply : UnwrapRequest → Type
  | .ethBalance => Except String U256
  | .wethBalance => Option U256
  | .withdraw _ => Bool

/-- The counter of the nonce manager is all that an unwrap shares. -/
structure UnwrapShared where
  nonce : UInt64

/-- `threshold.saturating_mul(2)`. -/
def saturatingDouble (threshold : U256) : U256 :=
  if threshold.toNat * 2 < 2 ^ 256 then threshold * 2 else BitVec.allOnes 256

/-- Enough to reach twice the threshold. -/
def amountToWithdraw (ethBalance wethBalance : U256) : U256 :=
  u256Min (saturatingSub (saturatingDouble minSearcherBalanceWei) ethBalance) wethBalance

/-- `unwrap_weth_if_needed`; whether the transaction was sent is only logged. -/
def unwrapWethIfNeeded : Task UnwrapShared UnwrapReply (Except MEVError Unit) := do
  let read : Except String U256 ← ask UnwrapRequest.ethBalance
  match read with
  | .error e => pure (.error (.other e))
  | .ok ethBalance =>
      if ethBalance < minSearcherBalanceWei then do
        let wethBalance : Option U256 ← ask UnwrapRequest.wethBalance
        if wethBalance.getD 0 > 0 then do
          let nonce ← .access (fun s => { s with nonce := s.nonce + 1 }) fun s => .ret s.nonce
          let _ ← ask (.withdraw
            { toAddr := tokenWeth, wad := amountToWithdraw ethBalance (wethBalance.getD 0),
              nonce })
          pure (.ok ())
        else pure (.ok ())
      else pure (.ok ())

/-! ## The wallet -/

/-- What the wallet signs. -/
inductive Tx where
  | arbitrage (tx : TxRequest)
  | transfer (tx : ProfitHandler.Transfer)
  | contract (tx : InventorySweep.ContractTx)
  | withdraw (tx : WithdrawTx)
  deriving DecidableEq

def Tx.nonce : Tx → UInt64
  | .arbitrage tx => tx.nonce
  | .transfer tx => tx.nonce
  | .contract tx => tx.nonce
  | .withdraw tx => tx.nonce

theorem succ_ne (n : UInt64) : n + 1 ≠ n := by
  intro h
  have hOne : n + 1 = n + 0 := h.trans (UInt64.add_zero n).symm
  exact absurd (add_left_cancel hOne) (by decide)

/-- The profit manager. -/
def profitNumbering : Numbering ProfitHandler.Shared ProfitHandler.Request Tx UInt64 where
  counter s := s.nonce
  succ n := n + 1
  succ_ne := succ_ne
  outbox _ := []
  carried
    | .transfer _ tx => some (.transfer tx)
    | .balance | .l1Fee _ | .gasPrice _ _ | .watch _ => none
  number := Tx.nonce
  load n s := { s with nonce := n }
  counter_load _ _ := rfl
  outbox_load _ _ := rfl

/-- The inventory manager's sweep; the swaps go to tasks of their own. -/
def sweepNumbering : Numbering InventorySweep.Shared InventorySweep.Request Tx UInt64 where
  counter s := s.nonce
  succ n := n + 1
  succ_ne := succ_ne
  outbox s := s.spawned.map .contract
  carried
    | .withdraw tx => some (.contract tx)
    | .approve tx _ => some (.contract tx)
    | .gasFeed | .contractBalance _ | .withdrawWatch | .walletBalance _ => none
  number := Tx.nonce
  load n s := { s with nonce := n, spawned := [] }
  counter_load _ _ := rfl
  outbox_load _ _ := rfl

def unwrapNumbering : Numbering UnwrapShared UnwrapRequest Tx UInt64 where
  counter s := s.nonce
  succ n := n + 1
  succ_ne := succ_ne
  outbox _ := []
  carried
    | .withdraw tx => some (.withdraw tx)
    | .ethBalance | .wethBalance => none
  number := Tx.nonce
  load n s := { s with nonce := n }
  counter_load _ _ := rfl
  outbox_load _ _ := rfl

abbrev Ended : Type := Except MEVError Unit

structure Wallet where
  engine : Engine
  profit : Pool ProfitHandler.Shared ProfitHandler.Reply Ended
  sweep : Pool InventorySweep.Shared InventorySweep.Reply Ended
  unwrap : Pool UnwrapShared UnwrapReply Ended
  /-- `current` of the nonce manager. -/
  current : UInt64
  /-- History: the nonces drawn, the transactions sent and those mined. -/
  book : Book Tx UInt64

/-- The configurations of the parts. -/
structure Setup where
  cfg : Config
  pm : ProfitHandler.ProfitManager
  im : InventorySweep.InventoryManager

/-- Right after `NonceManager::new`, which reads the wallet's count. -/
def Wallet.initial (setup : Setup) (exec : ExecState) (profit : ProfitHandler.Shared)
    (sweep : InventorySweep.Shared) : Wallet where
  engine := .initial setup.cfg exec
  profit := { shared := profit, waiting := [] }
  sweep := { shared := sweep, waiting := [] }
  unwrap := { shared := { nonce := exec.nonce }, waiting := [] }
  current := exec.nonce
  book := { drawn := [], sent := [], taken := [] }

inductive Event where
  | received (message : Message)
  | ended (task : ℕ) (env : CallEnv)
  | others (biddingEngine : BiddingEngine) (circuitBreaker : CircuitBreaker) (globalPause : Bool)
  | shutdown
  | handleProfit (profitAmount : U256)
  | profitReply (task : ℕ) (reply : (request : ProfitHandler.Request) → ProfitHandler.Reply request)
  | reportHarvest
  | autoSweep
  | sweepReply (task : ℕ)
      (reply : (request : InventorySweep.Request) → InventorySweep.Reply request)
  /-- What the other tasks do to what a sweep reads. -/
  | sweepReads (harvestRegistry : List Address) (circuitBreaker : CircuitBreaker) (now : Nat)
  | unwrap
  | unwrapReply (task : ℕ) (reply : (request : UnwrapRequest) → UnwrapReply request)
  | mined (tx : Tx)

/-- The transaction of a call, if it sent one; its bundles all carry the same. -/
def sentBy (call : Call) : Option Tx :=
  call.result.broadcasts.head?.map fun sent => .arbitrage sent.tx

/-- A step of the engine loop. -/
def Wallet.runEngine (setup : Setup) (w : Wallet) (event : EngineLoop.Event) : Wallet :=
  let e := { w.engine with exec := { w.engine.exec with nonce := w.current } }
  let e' := EngineLoop.next setup.cfg e event
  { w with
    engine := e'
    current := e'.exec.nonce
    book :=
      { w.book with
        drawn := w.book.drawn ++ if e'.exec.nonce = w.current then [] else [w.current]
        sent := w.book.sent ++ (e'.calls.drop e.calls.length).filterMap sentBy } }

/-- What a turn of one of the pools has drawn and sent; if it panicked the process ends. -/
def Wallet.settle {σ Req : Type} {Reply : Req → Type} (w : Wallet)
    (t : Turn σ Reply Ended Tx UInt64) : Wallet :=
  { w with
    engine := if t.panicked then { w.engine with status := .panicked } else w.engine
    current := t.counter
    book :=
      { w.book with
        drawn := w.book.drawn ++ List.iterate (· + 1) w.current t.draws
        sent := w.book.sent ++ t.items } }

/-- The account takes a transaction whose nonce is its count. -/
def Wallet.mine (start : UInt64) (w : Wallet) (tx : Tx) : Wallet :=
  if tx ∈ w.book.sent ∧ tx.nonce.toNat = start.toNat + w.book.taken.length then
    { w with book := { w.book with taken := w.book.taken ++ [tx] } }
  else w

/-- A step of the process. -/
def Wallet.work (setup : Setup) (w : Wallet) : Event → Wallet
  | .received message => w.runEngine setup (.received message)
  | .ended task env => w.runEngine setup (.ended task env)
  | .others biddingEngine circuitBreaker globalPause =>
      w.runEngine setup (.others w.current biddingEngine circuitBreaker globalPause)
  | .shutdown => w.runEngine setup .shutdown
  | .handleProfit profitAmount =>
      let t := profitNumbering.call w.profit w.current
        (ProfitHandler.handleProfit setup.pm profitAmount)
      { w.settle t with profit := t.pool }
  | .profitReply task reply =>
      let t := profitNumbering.answer w.profit w.current task reply
      { w.settle t with profit := t.pool }
  | .reportHarvest =>
      { w with profit := { w.profit with shared := { w.profit.shared with dailyProfit := 0 } } }
  | .autoSweep =>
      let t := sweepNumbering.call w.sweep w.current (InventorySweep.autoSweep setup.im)
      { w.settle t with sweep := t.pool }
  | .sweepReply task reply =>
      let t := sweepNumbering.answer w.sweep w.current task reply
      { w.settle t with sweep := t.pool }
  | .sweepReads harvestRegistry circuitBreaker now =>
      { w with sweep := { w.sweep with
          shared := { w.sweep.shared with harvestRegistry, circuitBreaker, now } } }
  | .unwrap =>
      let t := unwrapNumbering.call w.unwrap w.current unwrapWethIfNeeded
      { w.settle t with unwrap := t.pool }
  | .unwrapReply task reply =>
      let t := unwrapNumbering.answer w.unwrap w.current task reply
      { w.settle t with unwrap := t.pool }
  | .mined _ => w

def Wallet.next (setup : Setup) (start : UInt64) (w : Wallet) (event : Event) : Wallet :=
  match event with
  | .mined tx => w.mine start tx
  | event =>
      match w.engine.status with
      | .serving => w.work setup event
      | .panicked | .stopped => w

def Wallet.run (setup : Setup) (start : UInt64) (w : Wallet) (events : List Event) : Wallet :=
  events.foldl (Wallet.next setup start) w

/-! ## What is claimed -/

/-- The call drew a nonce and sent nothing. -/
def lost (call : Call) : Bool :=
  call.result.broadcasts.isEmpty && call.result.state.nonce != call.before.nonce

/-- The accounts of the wallet, whose count was `start`. -/
structure Accounted (start : UInt64) (w : Wallet) : Prop where
  drawn : w.book.drawn = List.iterate (· + 1) start w.book.drawn.length
  current : w.current = start + UInt64.ofNat w.book.drawn.length
  /-- Every nonce is for a transaction but those that a call of the executor lost. -/
  lost : w.book.drawn.length = w.book.sent.length + w.engine.calls.countP lost
  distinct : w.book.drawn.length ≤ 2 ^ 64 → (w.book.sent.map Tx.nonce).Nodup
  orderly : w.book.drawn.length ≤ 2 ^ 64 → Orderly Tx.nonce w.book

/-! ## The tasks -/

section Tasks

theorem sends_finishProfit : profitNumbering.Sends none ProfitHandler.finish :=
  sends_access (fun _ => rfl) (fun _ => rfl) fun _ => rfl

theorem sends_compound (pm : ProfitHandler.ProfitManager) (cost distributionBalance : U256) :
    profitNumbering.Sends none (ProfitHandler.compound pm cost distributionBalance) := by
  unfold ProfitHandler.compound
  cases pm.compoundingTarget with
  | none => exact sends_finishProfit
  | some target =>
      dsimp only
      split_ifs with hWorth
      · refine sends_draw (fun _ => rfl) (fun _ => rfl) fun s => ⟨rfl, fun sent => ?_⟩
        cases sent with
        | true => exact ⟨rfl, fun _ => sends_finishProfit⟩
        | false => exact sends_finishProfit
      · exact sends_finishProfit

theorem sends_gasVault (pm : ProfitHandler.ProfitManager) (cost excess : U256) :
    profitNumbering.Sends none (ProfitHandler.gasVault pm cost excess) := by
  unfold ProfitHandler.gasVault
  cases gasVaultAddress with
  | none => exact sends_compound pm cost excess
  | some vault =>
      dsimp only
      split_ifs with hWorth
      · refine sends_draw (fun _ => rfl) (fun _ => rfl) fun s => ⟨rfl, fun sent => ?_⟩
        cases sent with
        | true => exact ⟨rfl, fun _ => sends_compound pm cost _⟩
        | false => exact sends_compound pm cost excess
      · exact sends_compound pm cost excess

theorem sends_profitSweep (pm : ProfitHandler.ProfitManager) (currentBalance cost : U256) :
    profitNumbering.Sends none (ProfitHandler.sweep pm currentBalance cost) := by
  unfold ProfitHandler.sweep
  split_ifs with hSmall hDebug
  · exact sends_ofOption fun _ => sends_finishProfit
  · exact sends_finishProfit
  · exact sends_gasVault pm cost _

/-- A profit handler sends a transfer with each nonce that it draws. -/
theorem sends_handleProfit (pm : ProfitHandler.ProfitManager) (profitAmount : U256) :
    profitNumbering.Sends none (ProfitHandler.handleProfit pm profitAmount) := by
  refine sends_access (fun _ => rfl) (fun _ => rfl) fun s => ?_
  show profitNumbering.Sends none (if s.running = true then pure (Except.ok ()) else _)
  split_ifs with hRunning
  · exact (rfl : (none : Option UInt64) = none)
  · refine sends_ofOption fun _ => sends_access (fun _ => rfl) (fun _ => rfl) fun _ => ?_
    refine ⟨rfl, fun balance => ?_⟩
    cases balance with
    | error e => exact (rfl : (none : Option UInt64) = none)
    | ok currentBalance =>
        refine ⟨rfl, fun scalars => sends_ofOption fun fee => ⟨rfl, fun gasPrice => ?_⟩⟩
        exact sends_profitSweep pm currentBalance _

theorem sends_release : sweepNumbering.Sends none InventorySweep.release :=
  sends_access (fun _ => rfl) (fun _ => rfl) fun _ => rfl

theorem sends_finishSweep : sweepNumbering.Sends none InventorySweep.finish :=
  sends_bind sends_release fun _ => rfl

variable (im : InventorySweep.InventoryManager)

theorem sends_pullFromContract (token : Address) :
    sweepNumbering.Sends none (InventorySweep.pullFromContract im token) := by
  refine ⟨rfl, fun contractBal => ?_⟩
  show sweepNumbering.Sends none (if Option.getD contractBal 0 > dustThresholdWei then
    InventorySweep.withdrawDust im token else pure ())
  split_ifs with hDust
  · refine sends_draw (fun _ => rfl) (fun _ => rfl) fun s => ⟨rfl, fun sent => ?_⟩
    cases sent with
    | true => exact ⟨rfl, fun _ => rfl⟩
    | false => exact (rfl : (none : Option UInt64) = none)
  · exact (rfl : (none : Option UInt64) = none)

/-- The swap leaves by the outbox. -/
theorem sends_spawnSwap (router token : Address) (balance : U256) :
    sweepNumbering.Sends none (InventorySweep.spawnSwap im router token balance) := by
  refine sends_access (fun _ => rfl) (fun _ => rfl) fun s => ?_
  refine sends_draw (fun _ => rfl) (fun _ => rfl) fun s' s'' => .inr (.inr ?_)
  refine ⟨.contract
    { toAddr := router
      call := .swapExactTokensForTokens balance 0 [token, tokenWeth] im.walletAddress
        (BitVec.ofNat 256 (s.now + 60))
      nonce := s'.nonce }, rfl, rfl, ?_, rfl⟩
  exact List.map_append

theorem sends_sweepFromWallet (router token : Address) (left : List Address) :
    sweepNumbering.Sends none (InventorySweep.sweepFromWallet im router token left) := by
  refine ⟨rfl, fun balance => ?_⟩
  show sweepNumbering.Sends none (if Option.getD balance 0 ≥ dustThresholdWei then
    InventorySweep.sweepBalance im router token left (Option.getD balance 0) else pure ())
  split_ifs with hDust
  · refine sends_draw (fun _ => rfl) (fun _ => rfl) fun s => ⟨rfl, fun approved => ?_⟩
    cases approved with
    | true => exact sends_spawnSwap im router token _
    | false => exact sends_release
  · exact (rfl : (none : Option UInt64) = none)

/-- Induction on the tokens. -/
theorem sends_sweepTokens (router : Address) (tokens : List Address) :
    sweepNumbering.Sends none (InventorySweep.sweepTokens im router tokens) := by
  induction tokens with
  | nil => exact sends_finishSweep
  | cons token left ih =>
      rw [InventorySweep.sweepTokens, InventorySweep.sweepToken]
      split_ifs with hWeth
      · exact ih
      · rw [Task.bind_assoc]
        exact sends_bind (sends_pullFromContract im token) fun _ =>
          sends_bind (sends_sweepFromWallet im router token left) fun _ => ih

/-- A sweep sends a call with each nonce that it draws. -/
theorem sends_autoSweep : sweepNumbering.Sends none (InventorySweep.autoSweep im) := by
  refine sends_access (fun _ => rfl) (fun _ => rfl) fun s => ?_
  show sweepNumbering.Sends none (if s.running = true then pure (Except.ok ()) else _)
  split_ifs with hRunning
  · exact (rfl : (none : Option UInt64) = none)
  refine sends_access (fun _ => rfl) (fun _ => rfl) fun s' => ?_
  show sweepNumbering.Sends none (if s'.harvestRegistry = [] then InventorySweep.finish else _)
  split_ifs with hNone
  · exact sends_finishSweep
  refine ⟨rfl, fun baseFee => ?_⟩
  show sweepNumbering.Sends none (InventorySweep.withBaseFee im _ _)
  unfold InventorySweep.withBaseFee
  split_ifs with hDear hDebug
  · exact sends_ofOption fun _ => sends_finishSweep
  · exact sends_finishSweep
  · refine sends_access (fun _ => rfl) (fun _ => rfl) fun s'' => ?_
    show sweepNumbering.Sends none
      (if s''.circuitBreaker.isOpen s''.now then InventorySweep.finish else _)
    split_ifs with hOpen
    · exact sends_finishSweep
    · exact sends_sweepTokens im _ _

theorem sends_unwrap : unwrapNumbering.Sends none unwrapWethIfNeeded := by
  refine ⟨rfl, fun read => ?_⟩
  cases read with
  | error e => exact (rfl : (none : Option UInt64) = none)
  | ok ethBalance =>
      show unwrapNumbering.Sends none
        (if ethBalance < minSearcherBalanceWei then _ else pure (Except.ok ()))
      split_ifs with hLow
      · refine ⟨rfl, fun wethBalance => ?_⟩
        show unwrapNumbering.Sends none
          (if Option.getD wethBalance 0 > 0 then _ else pure (Except.ok ()))
        split_ifs with hWeth
        · exact sends_draw (fun _ => rfl) (fun _ => rfl) fun s => ⟨rfl, fun _ => rfl⟩
        · exact (rfl : (none : Option UInt64) = none)
      · exact (rfl : (none : Option UInt64) = none)

end Tasks

/-! ## The executor -/

section Executor

variable {cfg : Config} {env : CallEnv} {opp : Opportunity}

theorem commit_nonce {builder : BuilderConfig} {candidate : Candidate} {s s' : ExecState}
    {r : Except Stop Commitment} (h : commit cfg env opp builder candidate s = (s', r)) :
    s'.nonce = s.nonce ∨ s'.nonce = s.nonce + 1 := by
  unfold commit at h
  dsimp only at h
  split at h
  · rw [← (Prod.mk.inj h).1]
    exact .inl rfl
  split at h
  · rw [← (Prod.mk.inj h).1]
    exact .inl rfl
  split at h
  · split at h
    all_goals
      rw [← (Prod.mk.inj h).1]
      exact .inr rfl
  · rw [← (Prod.mk.inj h).1]
    exact .inr rfl

/-- **A call draws at most one nonce**, and what it sends carries it. -/
theorem call_draws (cfg : Config) (env : CallEnv) (opp : Opportunity) (s : ExecState) :
    let result := simulateAndExecute cfg env opp s
    (result.state.nonce = s.nonce ∧ result.broadcasts = []) ∨
      (result.state.nonce = s.nonce + 1 ∧
        (result.broadcasts = [] ∨
          ∃ sent, result.broadcasts.head? = some sent ∧ sent.tx.nonce = s.nonce)) := by
  intro result
  rcases hCases : simulateAndExecute_cases cfg env opp s with
    ⟨s', stop, hStop, hNonce, -⟩ | ⟨builder, targetBlock, candidate, checked, hCleared,
      ⟨s', stop, hCommit, hStop⟩ | ⟨s', c, hCommit, hLoop⟩⟩
  · left
    simp only [result, hStop, hNonce, and_self]
  · have hBefore : checked.nonce = s.nonce := hCleared.acquired.2.2.2
    have hState : result.state = s' := by simp only [result, hStop]
    have hNone : result.broadcasts = [] := by simp only [result, hStop]
    rw [hState, ← hBefore]
    rcases commit_nonce hCommit with hSame | hMore
    · exact .inl ⟨hSame, hNone⟩
    · exact .inr ⟨hMore, .inl hNone⟩
  · right
    have hBefore : checked.nonce = s.nonce := hCleared.acquired.2.2.2
    obtain ⟨_, _, _, -, -, -, -, hTx, hState⟩ := commit_ok hCommit
    have hResult : result =
        broadcastLoop env opp c s' (maxResilienceAttempts - 1) 0 targetBlock := hLoop
    refine ⟨?_, .inr ⟨attemptBundle c targetBlock, ?_, ?_⟩⟩
    · rw [hResult, (broadcastLoop_frame env opp c s' (maxResilienceAttempts - 1) 0
        targetBlock).2.1, hState, ← hBefore]
    · rw [hResult, broadcastLoop_head]
    · exact hTx.trans hBefore

end Executor

/-! ## Nonces -/

theorem iterate_succ (c : UInt64) (k : ℕ) : (· + 1)^[k] c = c + UInt64.ofNat k := by
  induction k with
  | zero => exact (UInt64.add_zero c).symm
  | succ k ih =>
      rw [Function.iterate_succ_apply', ih, UInt64.ofNat_add, ← UInt64.add_assoc]
      rfl

theorem nonces_eq (c : UInt64) (k : ℕ) :
    List.iterate (· + 1) c k = (List.range k).map fun i => c + UInt64.ofNat i := by
  rw [← List.range_map_iterate]
  exact List.map_congr_left fun i _ => iterate_succ c i

theorem nonces_getElem? (c : UInt64) {k i : ℕ} (hi : i < k) :
    (List.iterate (· + 1) c k)[i]? = some (c + UInt64.ofNat i) := by
  rw [nonces_eq, List.getElem?_map, List.getElem?_range hi]
  rfl

theorem nonces_append (c : UInt64) (k l : ℕ) :
    List.iterate (· + 1) c k ++ List.iterate (· + 1) (c + UInt64.ofNat k) l =
      List.iterate (· + 1) c (k + l) := by
  rw [List.iterate_add, iterate_succ]

/-- Numbers below `2 ^ 64` apart are different nonces. -/
theorem add_ofNat_inj {c : UInt64} {i j : ℕ} (hi : i < 2 ^ 64) (hj : j < 2 ^ 64)
    (h : c + UInt64.ofNat i = c + UInt64.ofNat j) : i = j := by
  have hNat := congrArg UInt64.toNat (add_left_cancel h)
  rwa [UInt64.toNat_ofNat', UInt64.toNat_ofNat', Nat.mod_eq_of_lt hi, Nat.mod_eq_of_lt hj]
    at hNat

theorem nonces_nodup (c : UInt64) {k : ℕ} (hk : k ≤ 2 ^ 64) :
    (List.iterate (· + 1) c k).Nodup := by
  rw [nonces_eq]
  refine List.Nodup.map_on (fun i hi j hj h => ?_) List.nodup_range
  rw [List.mem_range] at hi hj
  exact add_ofNat_inj (hi.trans_le hk) (hj.trans_le hk) h

/-! ## Runs -/

/-- The waiting tasks go on as the rules say. -/
structure Waits (w : Wallet) : Prop where
  profit : profitNumbering.Waits w.profit.waiting
  sweep : sweepNumbering.Waits w.sweep.waiting
  unwrap : unwrapNumbering.Waits w.unwrap.waiting

/-- The step has drawn `more`, and sent `items` with some of these nonces. -/
structure Issued (w w' : Wallet) (more : List UInt64) (items : List Tx) : Prop where
  book : w'.book =
    { drawn := w.book.drawn ++ more, sent := w.book.sent ++ items, taken := w.book.taken }
  fresh : more = List.iterate (· + 1) w.current more.length
  current : w'.current = w.current + UInt64.ofNat more.length
  numbered : (items.map Tx.nonce).Sublist more
  lost : more.length + w.engine.calls.countP lost = items.length + w'.engine.calls.countP lost

theorem Issued.none (w : Wallet) : Issued w w [] [] where
  book := by rw [List.append_nil, List.append_nil]
  fresh := rfl
  current := (UInt64.add_zero w.current).symm
  numbered := .slnil
  lost := rfl

/-- **A turn of a pool** sends an item for each nonce. -/
theorem settle_issued {σ Req : Type} {Reply : Req → Type} {N : Numbering σ Req Tx UInt64}
    (hSucc : N.succ = (· + 1)) (hNumber : N.number = Tx.nonce) {w : Wallet}
    {t : Turn σ Reply Ended Tx UInt64} (ht : N.Fair w.current t) :
    Issued w (w.settle t) (List.iterate (· + 1) w.current t.draws) t.items := by
  have hNumbers := ht.numbers
  have hCounter := ht.counter
  rw [hSucc, hNumber] at hNumbers
  rw [hSucc, iterate_succ] at hCounter
  have hLength : t.items.length = t.draws := by
    have hMap := congrArg List.length hNumbers
    rwa [List.length_map, List.length_iterate] at hMap
  have hCalls : (w.settle t).engine.calls = w.engine.calls := by
    unfold Wallet.settle
    dsimp only
    split_ifs <;> rfl
  exact
    { book := rfl
      fresh := by rw [List.length_iterate]
      current := by rw [List.length_iterate]; exact hCounter
      numbered := by rw [hNumbers]
      lost := by rw [List.length_iterate, hLength, hCalls] }

/-- The pools may be set after the accounts. -/
theorem Issued.of_eq {w w' w'' : Wallet} {more : List UInt64} {items : List Tx}
    (h : Issued w w' more items) (hBook : w''.book = w'.book) (hCurrent : w''.current = w'.current)
    (hEngine : w''.engine = w'.engine) : Issued w w'' more items where
  book := hBook.trans h.book
  fresh := h.fresh
  current := hCurrent.trans h.current
  numbered := h.numbered
  lost := hEngine ▸ h.lost

/-- What the accounts show of a call that ends. -/
theorem runEngine_ended (setup : Setup) (w : Wallet) {event : EngineLoop.Event} {call : Call}
    (hCalls : (EngineLoop.next setup.cfg
      { w.engine with exec := { w.engine.exec with nonce := w.current } } event).calls =
        w.engine.calls ++ [call])
    (hExec : (EngineLoop.next setup.cfg
      { w.engine with exec := { w.engine.exec with nonce := w.current } } event).exec =
        call.result.state) :
    (w.runEngine setup event).book =
        { drawn := w.book.drawn ++
            if call.result.state.nonce = w.current then [] else [w.current]
          sent := w.book.sent ++ (sentBy call).toList
          taken := w.book.taken } ∧
      (w.runEngine setup event).current = call.result.state.nonce ∧
      (w.runEngine setup event).engine.calls.countP lost =
        w.engine.calls.countP lost + if lost call then 1 else 0 := by
  refine ⟨?_, congrArg ExecState.nonce hExec, ?_⟩
  · unfold Wallet.runEngine
    dsimp only
    rw [hCalls, hExec, List.drop_left]
    cases hSent : sentBy call <;>
      simp only [List.filterMap_cons, List.filterMap_nil, hSent] <;> rfl
  · show (EngineLoop.next _ _ _).calls.countP lost = _
    rw [hCalls, List.countP_append, List.countP_singleton]

/-- **A step of the engine loop** draws at most one nonce. -/
theorem runEngine_issued (setup : Setup) (w : Wallet) {event : EngineLoop.Event}
    (hKeeps : ∀ nonce biddingEngine circuitBreaker globalPause,
      event = .others nonce biddingEngine circuitBreaker globalPause → nonce = w.current) :
    ∃ more items, Issued w (w.runEngine setup event) more items := by
  rcases EngineLoop.next_cases setup.cfg
      { w.engine with exec := { w.engine.exec with nonce := w.current } } event with
    ⟨hCalls, hMoved⟩ | ⟨message, task, env, -, hCalls, hExec⟩
  · have hNonce : (EngineLoop.next setup.cfg
        { w.engine with exec := { w.engine.exec with nonce := w.current } } event).exec.nonce =
          w.current := by
      rcases hMoved with hSame | ⟨nonce, biddingEngine, circuitBreaker, globalPause, hOthers, hNew⟩
      · exact hSame
      · exact hNew.trans (hKeeps nonce biddingEngine circuitBreaker globalPause hOthers)
    refine ⟨[], [], ?_, rfl, ?_, .slnil, ?_⟩
    · unfold Wallet.runEngine
      dsimp only
      rw [hCalls, hNonce, if_pos rfl, List.drop_length]
      rfl
    · exact hNonce.trans (UInt64.add_zero w.current).symm
    · show 0 + w.engine.calls.countP lost = 0 + (EngineLoop.next _ _ _).calls.countP lost
      rw [hCalls]
  · obtain ⟨hBook, hCurrent, hCount⟩ := runEngine_ended setup w hCalls hExec
    set before : ExecState := { w.engine.exec with nonce := w.current } with hBefore
    set result := simulateAndExecute setup.cfg env message.opp before
    dsimp only at hBook hCurrent hCount
    rcases call_draws setup.cfg env message.opp before with
      ⟨hSame, hNone⟩ | ⟨hMore, hNone | ⟨sent, hHead, hTx⟩⟩
    · have hKept : result.state.nonce = w.current := hSame
      have hQuiet : result.broadcasts = [] := hNone
      have hFound : lost { message, env, before, result } = false := by
        simp only [lost, hKept, hBefore, bne_self_eq_false, Bool.and_false]
      refine ⟨[], [], ?_, rfl, ?_, .slnil, ?_⟩
      · rw [hBook, if_pos hKept, sentBy, hQuiet]
        rfl
      · rw [hCurrent, hKept]
        exact (UInt64.add_zero w.current).symm
      · rw [hCount, hFound]
        rfl
    · have hMoved : result.state.nonce = w.current + 1 := hMore
      have hQuiet : result.broadcasts = [] := hNone
      have hNe : result.state.nonce ≠ w.current := hMoved ▸ succ_ne w.current
      have hLost : lost { message, env, before, result } = true := by
        simp only [lost, hQuiet, List.isEmpty_nil, Bool.true_and, bne_iff_ne]
        exact hNe
      refine ⟨[w.current], [], ?_, rfl, ?_, List.nil_sublist _, ?_⟩
      · rw [hBook, if_neg hNe, sentBy, hQuiet]
        rfl
      · rw [hCurrent, hMoved]
        rfl
      · rw [hCount, hLost, if_pos rfl, List.length_singleton, List.length_nil]
        omega
    · have hMoved : result.state.nonce = w.current + 1 := hMore
      have hFirst : result.broadcasts.head? = some sent := hHead
      have hNe : result.state.nonce ≠ w.current := hMoved ▸ succ_ne w.current
      have hFound : lost { message, env, before, result } = false := by
        have hSome : result.broadcasts ≠ [] := by
          intro hNil
          rw [hNil] at hFirst
          cases hFirst
        simp only [lost, List.isEmpty_eq_false_iff.mpr hSome, Bool.false_and]
      refine ⟨[w.current], [.arbitrage sent.tx], ?_, rfl, ?_, ?_, ?_⟩
      · rw [hBook, if_neg hNe, sentBy, hFirst]
        rfl
      · rw [hCurrent, hMoved]
        rfl
      · show List.Sublist [sent.tx.nonce] [w.current]
        rw [show sent.tx.nonce = w.current from hTx]
      · rw [hCount, hFound, List.length_singleton, List.length_singleton]
        simp only [Bool.false_eq_true, if_false]
        omega

/-- **Step lemma**, a step of the process. -/
theorem work_issued (setup : Setup) {w : Wallet} (hw : Waits w) (event : Event) :
    (∃ more items, Issued w (w.work setup event) more items) ∧ Waits (w.work setup event) := by
  cases event with
  | received message =>
      exact ⟨runEngine_issued setup w fun _ _ _ _ h => (nomatch h), ⟨hw.1, hw.2, hw.3⟩⟩
  | ended task env =>
      exact ⟨runEngine_issued setup w fun _ _ _ _ h => (nomatch h), ⟨hw.1, hw.2, hw.3⟩⟩
  | others biddingEngine circuitBreaker globalPause =>
      refine ⟨runEngine_issued setup w fun _ _ _ _ h => ?_, ⟨hw.1, hw.2, hw.3⟩⟩
      exact (EngineLoop.Event.others.inj h).1.symm
  | shutdown =>
      exact ⟨runEngine_issued setup w fun _ _ _ _ h => (nomatch h), ⟨hw.1, hw.2, hw.3⟩⟩
  | handleProfit profitAmount =>
      have hTurn := call_sends hw.profit (sends_handleProfit setup.pm profitAmount) w.current
      exact ⟨⟨_, _, (settle_issued rfl rfl hTurn).of_eq rfl rfl rfl⟩, ⟨hTurn.waits, hw.2, hw.3⟩⟩
  | profitReply task reply =>
      have hTurn := answer_sends hw.profit w.current task reply
      exact ⟨⟨_, _, (settle_issued rfl rfl hTurn).of_eq rfl rfl rfl⟩, ⟨hTurn.waits, hw.2, hw.3⟩⟩
  | reportHarvest => exact ⟨⟨[], [], (Issued.none w).of_eq rfl rfl rfl⟩, ⟨hw.1, hw.2, hw.3⟩⟩
  | autoSweep =>
      have hTurn := call_sends hw.sweep (sends_autoSweep setup.im) w.current
      exact ⟨⟨_, _, (settle_issued rfl rfl hTurn).of_eq rfl rfl rfl⟩, ⟨hw.1, hTurn.waits, hw.3⟩⟩
  | sweepReply task reply =>
      have hTurn := answer_sends hw.sweep w.current task reply
      exact ⟨⟨_, _, (settle_issued rfl rfl hTurn).of_eq rfl rfl rfl⟩, ⟨hw.1, hTurn.waits, hw.3⟩⟩
  | sweepReads harvestRegistry circuitBreaker now =>
      exact ⟨⟨[], [], (Issued.none w).of_eq rfl rfl rfl⟩, ⟨hw.1, hw.2, hw.3⟩⟩
  | unwrap =>
      have hTurn := call_sends hw.unwrap sends_unwrap w.current
      exact ⟨⟨_, _, (settle_issued rfl rfl hTurn).of_eq rfl rfl rfl⟩, ⟨hw.1, hw.2, hTurn.waits⟩⟩
  | unwrapReply task reply =>
      have hTurn := answer_sends hw.unwrap w.current task reply
      exact ⟨⟨_, _, (settle_issued rfl rfl hTurn).of_eq rfl rfl rfl⟩, ⟨hw.1, hw.2, hTurn.waits⟩⟩
  | mined tx => exact ⟨⟨[], [], Issued.none w⟩, hw⟩

section Steps

variable {start : UInt64} {w w' : Wallet}

theorem Accounted.initial (setup : Setup) (exec : ExecState) (profit : ProfitHandler.Shared)
    (sweep : InventorySweep.Shared) :
    Accounted exec.nonce (Wallet.initial setup exec profit sweep) where
  drawn := rfl
  current := (UInt64.add_zero exec.nonce).symm
  lost := rfl
  distinct _ := List.nodup_nil
  orderly _ := .initial

theorem Waits.initial (setup : Setup) (exec : ExecState) (profit : ProfitHandler.Shared)
    (sweep : InventorySweep.Shared) : Waits (Wallet.initial setup exec profit sweep) where
  profit _ h := absurd h List.not_mem_nil
  sweep _ h := absurd h List.not_mem_nil
  unwrap _ h := absurd h List.not_mem_nil

/-- While nonces do not come round again they are different. -/
theorem Accounted.nodup (h : Accounted start w) (hFits : w.book.drawn.length ≤ 2 ^ 64) :
    w.book.drawn.Nodup := by
  rw [h.drawn]
  exact nonces_nodup start hFits

theorem Accounted.issue (h : Accounted start w) {more : List UInt64} {items : List Tx}
    (hIssued : Issued w w' more items) : Accounted start w' := by
  have hDrawn : w'.book.drawn = w.book.drawn ++ more := by rw [hIssued.book]
  have hSent : w'.book.sent = w.book.sent ++ items := by rw [hIssued.book]
  have hLength : w'.book.drawn.length = w.book.drawn.length + more.length := by
    rw [hDrawn, List.length_append]
  have hNumbers : w'.book.drawn = List.iterate (· + 1) start w'.book.drawn.length := by
    rw [hLength, hDrawn, ← nonces_append, ← h.current, ← hIssued.fresh, ← h.drawn]
  have hOrderly : w'.book.drawn.length ≤ 2 ^ 64 → Orderly Tx.nonce w'.book := by
    intro hFits
    rw [hIssued.book]
    exact (h.orderly (by omega)).issue hIssued.numbered
  constructor
  · exact hNumbers
  · rw [hIssued.current, h.current, hLength, UInt64.ofNat_add, UInt64.add_assoc]
  · rw [hLength, hSent, List.length_append]
    have hBefore := h.lost
    have hStep := hIssued.lost
    omega
  · intro hFits
    have hNodup : w'.book.drawn.Nodup := hNumbers ▸ nonces_nodup start hFits
    exact hNodup.sublist (hOrderly hFits).sent
  · exact hOrderly

/-- The transaction that the account takes has the next nonce. -/
theorem Accounted.next_nonce (h : Accounted start w) (hFits : w.book.drawn.length ≤ 2 ^ 64)
    {tx : Tx} (hSent : tx ∈ w.book.sent)
    (hNonce : tx.nonce.toNat = start.toNat + w.book.taken.length) :
    w.book.drawn[w.book.taken.length]? = some tx.nonce := by
  have hMem : tx.nonce ∈ w.book.drawn :=
    (h.orderly hFits).sent.subset (List.mem_map_of_mem hSent)
  rw [h.drawn, nonces_eq] at hMem
  obtain ⟨i, hi, hEq⟩ := List.mem_map.mp hMem
  rw [List.mem_range] at hi
  have hTaken : tx.nonce = start + UInt64.ofNat w.book.taken.length := by
    apply UInt64.toNat_inj.mp
    rw [UInt64.toNat_add, UInt64.toNat_ofNat', Nat.add_mod_mod, ← hNonce]
    exact (Nat.mod_eq_of_lt tx.nonce.toNat_lt).symm
  have hShort : w.book.taken.length < 2 ^ 64 := by
    have hSmall := tx.nonce.toNat_lt
    omega
  have hIndex : i = w.book.taken.length :=
    add_ofNat_inj (hi.trans_le hFits) hShort (hEq.trans hTaken)
  rw [h.drawn, nonces_getElem? start (hIndex ▸ hi), ← hTaken]

/-- **Step lemma**, the chain. -/
theorem Accounted.mine (h : Accounted start w) (tx : Tx) : Accounted start (w.mine start tx) := by
  unfold Wallet.mine
  split_ifs with hTakes
  · exact
      { drawn := h.drawn
        current := h.current
        lost := h.lost
        distinct := h.distinct
        orderly := fun hFits => (h.orderly hFits).take (h.nodup hFits) hTakes.1
          (h.next_nonce hFits hTakes.1 hTakes.2) }
  · exact h

/-- What was drawn and sent later has later nonces. -/
def Grown (w w' : Wallet) : Prop :=
  ∃ more items, w'.book.drawn = w.book.drawn ++ more ∧ w'.book.sent = w.book.sent ++ items ∧
    (items.map Tx.nonce).Sublist more

theorem Grown.refl (w : Wallet) : Grown w w :=
  ⟨[], [], (List.append_nil _).symm, (List.append_nil _).symm, .slnil⟩

theorem Grown.trans {w'' : Wallet} (h : Grown w w') (h' : Grown w' w'') : Grown w w'' := by
  obtain ⟨more, items, hDrawn, hSent, hNumbers⟩ := h
  obtain ⟨more', items', hDrawn', hSent', hNumbers'⟩ := h'
  refine ⟨more ++ more', items ++ items', ?_, ?_, ?_⟩
  · rw [hDrawn', hDrawn, List.append_assoc]
  · rw [hSent', hSent, List.append_assoc]
  · rw [List.map_append]
    exact hNumbers.append hNumbers'

/-- **Step lemma.** -/
theorem next_accounted (setup : Setup) (h : Accounted start w) (hw : Waits w) (event : Event) :
    Accounted start (w.next setup start event) ∧ Waits (w.next setup start event) ∧
      Grown w (w.next setup start event) := by
  have hMine : ∀ tx, Accounted start (w.mine start tx) ∧ Waits (w.mine start tx) ∧
      Grown w (w.mine start tx) := by
    intro tx
    refine ⟨h.mine tx, ?_⟩
    unfold Wallet.mine
    split_ifs with hTakes
    · exact ⟨⟨hw.1, hw.2, hw.3⟩, Grown.refl w⟩
    · exact ⟨hw, Grown.refl w⟩
  have hWork : Accounted start (w.work setup event) ∧ Waits (w.work setup event) ∧
      Grown w (w.work setup event) := by
    obtain ⟨⟨more, items, hIssued⟩, hWaits⟩ := work_issued setup hw event
    refine ⟨h.issue hIssued, hWaits, more, items, ?_, ?_, hIssued.numbered⟩
    · rw [hIssued.book]
    · rw [hIssued.book]
  unfold Wallet.next
  split
  · exact hMine _
  · split
    · exact hWork
    · exact ⟨h, hw, Grown.refl w⟩
    · exact ⟨h, hw, Grown.refl w⟩

/-- **Run lemma.** -/
theorem run_grown (setup : Setup) (h : Accounted start w) (hw : Waits w) (events : List Event) :
    Accounted start (w.run setup start events) ∧ Waits (w.run setup start events) ∧
      Grown w (w.run setup start events) := by
  induction events generalizing w with
  | nil => exact ⟨h, hw, Grown.refl w⟩
  | cons event rest ih =>
      obtain ⟨hNext, hWaits, hStep⟩ := next_accounted setup h hw event
      obtain ⟨hEnd, hWaitsEnd, hRest⟩ := ih hNext hWaits
      exact ⟨hEnd, hWaitsEnd, hStep.trans hRest⟩

end Steps

/-- **The wallet's nonces**, in any interleaving.  They are drawn one after the other, each for
one transaction of one part or lost by a call of the executor; while they do not come round
again, what is mined is a prefix of what was sent, and after a nonce that was lost nothing is
mined any more. -/
theorem run_accounted (setup : Setup) (exec : ExecState) (profit : ProfitHandler.Shared)
    (sweep : InventorySweep.Shared) (earlier later : List Event) :
    let w := (Wallet.initial setup exec profit sweep).run setup exec.nonce earlier
    let w' := w.run setup exec.nonce later
    Accounted exec.nonce w' ∧
      (w'.book.drawn.length ≤ 2 ^ 64 → ∀ (i : ℕ) (n : UInt64), w.book.drawn[i]? = some n →
        n ∉ w.book.sent.map Tx.nonce → w'.book.taken.length ≤ i) := by
  intro w w'
  obtain ⟨hAccounted, hWaits, -⟩ := run_grown setup (.initial setup exec profit sweep)
    (.initial setup exec profit sweep) earlier
  obtain ⟨hEnd, -, more, items, hDrawn, hSent, hNumbers⟩ :=
    run_grown setup hAccounted hWaits later
  refine ⟨hEnd, fun hFits i n hAt hLost => ?_⟩
  have hNodup := hEnd.nodup hFits
  have hAtEnd : w'.book.drawn[i]? = some n := by
    rw [hDrawn, List.getElem?_append_left (List.getElem?_eq_some_iff.mp hAt).1]
    exact hAt
  refine (hEnd.orderly hFits).stuck hAtEnd ?_
  rw [hSent]
  exact lost_issue (hDrawn ▸ hNodup) hNumbers (List.mem_of_getElem? hAt) hLost

end SovereignShadow.Ports.WalletNonces
