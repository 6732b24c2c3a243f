import SovereignShadow.Ports.CircuitBreaker
import SovereignShadow.Verified.Tasks

/-!
# The inventory sweep

Port of `InventoryManager::auto_sweep`.  A sweep takes the flag `running`, and goes through
the registered tokens with several await points for each.  When an approval fails it clears
the flag and goes on with the next token, so the flag is clear while the sweep is in
progress, and the next call starts a second one.

## Main results

* `keeps_sweepTokens` — when the approvals are sent, the loop keeps the flag to its end.
* `autoSweep_exclusive` — at most one sweep is in progress, and the flag is set while one is.
* `not_autoSweep_exclusive` — two sweeps after a failed approval.
-/

namespace SovereignShadow.Ports.InventorySweep

open SovereignShadow.Verified.Tasks
open SovereignShadow.Verified.Tasks.Task
open SovereignShadow.Ports.Models
open SovereignShadow.Ports.Constants
open SovereignShadow.Ports.Breaker

/-! ## The sweep -/

structure InventoryManager where
  walletAddress : Address
  executorAddress : Address
  chain : Chain
  /-- The events of level `debug` are enabled, so that their arguments are evaluated. -/
  debugEnabled : Bool

inductive ContractCall where
  | withdrawToken (token : Address)
  | approve (spender : Address) (amount : U256)
  | swapExactTokensForTokens (amountIn amountOutMin : U256) (path : List Address)
      (toAddr : Address) (deadline : U256)
  deriving DecidableEq, Repr

structure ContractTx where
  toAddr : Address
  call : ContractCall
  nonce : UInt64
  deriving DecidableEq, Repr

/-- The flag, the registered tokens in the order of an iteration, the counter of the nonce
manager, the swaps handed over to tasks of their own, the breaker, and the clock in seconds
since the epoch. -/
structure Shared where
  running : Bool
  harvestRegistry : List Address
  nonce : UInt64
  spawned : List ContractTx
  circuitBreaker : CircuitBreaker
  now : Nat

/-- The await points; an approval knows the tokens that are left. -/
inductive Request where
  | gasFeed
  | contractBalance (token : Address)
  | withdraw (tx : ContractTx)
  | withdrawWatch
  | walletBalance (token : Address)
  | approve (tx : ContractTx) (left : List Address)

/-- What comes back: the feed holds the base fee of a block, a balance may fail to be read, a
transaction is sent or not. -/
abbrev Reply : Request → Type
  | .gasFeed => BitVec 128
  | .contractBalance _ => Option U256
  | .withdraw _ => Bool
  | .withdrawWatch => Unit
  | .walletBalance _ => Option U256
  | .approve _ _ => Bool

abbrev Sweep (α : Type) : Type := Task Shared Reply α

/-- `self.running.store(false, Ordering::SeqCst)`. -/
def release : Sweep Unit := modify fun s => { s with running := false }

def finish : Sweep (Except MEVError Unit) := do
  release
  pure (.ok ())

/-- `nonce_manager.next()`. -/
def nextNonce : Sweep UInt64 :=
  .access (fun s => { s with nonce := s.nonce + 1 }) fun s => .ret s.nonce

/-- A read of the shared state. -/
def get : Sweep Shared := .access id .ret

variable (im : InventoryManager)

/-- `withdrawToken` on the contract; a failure is ignored. -/
def withdrawDust (token : Address) : Sweep Unit := do
  let nonce ← nextNonce
  let sent ← ask (.withdraw { toAddr := im.executorAddress, call := .withdrawToken token, nonce })
  if sent then do
    let _ ← ask .withdrawWatch
    pure ()
  else pure ()

/-- Pull the dust from the contract first. -/
def pullFromContract (token : Address) : Sweep Unit := do
  let contractBal : Option U256 ← ask (Request.contractBalance token)
  if contractBal.getD 0 > dustThresholdWei then withdrawDust im token else pure ()

/-- The swap of an approved balance, sent by a task of its own. -/
def spawnSwap (router token : Address) (balance : U256) : Sweep Unit := do
  let s ← get
  let nonce ← nextNonce
  modify fun s' => { s' with
    spawned := s'.spawned ++
      [{ toAddr := router
         call := .swapExactTokensForTokens balance 0 [token, tokenWeth] im.walletAddress
           (BitVec.ofNat 256 (s.now + 60))
         nonce := nonce }] }

/-- The approval and the swap; when the approval fails, the flag is cleared and the loop
continues. -/
def sweepBalance (router token : Address) (left : List Address) (balance : U256) :
    Sweep Unit := do
  let nonce ← nextNonce
  let approved ← ask
    (.approve { toAddr := token, call := .approve router balance, nonce } left)
  if approved then spawnSwap im router token balance else release

/-- Sweep what the wallet then holds. -/
def sweepFromWallet (router token : Address) (left : List Address) : Sweep Unit := do
  let balance : Option U256 ← ask (Request.walletBalance token)
  if balance.getD 0 ≥ dustThresholdWei then
    sweepBalance im router token left (balance.getD 0)
  else pure ()

/-- The body of the loop. -/
def sweepToken (router token : Address) (left : List Address) : Sweep Unit :=
  if token = tokenWeth then pure ()
  else do
    pullFromContract im token
    sweepFromWallet im router token left

def sweepTokens (router : Address) : List Address → Sweep (Except MEVError Unit)
  | [] => finish
  | token :: left => do
      sweepToken im router token left
      sweepTokens router left

def routerAddress : Address :=
  if im.chain = .base then baseAerodromeRouter else uniswapV2Router

/-- From the base fee on. -/
def withBaseFee (tokens : List Address) (baseFee : U256) : Sweep (Except MEVError Unit) :=
  if baseFee > maxSweepGasPriceWei then
    if im.debugEnabled then do
      -- the argument of `debug!`, `base_fee.to::<u128>()`
      let _ ← ofOption (toU128 baseFee)
      finish
    else finish
  else do
    let s ← get
    if s.circuitBreaker.isOpen s.now then finish
    else sweepTokens im (routerAddress im) tokens

def autoSweep : Sweep (Except MEVError Unit) := do
  let wasRunning ← .access (fun s => { s with running := true }) fun s => .ret s.running
  if wasRunning then pure (.ok ())
  else do
    let s ← get
    if s.harvestRegistry = [] then finish
    else do
      let baseFee : BitVec 128 ← ask Request.gasFeed
      withBaseFee im s.harvestRegistry (baseFee.setWidth 256)

/-! ## The runs -/

/-- Every reply. -/
def allRuns (unwinds : Bool) : Rules Shared Reply (Except MEVError Unit) where
  held s := s.running
  Calls task := task = autoSweep im
  Replies _ _ := True
  unwinds := unwinds

/-- An approval is sent, or no token is left to wait for. -/
def Approved : (request : Request) → Reply request → Prop
  | .approve _ left, approved => approved = true ∨ ∀ token ∈ left, token = tokenWeth
  | .gasFeed, _ => True
  | .contractBalance _, _ => True
  | .withdraw _, _ => True
  | .withdrawWatch, _ => True
  | .walletBalance _, _ => True

/-- The runs whose steps all meet the condition. -/
def approvedRuns (unwinds : Bool) : Rules Shared Reply (Except MEVError Unit) where
  held s := s.running
  Calls task := task = autoSweep im
  Replies := Approved
  unwinds := unwinds

/-! ## The discipline -/

section Discipline

variable (unwinds : Bool)

theorem keeps_finish : Keeps (approvedRuns im unwinds) finish :=
  keeps_release (fun _ => rfl) fun _ => trivial

theorem stays_pullFromContract (token : Address) :
    Stays (approvedRuns im unwinds) (pullFromContract im token) := by
  intro contractBal _
  show Stays _ (if Option.getD contractBal 0 > dustThresholdWei then withdrawDust im token
    else pure ())
  split_ifs with hDust
  · intro s hHeld
    refine ⟨hHeld, fun sent _ => ?_⟩
    cases sent with
    | true => exact fun _ _ => trivial
    | false => trivial
  · trivial

theorem stays_spawnSwap (router token : Address) (balance : U256) :
    Stays (approvedRuns im unwinds) (spawnSwap im router token balance) :=
  fun _ hHeld => ⟨hHeld, fun _ hHeld' => ⟨hHeld', fun _ hHeld'' => ⟨hHeld'', trivial⟩⟩⟩

/-- With only WETH left the loop ends without waiting. -/
theorem ends_sweepTokens (router : Address) {left : List Address}
    (hLeft : ∀ token ∈ left, token = tokenWeth) :
    Ends (approvedRuns im unwinds) false (sweepTokens im router left) := by
  induction left with
  | nil => exact fun _ _ => ⟨rfl, trivial⟩
  | cons token left ih =>
      rw [List.forall_mem_cons] at hLeft
      rw [sweepTokens, sweepToken, if_pos hLeft.1]
      exact ih hLeft.2

/-- The approval, and the loop after it. -/
theorem keeps_sweepBalance (router token : Address) {left : List Address} (balance : U256)
    (hLeft : Keeps (approvedRuns im unwinds) (sweepTokens im router left)) :
    Keeps (approvedRuns im unwinds)
      (sweepBalance im router token left balance >>= fun _ => sweepTokens im router left) := by
  refine keeps_access (fun _ hHeld => hHeld) fun s _ approved hApproved => ?_
  cases approved with
  | true => exact keeps_bind (stays_spawnSwap im unwinds router token balance) fun _ => hLeft
  | false =>
      have hOnly : ∀ token ∈ left, token = tokenWeth :=
        hApproved.resolve_left Bool.false_ne_true
      exact keeps_release (fun _ => rfl) fun _ => ends_sweepTokens im unwinds router hOnly

theorem keeps_sweepFromWallet (router token : Address) {left : List Address}
    (hLeft : Keeps (approvedRuns im unwinds) (sweepTokens im router left)) :
    Keeps (approvedRuns im unwinds)
      (sweepFromWallet im router token left >>= fun _ => sweepTokens im router left) := by
  intro balance _
  show Keeps _ ((if Option.getD balance 0 ≥ dustThresholdWei then
    sweepBalance im router token left (Option.getD balance 0) else pure ()) >>=
      fun _ => sweepTokens im router left)
  split_ifs with hDust
  · exact keeps_sweepBalance im unwinds router token _ hLeft
  · exact hLeft

/-- **The loop keeps the flag to its end.**  Induction on the tokens. -/
theorem keeps_sweepTokens (router : Address) (tokens : List Address) :
    Keeps (approvedRuns im unwinds) (sweepTokens im router tokens) := by
  induction tokens with
  | nil => exact keeps_finish im unwinds
  | cons token left ih =>
      rw [sweepTokens, sweepToken]
      split_ifs with hWeth
      · exact ih
      · rw [Task.bind_assoc]
        exact keeps_bind (stays_pullFromContract im unwinds token) fun _ =>
          keeps_sweepFromWallet im unwinds router token ih

/-- A base fee of a block can be printed. -/
theorem keeps_withBaseFee (tokens : List Address) (baseFee : BitVec 128) :
    Keeps (approvedRuns im unwinds) (withBaseFee im tokens (baseFee.setWidth 256)) := by
  unfold withBaseFee
  split_ifs with hDear hDebug
  · have hFits : (baseFee.setWidth 256).toNat < 2 ^ 128 := by
      rw [BitVec.toNat_setWidth]
      exact (Nat.mod_le _ _).trans_lt baseFee.isLt
    refine keeps_ofOption (fun _ => ?_) fun _ _ => keeps_finish im unwinds
    rw [toU128, if_pos hFits]
    exact Option.some_ne_none _
  · exact keeps_finish im unwinds
  · refine keeps_access (fun _ hHeld => hHeld) fun s _ => ?_
    show Keeps _ (if s.circuitBreaker.isOpen s.now then finish else _)
    split_ifs with hOpen
    · exact keeps_finish im unwinds
    · exact keeps_sweepTokens im unwinds _ tokens

/-- **The discipline.**  A sweep takes the flag, and if it was clear keeps it until it ends. -/
theorem takes_autoSweep : Takes (approvedRuns im unwinds) (autoSweep im) := by
  refine takes_access (fun _ => rfl) (fun s hHeld => ?_) fun s hHeld => ?_
  · have hWas : s.running = true := hHeld
    dsimp only
    rw [hWas]
    trivial
  · have hWas : s.running = false := hHeld
    dsimp only
    rw [hWas]
    refine keeps_access (fun _ hHeld => hHeld) fun s' _ => ?_
    show Keeps _ (if s'.harvestRegistry = [] then finish else _)
    split_ifs with hNone
    · exact keeps_finish im unwinds
    · exact fun baseFee _ => keeps_withBaseFee im unwinds _ baseFee

end Discipline

/-! ## Exclusion -/

/-- At most one sweep is in progress past the check of the flag, and the flag is set exactly
while one is. -/
def Exclusive (p : Pool Shared Reply (Except MEVError Unit)) : Prop :=
  p.waiting.length ≤ 1 ∧ (p.shared.running = true ↔ p.waiting ≠ [])

/-- **Sweeps exclude each other while approvals are sent.**  In every run whose replies meet
the condition, from a state with the flag clear. -/
theorem autoSweep_exclusive (unwinds : Bool) {s : Shared} (hFree : s.running = false)
    {p : Pool Shared Reply (Except MEVError Unit)}
    (hRun : Run (approvedRuns im unwinds) { shared := s, waiting := [] } p) : Exclusive p := by
  have hCalls : ∀ task, (approvedRuns im unwinds).Calls task →
      Takes (approvedRuns im unwinds) task := by
    rintro task rfl
    exact takes_autoSweep im unwinds
  exact (owned_run hCalls hRun (.free hFree)).exclusive

/-! ## Two runs -/

def sampleManager : InventoryManager where
  walletAddress := 0x1111111111111111111111111111111111111111
  executorAddress := 0x2222222222222222222222222222222222222222
  chain := .base
  debugEnabled := false

/-- Two tokens of which the wallet may hold dust. -/
def idle : Shared where
  running := false
  harvestRegistry := [tokenUsdc, tokenDai]
  nonce := 0
  spawned := []
  circuitBreaker := CircuitBreaker.new 5 60
  now := 1700000000

/-- No dust in the contract, and one ether's worth of each token in the wallet. -/
def answer (approved : Bool) : (request : Request) → Reply request
  | .gasFeed => (0 : BitVec 128)
  | .contractBalance _ => none
  | .withdraw _ => true
  | .withdrawWatch => ()
  | .walletBalance _ => some 1000000000000000000
  | .approve _ _ => approved

/-- The state after a call. -/
def started : Pool Shared Reply (Except MEVError Unit) where
  shared := ((autoSweep sampleManager).advance idle).1
  waiting := ((autoSweep sampleManager).advance idle).2.inProgress

theorem step_started {rules : Rules Shared Reply (Except MEVError Unit)}
    (hCall : rules.Calls (autoSweep sampleManager)) (hUnwinds : rules.unwinds = true) :
    Step rules { shared := idle, waiting := [] } started :=
  Step.call_idle hCall rfl (goesOn_of_unwinds hUnwinds _)

/-- A sweep that waits for the second token. -/
theorem autoSweep_exclusive_example : Exclusive (started.drive (answer true) 4) := by
  have hAnswer : ∀ request, Approved request (answer true request) := by
    intro request
    cases request with
    | approve tx left => exact .inl rfl
    | _ => trivial
  exact autoSweep_exclusive sampleManager true rfl
    (.head (step_started rfl rfl) (run_drive rfl hAnswer 4 started))

/-- **A failed approval** clears the flag, and a second call starts a second sweep. -/
theorem not_autoSweep_exclusive :
    ¬ ∀ (im : InventoryManager) (unwinds : Bool) (s : Shared)
        (p : Pool Shared Reply (Except MEVError Unit)), s.running = false →
      Run (allRuns im unwinds) { shared := s, waiting := [] } p → Exclusive p := by
  intro hAll
  have hFirst : Run (allRuns sampleManager true) { shared := idle, waiting := [] }
      (started.drive (answer false) 4) :=
    .head (step_started rfl rfl) (run_drive rfl (fun _ => trivial) 4 started)
  have hSecond := hFirst.tail
    (Step.call (autoSweep sampleManager) rfl (goesOn_of_unwinds rfl _))
  have hBoth := (hAll sampleManager true idle _ rfl hSecond).1
  have hTwo : ¬ ((started.drive (answer false) 4).waiting ++
      ((autoSweep sampleManager).advance (started.drive (answer false) 4).shared).2.inProgress
      ).length ≤ 1 := by decide +kernel
  exact hTwo hBoth

end SovereignShadow.Ports.InventorySweep
