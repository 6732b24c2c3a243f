import SovereignShadow.Ports.L1DataFee
import SovereignShadow.Verified.Tasks

/-!
# The profit handler

Port of `ProfitManager::handle_profit`.  A call takes the flag `running`, waits for the
balance, the fees and its transfers, and clears the flag on the way out.  It does not when
the balance cannot be read: the `?` returns with the flag set, and every later call finds it
so and returns at once.

## Main results

* `takes_handleProfit` — when the balance is read, a call keeps the discipline of the flag.
* `handleProfit_released` — the flag is clear whenever no call is in progress.
* `not_handleProfit_released` — one error wedges the handler.
-/

namespace SovereignShadow.Ports.ProfitHandler

open SovereignShadow.Verified.Tasks
open SovereignShadow.Verified.Tasks.Task
open SovereignShadow.Ports.Models
open SovereignShadow.Ports.Constants
open SovereignShadow.Ports.L1DataFee

/-! ## The handler -/

structure ProfitManager where
  chain : Chain
  gasReserveThreshold : U256
  compoundingTarget : Option Address
  /-- The events of level `debug` are enabled, so that their arguments are evaluated. -/
  debugEnabled : Bool

/-- The atomics of the manager, and the counter of the nonce manager. -/
structure Shared where
  running : Bool
  dailyProfit : UInt64
  totalProfitHarvested : UInt64
  nonce : UInt64

structure Transfer where
  toAddr : Address
  value : U256
  nonce : UInt64
  deriving DecidableEq, Repr

/-- The two transfers of a call. -/
inductive Share where
  | vault | compounding
  deriving DecidableEq, Repr

/-- The await points, with what the call knows there. -/
inductive Request where
  | balance
  | l1Fee (currentBalance : U256)
  | gasPrice (currentBalance l1Fee : U256)
  | transfer (share : Share) (tx : Transfer)
  | watch (share : Share)

/-- What comes back: a provider answers or fails; the fee is estimated from the scalars as
they stand then; a transfer is sent or not. -/
abbrev Reply : Request → Type
  | .balance => Except String U256
  | .l1Fee _ => EcotoneScalars
  | .gasPrice _ _ => Option (BitVec 128)
  | .transfer _ _ => Bool
  | .watch _ => Unit

abbrev Handler : Type := Task Shared Reply (Except MEVError Unit)

/-- `gas_price`, with its default. -/
def gasPriceOr (gasPrice : Option (BitVec 128)) : U256 :=
  match gasPrice with
  | some price => price.setWidth 256
  | none => 50000000

def totalTransferCost (l1Fee : U256) (gasPrice : Option (BitVec 128)) : U256 :=
  l1Fee + 21000 * gasPriceOr gasPrice

def survivalThreshold (pm : ProfitManager) (cost : U256) : U256 :=
  pm.gasReserveThreshold + cost * 5

def excess (pm : ProfitManager) (currentBalance cost : U256) : U256 :=
  saturatingSub currentBalance (survivalThreshold pm cost)

/-- 0.005 ETH. -/
def meaningfulExcess : U256 := 5000000000000000

def vaultShare (excess : U256) : U256 := excess * gasVaultPercentage / 100

/-- `self.running.store(false, Ordering::SeqCst); Ok(())`. -/
def finish : Handler := do
  modify fun s => { s with running := false }
  pure (.ok ())

/-- `nonce_manager.next()`. -/
def nextNonce : Task Shared Reply UInt64 :=
  .access (fun s => { s with nonce := s.nonce + 1 }) fun s => .ret s.nonce

def compound (pm : ProfitManager) (cost distributionBalance : U256) : Handler :=
  match pm.compoundingTarget with
  | none => finish
  | some target =>
      if distributionBalance > cost then do
        let nonce ← nextNonce
        let sent ← ask
          (.transfer .compounding { toAddr := target, value := distributionBalance, nonce })
        if sent then do
          let _ ← ask (.watch .compounding)
          finish
        else finish
      else finish

def gasVault (pm : ProfitManager) (cost excess : U256) : Handler :=
  match gasVaultAddress with
  | none => compound pm cost excess
  | some vault =>
      if vaultShare excess > cost then do
        let nonce ← nextNonce
        let sent ← ask (.transfer .vault { toAddr := vault, value := vaultShare excess, nonce })
        if sent then do
          let _ ← ask (.watch .vault)
          compound pm cost (saturatingSub excess (vaultShare excess))
        else compound pm cost excess
      else compound pm cost excess

/-- From the three readings on. -/
def sweep (pm : ProfitManager) (currentBalance cost : U256) : Handler :=
  if excess pm currentBalance cost < meaningfulExcess then
    if pm.debugEnabled then do
      -- the argument of `debug!`, `current_balance.to::<u128>()`
      let _ ← ofOption (toU128 currentBalance)
      finish
    else finish
  else gasVault pm cost (excess pm currentBalance cost)

/-- `unwrap_or(U256::ZERO)`. -/
def feeOr (fee : Except MEVError U256) : U256 :=
  match fee with
  | .ok fee => fee
  | .error _ => 0

/-- From the estimate of the fee on. -/
def withScalars (pm : ProfitManager) (currentBalance : U256) (scalars : EcotoneScalars) :
    Handler := do
  let fee ← ofOption (estimateL1Fee scalars pm.chain [])
  let gasPrice ← ask (.gasPrice currentBalance (feeOr fee))
  sweep pm currentBalance (totalTransferCost (feeOr fee) gasPrice)

/-- From the balance on; an error leaves by `?`. -/
def withBalance (pm : ProfitManager) : Except String U256 → Handler
  | .error e => pure (.error (.other e))
  | .ok currentBalance => do
      let scalars ← ask (.l1Fee currentBalance)
      withScalars pm currentBalance scalars

def record (profitGwei : Nat) (s : Shared) : Shared :=
  { s with
    dailyProfit := s.dailyProfit + UInt64.ofNat profitGwei
    totalProfitHarvested := s.totalProfitHarvested + UInt64.ofNat profitGwei }

def handleProfit (pm : ProfitManager) (profitAmount : U256) : Handler := do
  let wasRunning ← .access (fun s => { s with running := true }) fun s => .ret s.running
  if wasRunning then pure (.ok ())
  else do
    let profitGwei ← ofOption (toU64 (profitAmount / 1000000000))
    modify (record profitGwei)
    let balance ← ask Request.balance
    withBalance pm balance

/-! ## The runs -/

/-- Every call and every reply. -/
def allRuns (pm : ProfitManager) (unwinds : Bool) :
    Rules Shared Reply (Except MEVError Unit) where
  held s := s.running
  Calls task := ∃ profitAmount, task = handleProfit pm profitAmount
  Replies _ _ := True
  unwinds := unwinds

/-- The profit in gwei is a word. -/
def ProfitFits (profitAmount : U256) : Prop := (profitAmount / 1000000000).toNat < 2 ^ 64

instance (profitAmount : U256) : Decidable (ProfitFits profitAmount) :=
  inferInstanceAs (Decidable (_ < _))

/-- The balance is read, and the estimate does not panic, nor does the event that reports a
balance of more than 128 bits. -/
def Settles (pm : ProfitManager) (unwinds : Bool) : (request : Request) → Reply request → Prop
  | .balance, reply => ∃ balance, reply = .ok balance
  | .l1Fee _, scalars => unwinds = true → estimateL1Fee scalars pm.chain [] ≠ none
  | .gasPrice currentBalance l1Fee, gasPrice =>
      unwinds = true → pm.debugEnabled = true →
        excess pm currentBalance (totalTransferCost l1Fee gasPrice) < meaningfulExcess →
          currentBalance.toNat < 2 ^ 128
  | .transfer _ _, _ => True
  | .watch _, _ => True

/-- The runs whose steps all meet the condition. -/
def settledRuns (pm : ProfitManager) (unwinds : Bool) :
    Rules Shared Reply (Except MEVError Unit) where
  held s := s.running
  Calls task := ∃ profitAmount, task = handleProfit pm profitAmount ∧
    (unwinds = true → ProfitFits profitAmount)
  Replies := Settles pm unwinds
  unwinds := unwinds

/-! ## The discipline -/

section Discipline

variable (pm : ProfitManager) (unwinds : Bool)

theorem keeps_finish : Keeps (settledRuns pm unwinds) finish :=
  keeps_release (fun _ => rfl) fun _ => trivial

theorem keeps_compound (cost distributionBalance : U256) :
    Keeps (settledRuns pm unwinds) (compound pm cost distributionBalance) := by
  unfold compound
  cases pm.compoundingTarget with
  | none => exact keeps_finish pm unwinds
  | some target =>
      dsimp only
      split_ifs with hWorth
      · refine keeps_access (fun _ hHeld => hHeld) fun s _ sent _ => ?_
        cases sent with
        | true => exact fun _ _ => keeps_finish pm unwinds
        | false => exact keeps_finish pm unwinds
      · exact keeps_finish pm unwinds

theorem keeps_gasVault (cost excess : U256) :
    Keeps (settledRuns pm unwinds) (gasVault pm cost excess) := by
  unfold gasVault
  cases gasVaultAddress with
  | none => exact keeps_compound pm unwinds cost excess
  | some vault =>
      dsimp only
      split_ifs with hWorth
      · refine keeps_access (fun _ hHeld => hHeld) fun s _ sent _ => ?_
        cases sent with
        | true => exact fun _ _ => keeps_compound pm unwinds cost _
        | false => exact keeps_compound pm unwinds cost excess
      · exact keeps_compound pm unwinds cost excess

theorem keeps_sweep {currentBalance cost : U256}
    (hPrinted : unwinds = true → pm.debugEnabled = true →
      excess pm currentBalance cost < meaningfulExcess → currentBalance.toNat < 2 ^ 128) :
    Keeps (settledRuns pm unwinds) (sweep pm currentBalance cost) := by
  unfold sweep
  split_ifs with hSmall hDebug
  · refine keeps_ofOption (fun hUnwinds => ?_) fun _ _ => keeps_finish pm unwinds
    rw [toU128, if_pos (hPrinted hUnwinds hDebug hSmall)]
    exact Option.some_ne_none _
  · exact keeps_finish pm unwinds
  · exact keeps_gasVault pm unwinds cost _

theorem keeps_withBalance {balance : Except String U256}
    (hRead : Settles pm unwinds .balance balance) :
    Keeps (settledRuns pm unwinds) (withBalance pm balance) := by
  obtain ⟨currentBalance, rfl⟩ := hRead
  intro scalars hEstimate
  refine keeps_ofOption hEstimate fun fee _ gasPrice hPrinted => ?_
  exact keeps_sweep pm unwinds hPrinted

/-- **The discipline.**  A call takes the flag, and if it was clear keeps it until it ends. -/
theorem takes_handleProfit {profitAmount : U256}
    (hFits : unwinds = true → ProfitFits profitAmount) :
    Takes (settledRuns pm unwinds) (handleProfit pm profitAmount) := by
  refine takes_access (fun _ => rfl) (fun s hHeld => ?_) fun s hHeld => ?_
  · have hWas : s.running = true := hHeld
    dsimp only
    rw [hWas]
    trivial
  · have hWas : s.running = false := hHeld
    have hGwei : unwinds = true → toU64 (profitAmount / 1000000000) ≠ none := by
      intro hUnwinds
      unfold ProfitFits at hFits
      rw [toU64, if_pos (hFits hUnwinds)]
      exact Option.some_ne_none _
    dsimp only
    rw [hWas]
    refine keeps_ofOption hGwei fun _ _ => ?_
    refine keeps_access (fun _ hHeld => hHeld) fun _ _ => ?_
    exact fun _ hRead => keeps_withBalance pm unwinds hRead

end Discipline

/-! ## The next call -/

/-- A call that finds the flag clear records its profit and reads the balance. -/
theorem advance_handleProfit (pm : ProfitManager) {profitAmount : U256} {s : Shared}
    (hFree : s.running = false) (hFits : ProfitFits profitAmount) :
    (handleProfit pm profitAmount).advance s =
      (record (profitAmount / 1000000000).toNat { s with running := true },
        .waiting { request := .balance, resume := withBalance pm }) := by
  unfold ProfitFits at hFits
  have hGwei : toU64 (profitAmount / 1000000000) = some (profitAmount / 1000000000).toNat :=
    if_pos hFits
  unfold handleProfit
  rw [hGwei]
  simp only [access_bind, ret_bind, advance, hFree]
  rfl

/-- No call is in progress only if the flag is clear, and then the next call, whose profit is
a word of gwei, records it and goes on to the balance. -/
def Released (pm : ProfitManager) (p : Pool Shared Reply (Except MEVError Unit)) : Prop :=
  p.waiting = [] → p.shared.running = false ∧
    ∀ profitAmount, ProfitFits profitAmount →
      (handleProfit pm profitAmount).advance p.shared =
        (record (profitAmount / 1000000000).toNat { p.shared with running := true },
          .waiting { request := .balance, resume := withBalance pm })

/-- **The handler never wedges while the balance is read.**  In every run whose calls and
replies meet the condition, from a state with the flag clear. -/
theorem handleProfit_released (pm : ProfitManager) (unwinds : Bool) {s : Shared}
    (hFree : s.running = false) {p : Pool Shared Reply (Except MEVError Unit)}
    (hRun : Run (settledRuns pm unwinds) { shared := s, waiting := [] } p) : Released pm p := by
  have hCalls : ∀ task, (settledRuns pm unwinds).Calls task →
      Takes (settledRuns pm unwinds) task := by
    rintro task ⟨profitAmount, rfl, hFits⟩
    exact takes_handleProfit pm unwinds hFits
  have hOwned : Owned (settledRuns pm unwinds) p := owned_run hCalls hRun (.free hFree)
  intro hNone
  have hClear : p.shared.running = false := by
    refine Bool.eq_false_of_not_eq_true fun hHeld => ?_
    exact hOwned.exclusive.2.mp hHeld hNone
  exact ⟨hClear, fun _ hFits => advance_handleProfit pm hClear hFits⟩

/-! ## Two runs -/

def sampleManager : ProfitManager where
  chain := .base
  gasReserveThreshold := 40000000000000000
  compoundingTarget := gasVaultAddress
  debugEnabled := false

def idle : Shared where
  running := false
  dailyProfit := 0
  totalProfitHarvested := 0
  nonce := 0

/-- The first call of a run, with no profit. -/
theorem first_call {rules : Rules Shared Reply (Except MEVError Unit)}
    (hCall : rules.Calls (handleProfit sampleManager 0)) :
    Step rules { shared := idle, waiting := [] }
      { shared := record 0 { idle with running := true }
        waiting := [{ request := .balance, resume := withBalance sampleManager }] } :=
  Step.call_idle hCall (advance_handleProfit sampleManager rfl (by decide)) trivial

def noScalars : EcotoneScalars where
  baseFeeScalar := 0
  blobFeeScalar := 0
  l1BaseFee := 0
  l1BlobFee := 0
  decimals := 6
  lastUpdated := 0

/-- A call that finds the wallet empty: the fees are not known, and nothing is sent. -/
theorem handleProfit_released_example :
    Released sampleManager
      { shared := { record 0 { idle with running := true } with running := false },
        waiting := [] } := by
  have hCall : (settledRuns sampleManager true).Calls (handleProfit sampleManager 0) :=
    ⟨0, rfl, fun _ => by decide⟩
  have hBalance := @Step.reply_only _ _ _ _ (settledRuns sampleManager true) .balance
    (withBalance sampleManager) (record 0 { idle with running := true }) _ _
    (.ok 0) ⟨0, rfl⟩ rfl trivial
  have hScalars := @Step.reply_only _ _ _ _ (settledRuns sampleManager true) (.l1Fee 0)
    (withScalars sampleManager 0) (record 0 { idle with running := true }) _ _
    noScalars (fun _ => Option.some_ne_none _) rfl trivial
  have hSmall : excess sampleManager 0 (totalTransferCost 0 none) < meaningfulExcess := by
    decide +kernel
  have hEnd : (sweep sampleManager 0 (totalTransferCost 0 none)).advance
      (record 0 { idle with running := true }) =
      ({ record 0 { idle with running := true } with running := false },
        .returned (.ok ())) := by
    rw [sweep, if_pos hSmall]
    rfl
  have hGasPrice := @Step.reply_only _ _ _ _ (settledRuns sampleManager true) (.gasPrice 0 0)
    (fun gasPrice => sweep sampleManager 0 (totalTransferCost 0 gasPrice))
    (record 0 { idle with running := true }) _ _ none (fun _ _ _ => by decide) hEnd trivial
  exact handleProfit_released sampleManager true rfl
    (((Relation.ReflTransGen.single (first_call hCall)).tail hBalance).tail hScalars
      |>.tail hGasPrice)

/-- **One failed reading** leaves the flag set with no call in progress. -/
theorem not_handleProfit_released :
    ¬ ∀ (pm : ProfitManager) (unwinds : Bool) (s : Shared)
        (p : Pool Shared Reply (Except MEVError Unit)), s.running = false →
      Run (allRuns pm unwinds) { shared := s, waiting := [] } p → Released pm p := by
  intro hAll
  have hFails := @Step.reply_only _ _ _ _ (allRuns sampleManager true) .balance
    (withBalance sampleManager) (record 0 { idle with running := true }) _ _
    (.error "timeout") trivial rfl trivial
  have hCall : (allRuns sampleManager true).Calls (handleProfit sampleManager 0) := ⟨0, rfl⟩
  have hRun := (Relation.ReflTransGen.single (first_call hCall)).tail hFails
  have hReleased := hAll sampleManager true idle _ rfl hRun rfl
  exact Bool.noConfusion hReleased.1

end SovereignShadow.Ports.ProfitHandler
