import SovereignShadow.Ports.ProfitHandler
import SovereignShadow.Ports.OptimalInput

/-!
# The survival reserve

What one call of the profit handler takes from the wallet.  The margin of five transfers
over the reserve pays for the two that a call can send, and the vault's share is deducted
from what is left to send only when the vault transfer was sent.

## Main results

* `bounded_gasVault` — the two transfers send at most the excess.
* `survival_reserve` — the reserve is still there after the call.
-/

namespace SovereignShadow.Ports.SurvivalReserve

open SovereignShadow.Verified.Tasks
open SovereignShadow.Verified.Tasks.Task
open SovereignShadow.Ports.Models
open SovereignShadow.Ports.Constants
open SovereignShadow.Ports.L1DataFee
open SovereignShadow.Ports.OptimalInput (saturatingSub_toNat)
open SovereignShadow.Ports.ProfitHandler

/-! ## The wallet -/

/-- The wallet at the start of a call, and how its requests end: a reading may fail, a
transfer is sent at the price of some gas or fails to send. -/
structure Outcomes where
  balance : U256
  balanceError : Option String
  scalars : EcotoneScalars
  gasPrice : Option (BitVec 128)
  /-- The gas that a transfer costs, unless it fails to send. -/
  gas : Share → Option Nat

namespace Outcomes

variable (env : Outcomes) (pm : ProfitManager)

def answer : (request : Request) → Reply request
  | .balance =>
      match env.balanceError with
      | some e => .error e
      | none => .ok env.balance
  | .l1Fee _ => env.scalars
  | .gasPrice _ _ => env.gasPrice
  | .transfer share _ => (env.gas share).isSome
  | .watch _ => ()

/-- The value that a request sends. -/
def sentBy : Request → Nat
  | .transfer share tx => if (env.gas share).isSome then tx.value.toNat else 0
  | _ => 0

/-- The gas that a request pays; a transfer that fails to send costs nothing. -/
def gasOf : Request → Nat
  | .transfer share _ => (env.gas share).getD 0
  | _ => 0

/-- A total over the requests of a call. -/
def total (amount : Request → Nat) (task : Handler) (s : Shared) : Nat :=
  ((task.requests env.answer s).map amount).sum

def valueSent (task : Handler) (s : Shared) : Nat := env.total env.sentBy task s

def gasSpent (task : Handler) (s : Shared) : Nat := env.total env.gasOf task s

/-- Nothing else is spent meanwhile. -/
def balanceAfter (task : Handler) (s : Shared) : ℤ :=
  env.balance.toNat - env.valueSent task s - env.gasSpent task s

/-- The fee that the call estimates. -/
def l1Fee : U256 :=
  match estimateL1Fee env.scalars pm.chain [] with
  | some fee => feeOr fee
  | none => 0

def cost : U256 := totalTransferCost (env.l1Fee pm) env.gasPrice

/-- A transfer that is sent costs at most `c` in gas. -/
def GasWithin (c : Nat) : Prop := ∀ share gas, env.gas share = some gas → gas ≤ c

end Outcomes

/-! ## What the transfers take -/

/-- From any shared state the task sends at most `value` and pays at most `gas`. -/
structure Bounded (env : Outcomes) (task : Handler) (value gas : Nat) : Prop where
  value_le : ∀ s, env.valueSent task s ≤ value
  gas_le : ∀ s, env.gasSpent task s ≤ gas

section Bounds

variable {env : Outcomes} {task : Handler} {value gas : Nat}

theorem Bounded.mono {value' gas' : Nat} (h : Bounded env task value gas) (hValue : value ≤ value')
    (hGas : gas ≤ gas') : Bounded env task value' gas' where
  value_le s := (h.value_le s).trans hValue
  gas_le s := (h.gas_le s).trans hGas

theorem bounded_access {write : Shared → Shared} {next : Shared → Handler}
    (h : ∀ s, Bounded env (next s) value gas) : Bounded env (.access write next) value gas where
  value_le s := (h s).value_le (write s)
  gas_le s := (h s).gas_le (write s)

/-- A request, and what follows the answer to it. -/
theorem bounded_await {request : Request} {resume : Reply request → Handler}
    (h : Bounded env (resume (env.answer request)) value gas) :
    Bounded env (.await request resume) (env.sentBy request + value)
      (env.gasOf request + gas) where
  value_le s := by
    have hRest := h.value_le s
    unfold Outcomes.valueSent Outcomes.total at hRest ⊢
    rw [requests, List.map_cons, List.sum_cons]
    omega
  gas_le s := by
    have hRest := h.gas_le s
    unfold Outcomes.gasSpent Outcomes.total at hRest ⊢
    rw [requests, List.map_cons, List.sum_cons]
    omega

theorem bounded_ret (result : Except MEVError Unit) : Bounded env (.ret result) 0 0 :=
  ⟨fun _ => Nat.le_refl 0, fun _ => Nat.le_refl 0⟩

theorem bounded_panic : Bounded env .panic 0 0 :=
  ⟨fun _ => Nat.le_refl 0, fun _ => Nat.le_refl 0⟩

theorem bounded_finish : Bounded env finish 0 0 := bounded_access fun _ => bounded_ret _

/-- The share is a twentieth of the excess, also where the product wraps. -/
theorem vaultShare_le (excess : U256) : (vaultShare excess).toNat ≤ excess.toNat := by
  have hPercentage : gasVaultPercentage.toNat = 5 := by decide
  have hHundred : (100 : U256).toNat = 100 := by decide
  have hProduct : (excess * gasVaultPercentage).toNat ≤ excess.toNat * 5 := by
    rw [BitVec.toNat_mul, hPercentage]
    exact Nat.mod_le _ _
  rw [vaultShare, BitVec.toNat_udiv, hHundred]
  omega

/-- A transfer, and what follows if it was sent and if it was not. -/
theorem bounded_transfer {share : Share} {tx : Transfer} {resume : Bool → Handler} {c : Nat}
    (hGas : env.GasWithin c)
    (hSent : ∀ sentValue, tx.value.toNat + sentValue = value →
      Bounded env (resume true) sentValue gas)
    (hLe : tx.value.toNat ≤ value) (hFailed : Bounded env (resume false) value gas) :
    Bounded env (.await (.transfer share tx) resume) value (c + gas) := by
  cases hOutcome : env.gas share with
  | none =>
      have hAnswer : env.answer (.transfer share tx) = false := by
        rw [Outcomes.answer, hOutcome]
        rfl
      have hNext : Bounded env (resume (env.answer (.transfer share tx))) value gas := by
        rw [hAnswer]
        exact hFailed
      refine (bounded_await hNext).mono ?_ ?_
      · rw [Outcomes.sentBy, hOutcome]
        simp
      · rw [Outcomes.gasOf, hOutcome]
        simp
  | some paid =>
      have hAnswer : env.answer (.transfer share tx) = true := by
        rw [Outcomes.answer, hOutcome]
        rfl
      have hNext : Bounded env (resume (env.answer (.transfer share tx)))
          (value - tx.value.toNat) gas := by
        rw [hAnswer]
        exact hSent _ (by omega)
      have hPaid := hGas share paid hOutcome
      refine (bounded_await hNext).mono ?_ ?_
      · rw [Outcomes.sentBy, hOutcome]
        simp
        omega
      · rw [Outcomes.gasOf, hOutcome]
        simp
        omega

/-- A transfer that was sent is watched. -/
theorem bounded_watch {share : Share} {next : Unit → Handler}
    (h : Bounded env (next ()) value gas) : Bounded env (.await (.watch share) next) value gas := by
  have hAwait := @bounded_await env value gas (.watch share) next h
  simpa only [Outcomes.sentBy, Outcomes.gasOf, Nat.zero_add] using hAwait

variable (pm : ProfitManager) {c : Nat} (hGas : env.GasWithin c)
include hGas

theorem bounded_compound (cost distributionBalance : U256) :
    Bounded env (compound pm cost distributionBalance) distributionBalance.toNat c := by
  have hNothing : Bounded env finish distributionBalance.toNat c :=
    bounded_finish.mono (Nat.zero_le _) (Nat.zero_le _)
  unfold compound
  cases pm.compoundingTarget with
  | none => exact hNothing
  | some target =>
      dsimp only
      split_ifs with hWorth
      · refine bounded_access fun s => ?_
        show Bounded env _ distributionBalance.toNat (c + 0)
        refine bounded_transfer hGas (fun sentValue _ => ?_) ?_ ?_
        · exact bounded_watch (bounded_finish.mono (Nat.zero_le _) (Nat.le_refl 0))
        · exact Nat.le_refl _
        · exact bounded_finish.mono (Nat.zero_le _) (Nat.le_refl 0)
      · exact hNothing

theorem bounded_gasVault (cost excess : U256) :
    Bounded env (gasVault pm cost excess) excess.toNat (c + c) := by
  have hNoVault : Bounded env (compound pm cost excess) excess.toNat (c + c) :=
    (bounded_compound pm hGas cost excess).mono (Nat.le_refl _) (Nat.le_add_left c c)
  unfold gasVault
  cases gasVaultAddress with
  | none => exact hNoVault
  | some vault =>
      dsimp only
      split_ifs with hWorth
      · refine bounded_access fun s => ?_
        refine bounded_transfer hGas (fun sentValue hRest => ?_) (vaultShare_le excess) ?_
        · have hShare : (vaultShare excess).toNat + sentValue = excess.toNat := hRest
          have hLeft : (saturatingSub excess (vaultShare excess)).toNat = sentValue := by
            rw [saturatingSub_toNat]
            omega
          rw [← hLeft]
          exact bounded_watch (bounded_compound pm hGas cost _)
        · exact bounded_compound pm hGas cost excess
      · exact hNoVault

end Bounds

/-! ## The whole call -/

section Call

variable {env : Outcomes} (pm : ProfitManager)

/-- The transfers that a sweep can make leave the reserve where it was. -/
structure LeavesReserve (env : Outcomes) (pm : ProfitManager) (task : Handler) (s : Shared) :
    Prop where
  reserve : pm.gasReserveThreshold.toNat ≤ env.balance.toNat →
    pm.gasReserveThreshold.toNat + env.valueSent task s + env.gasSpent task s ≤
      env.balance.toNat
  value_le : env.valueSent task s ≤ (excess pm env.balance (env.cost pm)).toNat

/-- A task that sends nothing. -/
theorem leavesReserve_of_nothing {task : Handler} (h : Bounded env task 0 0) (s : Shared) :
    LeavesReserve env pm task s where
  reserve hBefore := by
    have hValue := h.value_le s
    have hGas := h.gas_le s
    omega
  value_le := (h.value_le s).trans (Nat.zero_le _)

theorem leavesReserve_access {write : Shared → Shared} {next : Shared → Handler} {s : Shared}
    (h : LeavesReserve env pm (next s) (write s)) :
    LeavesReserve env pm (.access write next) s := ⟨h.reserve, h.value_le⟩

/-- A request that is not a transfer. -/
theorem leavesReserve_reading {request : Request} {resume : Reply request → Handler}
    {s : Shared} (hSent : env.sentBy request = 0) (hGas : env.gasOf request = 0)
    (h : LeavesReserve env pm (resume (env.answer request)) s) :
    LeavesReserve env pm (.await request resume) s := by
  have hValue : env.valueSent (.await request resume) s =
      env.valueSent (resume (env.answer request)) s := by
    unfold Outcomes.valueSent Outcomes.total
    rw [requests, List.map_cons, List.sum_cons, hSent, Nat.zero_add]
  have hPaid : env.gasSpent (.await request resume) s =
      env.gasSpent (resume (env.answer request)) s := by
    unfold Outcomes.gasSpent Outcomes.total
    rw [requests, List.map_cons, List.sum_cons, hGas, Nat.zero_add]
  constructor
  · rw [hValue, hPaid]
    exact h.reserve
  · rw [hValue]
    exact h.value_le

variable (hFits : pm.gasReserveThreshold.toNat + 5 * (env.cost pm).toNat < 2 ^ 256)
include hFits

theorem excess_toNat : (excess pm env.balance (env.cost pm)).toNat =
    env.balance.toNat - (pm.gasReserveThreshold.toNat + 5 * (env.cost pm).toNat) := by
  have hFive : (5 : U256).toNat = 5 := by decide
  have hMargin : (env.cost pm * 5).toNat = 5 * (env.cost pm).toNat := by
    rw [BitVec.toNat_mul_of_lt (by rw [hFive]; omega), hFive, Nat.mul_comm]
  rw [excess, saturatingSub_toNat, survivalThreshold,
    BitVec.toNat_add_of_lt (by rw [hMargin]; exact hFits), hMargin]

variable (hGas : env.GasWithin (env.cost pm).toNat)
include hGas

theorem leavesReserve_sweep (s : Shared) :
    LeavesReserve env pm (sweep pm env.balance (env.cost pm)) s := by
  have hMeaningful : meaningfulExcess.toNat = 5000000000000000 := by decide
  unfold sweep
  split_ifs with hSmall hDebug
  · refine leavesReserve_of_nothing pm ?_ s
    cases toU128 env.balance with
    | none => exact bounded_panic
    | some _ => exact bounded_finish
  · exact leavesReserve_of_nothing pm bounded_finish s
  · have hBounded := bounded_gasVault pm hGas (env.cost pm) (excess pm env.balance (env.cost pm))
    have hExcess := excess_toNat pm hFits
    have hLarge : 5000000000000000 ≤ (excess pm env.balance (env.cost pm)).toNat := by
      rw [← hMeaningful]
      exact Nat.le_of_not_lt hSmall
    have hValue := hBounded.value_le s
    have hPaid := hBounded.gas_le s
    exact ⟨fun _ => by omega, hValue⟩

theorem leavesReserve_withBalance (s : Shared) :
    LeavesReserve env pm (withBalance pm (env.answer .balance)) s := by
  cases hError : env.balanceError with
  | some e =>
      have hAnswer : env.answer .balance = .error e := by rw [Outcomes.answer, hError]
      rw [hAnswer]
      exact leavesReserve_of_nothing pm (bounded_ret _) s
  | none =>
      have hAnswer : env.answer .balance = .ok env.balance := by rw [Outcomes.answer, hError]
      rw [hAnswer]
      refine leavesReserve_reading pm rfl rfl ?_
      cases hFee : estimateL1Fee env.scalars pm.chain [] with
      | none =>
          have hPanic : withScalars pm env.balance env.scalars = .panic := by
            rw [withScalars, hFee]
            rfl
          show LeavesReserve env pm (withScalars pm env.balance env.scalars) s
          rw [hPanic]
          exact leavesReserve_of_nothing pm bounded_panic s
      | some fee =>
          have hCost : env.cost pm = totalTransferCost (feeOr fee) env.gasPrice := by
            rw [Outcomes.cost, Outcomes.l1Fee, hFee]
          have hSweep := leavesReserve_sweep pm hFits hGas s
          rw [hCost] at hSweep
          show LeavesReserve env pm (withScalars pm env.balance env.scalars) s
          rw [withScalars, hFee]
          exact leavesReserve_reading pm rfl rfl hSweep

end Call

/-- **The survival reserve.**  Whatever the readings give and whichever transfers are sent, each
at the price of at most one estimated transfer, a wallet that holds the reserve before a call
holds it afterwards, and the call sends at most the excess. -/
theorem survival_reserve (pm : ProfitManager) (profitAmount : U256) (env : Outcomes) (s : Shared)
    (hFits : pm.gasReserveThreshold.toNat + 5 * (env.cost pm).toNat < 2 ^ 256)
    (hGas : env.GasWithin (env.cost pm).toNat) :
    (pm.gasReserveThreshold.toNat ≤ env.balance.toNat →
      (pm.gasReserveThreshold.toNat : ℤ) ≤ env.balanceAfter (handleProfit pm profitAmount) s) ∧
    env.valueSent (handleProfit pm profitAmount) s ≤
      (excess pm env.balance (env.cost pm)).toNat := by
  have hNothing : ∀ task, Bounded env task 0 0 → ∀ s, LeavesReserve env pm task s :=
    fun _ h s => leavesReserve_of_nothing pm h s
  have hCall : LeavesReserve env pm (handleProfit pm profitAmount) s := by
    refine leavesReserve_access pm ?_
    dsimp only
    cases s.running with
    | true => exact hNothing _ (bounded_ret _) _
    | false =>
        show LeavesReserve env pm (ofOption (toU64 (profitAmount / 1000000000)) >>= _) _
        cases toU64 (profitAmount / 1000000000) with
        | none => exact hNothing _ bounded_panic _
        | some profitGwei =>
            refine leavesReserve_access pm ?_
            refine leavesReserve_reading pm rfl rfl ?_
            exact leavesReserve_withBalance pm hFits hGas _
  refine ⟨fun hBefore => ?_, hCall.value_le⟩
  have hReserve := hCall.reserve hBefore
  unfold Outcomes.balanceAfter
  omega

/-! ## A call that sends both shares -/

/-- One ether above the reserve, and both transfers at their full price. -/
def sampleOutcomes : Outcomes where
  balance := 1040000000000000000
  balanceError := none
  scalars := noScalars
  gasPrice := some 50000000
  gas := fun _ => some 1050000000000

theorem survival_reserve_example :
    (sampleManager.gasReserveThreshold.toNat : ℤ) ≤
        sampleOutcomes.balanceAfter (handleProfit sampleManager 0) idle ∧
      sampleOutcomes.valueSent (handleProfit sampleManager 0) idle ≤
        (excess sampleManager sampleOutcomes.balance
          (sampleOutcomes.cost sampleManager)).toNat := by
  have hCost : (sampleOutcomes.cost sampleManager).toNat = 1050000000000 := by decide +kernel
  have hFits : sampleManager.gasReserveThreshold.toNat +
      5 * (sampleOutcomes.cost sampleManager).toNat < 2 ^ 256 := by
    rw [hCost]
    decide
  have hGas : sampleOutcomes.GasWithin (sampleOutcomes.cost sampleManager).toNat := by
    intro share gas hPaid
    rw [hCost, ← Option.some.inj hPaid]
  have hReserve := survival_reserve sampleManager 0 sampleOutcomes idle hFits hGas
  exact ⟨hReserve.1 (by decide), hReserve.2⟩

end SovereignShadow.Ports.SurvivalReserve
