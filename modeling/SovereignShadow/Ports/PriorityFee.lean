import SovereignShadow.Ports.BiddingEngine
import SovereignShadow.Ports.StateMirror

/-!
# The fee shield

What `suggest_priority_fee` keeps of its cap.  The cap divides the expected profit by the
gas estimate, and by two outside mafia mode.  The multiplier behind it is one whenever the
first veto lets the call through, but the last line raises the fee to the minimal tip
whatever the cap was.

## Main results

* `overshoot_toNat_le` — the capped fee for the gas stays within the profit.
* `suggested_eq` — below the first veto the capped fee is raised to the tip, if at all.
* `feeShielded_iff` — when the fee returned is within the shield.
-/

namespace SovereignShadow.Ports.PriorityFee

open SovereignShadow.Ports.Models
open SovereignShadow.Ports.Constants
open SovereignShadow.Ports.Mirror
open SovereignShadow.Ports.Bidding

/-- Both loads of a call under one gas state. -/
def feeReads (gas : GasState) : FeeReads := ⟨gas.baseFee, gas.baseFee⟩

/-- `gas_estimate.max(1)`. -/
def gasUnits (opp : Opportunity) : ℕ := max opp.gasEstimate.toNat 1

/-- `profit_limit_factor`. -/
def limitFactor (engine : BiddingEngine) : ℕ := if engine.isMafia then 1 else 2

/-- The fee for the gas is within the profit, and within half of it outside mafia mode. -/
structure Shielded (engine : BiddingEngine) (opp : Opportunity) (fee : U256) : Prop where
  profit : fee.toNat * gasUnits opp ≤ opp.expectedProfit.toNat
  half : engine.isMafia = false → fee.toNat * gasUnits opp ≤ opp.expectedProfit.toNat / 2

/-- Every non-zero fee that the engine returns on Base is shielded. -/
def FeeShielded (engine : BiddingEngine) (opp : Opportunity) (currentPriority : U256)
    (gas : GasState) : Prop :=
  ∀ fee, engine.suggestPriorityFee opp currentPriority (feeReads gas) = some fee →
    fee ≠ 0 → opp.chain = .base → Shielded engine opp fee

variable {engine : BiddingEngine} {opp : Opportunity}

theorem shielded_iff {fee : U256} :
    Shielded engine opp fee ↔
      fee.toNat * (gasUnits opp * limitFactor engine) ≤ opp.expectedProfit.toNat := by
  rw [← Nat.mul_assoc, limitFactor]
  cases hMafia : engine.isMafia with
  | true =>
      rw [if_pos rfl, Nat.mul_one]
      exact ⟨fun h => h.profit, fun h => ⟨h, fun hCalm => by simp [hMafia] at hCalm⟩⟩
  | false =>
      rw [if_neg (by decide), ← Nat.le_div_iff_mul_le Nat.two_pos]
      exact ⟨fun h => h.half hMafia, fun h => ⟨h.trans (Nat.div_le_self _ _), fun _ => h⟩⟩

/-! ## The cap -/

/-- The divisor of the cap, which wraps. -/
def limitDivisor (engine : BiddingEngine) (opp : Opportunity) : U256 :=
  u256Max opp.gasEstimate 1 * if engine.isMafia then 1 else 2

theorem limitDivisor_toNat :
    (limitDivisor engine opp).toNat = gasUnits opp * limitFactor engine % 2 ^ 256 := by
  rw [limitDivisor, BitVec.toNat_mul, u256Max_toNat, gasUnits, limitFactor]
  cases engine.isMafia with
  | true => rfl
  | false => rfl

theorem limitDivisor_eq_zero_iff :
    limitDivisor engine opp = 0 ↔ 2 ^ 256 ∣ gasUnits opp * limitFactor engine := by
  rw [← BitVec.toNat_inj, limitDivisor_toNat, Nat.dvd_iff_mod_eq_zero]
  rfl

/-- The fee before the multiplier. -/
def cappedFee (engine : BiddingEngine) (opp : Opportunity) (compGas : U256) : U256 :=
  u256Min (saturatingAdd compGas (if engine.isMafia then 4000000000 else 2000000000))
    (opp.expectedProfit / limitDivisor engine opp)

theorem overshoot_eq (compGas : U256) :
    engine.overshoot opp compGas =
      if limitDivisor engine opp = 0 then none else some (cappedFee engine opp compGas) := by
  unfold BiddingEngine.overshoot cappedFee
  cases opp.chain with
  | base =>
      dsimp only
      rw [← limitDivisor, u256Div]
      by_cases hZero : limitDivisor engine opp = 0
      · rw [if_pos hZero, if_pos hZero]
      · rw [if_neg hZero, if_neg hZero]

/-- A divisor that does not wrap keeps the capped fee within the profit. -/
theorem overshoot_toNat_le (compGas : U256)
    (hFits : gasUnits opp * limitFactor engine < 2 ^ 256) :
    (cappedFee engine opp compGas).toNat * (gasUnits opp * limitFactor engine) ≤
      opp.expectedProfit.toNat := by
  have hCap : (cappedFee engine opp compGas).toNat ≤
      opp.expectedProfit.toNat / (gasUnits opp * limitFactor engine) := by
    rw [cappedFee, u256Min_toNat, BitVec.toNat_udiv, limitDivisor_toNat, Nat.mod_eq_of_lt hFits]
    exact min_le_right _ _
  exact (Nat.mul_le_mul_right _ hCap).trans (Nat.div_mul_le_self _ _)

/-! ## The fee -/

/-- A hundred percent of a fee, with the product that may wrap. -/
def wholeFee (fee : U256) : U256 := fee * 100 / 100

theorem wholeFee_toNat_le (fee : U256) : (wholeFee fee).toNat ≤ fee.toNat := by
  have hHundred : (100 : U256).toNat = 100 := rfl
  rw [wholeFee, BitVec.toNat_udiv, BitVec.toNat_mul, hHundred]
  have hWrapped := Nat.mod_le (fee.toNat * 100) (2 ^ 256)
  omega

/-- Below the first veto neither the multiplier nor the second veto acts. -/
theorem suggested_eq (engine : BiddingEngine) {compGas : U256}
    (hTrigger : opp.triggerGasPrice = some compGas) (currentPriority : U256) {gas : GasState}
    (hBaseFee : ¬ gas.baseFee > 100000000) :
    engine.suggestPriorityFee opp currentPriority (feeReads gas) =
      if limitDivisor engine opp = 0 then none
      else some (u256Max (wholeFee (cappedFee engine opp compGas)) minBuilderTipWei) := by
  have hBelow : gas.baseFee.toNat ≤ 100000000 := by
    simpa [BitVec.lt_def] using hBaseFee
  have hNoCongestion : ¬ gas.baseFee > 500000000 := by
    rw [gt_iff_lt, BitVec.lt_def]
    show ¬ 500000000 < gas.baseFee.toNat
    omega
  have hNoVeto : ¬ gas.baseFee > 1000000000 := by
    rw [gt_iff_lt, BitVec.lt_def]
    show ¬ 1000000000 < gas.baseFee.toNat
    omega
  unfold BiddingEngine.suggestPriorityFee feeReads
  dsimp only
  rw [if_neg hBaseFee, hTrigger]
  dsimp only
  rw [overshoot_eq]
  by_cases hZero : limitDivisor engine opp = 0
  · rw [if_pos hZero, if_pos hZero]
  · rw [if_neg hZero, if_neg hZero]
    dsimp only
    rw [if_neg hNoCongestion, if_neg fun hVeto => hNoVeto hVeto.1, wholeFee]

theorem tip_toNat : minBuilderTipWei.toNat = 1000000000000 := rfl

theorem raised_ne_zero (fee : U256) : u256Max fee minBuilderTipWei ≠ 0 := by
  intro hZero
  have hMax := u256Max_toNat fee minBuilderTipWei
  rw [hZero, tip_toNat] at hMax
  have hTip := le_max_right fee.toNat 1000000000000
  rw [← hMax] at hTip
  exact absurd hTip (by decide)

/-- The raised fee is shielded exactly when the minimal tip is. -/
theorem shielded_raised_iff (engine : BiddingEngine) (opp : Opportunity) {fee : U256}
    (hFee : gasUnits opp * limitFactor engine < 2 ^ 256 →
      fee.toNat * (gasUnits opp * limitFactor engine) ≤ opp.expectedProfit.toNat) :
    Shielded engine opp (u256Max fee minBuilderTipWei) ↔
      1000000000000 * (gasUnits opp * limitFactor engine) ≤ opp.expectedProfit.toNat := by
  rw [shielded_iff, u256Max_toNat, tip_toNat, max_mul_of_nonneg _ _ (Nat.zero_le _), max_le_iff]
  constructor
  · exact fun h => h.2
  · intro hTip
    have hProfit := opp.expectedProfit.isLt
    exact ⟨hFee (by omega), hTip⟩

/-- **The shield.**  For a trigger with a gas price, the fee stays within the profit (half of
it outside mafia mode) if and only if the base fee is vetoed, or the divisor of the cap wraps
to zero and the call panics, or the profit covers the minimal tip. -/
theorem feeShielded_iff (engine : BiddingEngine) (opp : Opportunity) (currentPriority : U256)
    (gas : GasState) (hTrigger : opp.triggerGasPrice.isSome) :
    FeeShielded engine opp currentPriority gas ↔
      100000000 < gas.baseFee.toNat ∨ 2 ^ 256 ∣ gasUnits opp * limitFactor engine ∨
        1000000000000 * (gasUnits opp * limitFactor engine) ≤ opp.expectedProfit.toNat := by
  obtain ⟨compGas, hCompGas⟩ := Option.isSome_iff_exists.mp hTrigger
  have hVetoIff : gas.baseFee > 100000000 ↔ 100000000 < gas.baseFee.toNat := by
    rw [gt_iff_lt, BitVec.lt_def]
    rfl
  by_cases hVeto : gas.baseFee > 100000000
  · refine iff_of_true ?_ (.inl (hVetoIff.mp hVeto))
    intro fee hFee hNonZero
    rw [BiddingEngine.suggestPriorityFee, feeReads, if_pos hVeto] at hFee
    exact absurd (Option.some.inj hFee).symm hNonZero
  · rw [← hVetoIff, or_iff_right hVeto, ← limitDivisor_eq_zero_iff]
    have hEq := suggested_eq engine hCompGas currentPriority hVeto
    by_cases hZero : limitDivisor engine opp = 0
    · rw [if_pos hZero] at hEq
      refine iff_of_true ?_ (.inl hZero)
      intro fee hFee
      rw [hEq] at hFee
      cases hFee
    · rw [if_neg hZero] at hEq
      have hRaised := shielded_raised_iff engine opp
        fun hFits => (Nat.mul_le_mul_right _ (wholeFee_toNat_le _)).trans
          (overshoot_toNat_le compGas hFits)
      rw [or_iff_right hZero, ← hRaised]
      constructor
      · intro hShield
        exact hShield _ hEq (raised_ne_zero _) (by cases opp.chain; rfl)
      · intro hShielded fee hFee _ _
        obtain rfl := Option.some.inj (hEq.symm.trans hFee)
        exact hShielded

/-- A trigger at a tenth of a gwei, for 300000 gas. -/
def triggered (expectedProfit : U256) : Opportunity :=
  { (default : Opportunity) with
    expectedProfit
    gasEstimate := 300000
    triggerGasPrice := some 100000000 }

def quietGas : GasState := ⟨10000000, 1000000, 2000000⟩

theorem feeShielded_iff_example :
    (triggered (10 ^ 18)).triggerGasPrice.isSome ∧
      FeeShielded (.new 0) (triggered (10 ^ 18)) 0 quietGas := by
  refine ⟨rfl, ?_⟩
  exact (feeShielded_iff (.new 0) (triggered (10 ^ 18)) 0 quietGas rfl).mpr
    (.inr (.inr (by decide +kernel)))

/-- With a profit of `10^15` the cap is about 1.7 gwei, the fee 1000 gwei, and the fee for
the gas 300 times the profit. -/
theorem not_feeShielded :
    (triggered (10 ^ 15)).triggerGasPrice.isSome ∧
      BiddingEngine.suggestPriorityFee (.new 0) (triggered (10 ^ 15)) 0 (feeReads quietGas) =
        some minBuilderTipWei ∧
      ¬ FeeShielded (.new 0) (triggered (10 ^ 15)) 0 quietGas := by
  have hFee : BiddingEngine.suggestPriorityFee (.new 0) (triggered (10 ^ 15)) 0
      (feeReads quietGas) = some minBuilderTipWei := by decide +kernel
  refine ⟨rfl, hFee, ?_⟩
  intro hShield
  have hProfit := (hShield minBuilderTipWei hFee (by decide) rfl).profit
  exact absurd hProfit (by decide +kernel)

end SovereignShadow.Ports.PriorityFee
