import SovereignShadow.Ports.ExecutorStages
import SovereignShadow.Ports.OptimalInput

/-!
# The revert-protection rule

"Profit must strictly exceed all costs" is checked once, with the mirror's
priority fee and a first bribe percentage.  The transaction then carries the fee
of `suggest_priority_fee` and the bundle a recomputed, possibly bumped bribe.
The check is enough where neither is above what was checked; where one is, some
simulation result passes the check and is sent at a loss.

## Main results

* `calculateBribe_le` — a bribe is at most 99 percent.
* `covers_of_check` — steady prices keep what the check has established.
* `covers_of_steady` — the rule for every broadcast, and that steadiness is needed.
* `not_covers` — a quiet block with no priority fee: the builder tip alone costs
  two hundred times the profit.
-/

namespace SovereignShadow.Ports.RevertProtection

open SovereignShadow.Ports.Models
open SovereignShadow.Ports.Constants
open SovereignShadow.Ports.Bidding
open SovereignShadow.Ports.FlashLoanExecutor
open SovereignShadow.Ports.ExecutorStages
open SovereignShadow.Ports.OptimalInput

/-! ## Bribes -/

theorem predatorBribe_le (engine : BiddingEngine) (opp : Opportunity) (now : Instant) :
    (engine.predatorBribe opp now).1 ≤ 99 := by
  have hEither : ∀ frequentWinner : Bool,
      (if frequentWinner then min 98 maxBribePct else min 92 maxBribePct) ≤ 99 := by decide
  exact hEither _

theorem calculateBribe_le {heatRising : Nat → Nat → Bool} {engine engine' : BiddingEngine}
    {opp : Opportunity} {reads : BribeReads} {bribePct : Nat}
    (h : engine.calculateBribe heatRising opp reads = some (bribePct, engine')) :
    bribePct ≤ 99 := by
  have hClamp : ∀ pct, max (min pct maxBribePct) 10 ≤ 99 := by
    intro pct
    have hMax : maxBribePct = 99 := rfl
    omega
  unfold BiddingEngine.calculateBribe at h
  dsimp only at h
  by_cases hAi : pathContainsAi opp = true
  · rw [if_pos hAi] at h
    obtain ⟨rfl, -⟩ := Prod.mk.inj (Option.some.inj h)
    decide
  rw [if_neg hAi] at h
  by_cases hPredator : isPredatorActive opp = true
  · rw [if_pos hPredator] at h
    have hBribe := predatorBribe_le (engine.decayPressure reads.now) opp reads.now
    rw [Option.some.inj h] at hBribe
    exact hBribe
  rw [if_neg hPredator] at h
  cases hProfit : toU128 opp.expectedProfit with
  | none => simp [hProfit] at h
  | some profitVal =>
      simp only [hProfit] at h
      by_cases hMicro : profitVal < microProfitThresholdWei
      · rw [if_pos hMicro] at h
        obtain ⟨rfl, -⟩ := Prod.mk.inj (Option.some.inj h)
        decide
      · rw [if_neg hMicro] at h
        cases hBase : toU128 reads.baseFee with
        | none => simp [hBase] at h
        | some baseFee =>
            simp only [hBase, Option.some.injEq, Prod.mk.injEq] at h
            rw [← h.1]
            exact hClamp _

theorem bumpBribe_le {opp : Opportunity} {bribePct : Nat} (h : bribePct ≤ 99) :
    bumpBribe opp bribePct ≤ 99 := by
  unfold bumpBribe
  split
  · exact Nat.min_le_left _ _
  · exact h

/-! ## The rule -/

/-- `l1_fee * 120 / 100`, plus the gas at the signed fee, plus the bundle's bribe. -/
def committedCost (candidate : Candidate) (sent : Broadcast) : Nat :=
  candidate.l1Fee.toNat * 120 / 100 +
    candidate.topSim.gasUsed.toNat * sent.tx.maxFeePerGas + sent.bundle.bribe.toNat

/-- The rule, of what is sent. -/
def CoversCosts (candidate : Candidate) (sent : Broadcast) : Prop :=
  committedCost candidate sent < candidate.topSim.profit.toNat

/-- The mirror's two fees, as integers. -/
def checkedPrice (env : CallEnv) : Nat :=
  env.gasState.baseFee.toNat + env.gasState.priorityFee.toNat

/-- The costs of the check are far from the word size. -/
def Fits (env : CallEnv) (candidate : Candidate) : Prop :=
  candidate.l1Fee.toNat * 120 + candidate.topSim.gasUsed.toNat * checkedPrice env +
    candidate.topSim.profit.toNat * 100 < 2 ^ 256

/-- The engine's first percentage, its second one after the bump, and the fee that it suggests
in the end. -/
def Bids (cfg : Config) (env : CallEnv) (opp : Opportunity) (engine : BiddingEngine)
    (firstPct secondPct : Nat) (suggested : U256) : Prop :=
  ∃ engine₁ pct engine₂,
    engine.calculateBribe cfg.floats.heatRising opp env.firstBribe = some (firstPct, engine₁) ∧
      (env.meanwhile engine₁).calculateBribe cfg.floats.heatRising opp env.secondBribe =
        some (pct, engine₂) ∧
      secondPct = bumpBribe opp pct ∧
      (env.beforeFee engine₂).suggestPriorityFee opp env.gasState.priorityFee env.feeReads =
        some suggested

/-- The engine neither suggests more than the mirror's priority fee nor raises its bribe. -/
def Steady (cfg : Config) (env : CallEnv) (opp : Opportunity) (engine : BiddingEngine) : Prop :=
  ∀ firstPct secondPct suggested, Bids cfg env opp engine firstPct secondPct suggested →
    suggested ≤ env.gasState.priorityFee ∧ secondPct ≤ firstPct

/-! ## The check over the integers -/

section Check

variable {candidate : Candidate}

theorem adjustedTotalCost_toNat (hL1 : candidate.l1Fee.toNat * 120 < 2 ^ 256)
    (hSum : candidate.l1Fee.toNat * 120 / 100 + candidate.l2Fee.toNat < 2 ^ 256) :
    (adjustedTotalCost candidate).toNat =
      candidate.l1Fee.toNat * 120 / 100 + candidate.l2Fee.toNat := by
  have h120 : (120 : U256).toNat = 120 := rfl
  have h100 : (100 : U256).toNat = 100 := rfl
  have hBuffer : (l1Buffer candidate).toNat = candidate.l1Fee.toNat * 120 / 100 := by
    rw [l1Buffer, BitVec.toNat_udiv, BitVec.toNat_mul, h120, h100, Nat.mod_eq_of_lt hL1]
  rw [adjustedTotalCost, BitVec.toNat_add_of_lt (by rw [hBuffer]; exact hSum), hBuffer]

theorem netProfit_toNat (hNet : candidate.netProfit =
      saturatingSub candidate.topSim.profit (candidate.l1Fee + candidate.l2Fee))
    (hSum : candidate.l1Fee.toNat * 120 / 100 + candidate.l2Fee.toNat < 2 ^ 256) :
    candidate.netProfit.toNat =
      candidate.topSim.profit.toNat - (candidate.l1Fee.toNat + candidate.l2Fee.toNat) := by
  rw [hNet, saturatingSub_toNat, BitVec.toNat_add_of_lt (by omega)]

theorem bribeWei_toNat {pct : Nat} (hPct : pct ≤ 99)
    (hNet : candidate.netProfit.toNat * 99 < 2 ^ 256) :
    (bribeWei candidate pct).toNat = candidate.netProfit.toNat * pct / 100 := by
  have hShare := Nat.mul_le_mul_left candidate.netProfit.toNat hPct
  have h100 : (100 : U256).toNat = 100 := rfl
  rw [bribeWei, BitVec.toNat_udiv, BitVec.toNat_mul, h100, BitVec.toNat_ofNat,
    Nat.mod_eq_of_lt (by omega : pct < 2 ^ 256), Nat.mod_eq_of_lt (by omega)]

/-- The cost that the check holds against the profit. -/
theorem executionCost_toNat {pct : Nat} (hPct : pct ≤ 99)
    (hL1 : candidate.l1Fee.toNat * 120 < 2 ^ 256)
    (hNet : candidate.netProfit.toNat * 99 < 2 ^ 256)
    (hSum : candidate.l1Fee.toNat * 120 / 100 + candidate.l2Fee.toNat +
      candidate.netProfit.toNat < 2 ^ 256) :
    (adjustedTotalCost candidate + bribeWei candidate pct).toNat =
      candidate.l1Fee.toNat * 120 / 100 + candidate.l2Fee.toNat +
        candidate.netProfit.toNat * pct / 100 := by
  have hCost := adjustedTotalCost_toNat hL1 (by omega)
  have hBribe := bribeWei_toNat hPct hNet
  have hShare := Nat.mul_le_mul_left candidate.netProfit.toNat hPct
  rw [BitVec.toNat_add_of_lt (by omega), hCost, hBribe]

end Check

/-! ## What the check establishes -/

/-- The fee for the gas and the net profit that go with a simulation result. -/
structure Costed (env : CallEnv) (candidate : Candidate) : Prop where
  l2Fee_eq : candidate.l2Fee =
    BitVec.ofNat 256 candidate.topSim.gasUsed.toNat * env.totalGasPrice
  netProfit_eq : candidate.netProfit =
    saturatingSub candidate.topSim.profit (candidate.l1Fee + candidate.l2Fee)

/-- The costs at a gas price and a percentage, over the integers. -/
def costAt (env : CallEnv) (candidate : Candidate) (price pct : Nat) : Nat :=
  candidate.l1Fee.toNat * 120 / 100 + candidate.topSim.gasUsed.toNat * price +
    (candidate.topSim.profit.toNat -
      (candidate.l1Fee.toNat + candidate.topSim.gasUsed.toNat * checkedPrice env)) * pct / 100

section Costs

variable {cfg : Config} {env : CallEnv} {opp : Opportunity} {candidate : Candidate}
  (hCosted : Costed env candidate) (hPrice : checkedPrice env < 2 ^ 256)
  (hFits : Fits env candidate)
include hCosted hPrice hFits

theorem l2Fee_toNat :
    candidate.l2Fee.toNat = candidate.topSim.gasUsed.toNat * checkedPrice env := by
  have hGas := candidate.topSim.gasUsed.toNat_lt
  have hSum : env.totalGasPrice.toNat = checkedPrice env := BitVec.toNat_add_of_lt hPrice
  unfold Fits at hFits
  rw [hCosted.l2Fee_eq, BitVec.toNat_mul, hSum, BitVec.toNat_ofNat,
    Nat.mod_eq_of_lt (by omega : candidate.topSim.gasUsed.toNat < 2 ^ 256),
    Nat.mod_eq_of_lt (by omega)]

/-- The check, over the integers. -/
theorem check_iff {pct : Nat} (hPct : pct ≤ 99) :
    adjustedTotalCost candidate + bribeWei candidate pct < candidate.topSim.profit ↔
      costAt env candidate (checkedPrice env) pct < candidate.topSim.profit.toNat := by
  have hL2 := l2Fee_toNat hCosted hPrice hFits
  unfold Fits at hFits
  have hNet := netProfit_toNat hCosted.netProfit_eq (by omega)
  rw [BitVec.lt_def, executionCost_toNat hPct (by omega) (by omega) (by omega), hNet, hL2, costAt]

/-- What is sent, over the integers. -/
theorem coversCosts_iff {sent : Broadcast} {suggested : U256} {pct : Nat} (hPct : pct ≤ 99)
    (hFee : sent.tx.maxFeePerGas = (env.gasState.baseFee + suggested).toNat)
    (hBribe : sent.bundle.bribe = bribeWei candidate pct) :
    CoversCosts candidate sent ↔
      costAt env candidate (env.gasState.baseFee + suggested).toNat pct <
        candidate.topSim.profit.toNat := by
  have hL2 := l2Fee_toNat hCosted hPrice hFits
  unfold Fits at hFits
  have hNet := netProfit_toNat hCosted.netProfit_eq (by omega)
  rw [CoversCosts, committedCost, hFee, hBribe, bribeWei_toNat hPct (by omega), hNet, hL2, costAt]

end Costs

/-- The costs rise with the gas price and with the percentage. -/
theorem costAt_mono (env : CallEnv) (candidate : Candidate) {price price' pct pct' : Nat}
    (hPrice : price ≤ price') (hPct : pct ≤ pct') :
    costAt env candidate price pct ≤ costAt env candidate price' pct' := by
  unfold costAt
  have hGas := Nat.mul_le_mul_left candidate.topSim.gasUsed.toNat hPrice
  have hShare := Nat.div_le_div_right (c := 100) (Nat.mul_le_mul_left
    (candidate.topSim.profit.toNat -
      (candidate.l1Fee.toNat + candidate.topSim.gasUsed.toNat * checkedPrice env)) hPct)
  omega

/-- A commitment is made of the bids of its engine. -/
theorem bids_of_commit {cfg : Config} {env : CallEnv} {opp : Opportunity}
    {builder : BuilderConfig} {candidate : Candidate} {vetted checked s' : ExecState}
    {c : Commitment} (hProtect : protect cfg env opp candidate vetted = (checked, .ok ()))
    (hCommit : commit cfg env opp builder candidate checked = (s', .ok c)) :
    ∃ firstPct secondPct suggested,
      Bids cfg env opp vetted.biddingEngine firstPct secondPct suggested ∧
        firstPct ≤ 99 ∧ secondPct ≤ 99 ∧
        adjustedTotalCost candidate + bribeWei candidate firstPct < candidate.topSim.profit ∧
        c.bribe = bribeWei candidate secondPct ∧
        c.tx.maxFeePerGas = (env.gasState.baseFee + suggested).toNat := by
  obtain ⟨firstPct, engine₁, hFirst, rfl, hProfit⟩ := protect_ok hProtect
  obtain ⟨pct, engine₂, suggested, hSecond, hSuggest, hBribe, hFee, -⟩ := commit_ok hCommit
  exact ⟨firstPct, bumpBribe opp pct, suggested,
    ⟨engine₁, pct, engine₂, hFirst, hSecond, rfl, hSuggest⟩, calculateBribe_le hFirst,
    bumpBribe_le (calculateBribe_le hSecond), hProfit, hBribe, hFee⟩

/-- **Steady bids keep what the check has established.** -/
theorem covers_of_check {env : CallEnv} {candidate : Candidate} {sent : Broadcast}
    {firstPct secondPct : Nat} {suggested : U256} (hCosted : Costed env candidate)
    (hPrice : checkedPrice env < 2 ^ 256) (hFits : Fits env candidate)
    (hFirst : firstPct ≤ 99) (hSecond : secondPct ≤ 99)
    (hCheck : adjustedTotalCost candidate + bribeWei candidate firstPct <
      candidate.topSim.profit)
    (hFee : sent.tx.maxFeePerGas = (env.gasState.baseFee + suggested).toNat)
    (hBribe : sent.bundle.bribe = bribeWei candidate secondPct)
    (hSuggested : suggested ≤ env.gasState.priorityFee) (hPct : secondPct ≤ firstPct) :
    CoversCosts candidate sent := by
  have hLe : (env.gasState.baseFee + suggested).toNat ≤ checkedPrice env := by
    have hNat := BitVec.le_def.mp hSuggested
    unfold checkedPrice at hPrice ⊢
    rw [BitVec.toNat_add_of_lt (by omega)]
    omega
  rw [coversCosts_iff hCosted hPrice hFits hSecond hFee hBribe]
  rw [check_iff hCosted hPrice hFits hFirst] at hCheck
  exact (costAt_mono env candidate hLe hPct).trans_lt hCheck

/-! ## A narrow simulation result -/

/-- The candidate of a result that leaves the minimal net profit after these fees. -/
def narrowCandidate (env : CallEnv) (gas : UInt64) (l1Fee : Nat) : Candidate :=
  let profit := BitVec.ofNat 256 (l1Fee + gas.toNat * checkedPrice env + 200000000000000)
  let l2Fee := BitVec.ofNat 256 gas.toNat * env.totalGasPrice
  { lender := .balancer
    topSim := { profit, gasUsed := gas, branch := .top, success := true, accessList := [] }
    calldata := []
    netProfit := saturatingSub profit (BitVec.ofNat 256 l1Fee + l2Fee)
    l1Fee := BitVec.ofNat 256 l1Fee
    l2Fee
    adjustedNet := 0 }

theorem narrowCandidate_costed (env : CallEnv) (gas : UInt64) (l1Fee : Nat) :
    Costed env (narrowCandidate env gas l1Fee) where
  l2Fee_eq := rfl
  netProfit_eq := rfl

section Narrow

variable {cfg : Config} {env : CallEnv} {opp : Opportunity} {gas : UInt64} {share : Nat}
  (hPrice : checkedPrice env < 2 ^ 128) (hShare : share ≤ 100)
include hPrice hShare

/-- Its numbers, with an L1 fee of so many hundredths of `10 ^ 15`. -/
theorem narrowCandidate_toNat :
    (narrowCandidate env gas (10000000000000 * share)).l1Fee.toNat = 10000000000000 * share ∧
      (narrowCandidate env gas (10000000000000 * share)).topSim.profit.toNat =
        10000000000000 * share + gas.toNat * checkedPrice env + 200000000000000 ∧
      gas.toNat * checkedPrice env < 2 ^ 192 := by
  have hGas := gas.toNat_lt
  have hProduct : gas.toNat * checkedPrice env < 2 ^ 64 * 2 ^ 128 := Nat.mul_lt_mul'' hGas hPrice
  have hPow : (2 : Nat) ^ 64 * 2 ^ 128 = 2 ^ 192 := by norm_num
  rw [hPow] at hProduct
  have hL1 : (narrowCandidate env gas (10000000000000 * share)).l1Fee =
      BitVec.ofNat 256 (10000000000000 * share) := rfl
  have hProfit : (narrowCandidate env gas (10000000000000 * share)).topSim.profit =
      BitVec.ofNat 256 (10000000000000 * share + gas.toNat * checkedPrice env +
        200000000000000) := rfl
  refine ⟨?_, ?_, hProduct⟩
  · rw [hL1, BitVec.toNat_ofNat, Nat.mod_eq_of_lt (by omega)]
  · rw [hProfit, BitVec.toNat_ofNat, Nat.mod_eq_of_lt (by omega)]

theorem narrowCandidate_fits :
    Fits env (narrowCandidate env gas (10000000000000 * share)) := by
  obtain ⟨hL1, hProfit, hProduct⟩ := @narrowCandidate_toNat env gas share hPrice hShare
  have hGas : (narrowCandidate env gas (10000000000000 * share)).topSim.gasUsed = gas := rfl
  rw [Fits, hL1, hProfit, hGas]
  omega

/-- The L1 buffer takes a fifth of the fee, and the net profit is the minimal one. -/
theorem narrowCandidate_costAt_lt_iff (price pct : Nat) :
    costAt env (narrowCandidate env gas (10000000000000 * share)) price pct <
        (narrowCandidate env gas (10000000000000 * share)).topSim.profit.toNat ↔
      2000000000000 * (share + pct) + gas.toNat * price <
        gas.toNat * checkedPrice env + 200000000000000 := by
  obtain ⟨hL1, hProfit, -⟩ := @narrowCandidate_toNat env gas share hPrice hShare
  have hGas : (narrowCandidate env gas (10000000000000 * share)).topSim.gasUsed = gas := rfl
  have hNet : 10000000000000 * share + gas.toNat * checkedPrice env + 200000000000000 -
      (10000000000000 * share + gas.toNat * checkedPrice env) = 200000000000000 := by omega
  rw [costAt, hL1, hProfit, hGas, hNet]
  omega

/-- It passes the check at the first percentage. -/
theorem narrowCandidate_checked {s : ExecState} {engine : BiddingEngine} {firstPct : Nat}
    (hBalance : env.cachedBalance = 0)
    (hFirst : s.biddingEngine.calculateBribe cfg.floats.heatRising opp env.firstBribe =
      some (firstPct, engine)) (hRoom : share + firstPct < 100) :
    protect cfg env opp (narrowCandidate env gas (10000000000000 * share)) s =
      ({ s with biddingEngine := engine }, .ok ()) := by
  have hCosted := narrowCandidate_costed env gas (10000000000000 * share)
  have hFits := @narrowCandidate_fits env gas share hPrice hShare
  have hWide : checkedPrice env < 2 ^ 256 := by omega
  obtain ⟨hL1, hProfit, -⟩ := @narrowCandidate_toNat env gas share hPrice hShare
  have hL2 := l2Fee_toNat hCosted hWide hFits
  have hGas : (narrowCandidate env gas (10000000000000 * share)).topSim.gasUsed = gas := rfl
  rw [hGas] at hL2
  refine protect_ok_iff.mpr ⟨firstPct, engine, hFirst, rfl, ?_, ?_, rfl, ?_⟩
  · rintro ⟨hSome, -⟩
    exact hSome hBalance
  · rw [check_iff hCosted hWide hFits (calculateBribe_le hFirst),
      narrowCandidate_costAt_lt_iff hPrice hShare]
    omega
  · have hMinimal : (200000000000000 : U256).toNat = 200000000000000 := rfl
    unfold Fits at hFits
    rw [BitVec.le_def, netProfit_toNat hCosted.netProfit_eq (by omega), hL1, hL2, hProfit, hMinimal]
    omega

end Narrow

/-- Where a bid rises above what is checked, some simulation result passes the check, and
whatever is sent for it breaks the rule. -/
theorem exists_not_covers {cfg : Config} {env : CallEnv} {opp : Opportunity} {s : ExecState}
    (builder : BuilderConfig) (hBalance : env.cachedBalance = 0)
    (hPrice : checkedPrice env < 2 ^ 128) (hUnsteady : ¬ Steady cfg env opp s.biddingEngine) :
    ∃ candidate checked, Costed env candidate ∧ Fits env candidate ∧
      protect cfg env opp candidate s = (checked, .ok ()) ∧
        ∀ s' c, commit cfg env opp builder candidate checked = (s', .ok c) →
          ∀ targetBlock, ¬ CoversCosts candidate (attemptBundle c targetBlock) := by
  unfold Steady at hUnsteady
  push Not at hUnsteady
  obtain ⟨firstPct, secondPct, suggested, hBids, hRises⟩ := hUnsteady
  obtain ⟨engine₁, pct, engine₂, hFirst, hSecond, rfl, hSuggest⟩ := hBids
  have hFirstLe := calculateBribe_le hFirst
  have hSecondLe := @bumpBribe_le opp _ (calculateBribe_le hSecond)
  -- gas for a dearer fee, an L1 fee for a larger bribe
  obtain ⟨gas, share, hShare, hRoom, hBreaks⟩ : ∃ (gas : UInt64) (share : Nat), share ≤ 100 ∧
      share + firstPct < 100 ∧ (suggested.toNat < 2 ^ 128 →
        gas.toNat * checkedPrice env + 200000000000000 ≤
          2000000000000 * (share + bumpBribe opp pct) +
            gas.toNat * (env.gasState.baseFee + suggested).toNat) := by
    by_cases hFee : suggested ≤ env.gasState.priorityFee
    · have hPct := hRises hFee
      refine ⟨0, 100 - bumpBribe opp pct, by omega, by omega, fun _ => ?_⟩
      have hZero : (0 : UInt64).toNat = 0 := rfl
      rw [hZero]
      omega
    · refine ⟨200000000000000, 0, by omega, by omega, fun hSmall => ?_⟩
      have hGas : (200000000000000 : UInt64).toNat = 200000000000000 := rfl
      have hDearer := BitVec.lt_def.mp (BitVec.not_le.mp hFee)
      unfold checkedPrice at hPrice ⊢
      rw [hGas, BitVec.toNat_add_of_lt (by omega)]
      omega
  have hCosted := narrowCandidate_costed env gas (10000000000000 * share)
  have hFits := @narrowCandidate_fits env gas share hPrice hShare
  have hCost := @narrowCandidate_costAt_lt_iff env gas share hPrice hShare
  have hChecked := @narrowCandidate_checked cfg env opp gas share hPrice hShare s engine₁ firstPct
    hBalance hFirst hRoom
  generalize narrowCandidate env gas (10000000000000 * share) = candidate at *
  refine ⟨candidate, _, hCosted, hFits, hChecked, ?_⟩
  intro s' c hCommit targetBlock hCovers
  obtain ⟨pct', engine', suggested', hSecond', hSuggest', hBribe, hFee, -⟩ := commit_ok hCommit
  obtain ⟨rfl, rfl⟩ := Prod.mk.inj (Option.some.inj (hSecond.symm.trans hSecond'))
  obtain rfl := Option.some.inj (hSuggest.symm.trans hSuggest')
  have hSmall := commit_priority hCommit hSecond hSuggest
  have hIff := @coversCosts_iff env candidate hCosted (by omega) hFits
    (attemptBundle c targetBlock) suggested (bumpBribe opp pct) hSecondLe hFee hBribe
  rw [hIff, hCost] at hCovers
  have hBound := hBreaks hSmall
  omega

/-! ## The exact condition -/

/-- **The rule**, on costs that do not wrap: every broadcast of a call with steady bids obeys
it; and where the bids are not steady, some simulation result passes the check and whatever is
sent for it does not. -/
theorem covers_of_steady (cfg : Config) (opp : Opportunity) :
    (∀ env s candidate, selectCandidate cfg env opp = .ok candidate →
      checkedPrice env < 2 ^ 256 → Fits env candidate → Steady cfg env opp s.biddingEngine →
        ∀ sent ∈ (simulateAndExecute cfg env opp s).broadcasts, CoversCosts candidate sent) ∧
    ∀ env (s : ExecState) builder, env.cachedBalance = 0 → checkedPrice env < 2 ^ 128 →
      ¬ Steady cfg env opp s.biddingEngine →
        ∃ candidate checked, Costed env candidate ∧ Fits env candidate ∧
          protect cfg env opp candidate s = (checked, .ok ()) ∧
            ∀ s' c, commit cfg env opp builder candidate checked = (s', .ok c) →
              ∀ targetBlock, ¬ CoversCosts candidate (attemptBundle c targetBlock) := by
  constructor
  · intro env s candidate hSelect hPrice hFits hSteady sent hSent
    obtain ⟨_, targetBlock, other, checked, s', c, hCleared, hCommit, hLoop⟩ :=
      broadcasts_cases hSent
    obtain ⟨rfl, vetted, hEngine, hProtect⟩ := hCleared.checks hSelect
    obtain ⟨firstPct, secondPct, suggested, hBids, hFirst, hSecond, hCheck, hBribe, hFee⟩ :=
      bids_of_commit hProtect hCommit
    rw [hEngine] at hBids
    obtain ⟨hSuggested, hPct⟩ := hSteady firstPct secondPct suggested hBids
    have hAdmitted := selectCandidate_ok hSelect
    have hCosted : Costed env other := ⟨hAdmitted.2.2.2.1, hAdmitted.2.2.2.2⟩
    rw [hLoop] at hSent
    obtain ⟨hTx, hSentBribe⟩ :=
      (broadcastLoop_frame env opp c s' _ 0 targetBlock).2.2.1 _ hSent
    exact covers_of_check hCosted hPrice hFits hFirst hSecond hCheck (by rw [hTx]; exact hFee)
      (hSentBribe.trans hBribe) hSuggested hPct
  · intro env s builder hBalance hPrice hUnsteady
    exact exists_not_covers builder hBalance hPrice hUnsteady

/-! ## Two calls -/

/-- The candidate that `sampleSimulation` makes for the sample opportunity. -/
def sampleCandidate (baseFee : U256) : Candidate where
  lender := .balancer
  topSim :=
    { profit := 1000000000000000, gasUsed := 200000, branch := .top, success := true,
      accessList := [] }
  calldata := buildCalldataWithLender sampleConfig (sampleOpportunity "a" 1 2) .balancer
  netProfit := 1000000000000000 - 200000 * baseFee
  l1Fee := 0
  l2Fee := 200000 * baseFee
  adjustedNet := 1050000000000000 - 200000 * baseFee

/-- What is sent for it at block 101, with the given fees and bribe. -/
def sampleSent (maxFee maxPriority : Nat) (bribe : U256) : Broadcast where
  bundle := { transactions := [[0x02]], targetBlock := 101, bribe := bribe }
  tx :=
    { toAddr := 0xC0, fromAddr := 0x5E,
      input := buildCalldataWithLender sampleConfig (sampleOpportunity "a" 1 2) .balancer,
      nonce := 0, accessList := [], gasLimit := 230000, maxFeePerGas := maxFee,
      maxPriorityFeePerGas := maxPriority, chainId := 8453 }

/-- An opportunity of so small a profit that every engine bids five percent. -/
def microOpportunity : Opportunity := { sampleOpportunity "a" 1 2 with expectedProfit := 1 }

/-- Above 0.1 gwei no fee is suggested, so the bids are steady and what is sent obeys the rule. -/
theorem sample_covers :
    ∃ sent ∈ (simulateAndExecute sampleConfig (sampleEnv 100 200000000 fun _ => [.ok ()])
        microOpportunity (freshState 0)).broadcasts,
      CoversCosts (sampleCandidate 200000000) sent := by
  have hSelect : selectCandidate sampleConfig (sampleEnv 100 200000000 fun _ => [.ok ()])
      microOpportunity = .ok (sampleCandidate 200000000) := by decide +kernel
  have hSent : sampleSent 200000000 0 48000000000000 ∈
      (simulateAndExecute sampleConfig (sampleEnv 100 200000000 fun _ => [.ok ()])
        microOpportunity (freshState 0)).broadcasts := by decide +kernel
  have hMicro : ∀ (engine : BiddingEngine) reads,
      engine.calculateBribe sampleConfig.floats.heatRising microOpportunity reads =
        some (5, engine.decayPressure reads.now) := fun _ _ => rfl
  have hSteady : Steady sampleConfig (sampleEnv 100 200000000 fun _ => [.ok ()])
      microOpportunity (freshState 0).biddingEngine := by
    rintro firstPct secondPct suggested ⟨engine₁, pct, engine₂, hFirst, hSecond, rfl, hSuggest⟩
    rw [hMicro] at hFirst hSecond
    obtain ⟨rfl, rfl⟩ := Prod.mk.inj (Option.some.inj hFirst)
    obtain ⟨rfl, rfl⟩ := Prod.mk.inj (Option.some.inj hSecond)
    obtain rfl : 0 = suggested := Option.some.inj hSuggest
    decide
  exact ⟨_, hSent, (covers_of_steady sampleConfig microOpportunity).1 _ _ _ hSelect (by decide)
    (by unfold Fits; decide) hSteady _ hSent⟩

/-- **The rule fails.**  At a base fee of 0.001 gwei and no priority fee the check
passes, and the builder tip of 1000 gwei is committed. -/
theorem not_covers :
    ¬ ∀ (cfg : Config) (env : CallEnv) (opp : Opportunity) (s : ExecState)
        (candidate : Candidate), selectCandidate cfg env opp = .ok candidate →
      ∀ sent ∈ (simulateAndExecute cfg env opp s).broadcasts,
        CoversCosts candidate sent := by
  intro hAll
  have hSelect : selectCandidate sampleConfig (sampleEnv 100 1000000 fun _ => [.ok ()])
      (sampleOpportunity "a" 1 2) = .ok (sampleCandidate 1000000) := by decide +kernel
  have hSent : sampleSent 1000001000000 1000000000000 99980000000000 ∈
      (simulateAndExecute sampleConfig (sampleEnv 100 1000000 fun _ => [.ok ()])
        (sampleOpportunity "a" 1 2) (freshState 0)).broadcasts := by decide +kernel
  have hCovers := hAll _ _ _ _ _ hSelect _ hSent
  revert hCovers
  unfold CoversCosts
  decide

end SovereignShadow.Ports.RevertProtection
