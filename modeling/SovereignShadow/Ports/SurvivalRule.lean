import SovereignShadow.Ports.RevertProtection

/-!
# The survival rule

"Trades only fire if expected profit > 3x total fees", relaxed to 1.2x on a large balance.
The multiplier is computed and never used.  What stands in its place are the budget cap,
the protection check with a bribe that is a share of the net profit, and a minimal net
profit.  They let through an upward closed set of profits, so for given fees they imply the
rule exactly where they stop the largest profit that breaks it.

## Main results

* `protect_iff` — the three checks, over the integers.
* `survival_rule_iff` — for which fees, balance and bribe the checks imply the rule.
-/

namespace SovereignShadow.Ports.SurvivalRule

open SovereignShadow.Ports.Models
open SovereignShadow.Ports.Constants
open SovereignShadow.Ports.Bidding
open SovereignShadow.Ports.FlashLoanExecutor
open SovereignShadow.Ports.ExecutorStages
open SovereignShadow.Ports.RevertProtection

/-! ## The rule -/

/-- `_survival_multiplier`, in tenths. -/
def survivalMultiplier (currentBalance : U256) : ℕ :=
  if currentBalance > 50000000000000000 then 12 else 30

/-- `l1_fee * 120 / 100 + l2_execution_fee`. -/
def totalFees (l1Fee l2Fee : U256) : ℕ := l1Fee.toNat * 120 / 100 + l2Fee.toNat

/-- The profit exceeds the multiple of the fees. -/
def ObeysRule (currentBalance : U256) (candidate : Candidate) : Prop :=
  survivalMultiplier currentBalance * totalFees candidate.l1Fee candidate.l2Fee <
    candidate.topSim.profit.toNat * 10

/-- The largest profit that breaks the rule. -/
def shortProfit (currentBalance l1Fee l2Fee : U256) : ℕ :=
  survivalMultiplier currentBalance * totalFees l1Fee l2Fee / 10

/-- The fees are far from the word size. -/
def FeesFit (l1Fee l2Fee : U256) : Prop := 300 * totalFees l1Fee l2Fee < 2 ^ 256

/-! ## The checks -/

/-- The checks on a profit, over the integers. -/
structure LetsThrough (currentBalance l1Fee l2Fee : U256) (bribePct profit : ℕ) : Prop where
  budget : currentBalance = 0 ∨ totalFees l1Fee l2Fee ≤ currentBalance.toNat / 10
  covers : totalFees l1Fee l2Fee + (profit - (l1Fee.toNat + l2Fee.toNat)) * bribePct / 100 <
    profit
  net : 200000000000000 ≤ profit - (l1Fee.toNat + l2Fee.toNat)

/-- A larger profit gets through as well: of what it has more, the bribe takes a part. -/
theorem LetsThrough.mono {currentBalance l1Fee l2Fee : U256} {bribePct p p' : ℕ}
    (hBribe : bribePct ≤ 99) (hLe : p ≤ p')
    (h : LetsThrough currentBalance l1Fee l2Fee bribePct p) :
    LetsThrough currentBalance l1Fee l2Fee bribePct p' := by
  have hNet := h.net
  have hCovers := h.covers
  refine ⟨h.budget, ?_, by omega⟩
  obtain ⟨more, rfl⟩ := Nat.exists_eq_add_of_le hLe
  have hMore : p + more - (l1Fee.toNat + l2Fee.toNat) =
      p - (l1Fee.toNat + l2Fee.toNat) + more := by omega
  have hShare : (p - (l1Fee.toNat + l2Fee.toNat) + more) * bribePct / 100 ≤
      (p - (l1Fee.toNat + l2Fee.toNat)) * bribePct / 100 + more := by
    have hPart : more * bribePct ≤ more * 100 := Nat.mul_le_mul_left more (by omega)
    have hFloor := Nat.add_mul_div_right ((p - (l1Fee.toNat + l2Fee.toNat)) * bribePct) more
      (show 0 < 100 by norm_num)
    rw [Nat.add_mul]
    omega
  rw [hMore]
  omega

/-- A candidate of these fees, with the net profit that goes with its profit. -/
structure Priced (l1Fee l2Fee : U256) (candidate : Candidate) : Prop where
  l1Fee_eq : candidate.l1Fee = l1Fee
  l2Fee_eq : candidate.l2Fee = l2Fee
  success : candidate.topSim.success = true
  netProfit_eq : candidate.netProfit =
    saturatingSub candidate.topSim.profit (candidate.l1Fee + candidate.l2Fee)

section Checks

variable {l1Fee l2Fee : U256} (hFit : FeesFit l1Fee l2Fee)
include hFit

/-- None of the sums and products of the check wraps. -/
theorem fees_fit : l1Fee.toNat * 120 < 2 ^ 256 ∧
    l1Fee.toNat * 120 / 100 + l2Fee.toNat < 2 ^ 256 := by
  unfold FeesFit at hFit
  unfold totalFees at hFit
  omega

section Candidates

variable {candidate : Candidate} (hPriced : Priced l1Fee l2Fee candidate)
include hPriced

theorem netProfit_eq : candidate.netProfit.toNat =
    candidate.topSim.profit.toNat - (l1Fee.toNat + l2Fee.toNat) := by
  obtain ⟨rfl, rfl, -, hNet⟩ := hPriced
  exact netProfit_toNat hNet (fees_fit hFit).2

theorem totalCost_eq : (adjustedTotalCost candidate).toNat = totalFees l1Fee l2Fee := by
  obtain ⟨rfl, rfl, -, -⟩ := hPriced
  obtain ⟨hL1, hSum⟩ := fees_fit hFit
  exact adjustedTotalCost_toNat hL1 hSum

/-- The cap of the budget, which an unknown balance does not have. -/
theorem budget_iff (balance : U256) :
    ¬ (balance ≠ 0 ∧ adjustedTotalCost candidate > balance / 10) ↔
      balance = 0 ∨ totalFees l1Fee l2Fee ≤ balance.toNat / 10 := by
  have h10 : (10 : U256).toNat = 10 := rfl
  rw [gt_iff_lt, BitVec.lt_def, BitVec.toNat_udiv, totalCost_eq hFit hPriced, h10]
  by_cases hZero : balance = 0
  · simp [hZero]
  · rw [not_and, not_lt]
    exact ⟨fun h => .inr (h hZero), fun h _ => h.resolve_left hZero⟩

/-- Fees and bribe do not wrap on a profit short of the multiple. -/
theorem execution_toNat {bribePct : ℕ} (hBribeLe : bribePct ≤ 99)
    (hShort : candidate.topSim.profit.toNat ≤ 3 * totalFees l1Fee l2Fee) :
    (adjustedTotalCost candidate + bribeWei candidate bribePct).toNat =
      totalFees l1Fee l2Fee +
        (candidate.topSim.profit.toNat - (l1Fee.toNat + l2Fee.toNat)) * bribePct / 100 := by
  have hNet := netProfit_eq hFit hPriced
  have hBound : 300 * totalFees l1Fee l2Fee < 2 ^ 256 := hFit
  obtain ⟨rfl, rfl, -, -⟩ := hPriced
  obtain ⟨hL1, -⟩ := fees_fit hFit
  rw [← hNet]
  unfold totalFees at hBound hShort ⊢
  exact executionCost_toNat hBribeLe hL1 (by omega) (by omega)

end Candidates

/-- **The checks over the integers**, on profits short of the multiple. -/
theorem protect_iff {cfg : Config} {env : CallEnv} {opp : Opportunity} {s : ExecState}
    {engine : BiddingEngine} {bribePct : ℕ} {candidate : Candidate}
    (hPriced : Priced l1Fee l2Fee candidate)
    (hBribe : s.biddingEngine.calculateBribe cfg.floats.heatRising opp env.firstBribe =
      some (bribePct, engine))
    (hShort : candidate.topSim.profit.toNat ≤ 3 * totalFees l1Fee l2Fee) :
    (∃ checked, protect cfg env opp candidate s = (checked, .ok ())) ↔
      LetsThrough env.cachedBalance l1Fee l2Fee bribePct candidate.topSim.profit.toNat := by
  have hNet := netProfit_eq hFit hPriced
  have hBudget := budget_iff hFit hPriced env.cachedBalance
  have hExecution := execution_toNat hFit hPriced (calculateBribe_le hBribe) hShort
  have hMinimal : (200000000000000 : U256).toNat = 200000000000000 := rfl
  constructor
  · rintro ⟨checked, hProtect⟩
    obtain ⟨_, _, hSame, _, hWithin, hProfit, _, hEnough⟩ := protect_ok_iff.mp hProtect
    obtain ⟨rfl, rfl⟩ := Prod.mk.inj (Option.some.inj (hBribe.symm.trans hSame))
    rw [BitVec.lt_def, hExecution] at hProfit
    rw [BitVec.le_def, hMinimal, hNet] at hEnough
    exact ⟨hBudget.mp hWithin, hProfit, hEnough⟩
  · intro h
    refine ⟨_, protect_ok_iff.mpr ⟨bribePct, engine, hBribe, rfl, hBudget.mpr h.budget, ?_,
      hPriced.success, ?_⟩⟩
    · rw [BitVec.lt_def, hExecution]
      exact h.covers
    · rw [BitVec.le_def, hMinimal, hNet]
      exact h.net

end Checks

/-! ## The whole call -/

/-- The largest profit that breaks the rule is stopped: by the budget cap, by the protection
check, or for leaving too little. -/
def Covered (currentBalance l1Fee l2Fee : U256) (bribePct : ℕ) : Prop :=
  let short := shortProfit currentBalance l1Fee l2Fee
  let gain := short - (l1Fee.toNat + l2Fee.toNat)
  (currentBalance ≠ 0 ∧ currentBalance.toNat / 10 < totalFees l1Fee l2Fee) ∨
    short ≤ totalFees l1Fee l2Fee + gain * bribePct / 100 ∨ gain < 200000000000000

theorem not_covered_iff {currentBalance l1Fee l2Fee : U256} {bribePct : ℕ} :
    ¬ Covered currentBalance l1Fee l2Fee bribePct ↔
      LetsThrough currentBalance l1Fee l2Fee bribePct
        (shortProfit currentBalance l1Fee l2Fee) := by
  unfold Covered
  dsimp only
  rw [not_or, not_or, not_and, not_lt, not_le, not_lt]
  constructor
  · rintro ⟨hBudget, hCovers, hNet⟩
    refine ⟨?_, hCovers, hNet⟩
    by_cases hZero : currentBalance = 0
    · exact .inl hZero
    · exact .inr (hBudget hZero)
  · intro h
    exact ⟨fun hZero => h.budget.resolve_left hZero, h.covers, h.net⟩

theorem multiplier_le (currentBalance : U256) : survivalMultiplier currentBalance ≤ 30 := by
  unfold survivalMultiplier
  split <;> decide

theorem not_obeysRule_iff {currentBalance : U256} {candidate : Candidate} :
    ¬ ObeysRule currentBalance candidate ↔
      candidate.topSim.profit.toNat ≤
        shortProfit currentBalance candidate.l1Fee candidate.l2Fee := by
  unfold ObeysRule shortProfit
  omega

/-- **For given fees.**  Where the candidates of these fees are stopped or obey the rule. -/
theorem obeysRule_of_protect_iff {l1Fee l2Fee : U256} (hFit : FeesFit l1Fee l2Fee)
    {cfg : Config} {env : CallEnv} {opp : Opportunity} {s : ExecState} {engine : BiddingEngine}
    {bribePct : ℕ}
    (hBribe : s.biddingEngine.calculateBribe cfg.floats.heatRising opp env.firstBribe =
      some (bribePct, engine)) :
    (∀ candidate, Priced l1Fee l2Fee candidate →
        (∃ checked, protect cfg env opp candidate s = (checked, .ok ())) →
          ObeysRule env.cachedBalance candidate) ↔
      Covered env.cachedBalance l1Fee l2Fee bribePct := by
  have hMultiplier := multiplier_le env.cachedBalance
  have hShortLe : shortProfit env.cachedBalance l1Fee l2Fee ≤ 3 * totalFees l1Fee l2Fee := by
    have hTimes := Nat.mul_le_mul_right (totalFees l1Fee l2Fee) hMultiplier
    unfold shortProfit
    omega
  constructor
  · intro hAll
    by_contra hNot
    have hThrough := not_covered_iff.mp hNot
    -- the largest profit that breaks the rule, in a candidate of its own
    have hFits : shortProfit env.cachedBalance l1Fee l2Fee < 2 ^ 256 := by
      unfold FeesFit at hFit
      omega
    let candidate : Candidate :=
      { lender := .balancer
        topSim :=
          { profit := BitVec.ofNat 256 (shortProfit env.cachedBalance l1Fee l2Fee),
            gasUsed := 0, branch := .top, success := true, accessList := [] }
        calldata := []
        netProfit := saturatingSub
          (BitVec.ofNat 256 (shortProfit env.cachedBalance l1Fee l2Fee)) (l1Fee + l2Fee)
        l1Fee := l1Fee
        l2Fee := l2Fee
        adjustedNet := 0 }
    have hPriced : Priced l1Fee l2Fee candidate := ⟨rfl, rfl, rfl, rfl⟩
    have hProfit : candidate.topSim.profit.toNat =
        shortProfit env.cachedBalance l1Fee l2Fee := by
      show (BitVec.ofNat 256 _).toNat = _
      rw [BitVec.toNat_ofNat, Nat.mod_eq_of_lt hFits]
    have hPass := (protect_iff hFit hPriced hBribe (hProfit ▸ hShortLe)).mpr
      (hProfit ▸ hThrough)
    exact not_obeysRule_iff.mpr hProfit.le (hAll candidate hPriced hPass)
  · intro hCovered candidate hPriced hPass
    by_contra hNot
    have hShort := not_obeysRule_iff.mp hNot
    rw [hPriced.l1Fee_eq, hPriced.l2Fee_eq] at hShort
    have hThrough := (protect_iff hFit hPriced hBribe (hShort.trans hShortLe)).mp hPass
    exact not_covered_iff.mpr (hThrough.mono (calculateBribe_le hBribe) hShort) hCovered

/-- **The exact condition.**  The checks imply the rule for given fees if and only if they
stop the largest profit that breaks it, and then every run that broadcasts a candidate of
these fees obeys the rule. -/
theorem survival_rule_iff (cfg : Config) (env : CallEnv) (opp : Opportunity) (s : ExecState)
    (l1Fee l2Fee : U256) (hFit : FeesFit l1Fee l2Fee) (bribePct : ℕ) (engine : BiddingEngine)
    (hBribe : s.biddingEngine.calculateBribe cfg.floats.heatRising opp env.firstBribe =
      some (bribePct, engine)) :
    ((∀ candidate, Priced l1Fee l2Fee candidate →
        (∃ checked, protect cfg env opp candidate s = (checked, .ok ())) →
          ObeysRule env.cachedBalance candidate) ↔
      Covered env.cachedBalance l1Fee l2Fee bribePct) ∧
    (Covered env.cachedBalance l1Fee l2Fee bribePct →
      ∀ candidate, selectCandidate cfg env opp = .ok candidate →
        candidate.l1Fee = l1Fee → candidate.l2Fee = l2Fee →
          (simulateAndExecute cfg env opp s).broadcasts ≠ [] →
            ObeysRule env.cachedBalance candidate) := by
  refine ⟨obeysRule_of_protect_iff hFit hBribe, ?_⟩
  intro hCovered candidate hSelect hL1 hL2 hSent
  obtain ⟨sent, hMem⟩ := List.exists_mem_of_ne_nil _ hSent
  obtain ⟨_, _, _, checked, _, _, hCleared, _⟩ := broadcasts_cases hMem
  obtain ⟨-, vetted, hEngine, hProtect⟩ := hCleared.checks hSelect
  have hSuccess : candidate.topSim.success = true := by
    obtain ⟨_, _, _, _, _, _, hSuccess, _⟩ := protect_ok_iff.mp hProtect
    exact hSuccess
  have hPriced : Priced l1Fee l2Fee candidate :=
    ⟨hL1, hL2, hSuccess, (selectCandidate_ok hSelect).2.2.2.2⟩
  rw [← hEngine] at hBribe
  exact (obeysRule_of_protect_iff hFit hBribe).mpr hCovered candidate hPriced ⟨checked, hProtect⟩

/-- At 0.2 gwei the fees are a twenty-fifth of the profit: what breaks the rule is too small. -/
theorem sample_obeysRule :
    Covered 0 0 40000000000000 10 ∧ ObeysRule 0 (sampleCandidate 200000000) := by
  have hCovered : Covered 0 0 40000000000000 10 := .inr (.inr (by decide))
  refine ⟨hCovered, ?_⟩
  exact (survival_rule_iff sampleConfig (sampleEnv 100 200000000 fun _ => [.ok ()])
    (sampleOpportunity "a" 1 2) (freshState 0) 0 40000000000000 (by unfold FeesFit; decide)
    10 _ rfl).2 hCovered (sampleCandidate 200000000) (by decide +kernel)
      rfl (by decide +kernel) (by decide +kernel)

/-- **The rule fails.**  At 2 gwei the profit is two and a half times the fees, and the
bundle goes out. -/
theorem not_obeysRule :
    ¬ ∀ (cfg : Config) (env : CallEnv) (opp : Opportunity) (s : ExecState)
        (candidate : Candidate), selectCandidate cfg env opp = .ok candidate →
      (simulateAndExecute cfg env opp s).broadcasts ≠ [] →
        ObeysRule env.cachedBalance candidate := by
  intro hAll
  have hObeys := hAll sampleConfig (sampleEnv 100 2000000000 fun _ => [.ok ()])
    (sampleOpportunity "a" 1 2) (freshState 0) (sampleCandidate 2000000000)
    (by decide +kernel) (by decide +kernel)
  revert hObeys
  unfold ObeysRule
  decide

end SovereignShadow.Ports.SurvivalRule
