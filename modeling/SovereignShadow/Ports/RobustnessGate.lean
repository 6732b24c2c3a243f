import SovereignShadow.Ports.ExecutorStages
import SovereignShadow.Ports.OptimalInput

/-!
# The robustness gate

`run_branch_simulation` leaves out the branches whose simulation fails, and
`simulate_and_execute` reads its list by position: the first entry is taken for the Top
branch and the others for the rest.  So a lender whose Top branch failed is judged by its
Mid branch, and one with a single simulated branch by that branch alone.

## Main results

* `passes_iff` — the gate, over the outcomes that came back.
* `selectCandidate_passes` — the selected lender went through the gate.
* `robust_iff` — when a lender that passes is robust in all three branches.
-/

namespace SovereignShadow.Ports.RobustnessGate

open SovereignShadow.Ports.Models
open SovereignShadow.Ports.Constants
open SovereignShadow.Ports.StateSimulator
open SovereignShadow.Ports.FlashLoanExecutor
open SovereignShadow.Ports.ExecutorStages

/-! ## Candidates -/

/-- A lender with these simulations gets past `is_robust`. -/
def Passes (minProfitWei : U256) (simulate : SimulationBranch → Option SimResult) : Prop :=
  ∃ topSim, (runBranchSimulation simulate).head? = some topSim ∧
    isRobust minProfitWei (runBranchSimulation simulate) topSim = true

/-- **The selected lender passes.** -/
theorem selectCandidate_passes {cfg : Config} {env : CallEnv} {opp : Opportunity}
    {candidate : Candidate} (h : selectCandidate cfg env opp = .ok candidate) :
    Passes cfg.minProfitWei (env.simulateStrategy candidate.lender) := by
  obtain ⟨hTop, hRobust, _⟩ := selectCandidate_ok h
  exact ⟨candidate.topSim, hTop, hRobust⟩

/-! ## Outcomes -/

/-- A run that succeeds with at least the minimal profit. -/
def Earns (minProfitWei : U256) (r : SimResult) : Prop :=
  r.success = true ∧ minProfitWei ≤ r.profit

/-- How far a profit lies below the top one, in whole basis points of that. -/
def lossBps (top r : SimResult) : ℕ :=
  (top.profit.toNat - r.profit.toNat) * 10000 / top.profit.toNat

/-- All three branches earn, and the later ones lose at most `MAX_BRANCH_LOSS_BPS`. -/
def Robust (minProfitWei : U256) (simulate : SimulationBranch → Option SimResult) : Prop :=
  ∃ top mid tail, simulate .top = some top ∧ simulate .mid = some mid ∧
    simulate .tail = some tail ∧ (∀ r ∈ [top, mid, tail], Earns minProfitWei r) ∧
    ∀ r ∈ [mid, tail], lossBps top r ≤ maxBranchLossBps.toNat

/-- Outcomes of which the first does not earn, or a later one does not earn or loses too much
of what the first earns. -/
def Refused (minProfitWei : U256) : List SimResult → Prop
  | [] => True
  | top :: rest => ¬ Earns minProfitWei top ∨
      ∃ r ∈ rest, ¬ (Earns minProfitWei r ∧ lossBps top r ≤ maxBranchLossBps.toNat)

theorem not_refused_cons {minProfitWei : U256} {top : SimResult} {rest : List SimResult} :
    ¬ Refused minProfitWei (top :: rest) ↔ Earns minProfitWei top ∧
      ∀ r ∈ rest, Earns minProfitWei r ∧ lossBps top r ≤ maxBranchLossBps.toNat := by
  rw [Refused, not_or, not_not, not_exists]
  apply and_congr_right
  intro _
  apply forall_congr'
  intro r
  rw [not_and, not_not]

/-- The profits are far from the word size. -/
def ProfitsFit (simulate : SimulationBranch → Option SimResult) : Prop :=
  ∀ branch r, simulate branch = some r → r.profit.toNat < 2 ^ 240

theorem branchRobust_iff {minProfitWei : U256} {top r : SimResult}
    (hTop : top.profit.toNat < 2 ^ 240) :
    branchRobust minProfitWei top r = true ↔
      Earns minProfitWei r ∧ lossBps top r ≤ maxBranchLossBps.toNat := by
  have hMax : (u256Max top.profit 1).toNat = max top.profit.toNat 1 := u256Max_toNat _ _
  have hScale : (10000 : U256).toNat = 10000 := rfl
  have hLoss : (saturatingSub top.profit r.profit * 10000).toNat =
      (top.profit.toNat - r.profit.toNat) * 10000 := by
    rw [BitVec.toNat_mul, OptimalInput.saturatingSub_toNat, hScale, Nat.mod_eq_of_lt]
    omega
  have hBps : (saturatingSub top.profit r.profit * 10000 / u256Max top.profit 1).toNat =
      lossBps top r := by
    rw [BitVec.toNat_udiv, hLoss, hMax, lossBps]
    by_cases hZero : top.profit.toNat = 0
    · rw [hZero]
      simp
    · rw [max_eq_left (by omega)]
  unfold branchRobust Earns
  rw [decide_eq_true_eq, BitVec.le_def (x := _ / _), hBps, and_assoc, ge_iff_le]

/-- **The gate.** -/
theorem passes_iff {minProfitWei : U256} {simulate : SimulationBranch → Option SimResult}
    (hFit : ProfitsFit simulate) :
    Passes minProfitWei simulate ↔ ¬ Refused minProfitWei (runBranchSimulation simulate) := by
  have hAll : ∀ r ∈ runBranchSimulation simulate, r.profit.toNat < 2 ^ 240 := by
    intro r hr
    obtain ⟨branch, _, hBranch⟩ := List.mem_filterMap.mp hr
    exact hFit branch r hBranch
  unfold Passes
  cases hList : runBranchSimulation simulate with
  | nil => simp [Refused]
  | cons top rest =>
      have hTop : top.profit.toNat < 2 ^ 240 := hAll top (hList ▸ List.mem_cons_self)
      have hRest : rest.all (branchRobust minProfitWei top) = true ↔
          ∀ r ∈ rest, Earns minProfitWei r ∧ lossBps top r ≤ maxBranchLossBps.toNat := by
        rw [List.all_eq_true]
        exact forall₂_congr fun r _ => branchRobust_iff hTop
      rw [not_refused_cons, ← hRest]
      simp only [List.head?_cons, Option.some.injEq, exists_eq_left', isRobust, List.drop_one,
        List.tail_cons, decide_eq_true_eq, ge_iff_le, Earns, and_assoc]

/-! ## All three branches -/

/-- With all three branches simulated, the list is Top, Mid, Tail. -/
theorem runBranchSimulation_eq {simulate : SimulationBranch → Option SimResult}
    {top mid tail : SimResult} (hTop : simulate .top = some top) (hMid : simulate .mid = some mid)
    (hTail : simulate .tail = some tail) : runBranchSimulation simulate = [top, mid, tail] := by
  simp [runBranchSimulation, hTop, hMid, hTail]

/-- **When the gate does what it is for.**  A lender that passes is robust exactly where all
three branches were simulated, or those that were are refused by themselves; and
only lenders that pass are selected. -/
theorem robust_iff (cfg : Config) (env : CallEnv) (opp : Opportunity) (lender : Lender)
    (hFit : ProfitsFit (env.simulateStrategy lender)) :
    ((Passes cfg.minProfitWei (env.simulateStrategy lender) →
        Robust cfg.minProfitWei (env.simulateStrategy lender)) ↔
      (∀ branch, (env.simulateStrategy lender branch).isSome) ∨
        Refused cfg.minProfitWei (runBranchSimulation (env.simulateStrategy lender))) ∧
    ∀ candidate, selectCandidate cfg env opp = .ok candidate → candidate.lender = lender →
      Passes cfg.minProfitWei (env.simulateStrategy lender) := by
  constructor
  · rw [passes_iff hFit]
    constructor
    · intro hRobust
      by_cases hRefused :
          Refused cfg.minProfitWei (runBranchSimulation (env.simulateStrategy lender))
      · exact .inr hRefused
      · obtain ⟨top, mid, tail, hTop, hMid, hTail, _⟩ := hRobust hRefused
        left
        intro branch
        cases branch with
        | top => simp [hTop]
        | mid => simp [hMid]
        | tail => simp [hTail]
    · intro hCondition hPass
      rcases hCondition with hAll | hRefused
      · obtain ⟨top, hTop⟩ := Option.isSome_iff_exists.mp (hAll .top)
        obtain ⟨mid, hMid⟩ := Option.isSome_iff_exists.mp (hAll .mid)
        obtain ⟨tail, hTail⟩ := Option.isSome_iff_exists.mp (hAll .tail)
        rw [runBranchSimulation_eq hTop hMid hTail, not_refused_cons] at hPass
        obtain ⟨hEarns, hLater⟩ := hPass
        refine ⟨top, mid, tail, hTop, hMid, hTail, ?_, fun r hr => (hLater r hr).2⟩
        rw [List.forall_mem_cons]
        exact ⟨hEarns, fun r hr => (hLater r hr).1⟩
      · exact absurd hRefused hPass
  · intro candidate hSelect hLender
    exact hLender ▸ selectCandidate_passes hSelect

/-- A profit of 0.001 ETH in every branch. -/
theorem sample_robust : Passes 1 sampleSimulation ∧ Robust 1 sampleSimulation := by
  have hPasses : Passes 1 sampleSimulation := ⟨_, rfl, by decide⟩
  have hFit : ProfitsFit ((sampleEnv 100 1000000 fun _ => []).simulateStrategy .balancer) := by
    intro branch r hBranch
    obtain rfl := Option.some.inj hBranch
    show (1000000000000000 : U256).toNat < 2 ^ 240
    decide
  exact ⟨hPasses, (robust_iff sampleConfig (sampleEnv 100 1000000 fun _ => [])
    (sampleOpportunity "a" 1 2) .balancer hFit).1.mpr (.inl fun _ => rfl) hPasses⟩

/-- Only the Tail branch can be simulated. -/
def tailOnly : SimulationBranch → Option SimResult
  | .tail => sampleSimulation .tail
  | _ => none

/-- A lender whose Top and Mid branches fail is selected, and broadcasts. -/
theorem tailOnly_passes :
    Passes 1 tailOnly ∧ ¬ Robust 1 tailOnly ∧
      (simulateAndExecute sampleConfig
        { sampleEnv 100 200000000 fun _ => [.ok ()] with simulateStrategy := fun _ => tailOnly }
        (sampleOpportunity "a" 1 2) (freshState 0)).broadcasts ≠ [] := by
  refine ⟨?_, ?_, by decide +kernel⟩
  · exact ⟨_, rfl, by decide⟩
  · rintro ⟨top, _, _, hTop, _⟩
    have hNone : tailOnly .top = none := rfl
    rw [hNone] at hTop
    exact absurd hTop (by simp)

end SovereignShadow.Ports.RobustnessGate
