import SovereignShadow.Ports.FlashLoanExecutor

/-!
# What one execution call can do

One spec lemma per stage of `simulate_and_execute` and one inversion of the
whole call: either it stops before its first broadcast, or every stage has
passed and its result is that of the broadcast loop.  The developments over
runs of calls use these and never unfold the stages.

## Main results

* `simulateAndExecute_cases` — the inversion.
* `selectCandidate_ok`, `protect_ok_iff` — the selection and the protection check.
* `broadcastLoop_frame` — what the broadcast loop keeps, and what it sends.
-/

namespace SovereignShadow.Ports.ExecutorStages

open SovereignShadow.Ports
open SovereignShadow.Ports.Models
open SovereignShadow.Ports.Bidding
open SovereignShadow.Ports.Breaker
open SovereignShadow.Ports.FlashLoanExecutor

variable {cfg : Config} {env : CallEnv} {opp : Opportunity} {s s' : ExecState}

/-! ## Locks -/

/-- The keys that an opportunity locks for a block. -/
def LockKey (opp : Opportunity) (targetBlock : Nat) (key : Nat × Address) : Prop :=
  key.1 = targetBlock ∧ ∃ hop ∈ opp.path.hops, hop.poolAddress = key.2

theorem lockPools_isSome (occupied : Nat × Address → Option String) (targetBlock : Nat)
    (id : String) (hops : List Hop) (key : Nat × Address) :
    (lockPools occupied targetBlock id hops key).isSome ↔
      (occupied key).isSome ∨
        (key.1 = targetBlock ∧ ∃ hop ∈ hops, hop.poolAddress = key.2) := by
  induction hops generalizing occupied with
  | nil => simp [lockPools]
  | cons hop rest ih =>
      rw [lockPools, ih]
      by_cases hkey : key = (targetBlock, hop.poolAddress)
      · subst hkey
        simp
      · have hne : key.1 = targetBlock → hop.poolAddress ≠ key.2 := by
          intro hBlock hPool
          exact hkey (Prod.ext hBlock hPool.symm)
        simp only [hkey, if_false, List.mem_cons, exists_eq_or_imp]
        constructor
        · rintro (h | ⟨hBlock, h⟩)
          · exact .inl h
          · exact .inr ⟨hBlock, .inr h⟩
        · rintro (h | ⟨hBlock, h | h⟩)
          · exact .inl h
          · exact absurd h (hne hBlock)
          · exact .inr ⟨hBlock, h⟩

/-! ## The stages -/

theorem acquire_error {stop : Stop} (h : acquire cfg env opp s = (s', .error stop)) :
    s' = s := by
  unfold acquire at h
  split at h
  · simp_all
  · dsimp only at h
    split at h
    · simp_all
    · split at h
      · simp_all
      · simp at h

/-- A call that acquires locks its own keys, none of which was locked. -/
theorem acquire_ok {builder : BuilderConfig} {targetBlock : Nat}
    (h : acquire cfg env opp s = (s', .ok (builder, targetBlock))) :
    targetBlock = (env.currentBlock + 1) % u64Size ∧
      collides s.occupiedPools targetBlock opp.path.hops = false ∧
      s' = { s with
        occupiedPools := lockPools s.occupiedPools targetBlock opp.id opp.path.hops } := by
  unfold acquire at h
  split at h
  · simp at h
  · dsimp only at h
    split at h
    · simp at h
    · split at h
      · simp at h
      · rename_i hFree
        simp only [Prod.mk.injEq, Except.ok.injEq] at h
        obtain ⟨hs, -, ht⟩ := h
        subst ht
        exact ⟨rfl, by simpa using hFree, hs.symm⟩

/-- A call that acquires found the breaker closed. -/
theorem acquire_closed {builder : BuilderConfig} {targetBlock : Nat}
    (h : acquire cfg env opp s = (s', .ok (builder, targetBlock))) :
    (s.circuitBreaker.observe env.openReads).isOpen env.openClock = false := by
  unfold acquire at h
  split at h
  · simp at h
  · dsimp only at h
    split at h
    · simp at h
    · rename_i hClosed
      exact Bool.eq_false_iff.mpr hClosed

/-- Vetting touches the vetted tokens only. -/
theorem vet_frame {r : Except Stop Unit} (h : vet cfg env opp s = (s', r)) :
    ∃ vetted, s' = { s with vettedTokens := vetted } := by
  unfold vet at h
  split at h
  · exact ⟨s.vettedTokens, by simp_all⟩
  · split at h
    · exact ⟨s.vettedTokens, by simp_all⟩
    · split at h
      · exact ⟨s.vettedTokens, by simp_all⟩
      · simp only [Prod.mk.injEq] at h
        exact ⟨_, h.1.symm⟩

/-- What a candidate is made of. -/
theorem costCandidate_some {lender : Lender} {topSim : StateSimulator.SimResult} {price : U256}
    {candidate : Candidate} (h : costCandidate cfg env opp lender topSim price = some candidate) :
    candidate.lender = lender ∧ candidate.topSim = topSim ∧
      candidate.l2Fee = BitVec.ofNat 256 topSim.gasUsed.toNat * price ∧
      candidate.netProfit =
        saturatingSub topSim.profit (candidate.l1Fee + candidate.l2Fee) := by
  unfold costCandidate at h
  dsimp only at h
  cases hEstimate : L1DataFee.estimateL1Fee env.scalars cfg.chain
      (buildCalldataWithLender cfg opp lender) with
  | none => simp [hEstimate] at h
  | some estimate =>
      simp only [hEstimate, Option.some.injEq] at h
      subst h
      exact ⟨rfl, rfl, rfl, rfl⟩

/-- The lender's first simulation result passes `is_robust` and makes this candidate, at the
gas price. -/
def Admitted (cfg : Config) (env : CallEnv) (price : U256) (lender : Lender)
    (candidate : Candidate) : Prop :=
  (StateSimulator.runBranchSimulation (env.simulateStrategy lender)).head? =
      some candidate.topSim ∧
    isRobust cfg.minProfitWei (StateSimulator.runBranchSimulation (env.simulateStrategy lender))
      candidate.topSim = true ∧
    candidate.lender = lender ∧
    candidate.l2Fee = BitVec.ofNat 256 candidate.topSim.gasUsed.toNat * price ∧
    candidate.netProfit =
      saturatingSub candidate.topSim.profit (candidate.l1Fee + candidate.l2Fee)

/-- One turn keeps the best candidate or admits one of its lender. -/
theorem considerLender_cases {price : U256} {best best' : Option Candidate} {lender : Lender}
    (h : considerLender cfg env opp price best lender = .ok best') :
    best' = best ∨ ∃ candidate, best' = some candidate ∧
      Admitted cfg env price lender candidate := by
  unfold considerLender at h
  dsimp only at h
  cases hTop : (StateSimulator.runBranchSimulation (env.simulateStrategy lender)).head? with
  | none =>
      simp only [hTop, Except.ok.injEq] at h
      exact .inl h.symm
  | some topSim =>
      simp only [hTop] at h
      by_cases hRobust : isRobust cfg.minProfitWei
          (StateSimulator.runBranchSimulation (env.simulateStrategy lender)) topSim = true
      · rw [if_pos hRobust] at h
        cases hCost : costCandidate cfg env opp lender topSim price with
        | none => simp [hCost] at h
        | some candidate =>
            obtain ⟨hLender, rfl, hFee, hNet⟩ := costCandidate_some hCost
            have hAdmitted : Admitted cfg env price lender candidate :=
              ⟨hTop, hRobust, hLender, hFee, hNet⟩
            simp only [hCost] at h
            cases best with
            | none => exact .inr ⟨candidate, (Except.ok.inj h).symm, hAdmitted⟩
            | some prev =>
                by_cases hMore : candidate.adjustedNet > prev.adjustedNet
                · simp only [hMore, if_true] at h
                  exact .inr ⟨candidate, (Except.ok.inj h).symm, hAdmitted⟩
                · simp only [hMore, if_false] at h
                  exact .inl (Except.ok.inj h).symm
      · rw [if_neg hRobust] at h
        exact .inl (Except.ok.inj h).symm

/-- **The selected candidate was admitted.** -/
theorem selectCandidate_ok {candidate : Candidate}
    (h : selectCandidate cfg env opp = .ok candidate) :
    Admitted cfg env env.totalGasPrice candidate.lender candidate := by
  unfold selectCandidate at h
  cases hFirst : considerLender cfg env opp env.totalGasPrice none .balancer with
  | error stop => simp [hFirst] at h
  | ok first =>
      simp only [hFirst] at h
      cases hSecond : considerLender cfg env opp env.totalGasPrice first .aaveV3 with
      | error stop => simp [hSecond] at h
      | ok second =>
          cases second with
          | none => simp [hSecond] at h
          | some selected =>
              simp only [hSecond, Except.ok.injEq] at h
              subst h
              rcases considerLender_cases hSecond with hKept | ⟨_, hEq, hAdmitted⟩
              · subst hKept
                rcases considerLender_cases hFirst with hNone | ⟨_, hEq, hAdmitted⟩
                · exact absurd hNone (by simp)
                · obtain rfl := Option.some.inj hEq
                  exact hAdmitted.2.2.1.symm ▸ hAdmitted
              · obtain rfl := Option.some.inj hEq
                exact hAdmitted.2.2.1.symm ▸ hAdmitted

/-- The protection check touches the engine only. -/
theorem protect_frame {candidate : Candidate} {r : Except Stop Unit}
    (h : protect cfg env opp candidate s = (s', r)) :
    ∃ engine, s' = { s with biddingEngine := engine } := by
  unfold protect at h
  dsimp only at h
  split at h
  · exact ⟨s.biddingEngine, by simp_all⟩
  · split at h
    · exact ⟨s.biddingEngine, by simp_all⟩
    · rename_i engine _
      refine ⟨engine, ?_⟩
      split at h
      · simp_all
      · split at h
        · simp_all
        · split at h <;> simp_all

/-- **The protection check.**  It passes where the budget holds, the profit exceeds the cost
with the bribe, the simulation succeeded and the net profit is not too small. -/
theorem protect_ok_iff {candidate : Candidate} :
    protect cfg env opp candidate s = (s', .ok ()) ↔
      ∃ bribePct engine,
        s.biddingEngine.calculateBribe cfg.floats.heatRising opp env.firstBribe =
            some (bribePct, engine) ∧
          s' = { s with biddingEngine := engine } ∧
          ¬ (env.cachedBalance ≠ 0 ∧ adjustedTotalCost candidate > env.cachedBalance / 10) ∧
          adjustedTotalCost candidate + bribeWei candidate bribePct <
            candidate.topSim.profit ∧
          candidate.topSim.success = true ∧ 200000000000000 ≤ candidate.netProfit := by
  unfold protect
  dsimp only
  by_cases hBudget : env.cachedBalance ≠ 0 ∧ adjustedTotalCost candidate > env.cachedBalance / 10
  · rw [if_pos hBudget]
    constructor
    · intro h
      simp at h
    · rintro ⟨_, _, _, _, hNot, _⟩
      exact absurd hBudget hNot
  rw [if_neg hBudget]
  cases hBribe : s.biddingEngine.calculateBribe cfg.floats.heatRising opp env.firstBribe with
  | none => simp
  | some bribe =>
      obtain ⟨bribePct, engine⟩ := bribe
      dsimp only
      by_cases hProfit :
          candidate.topSim.profit ≤ adjustedTotalCost candidate + bribeWei candidate bribePct
      · rw [if_pos hProfit]
        have hNot := BitVec.not_lt.mpr hProfit
        constructor
        · intro h
          simp at h
        · rintro ⟨_, _, hEq, _, _, hMore, _⟩
          obtain ⟨rfl, rfl⟩ := Prod.mk.inj (Option.some.inj hEq)
          exact absurd hMore hNot
      rw [if_neg hProfit]
      by_cases hSuccess : candidate.topSim.success = true
      · rw [if_neg (not_not.mpr hSuccess)]
        by_cases hNet : candidate.netProfit < 200000000000000
        · rw [if_pos hNet]
          have hNot := BitVec.not_le.mpr hNet
          constructor
          · intro h
            simp at h
          · rintro ⟨_, _, _, _, _, _, _, hMore⟩
            exact absurd hMore hNot
        · rw [if_neg hNet]
          constructor
          · intro h
            exact ⟨bribePct, engine, rfl, (Prod.mk.inj h).1.symm, hBudget,
              BitVec.not_le.mp hProfit, hSuccess, BitVec.not_lt.mp hNet⟩
          · rintro ⟨_, _, hEq, rfl, _⟩
            obtain ⟨rfl, rfl⟩ := Prod.mk.inj (Option.some.inj hEq)
            rfl
      · rw [if_pos hSuccess]
        simp [hSuccess]

/-- What a passed protection check has established about the engine and the profit. -/
theorem protect_ok {candidate : Candidate}
    (h : protect cfg env opp candidate s = (s', .ok ())) :
    ∃ bribePct engine,
      s.biddingEngine.calculateBribe cfg.floats.heatRising opp env.firstBribe =
          some (bribePct, engine) ∧
        s' = { s with biddingEngine := engine } ∧
        adjustedTotalCost candidate + bribeWei candidate bribePct <
          candidate.topSim.profit := by
  obtain ⟨bribePct, engine, hBribe, hState, _, hProfit, _⟩ := protect_ok_iff.mp h
  exact ⟨bribePct, engine, hBribe, hState, hProfit⟩

/-- The nonce moves by at most one before a call stops at its commitment. -/
theorem commit_error {builder : BuilderConfig} {candidate : Candidate} {stop : Stop}
    (h : commit cfg env opp builder candidate s = (s', .error stop)) :
    (s'.occupiedPools = s.occupiedPools) ∧
      (stop = .panicked ∨ ∃ tx e, env.sign tx = .error e) := by
  unfold commit at h
  dsimp only at h
  split at h
  · simp_all
  · split at h
    · simp only [Prod.mk.injEq, Except.error.injEq] at h
      exact ⟨by rw [← h.1], .inl h.2.symm⟩
    · split at h
      · split at h
        · rename_i e hSign
          simp only [Prod.mk.injEq] at h
          exact ⟨by rw [← h.1], .inr ⟨_, e, hSign⟩⟩
        · simp at h
      · simp only [Prod.mk.injEq, Except.error.injEq] at h
        exact ⟨by rw [← h.1], .inl h.2.symm⟩

/-- What a commitment consists of. -/
theorem commit_ok {builder : BuilderConfig} {candidate : Candidate} {c : Commitment}
    (h : commit cfg env opp builder candidate s = (s', .ok c)) :
    ∃ pct engine suggested,
      (env.meanwhile s.biddingEngine).calculateBribe cfg.floats.heatRising opp
          env.secondBribe = some (pct, engine) ∧
        (env.beforeFee engine).suggestPriorityFee opp env.gasState.priorityFee env.feeReads =
          some suggested ∧
        c.bribe = bribeWei candidate (bumpBribe opp pct) ∧
        c.tx.maxFeePerGas = (env.gasState.baseFee + suggested).toNat ∧
        c.tx.nonce = s.nonce ∧
        s' = { s with biddingEngine := env.beforeFee engine, nonce := s.nonce + 1 } := by
  unfold commit at h
  dsimp only at h
  split at h
  · simp at h
  · rename_i pct engine hBribe
    split at h
    · simp at h
    · rename_i suggested hFee
      split at h
      · rename_i maxFee maxPriority hMaxFee hMaxPriority
        split at h
        · simp at h
        · simp only [Prod.mk.injEq, Except.ok.injEq] at h
          obtain ⟨hs, hc⟩ := h
          subst hc
          exact ⟨pct, engine, suggested, hBribe, hFee, rfl, (toU128_eq_some.mp hMaxFee).2,
            rfl, hs.symm⟩
      · simp at h

/-- The suggested fee fits the field it is signed in. -/
theorem commit_priority {builder : BuilderConfig} {candidate : Candidate} {c : Commitment}
    {pct : Nat} {engine : BiddingEngine} {suggested : U256}
    (h : commit cfg env opp builder candidate s = (s', .ok c))
    (hBribe : (env.meanwhile s.biddingEngine).calculateBribe cfg.floats.heatRising opp
      env.secondBribe = some (pct, engine))
    (hFee : (env.beforeFee engine).suggestPriorityFee opp env.gasState.priorityFee
      env.feeReads = some suggested) : suggested.toNat < 2 ^ 128 := by
  unfold commit at h
  simp only [hBribe, hFee] at h
  split at h
  · rename_i maxPriority _ hMaxPriority
    exact (toU128_eq_some.mp hMaxPriority).1
  · simp at h

/-- The breaker and the pause are the same. -/
def SameBreaker (s s' : ExecState) : Prop :=
  s'.circuitBreaker = s.circuitBreaker ∧ s'.globalPause = s.globalPause

theorem SameBreaker.trans {s'' : ExecState} (h : SameBreaker s s') (h' : SameBreaker s' s'') :
    SameBreaker s s'' :=
  ⟨h'.1.trans h.1, h'.2.trans h.2⟩

/-- A commitment leaves the breaker alone, whether or not it is made. -/
theorem commit_breaker {builder : BuilderConfig} {candidate : Candidate}
    {r : Except Stop Commitment}
    (h : commit cfg env opp builder candidate s = (s', r)) : SameBreaker s s' := by
  unfold commit at h
  dsimp only at h
  split at h
  · rw [← (Prod.mk.inj h).1]
    exact ⟨rfl, rfl⟩
  · split at h
    · rw [← (Prod.mk.inj h).1]
      exact ⟨rfl, rfl⟩
    · split at h
      · split at h
        all_goals
          rw [← (Prod.mk.inj h).1]
          exact ⟨rfl, rfl⟩
      · rw [← (Prod.mk.inj h).1]
        exact ⟨rfl, rfl⟩

/-! ## The broadcast loop -/

/-- The loop keeps the locks and the nonce, sends the commitment's transaction
and bribe only, and ends with the hash or with `NoRelayAccepted`. -/
theorem broadcastLoop_frame (env : CallEnv) (opp : Opportunity) (c : Commitment)
    (s : ExecState) (retries attempts targetBlock : Nat) :
    let result := broadcastLoop env opp c s retries attempts targetBlock
    result.state.occupiedPools = s.occupiedPools ∧ result.state.nonce = s.nonce ∧
      (∀ sent ∈ result.broadcasts, sent.tx = c.tx ∧ sent.bundle.bribe = c.bribe) ∧
      (result.ended = .ok c.signed.hash ∨
        result.ended = .error (.err .noRelayAccepted)) := by
  induction retries generalizing attempts targetBlock with
  | zero =>
      unfold broadcastLoop
      dsimp only
      split
      · simp [settleSuccess, attemptBundle]
      · simp [settleFailure, attemptBundle]
  | succ retries ih =>
      unfold broadcastLoop
      dsimp only
      split
      · simp [settleSuccess, attemptBundle]
      · split
        · obtain ⟨hLocks, hNonce, hSent, hEnded⟩ :=
            ih (attempts + 1) ((targetBlock + 1) % u64Size)
          refine ⟨hLocks, hNonce, ?_, hEnded⟩
          rw [List.forall_mem_cons]
          exact ⟨⟨rfl, rfl⟩, hSent⟩
        · simp [settleFailure, attemptBundle]

/-- The loop ends with the state that settles an acceptance or a rejection, after a
broadcast. -/
theorem broadcastLoop_settles (env : CallEnv) (opp : Opportunity) (c : Commitment)
    (s : ExecState) (retries attempts targetBlock : Nat) :
    let result := broadcastLoop env opp c s retries attempts targetBlock
    result.broadcasts ≠ [] ∧
      ((result.ended = .ok c.signed.hash ∧ result.state = settleSuccess env opp c.bribePct s) ∨
        ∃ replies, result.ended = .error (.err .noRelayAccepted) ∧
          result.state = settleFailure env opp replies s) := by
  induction retries generalizing attempts targetBlock with
  | zero =>
      unfold broadcastLoop
      dsimp only
      split
      · exact ⟨by simp, .inl ⟨rfl, rfl⟩⟩
      · exact ⟨by simp, .inr ⟨_, rfl, rfl⟩⟩
  | succ retries ih =>
      unfold broadcastLoop
      dsimp only
      split
      · exact ⟨by simp, .inl ⟨rfl, rfl⟩⟩
      · split
        · exact ⟨by simp, (ih (attempts + 1) ((targetBlock + 1) % u64Size)).2⟩
        · exact ⟨by simp, .inr ⟨_, rfl, rfl⟩⟩

/-! ## The whole call -/

/-- The call passes every stage before its commitment: the protection check has
left `checked`, and the nonce is taken next. -/
structure Cleared (cfg : Config) (env : CallEnv) (opp : Opportunity) (s : ExecState)
    (builder : BuilderConfig) (targetBlock : Nat) (candidate : Candidate)
    (checked : ExecState) : Prop where
  through : ∃ locked vetted,
    acquire cfg env opp s = (locked, .ok (builder, targetBlock)) ∧
      vet cfg env opp locked = (vetted, .ok ()) ∧
      selectCandidate cfg env opp = .ok candidate ∧
      protect cfg env opp candidate vetted = (checked, .ok ())

theorem Cleared.acquired {builder : BuilderConfig} {targetBlock : Nat}
    {candidate : Candidate} {checked : ExecState}
    (h : Cleared cfg env opp s builder targetBlock candidate checked) :
    targetBlock = (env.currentBlock + 1) % u64Size ∧
      collides s.occupiedPools targetBlock opp.path.hops = false ∧
      checked.occupiedPools =
        lockPools s.occupiedPools targetBlock opp.id opp.path.hops ∧
      checked.nonce = s.nonce := by
  obtain ⟨locked, vetted, hAcquire, hVet, -, hProtect⟩ := h.through
  obtain ⟨hTarget, hFree, rfl⟩ := acquire_ok hAcquire
  obtain ⟨_, rfl⟩ := vet_frame hVet
  obtain ⟨_, rfl⟩ := protect_frame hProtect
  exact ⟨hTarget, hFree, rfl, rfl⟩

theorem Cleared.breaker {builder : BuilderConfig} {targetBlock : Nat}
    {candidate : Candidate} {checked : ExecState}
    (h : Cleared cfg env opp s builder targetBlock candidate checked) :
    (s.circuitBreaker.observe env.openReads).isOpen env.openClock = false ∧
      SameBreaker s checked := by
  obtain ⟨locked, vetted, hAcquire, hVet, -, hProtect⟩ := h.through
  have hClosed := acquire_closed hAcquire
  obtain ⟨-, -, rfl⟩ := acquire_ok hAcquire
  obtain ⟨_, rfl⟩ := vet_frame hVet
  obtain ⟨_, rfl⟩ := protect_frame hProtect
  exact ⟨hClosed, rfl, rfl⟩

/-- A cleared call was checked with the candidate that it selected, and with the bidding
engine it started from. -/
theorem Cleared.checks {builder : BuilderConfig} {targetBlock : Nat}
    {candidate other : Candidate} {checked : ExecState}
    (h : Cleared cfg env opp s builder targetBlock other checked)
    (hSelect : selectCandidate cfg env opp = .ok candidate) :
    other = candidate ∧ ∃ vetted, vetted.biddingEngine = s.biddingEngine ∧
      protect cfg env opp candidate vetted = (checked, .ok ()) := by
  obtain ⟨locked, vetted, hAcquire, hVet, hOther, hProtect⟩ := h.through
  have hSame : other = candidate := by
    rw [hSelect] at hOther
    exact (Except.ok.inj hOther).symm
  subst hSame
  obtain ⟨_, hVetted⟩ := vet_frame hVet
  refine ⟨rfl, vetted, ?_, hProtect⟩
  rw [hVetted, (acquire_ok hAcquire).2.2]

/-- Every locked key stays locked. -/
def LocksKept (s s' : ExecState) : Prop :=
  ∀ key, (s.occupiedPools key).isSome → (s'.occupiedPools key).isSome

theorem LocksKept.of_lockPools {targetBlock : Nat} {id : String} {hops : List Hop}
    (h : s'.occupiedPools = lockPools s.occupiedPools targetBlock id hops) :
    LocksKept s s' := by
  intro key hkey
  rw [h, lockPools_isSome]
  exact .inl hkey

/-- **Inversion.**  A call stops early and keeps the nonce, or it is cleared and
either stops at its commitment or runs the broadcast loop. -/
theorem simulateAndExecute_cases (cfg : Config) (env : CallEnv) (opp : Opportunity)
    (s : ExecState) :
    (∃ s' stop, simulateAndExecute cfg env opp s =
        { state := s', ended := .error stop, broadcasts := [] } ∧
          s'.nonce = s.nonce ∧ LocksKept s s' ∧ SameBreaker s s') ∨
      ∃ builder targetBlock candidate checked,
        Cleared cfg env opp s builder targetBlock candidate checked ∧
          ((∃ s' stop, commit cfg env opp builder candidate checked = (s', .error stop) ∧
              simulateAndExecute cfg env opp s =
                { state := s', ended := .error stop, broadcasts := [] }) ∨
            ∃ s' c, commit cfg env opp builder candidate checked = (s', .ok c) ∧
              simulateAndExecute cfg env opp s =
                broadcastLoop env opp c s' (maxResilienceAttempts - 1) 0 targetBlock) := by
  unfold simulateAndExecute
  rcases hAcquire : acquire cfg env opp s with ⟨locked, stop | ⟨builder, targetBlock⟩⟩
  · have hSame := acquire_error hAcquire
    subst hSame
    exact .inl ⟨locked, stop, rfl, rfl, fun _ h => h, rfl, rfl⟩
  · obtain ⟨hTarget, hFree, hLocked⟩ := acquire_ok hAcquire
    have hKept : LocksKept s locked := LocksKept.of_lockPools (by rw [hLocked])
    have hNonce : locked.nonce = s.nonce := by rw [hLocked]
    have hBreaker : SameBreaker s locked := by rw [hLocked]; exact ⟨rfl, rfl⟩
    rcases hVet : vet cfg env opp locked with ⟨vetted, stop | ⟨⟩⟩
    all_goals
      obtain ⟨_, hVetted⟩ := vet_frame hVet
      have hVettedNonce : vetted.nonce = s.nonce := by
        rw [hVetted]
        exact hNonce
      have hVettedKept : LocksKept s vetted := by
        rw [hVetted]
        exact hKept
      have hVettedBreaker : SameBreaker s vetted := by
        rw [hVetted]
        exact hBreaker
    · exact .inl ⟨vetted, stop, by simp [hVet], hVettedNonce, hVettedKept, hVettedBreaker⟩
    · rcases hSelect : selectCandidate cfg env opp with stop | candidate
      · exact .inl ⟨vetted, stop, by simp [hVet], hVettedNonce, hVettedKept, hVettedBreaker⟩
      · rcases hProtect : protect cfg env opp candidate vetted with ⟨checked, stop | ⟨⟩⟩
        · obtain ⟨_, hChecked⟩ := protect_frame hProtect
          refine .inl ⟨checked, stop, by simp [hVet, hProtect], ?_, ?_, ?_⟩
          · rw [hChecked]
            exact hVettedNonce
          · rw [hChecked]
            exact hVettedKept
          · rw [hChecked]
            exact hVettedBreaker
        · right
          refine ⟨builder, targetBlock, candidate, checked,
            ⟨⟨locked, vetted, hAcquire, hVet, hSelect, hProtect⟩⟩, ?_⟩
          rcases hCommit : commit cfg env opp builder candidate checked with ⟨s', stop | c⟩
          · exact .inl ⟨s', stop, rfl, by simp [hVet, hProtect, hCommit]⟩
          · exact .inr ⟨s', c, rfl, by simp [hVet, hProtect, hCommit]⟩

/-- What is broadcast comes from the loop of a cleared and committed call. -/
theorem broadcasts_cases {sent : Broadcast}
    (hSent : sent ∈ (simulateAndExecute cfg env opp s).broadcasts) :
    ∃ builder targetBlock candidate checked s' c,
      Cleared cfg env opp s builder targetBlock candidate checked ∧
        commit cfg env opp builder candidate checked = (s', .ok c) ∧
        simulateAndExecute cfg env opp s =
          broadcastLoop env opp c s' (maxResilienceAttempts - 1) 0 targetBlock := by
  rcases simulateAndExecute_cases cfg env opp s with
    ⟨_, _, hStop, -⟩ | ⟨builder, targetBlock, candidate, checked, hCleared, hRest⟩
  · rw [hStop] at hSent
    simp at hSent
  · rcases hRest with ⟨_, _, -, hStop⟩ | ⟨s', c, hCommit, hLoop⟩
    · rw [hStop] at hSent
      simp at hSent
    · exact ⟨builder, targetBlock, candidate, checked, s', c, hCleared, hCommit, hLoop⟩

/-- The next call starts from the state that this one leaves. -/
theorem callStep_next {call : CallEnv × Opportunity} (h : (callStep cfg s call).next = some s') :
    s' = (simulateAndExecute cfg call.1 call.2 s).state := by
  unfold callStep at h
  dsimp only at h
  split at h
  · cases h
  · exact (Option.some.inj h).symm

/-! ## A sample call -/

/-- A configured executor with integer stand-ins for the float expressions. -/
def sampleConfig : Config where
  contractAddress := 0xC0
  minProfitWei := 1
  chain := .base
  bundleBuilder := some { signer := 0x5E, chainId := 8453 }
  floats := { heatRising := fun _ _ => false, gasTimes11 := fun gas => gas + gas / 10 }
  showAddress := fun _ => ""

/-- WETH to USDC and back over two pools. -/
def sampleOpportunity (id : String) (firstPool secondPool : Address) : Opportunity where
  id := id
  path :=
    { hops :=
        [{ pool := firstPool, poolAddress := firstPool, tokenIn := Constants.tokenWeth,
           tokenOut := Constants.tokenUsdc, dexType := .uniswapV2, dexName := .uniswapV2,
           zeroForOne := true, isStable := false },
         { pool := secondPool, poolAddress := secondPool, tokenIn := Constants.tokenUsdc,
           tokenOut := Constants.tokenWeth, dexType := .uniswapV2, dexName := .uniswapV2,
           zeroForOne := false, isStable := false }]
      totalGas := 300000 }
  expectedProfit := 1000000000000000
  gasEstimate := 300000
  inputToken := Constants.tokenWeth
  inputAmount := 1000000000000000000
  isWhaleTrigger := false
  chain := .base
  triggerGasPrice := none
  triggerSender := none
  pendingTxs := []

/-- Three branches that all earn 0.001 ETH for 200000 gas. -/
def sampleSimulation (branch : StateSimulator.SimulationBranch) :
    Option StateSimulator.SimResult :=
  some
    { profit := 1000000000000000, gasUsed := 200000, branch := branch, success := true,
      accessList := [] }

/-- A quiet environment: every gate open, the given base fee and relay replies. -/
def sampleEnv (currentBlock : Nat) (baseFee : U256) (relays : Nat → RelayReplies) :
    CallEnv where
  currentBlock := currentBlock
  openReads :=
    { lastLatencyMs := 0, currentBalance := 0, manualKillSwitch := false,
      sequencerStalled := false }
  openClock := 1000
  lastBlockTimestamp := 0
  freshnessClock := 1000
  uniqueTraders := fun _ => none
  checkHoneypot := fun _ _ _ => .ok 0
  simulateStrategy := fun _ => sampleSimulation
  gasState := { baseFee := baseFee, priorityFee := 0, maxPriorityFeePerGas := 0 }
  scalars :=
    { baseFeeScalar := 0, blobFeeScalar := 0, l1BaseFee := 0, l1BlobFee := 0, decimals := 6,
      lastUpdated := 0 }
  cachedBalance := 0
  firstBribe := { now := 0, elapsedNow := 0, baseFee := baseFee }
  meanwhile := id
  secondBribe := { now := 0, elapsedNow := 0, baseFee := baseFee }
  beforeFee := id
  feeReads := { baseFee := baseFee, baseFeeAgain := baseFee }
  sign := fun tx => .ok { rlp := [0x02], hash := BitVec.ofNat 256 tx.nonce.toNat }
  relays := relays
  outcomeClock := 1001
  outcomeInstant := 0

/-- The executor right after its construction, at the given chain nonce. -/
def freshState (nonce : UInt64) : ExecState where
  occupiedPools := fun _ => none
  vettedTokens := fun _ => false
  nonce := nonce
  biddingEngine := BiddingEngine.new 0
  circuitBreaker := CircuitBreaker.new 5 30
  globalPause := false

end SovereignShadow.Ports.ExecutorStages
