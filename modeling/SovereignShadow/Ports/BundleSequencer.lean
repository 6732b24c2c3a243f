import SovereignShadow.Ports.ExecutorStages

/-!
# The bundle sequencer over runs

The lock table is filled once, for the block after the tracker's.  When every
relay rejects the first bundle as stale, the call broadcasts again for the next
block without locking anything there.  Over a run whose calls never skip a block
two calls never broadcast for the same block over a common pool.

## Main results

* `pools_disjoint` — runs without a block skip.
* `not_pools_disjoint` — a skipped block meets the next call.
-/

namespace SovereignShadow.Ports.BundleSequencer

open SovereignShadow.Verified.Runs
open SovereignShadow.Ports.Models
open SovereignShadow.Ports.FlashLoanExecutor
open SovereignShadow.Ports.ExecutorStages

/-- The call has broadcast for block `key.1`, over a path with pool `key.2`. -/
def Occupies (log : CallLog) (key : Nat × Address) : Prop :=
  ∃ sent ∈ log.result.broadcasts, LockKey log.opp sent.bundle.targetBlock key

/-- Calls of different opportunities never occupy the same pool of the same block. -/
def PoolsDisjoint (logs : List CallLog) : Prop :=
  logs.Pairwise fun earlier later =>
    earlier.opp ≠ later.opp → ∀ key, Occupies earlier key → ¬ Occupies later key

/-- A call that gets to its first broadcast is accepted there, or rejected for
another reason than staleness. -/
def NoSkip (cfg : Config) (s : ExecState) (call : CallEnv × Opportunity) : Prop :=
  ∀ builder targetBlock candidate checked,
    Cleared cfg call.1 call.2 s builder targetBlock candidate checked →
      accepted (call.1.relays 0) = true ∨ isStale (call.1.relays 0) = false

/-- Without a skip there is one broadcast, for the locked block. -/
theorem broadcastLoop_noSkip {env : CallEnv}
    (hNoSkip : accepted (env.relays 0) = true ∨ isStale (env.relays 0) = false)
    (opp : Opportunity) (c : Commitment) (s : ExecState) (targetBlock : Nat) :
    (broadcastLoop env opp c s (maxResilienceAttempts - 1) 0 targetBlock).broadcasts =
      [attemptBundle c targetBlock] := by
  unfold maxResilienceAttempts
  by_cases hFirst : accepted (env.relays 0) = true
  · simp [broadcastLoop, hFirst]
  · have hFresh : isStale (env.relays 0) = false := by
      rcases hNoSkip with h | h
      · exact absurd h hFirst
      · exact h
    simp [broadcastLoop, hFirst, hFresh]

/-- The locks after a call contain the locks before it. -/
theorem simulateAndExecute_keeps (cfg : Config) (env : CallEnv) (opp : Opportunity)
    (s : ExecState) : LocksKept s (simulateAndExecute cfg env opp s).state := by
  rcases simulateAndExecute_cases cfg env opp s with
    ⟨s', stop, hStop, -, hKept, -⟩ | ⟨builder, targetBlock, candidate, checked, hCleared, hRest⟩
  · rw [hStop]
    exact hKept
  have hLocks := hCleared.acquired.2.2.1
  rcases hRest with ⟨s', stop, hCommit, hStop⟩ | ⟨s', c, hCommit, hLoop⟩
  · rw [hStop]
    exact LocksKept.of_lockPools ((commit_error hCommit).1.trans hLocks)
  · obtain ⟨_, _, _, -, -, -, -, -, hState⟩ := commit_ok hCommit
    have hFrame := (broadcastLoop_frame env opp c s' (maxResilienceAttempts - 1) 0
      targetBlock).1
    have hMoved : s'.occupiedPools = checked.occupiedPools := by rw [hState]
    rw [hLoop]
    exact LocksKept.of_lockPools (hFrame.trans (hMoved.trans hLocks))

/-- **Step lemma.**  Without a skip, a call occupies only keys that were free in
the state it met, and all of them are locked in the state it leaves. -/
theorem occupies_step {cfg : Config} {s : ExecState} {call : CallEnv × Opportunity}
    (hNoSkip : NoSkip cfg s call) {key : Nat × Address}
    (hKey : Occupies (callStep cfg s call).output key) :
    ¬ (s.occupiedPools key).isSome ∧
      ((simulateAndExecute cfg call.1 call.2 s).state.occupiedPools key).isSome := by
  obtain ⟨sent, hSent, hLock⟩ := hKey
  change sent ∈ (simulateAndExecute cfg call.1 call.2 s).broadcasts at hSent
  change LockKey call.2 sent.bundle.targetBlock key at hLock
  rcases simulateAndExecute_cases cfg call.1 call.2 s with
    ⟨_, _, hStop, -⟩ | ⟨builder, targetBlock, candidate, checked, hCleared, hRest⟩
  · rw [hStop] at hSent
    simp at hSent
  rcases hRest with ⟨_, _, -, hStop⟩ | ⟨s', c, hCommit, hLoop⟩
  · rw [hStop] at hSent
    simp at hSent
  obtain ⟨-, hFree, hLocks, -⟩ := hCleared.acquired
  have hFirst := hNoSkip builder targetBlock candidate checked hCleared
  rw [hLoop, broadcastLoop_noSkip hFirst, List.mem_singleton] at hSent
  have hKeyAt : LockKey call.2 targetBlock key := by
    rw [hSent] at hLock
    exact hLock
  constructor
  · intro hTaken
    obtain ⟨hBlock, hop, hHop, hPool⟩ := hKeyAt
    have hCollides : collides s.occupiedPools targetBlock call.2.path.hops = true := by
      rw [collides, List.any_eq_true]
      refine ⟨hop, hHop, ?_⟩
      rw [hPool, ← hBlock]
      exact hTaken
    rw [hFree] at hCollides
    cases hCollides
  · obtain ⟨_, _, _, -, -, -, -, -, hState⟩ := commit_ok hCommit
    rw [hLoop, (broadcastLoop_frame call.1 call.2 c s' (maxResilienceAttempts - 1) 0
      targetBlock).1, hState]
    change (checked.occupiedPools key).isSome
    rw [hLocks, lockPools_isSome]
    exact .inr hKeyAt

/-- Without skips, a pool of a block is occupied by one call at most. -/
theorem occupies_once (cfg : Config) (s : ExecState) (calls : List (CallEnv × Opportunity))
    (hNoSkip : Allowed (callStep cfg) (NoSkip cfg) s calls) :
    (outputs (callStep cfg) s calls).Pairwise fun earlier later =>
      ∀ key, Occupies earlier key → ¬ Occupies later key := by
  refine outputs_pairwise (fun state key => (state.occupiedPools key).isSome) ?_ ?_ ?_ s
    hNoSkip
  · intro s' call key hOk hOwn
    exact (occupies_step hOk hOwn).1
  · intro s' call s'' key _ hNext hClaimed
    rw [callStep_next hNext]
    exact simulateAndExecute_keeps cfg call.1 call.2 s' key hClaimed
  · intro s' call s'' key hOk hNext hOwn
    rw [callStep_next hNext]
    exact (occupies_step hOk hOwn).2

/-- **No shared pools without skips.**  In a run from any state, bundles of two
opportunities that are broadcast for the same block have no pool in common. -/
theorem pools_disjoint (cfg : Config) (s : ExecState) (calls : List (CallEnv × Opportunity))
    (hNoSkip : Allowed (callStep cfg) (NoSkip cfg) s calls) :
    PoolsDisjoint (outputs (callStep cfg) s calls) := by
  refine List.Pairwise.imp ?_ (occupies_once cfg s calls hNoSkip)
  intro earlier later hOnce _
  exact hOnce

/-- Two opportunities that share pool 2, at consecutive blocks. -/
def sequencedCalls (firstReply : String) : List (CallEnv × Opportunity) :=
  [(sampleEnv 100 200000000 fun attempt =>
      if attempt = 0 then [.error firstReply] else [.ok ()], sampleOpportunity "a" 1 2),
   (sampleEnv 101 200000000 fun _ => [.ok ()], sampleOpportunity "b" 3 2)]

/-- A plain rejection is not followed by a second broadcast. -/
theorem sequencedCalls_disjoint :
    PoolsDisjoint (outputs (callStep sampleConfig) (freshState 0)
      (sequencedCalls "bundle rejected")) := by
  refine pools_disjoint sampleConfig (freshState 0) (sequencedCalls "bundle rejected") ?_
  refine allowed_of_forall (fun call hCall _ _ _ _ _ _ => ?_) (freshState 0)
  have hCases : call = (sequencedCalls "bundle rejected").get ⟨0, by decide⟩ ∨
      call = (sequencedCalls "bundle rejected").get ⟨1, by decide⟩ := by
    simpa [sequencedCalls] using hCall
  rcases hCases with rfl | rfl
  · exact .inr (by decide)
  · exact .inl (by decide)

/-- The blocks that a call has broadcast for. -/
def blocks (log : CallLog) : List Nat :=
  log.result.broadcasts.map fun sent => sent.bundle.targetBlock

theorem occupies_of_blocks {log : CallLog} {block : Nat} {pool : Address}
    (hBlock : block ∈ blocks log) (hPool : ∃ hop ∈ log.opp.path.hops, hop.poolAddress = pool) :
    Occupies log (block, pool) := by
  obtain ⟨sent, hSent, hTarget⟩ := List.mem_map.mp hBlock
  exact ⟨sent, hSent, hTarget.symm, hPool⟩

/-- **A shared pool.**  The first call skips from block 101 to block 102 and holds
no lock there, so the second call broadcasts for block 102 over the same pool. -/
theorem not_pools_disjoint :
    ¬ ∀ (cfg : Config) (s : ExecState) (calls : List (CallEnv × Opportunity)),
      PoolsDisjoint (outputs (callStep cfg) s calls) := by
  intro hAll
  have hPair := hAll sampleConfig (freshState 0) (sequencedCalls "stale block")
  have hRun : (outputs (callStep sampleConfig) (freshState 0)
      (sequencedCalls "stale block")).map (fun log => (log.opp, blocks log)) =
      [(sampleOpportunity "a" 1 2, [101, 102]), (sampleOpportunity "b" 3 2, [102])] := by
    decide +kernel
  generalize outputs (callStep sampleConfig) (freshState 0) (sequencedCalls "stale block") =
    logs at hPair hRun
  rcases logs with _ | ⟨first, _ | ⟨second, rest⟩⟩
  · simp at hRun
  · simp at hRun
  · simp only [List.map_cons, List.cons.injEq, Prod.mk.injEq] at hRun
    obtain ⟨⟨hOpp₁, hBlocks₁⟩, ⟨hOpp₂, hBlocks₂⟩, -⟩ := hRun
    have hFirst : Occupies first (102, 2) :=
      occupies_of_blocks (by rw [hBlocks₁]; decide) (by rw [hOpp₁]; decide)
    have hSecond : Occupies second (102, 2) :=
      occupies_of_blocks (by rw [hBlocks₂]; decide) (by rw [hOpp₂]; decide)
    have hDiffer : first.opp ≠ second.opp := by
      rw [hOpp₁, hOpp₂]
      decide
    exact (List.pairwise_cons.mp hPair).1 second (List.mem_cons_self ..) hDiffer _ hFirst
      hSecond

end SovereignShadow.Ports.BundleSequencer
