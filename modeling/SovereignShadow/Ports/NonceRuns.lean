import SovereignShadow.Ports.ExecutorStages

/-!
# Nonces over runs

A call takes its nonce after the protection check and before the narrowing of
the fees, the signature and the broadcasts, and nothing gives it back
(`NonceManager::resync` is never called).  Over a run the accepted nonces are
contiguous as long as no call fails after taking its nonce.

## Main results

* `accepted_contiguous` — runs whose calls all settle.
* `not_accepted_contiguous` — one rejected bundle leaves a gap for ever.
-/

namespace SovereignShadow.Ports.NonceRuns

open SovereignShadow.Verified.Runs
open SovereignShadow.Ports.Models
open SovereignShadow.Ports.FlashLoanExecutor
open SovereignShadow.Ports.ExecutorStages

/-- The nonce of the transaction that the call got accepted, if it did. -/
def acceptedNonce (log : CallLog) : List UInt64 :=
  match log.result.ended with
  | .ok _ => (log.result.broadcasts.getLast?.map fun sent => sent.tx.nonce).toList
  | .error _ => []

/-- The accepted nonces of a run, in order. -/
def acceptedNonces (cfg : Config) (s : ExecState) (calls : List (CallEnv × Opportunity)) :
    List UInt64 :=
  (outputs (callStep cfg) s calls).flatMap acceptedNonce

/-- A call that returns an error leaves the counter as it was. -/
def ErrKeepsNonce (log : CallLog) : Prop :=
  ∀ e, log.result.ended = .error (.err e) → log.result.state.nonce = log.before.nonce

/-- Some relay accepts the first bundle, or all reject it as stale and some relay
accepts the second. -/
def RelaysSettle (env : CallEnv) : Prop :=
  accepted (env.relays 0) = true ∨
    (isStale (env.relays 0) = true ∧ accepted (env.relays 1) = true)

/-- No failure after the nonce: a call that clears the protection check is signed
and accepted. -/
def Settles (cfg : Config) (s : ExecState) (call : CallEnv × Opportunity) : Prop :=
  ∀ builder targetBlock candidate checked,
    Cleared cfg call.1 call.2 s builder targetBlock candidate checked →
      (∀ tx, ∃ signed, call.1.sign tx = .ok signed) ∧ RelaysSettle call.1

/-- When the relays settle, the loop ends with the transaction accepted. -/
theorem broadcastLoop_settled {env : CallEnv} (hRelays : RelaysSettle env)
    (opp : Opportunity) (c : Commitment) (s : ExecState) (targetBlock : Nat) :
    let result := broadcastLoop env opp c s (maxResilienceAttempts - 1) 0 targetBlock
    result.ended = .ok c.signed.hash ∧
      result.broadcasts.getLast?.map (fun sent => sent.tx.nonce) = some c.tx.nonce := by
  unfold maxResilienceAttempts
  rcases hRelays with hFirst | ⟨hStale, hSecond⟩
  · simp [broadcastLoop, hFirst, attemptBundle]
  · by_cases hFirst : accepted (env.relays 0) = true
    · simp [broadcastLoop, hFirst, attemptBundle]
    · simp [broadcastLoop, hFirst, hStale, hSecond, attemptBundle]

/-- **Step lemma.**  A settling call either ends in an error and keeps the
counter, or ends the process, or is accepted with the counter's nonce and moves
the counter by one. -/
theorem settled_step {cfg : Config} {s : ExecState} {call : CallEnv × Opportunity}
    (hSettles : Settles cfg s call) :
    let result := simulateAndExecute cfg call.1 call.2 s
    (∃ stop, result.ended = .error stop ∧
        (stop = .panicked ∨ result.state.nonce = s.nonce)) ∨
      (∃ hash, result.ended = .ok hash) ∧
        result.broadcasts.getLast?.map (fun sent => sent.tx.nonce) = some s.nonce ∧
        result.state.nonce = s.nonce + 1 := by
  intro result
  rcases simulateAndExecute_cases cfg call.1 call.2 s with
    ⟨s', stop, hStop, hNonce, -⟩ | ⟨builder, targetBlock, candidate, checked, hCleared, hRest⟩
  · left
    refine ⟨stop, ?_, .inr ?_⟩
    · simp only [result, hStop]
    · simp only [result, hStop, hNonce]
  obtain ⟨hSign, hRelays⟩ := hSettles builder targetBlock candidate checked hCleared
  have hNonce := hCleared.acquired.2.2.2
  rcases hRest with ⟨s', stop, hCommit, hStop⟩ | ⟨s', c, hCommit, hLoop⟩
  · left
    rcases (commit_error hCommit).2 with hPanic | ⟨tx, e, hErr⟩
    · refine ⟨stop, ?_, .inl hPanic⟩
      simp only [result, hStop]
    · obtain ⟨signed, hOk⟩ := hSign tx
      rw [hOk] at hErr
      cases hErr
  · right
    obtain ⟨_, _, _, -, -, -, -, hTxNonce, hState⟩ := commit_ok hCommit
    obtain ⟨hEnded, hLast⟩ := broadcastLoop_settled hRelays call.2 c s' targetBlock
    have hKept := (broadcastLoop_frame call.1 call.2 c s' (maxResilienceAttempts - 1) 0
      targetBlock).2.1
    refine ⟨⟨c.signed.hash, ?_⟩, ?_, ?_⟩
    · simp only [result, hLoop, hEnded]
    · simp only [result, hLoop, hLast, hTxNonce, hNonce]
    · simp only [result, hLoop, hKept]
      rw [hState, ← hNonce]

/-- **No gaps in settling runs.**  From any state, the accepted nonces are the
consecutive ones from the counter on, and every call that returns an error
leaves the counter as it was. -/
theorem accepted_contiguous (cfg : Config) (s : ExecState)
    (calls : List (CallEnv × Opportunity))
    (hSettles : Allowed (callStep cfg) (Settles cfg) s calls) :
    (∃ k, acceptedNonces cfg s calls =
        (List.range' 0 k).map fun i => s.nonce + UInt64.ofNat i) ∧
      ∀ log ∈ outputs (callStep cfg) s calls, ErrKeepsNonce log := by
  constructor
  · refine outputs_count (fun s' c => s'.nonce = s.nonce + UInt64.ofNat c) ?_ (by simp)
      hSettles
    intro s' call c hAt hOk
    rcases settled_step hOk with ⟨stop, hEnded, hKept⟩ | ⟨⟨hash, hEnded⟩, hLast, hMoved⟩
    · refine ⟨0, ?_, ?_⟩
      · simp only [callStep, acceptedNonce, hEnded, List.range'_zero, List.map_nil]
      · intro s'' hNext
        rcases hKept with rfl | hKept
        · simp [callStep, hEnded] at hNext
        · cases stop with
          | panicked => simp [callStep, hEnded] at hNext
          | err e =>
              simp only [callStep, hEnded, Option.some.injEq] at hNext
              rw [← hNext, hKept, hAt, Nat.add_zero]
    · refine ⟨1, ?_, ?_⟩
      · simp only [callStep, acceptedNonce, hEnded, hLast, hAt, List.range'_one,
          List.map_cons, List.map_nil, Option.toList_some]
      · intro s'' hNext
        simp only [callStep, hEnded, Option.some.injEq] at hNext
        rw [← hNext, hMoved, hAt, UInt64.ofNat_add]
        exact UInt64.add_assoc _ _ _
  · refine outputs_forall (fun _ => True) ?_ trivial hSettles
    intro s' call _ hOk
    refine ⟨?_, fun _ _ => trivial⟩
    intro e hErr
    rcases settled_step hOk with ⟨stop, hEnded, hKept⟩ | ⟨⟨hash, hEnded⟩, -, -⟩
    · have hStop : stop = .err e := by
        have : (Except.error stop : Except Stop B256) = .error (.err e) := hEnded.symm.trans hErr
        exact Except.error.inj this
      rcases hKept with rfl | hKept
      · cases hStop
      · exact hKept
    · have : (Except.ok hash : Except Stop B256) = .error (.err e) := hEnded.symm.trans hErr
      cases this

/-- Two opportunities over the same pools at two blocks, the first sent twice. -/
def settlingCalls : List (CallEnv × Opportunity) :=
  [(sampleEnv 100 200000000 fun attempt =>
      if attempt = 0 then [.error "block already passed"] else [.ok ()],
    sampleOpportunity "a" 1 2),
   (sampleEnv 102 200000000 fun _ => [.error "", .ok ()], sampleOpportunity "b" 1 2)]

/-- A block skip and a plain acceptance take nonces 7 and 8. -/
theorem settlingCalls_contiguous :
    acceptedNonces sampleConfig (freshState 7) settlingCalls = [7, 8] ∧
      (∃ k, acceptedNonces sampleConfig (freshState 7) settlingCalls =
        (List.range' 0 k).map fun i => (freshState 7).nonce + UInt64.ofNat i) ∧
      ∀ log ∈ outputs (callStep sampleConfig) (freshState 7) settlingCalls,
        ErrKeepsNonce log := by
  refine ⟨by decide +kernel, accepted_contiguous sampleConfig (freshState 7) settlingCalls ?_⟩
  have hAll : ∀ call ∈ settlingCalls,
      (∀ tx, ∃ signed, call.1.sign tx = .ok signed) ∧ RelaysSettle call.1 := by
    intro call hCall
    have hCases : call = settlingCalls.get ⟨0, by decide⟩ ∨
        call = settlingCalls.get ⟨1, by decide⟩ := by
      simpa [settlingCalls] using hCall
    rcases hCases with rfl | rfl
    · exact ⟨fun tx => ⟨_, rfl⟩, .inr ⟨by decide, by decide⟩⟩
    · exact ⟨fun tx => ⟨_, rfl⟩, .inl (by decide)⟩
  exact allowed_of_forall (fun call hCall _ _ _ _ _ _ => hAll call hCall) (freshState 7)

/-- **A gap.**  A bundle that every relay rejects has used up nonce 0, so the next
accepted transaction carries nonce 1. -/
theorem not_accepted_contiguous :
    ¬ ∀ (cfg : Config) (s : ExecState) (calls : List (CallEnv × Opportunity)), ∃ k,
      acceptedNonces cfg s calls =
        (List.range' 0 k).map fun i => s.nonce + UInt64.ofNat i := by
  intro hAll
  have hRun : acceptedNonces sampleConfig (freshState 0)
      [(sampleEnv 100 200000000 fun _ => [.error "bundle rejected"],
          sampleOpportunity "a" 1 2),
        (sampleEnv 101 200000000 fun _ => [.ok ()], sampleOpportunity "b" 1 2)] = [1] := by
    decide +kernel
  obtain ⟨k, hk⟩ := hAll sampleConfig (freshState 0)
    [(sampleEnv 100 200000000 fun _ => [.error "bundle rejected"],
        sampleOpportunity "a" 1 2),
      (sampleEnv 101 200000000 fun _ => [.ok ()], sampleOpportunity "b" 1 2)]
  rw [hRun] at hk
  cases k with
  | zero => simp at hk
  | succ k =>
      rw [List.range'_succ, List.map_cons] at hk
      have hHead : (1 : UInt64) = 0 + UInt64.ofNat 0 := (List.cons.inj hk).1
      revert hHead
      decide

end SovereignShadow.Ports.NonceRuns
