import SovereignShadow.Ports.ExecutorStages

/-!
# The circuit breaker over runs

The main loop takes one opportunity at a time: it skips it while `GLOBAL_PAUSE` is set,
and else makes one call.  Every rejection is recorded as a slippage or as another failure,
so the cooldown is never scaled, and the count since the last acceptance is the sum that
`is_open` compares and the veto reads.

## Main results

* `call_cases` — what one call does to the breaker.
* `turn_spec` — the step lemma of the invariant `Tracks`.
* `breaker_over_runs` — few rejections, a pause for good, and spaced failures.
-/

namespace SovereignShadow.Ports.BreakerRuns

open SovereignShadow.Verified.Runs
open SovereignShadow.Ports.Models
open SovereignShadow.Ports.Constants
open SovereignShadow.Ports.Bidding
open SovereignShadow.Ports.Breaker
open SovereignShadow.Ports.FlashLoanExecutor
open SovereignShadow.Ports.ExecutorStages

/-! ## The main loop -/

/-- One opportunity that the main loop has taken, with the call's result if it made one. -/
structure Turn where
  env : CallEnv
  result : Option CallResult

/-- The main loop's branch for an opportunity: the pause, the profit in ether, the dry run,
the call.  The conversion of the profit panics beyond 128 bits. -/
def mainStep (cfg : Config) (s : ExecState) (call : CallEnv × Opportunity) :
    Step ExecState Turn :=
  let skipped : Turn := { env := call.1, result := none }
  if s.globalPause then { output := skipped, next := some s }
  else
    match toU128 call.2.expectedProfit with
    | none => { output := skipped, next := none }
    | some _ =>
        if cfg.contractAddress = 0 then { output := skipped, next := some s }
        else
          { output := { env := call.1, result := some (callStep cfg s call).output.result }
            next := (callStep cfg s call).next }

/-- How a turn ends, for the breaker. -/
inductive Ending where
  | accepted | rejected | quiet
  deriving DecidableEq, Repr

/-- A bundle was accepted, or bundles were sent and the call ended in `NoRelayAccepted`. -/
def Turn.ending (turn : Turn) : Ending :=
  match turn.result with
  | none => .quiet
  | some result =>
      match result.ended with
      | .ok _ => .accepted
      | .error stop =>
          if stop = .err .noRelayAccepted ∧ result.broadcasts ≠ [] then .rejected else .quiet

def Turn.broadcasts (turn : Turn) : List Broadcast :=
  match turn.result with
  | none => []
  | some result => result.broadcasts

/-- The turn left `GLOBAL_PAUSE` set. -/
def Turn.Paused (turn : Turn) : Prop :=
  ∃ result, turn.result = some result ∧ result.state.globalPause = true

/-- The failure time that the turn left recorded. -/
def Turn.recordedAt (turn : Turn) : ℕ :=
  match turn.result with
  | none => 0
  | some result => result.state.circuitBreaker.lastFailureTime

/-- The rejections since the last acceptance. -/
def streak (turns : List Turn) : ℕ :=
  turns.foldl
    (fun count turn =>
      match turn.ending with
      | .accepted => 0
      | .rejected => count + 1
      | .quiet => count)
    0

/-! ## One call -/

/-- **What a call does to the breaker.**  It is accepted and resets the counts, or it is
rejected after passing `is_open` and records a slippage or another failure, or it sends
nothing and leaves the breaker alone. -/
theorem call_cases (cfg : Config) (env : CallEnv) (opp : Opportunity) (s : ExecState) :
    let result := simulateAndExecute cfg env opp s
    ((∃ hash, result.ended = .ok hash) ∧
        result.state.circuitBreaker = s.circuitBreaker.recordSuccess ∧
        result.state.globalPause = s.globalPause) ∨
      (result.ended = .error (.err .noRelayAccepted) ∧ result.broadcasts ≠ [] ∧
        (s.circuitBreaker.observe env.openReads).isOpen env.openClock = false ∧
        ∃ ftype, (ftype = .slippage ∨ ftype = .other) ∧
          result.state.circuitBreaker =
            s.circuitBreaker.recordFailure ftype env.outcomeClock ∧
          result.state.globalPause =
            (s.globalPause || (s.circuitBreaker.recordFailure ftype env.outcomeClock).vetoes)) ∨
      ((∃ stop, result.ended = .error stop) ∧ result.broadcasts = [] ∧
        SameBreaker s result.state) := by
  intro result
  have hResult : result = simulateAndExecute cfg env opp s := rfl
  clear_value result
  rcases simulateAndExecute_cases cfg env opp s with
    ⟨s', stop, hStop, -, -, hSame⟩ | ⟨builder, targetBlock, candidate, checked, hCleared, hRest⟩
  · rw [hStop] at hResult
    subst hResult
    exact .inr (.inr ⟨⟨stop, rfl⟩, rfl, hSame⟩)
  obtain ⟨hClosed, hChecked⟩ := hCleared.breaker
  rcases hRest with ⟨s', stop, hCommit, hStop⟩ | ⟨s', c, hCommit, hLoop⟩
  · rw [hStop] at hResult
    subst hResult
    exact .inr (.inr ⟨⟨stop, rfl⟩, rfl, hChecked.trans (commit_breaker hCommit)⟩)
  obtain ⟨hBreaker, hPause⟩ := hChecked.trans (commit_breaker hCommit)
  obtain ⟨hSent, hSettled⟩ :=
    broadcastLoop_settles env opp c s' (maxResilienceAttempts - 1) 0 targetBlock
  rw [← hLoop, ← hResult] at hSent hSettled
  rcases hSettled with ⟨hEnded, hState⟩ | ⟨replies, hEnded, hState⟩
  · left
    rw [hState, ← hBreaker, ← hPause]
    exact ⟨⟨c.signed.hash, hEnded⟩, rfl, rfl⟩
  · right
    left
    refine ⟨hEnded, hSent, hClosed, rejectionType replies, ?_, ?_⟩
    · unfold rejectionType
      dsimp only
      split
      · exact .inl rfl
      · exact .inr rfl
    · rw [hState, ← hBreaker, ← hPause]
      exact ⟨rfl, rfl⟩

/-- A breaker with enough failures is closed after the cooldown only. -/
theorem cooldown_le_of_closed {breaker : CircuitBreaker} {reads : BreakerReads} {now : ℕ}
    (hClosed : (breaker.observe reads).isOpen now = false)
    (hEnough : breaker.maxFailures ≤ breaker.total) :
    breaker.baseCooldownSecs * ((1 + breaker.failureCounts .outOfGas) % u64Size) % u64Size ≤
      now - breaker.lastFailureTime := by
  have hTotal : ¬ (breaker.observe reads).total < (breaker.observe reads).maxFailures :=
    not_lt.mpr hEnough
  unfold CircuitBreaker.isOpen at hClosed
  rw [if_neg hTotal] at hClosed
  split at hClosed
  · simp at hClosed
  · split at hClosed
    · simp at hClosed
    · split at hClosed
      · simp at hClosed
      · split at hClosed
        · simp at hClosed
        · exact not_lt.mp (of_decide_eq_false hClosed)

/-! ## One turn -/

/-- A rejected turn: the breaker was closed, and a slippage or another failure is recorded. -/
structure Rejects (env : CallEnv) (s : ExecState) (turn : Turn) (s' : ExecState) : Prop where
  ending : turn.ending = .rejected
  closed : (s.circuitBreaker.observe env.openReads).isOpen env.openClock = false
  recorded : ∃ ftype, (ftype = .slippage ∨ ftype = .other) ∧
    s'.circuitBreaker = s.circuitBreaker.recordFailure ftype env.outcomeClock
  veto : s'.globalPause = s'.circuitBreaker.vetoes
  recordedAt : turn.recordedAt = env.outcomeClock

/-- **Inversion of a turn.**  While paused, and whenever nothing is sent, the breaker stays;
else the turn is accepted or rejected. -/
theorem mainStep_cases (cfg : Config) (s : ExecState) (call : CallEnv × Opportunity) :
    let turn := (mainStep cfg s call).output
    (turn.ending = .quiet ∧ turn.broadcasts = [] ∧
        ∀ s', (mainStep cfg s call).next = some s' → SameBreaker s s') ∨
      (s.globalPause = false ∧ ∃ s', (mainStep cfg s call).next = some s' ∧
        ((turn.ending = .accepted ∧
            s'.circuitBreaker = s.circuitBreaker.recordSuccess ∧ s'.globalPause = false) ∨
          Rejects call.1 s turn s')) := by
  intro turn
  have hTurn : turn = (mainStep cfg s call).output := rfl
  clear_value turn
  unfold mainStep at hTurn ⊢
  by_cases hPause : s.globalPause = true
  · rw [if_pos hPause] at hTurn ⊢
    subst hTurn
    exact .inl ⟨rfl, rfl, fun s' h => (Option.some.inj h) ▸ ⟨rfl, rfl⟩⟩
  rw [if_neg hPause] at hTurn ⊢
  cases hProfit : toU128 call.2.expectedProfit with
  | none =>
      rw [hProfit] at hTurn
      subst hTurn
      exact .inl ⟨rfl, rfl, fun s' h => absurd h (by simp)⟩
  | some profitVal =>
      rw [hProfit] at hTurn
      dsimp only at hTurn ⊢
      by_cases hDry : cfg.contractAddress = 0
      · rw [if_pos hDry] at hTurn ⊢
        subst hTurn
        exact .inl ⟨rfl, rfl, fun s' h => (Option.some.inj h) ▸ ⟨rfl, rfl⟩⟩
      rw [if_neg hDry] at hTurn ⊢
      have hNotPaused : s.globalPause = false := Bool.eq_false_iff.mpr hPause
      rcases call_cases cfg call.1 call.2 s with
        ⟨⟨hash, hEnded⟩, hBreaker, hSame⟩ |
          ⟨hEnded, hSent, hClosed, ftype, hType, hBreaker, hVeto⟩ |
          ⟨⟨stop, hEnded⟩, hNone, hSame⟩
      · right
        refine ⟨hNotPaused, (simulateAndExecute cfg call.1 call.2 s).state, ?_, .inl ?_⟩
        · simp only [callStep, hEnded]
        · refine ⟨?_, hBreaker, hSame.trans hNotPaused⟩
          simp only [hTurn, Turn.ending, callStep, hEnded]
      · right
        refine ⟨hNotPaused, (simulateAndExecute cfg call.1 call.2 s).state, ?_, .inr ?_⟩
        · simp only [callStep, hEnded]
        · refine ⟨?_, hClosed, ⟨ftype, hType, hBreaker⟩, ?_, ?_⟩
          · simp only [hTurn, Turn.ending, callStep, hEnded]
            exact if_pos ⟨trivial, hSent⟩
          · rw [hVeto, hNotPaused, Bool.false_or, hBreaker]
          · simp only [hTurn, Turn.recordedAt, callStep, hBreaker,
              CircuitBreaker.recordFailure]
      · left
        refine ⟨?_, ?_, ?_⟩
        · simp only [hTurn, Turn.ending, callStep, hEnded, hNone, ne_eq, not_true_eq_false,
            and_false, if_false]
        · simp only [hTurn, Turn.broadcasts, callStep, hNone]
        · intro s' hNext
          rw [callStep_next hNext]
          exact hSame

/-- A turn that leaves the pause set leaves it to the next state. -/
theorem paused_next {cfg : Config} {s s' : ExecState} {call : CallEnv × Opportunity}
    (hPaused : (mainStep cfg s call).output.Paused)
    (hNext : (mainStep cfg s call).next = some s') : s'.globalPause = true := by
  obtain ⟨result, hResult, hPause⟩ := hPaused
  unfold mainStep at hResult hNext
  split at hResult
  · simp at hResult
  · rename_i hNot
    rw [if_neg hNot] at hNext
    split at hResult
    · simp at hResult
    · rename_i profitVal hProfit
      rw [hProfit] at hNext
      dsimp only at hNext
      split at hResult
      · simp at hResult
      · rename_i hDry
        rw [if_neg hDry] at hNext
        rw [callStep_next hNext]
        rw [← Option.some.inj hResult] at hPause
        exact hPause

/-! ## The run -/

@[simp] theorem streak_nil : streak [] = 0 := rfl

theorem streak_append (turns : List Turn) (turn : Turn) :
    streak (turns ++ [turn]) =
      match turn.ending with
      | .accepted => 0
      | .rejected => streak turns + 1
      | .quiet => streak turns := by
  unfold streak
  rw [List.foldl_append]
  rfl

/-- A stretch without an acceptance adds its rejections. -/
theorem streak_stretch (turns stretch : List Turn)
    (hNone : ∀ turn ∈ stretch, turn.ending ≠ .accepted) :
    streak (turns ++ stretch) =
      streak turns + stretch.countP fun turn => turn.ending = .rejected := by
  induction stretch using List.reverseRecOn with
  | nil => simp
  | append_singleton stretch turn ih =>
      have hBefore := ih fun t ht => hNone t (List.mem_append_left _ ht)
      have hTurn := hNone turn (by simp)
      rw [← List.append_assoc, streak_append, List.countP_append, hBefore]
      cases hEnding : turn.ending with
      | accepted => exact absurd hEnding hTurn
      | rejected =>
          simp [hEnding]
          omega
      | quiet => simp [hEnding]

/-- What the breaker and the pause of a reached state know of the turns before it. -/
structure Tracks (breaker : CircuitBreaker) (past : List Turn) (s : ExecState) : Prop where
  base : s.circuitBreaker.baseCooldownSecs = breaker.baseCooldownSecs
  max : s.circuitBreaker.maxFailures = breaker.maxFailures
  unscaled : s.circuitBreaker.failureCounts .outOfGas = 0
  noRevert : s.circuitBreaker.failureCounts .revert = 0
  count : s.circuitBreaker.failureCounts .slippage + s.circuitBreaker.failureCounts .other =
    streak past
  bounded : streak past ≤ 21
  veto : streak past = 21 → s.globalPause = true
  paused : ∀ turn ∈ past, turn.Paused → s.globalPause = true
  last : ∀ before first between, past = before ++ first :: between →
    first.ending = .rejected → (∀ turn ∈ between, turn.ending = .quiet) →
      s.circuitBreaker.lastFailureTime = first.recordedAt

theorem total_eq {breaker : CircuitBreaker} {n : ℕ} (hGas : breaker.failureCounts .outOfGas = 0)
    (hRevert : breaker.failureCounts .revert = 0)
    (hRest : breaker.failureCounts .slippage + breaker.failureCounts .other = n)
    (hFew : n ≤ 21) : breaker.total = n := by
  have hSize : u64Size = 2 ^ 64 := rfl
  rw [CircuitBreaker.total, hGas, hRevert, Nat.mod_eq_of_lt (by omega)]
  omega

theorem Tracks.total {breaker : CircuitBreaker} {past : List Turn} {s : ExecState}
    (h : Tracks breaker past s) : s.circuitBreaker.total = streak past :=
  total_eq h.unscaled h.noRevert h.count h.bounded

/-- A breaker with no failure on its counts tracks an empty past. -/
theorem Tracks.start {s : ExecState} (hZero : ∀ ftype, s.circuitBreaker.failureCounts ftype = 0) :
    Tracks s.circuitBreaker [] s where
  base := rfl
  max := rfl
  unscaled := hZero _
  noRevert := hZero _
  count := by rw [hZero, hZero, streak_nil]
  bounded := by simp
  veto := by simp
  paused := by simp
  last := by simp

/-- What a turn of a run satisfies, with the turns before it. -/
structure TurnSpec (breaker : CircuitBreaker) (past : List Turn) (turn : Turn) : Prop where
  bounded : streak (past ++ [turn]) ≤ 21
  paused : (∃ earlier ∈ past, earlier.Paused) → turn.broadcasts = []
  recordedAt : turn.ending = .rejected → turn.recordedAt = turn.env.outcomeClock
  spaced : turn.ending = .rejected → breaker.maxFailures ≤ streak past →
    ∀ before first between, past = before ++ first :: between →
      first.ending = .rejected → (∀ turn ∈ between, turn.ending = .quiet) →
        breaker.baseCooldownSecs ≤ turn.env.openClock - first.recordedAt

/-- After a settled turn, the last failure is that turn's if it was rejected. -/
theorem last_of_settled {past : List Turn} {s' : ExecState} {turn : Turn}
    (hEnding : turn.ending ≠ .quiet)
    (hRecorded : turn.ending = .rejected →
      s'.circuitBreaker.lastFailureTime = turn.recordedAt) :
    ∀ before first between, past ++ [turn] = before ++ first :: between →
      first.ending = .rejected → (∀ t ∈ between, t.ending = .quiet) →
        s'.circuitBreaker.lastFailureTime = first.recordedAt := by
  intro before first between hSplit hFirst hBetween
  rcases List.eq_nil_or_concat between with rfl | ⟨between, last, rfl⟩
  · obtain ⟨-, hTurn⟩ := List.append_inj' hSplit rfl
    obtain rfl := (List.cons.inj hTurn).1
    exact hRecorded hFirst
  · rw [List.concat_eq_append, ← List.cons_append, ← List.append_assoc] at hSplit
    obtain ⟨-, hTurn⟩ := List.append_inj' hSplit rfl
    obtain rfl := (List.cons.inj hTurn).1
    exact absurd (hBetween turn (by simp)) hEnding

/-- The pause of a state, known after the earlier turns and after one more. -/
theorem paused_snoc {past : List Turn} {s' : ExecState} {turn : Turn}
    (hPast : ∀ t ∈ past, t.Paused → s'.globalPause = true)
    (hPaused : turn.Paused → s'.globalPause = true) :
    ∀ t ∈ past ++ [turn], t.Paused → s'.globalPause = true := by
  intro t ht
  rcases List.mem_append.mp ht with hEarlier | hLast
  · exact hPast t hEarlier
  · rw [List.mem_singleton.mp hLast]
    exact hPaused

section Steps

variable {breaker : CircuitBreaker} {past : List Turn} {s s' : ExecState} {turn : Turn}
  (h : Tracks breaker past s)
include h

/-- A turn that leaves the breaker alone. -/
theorem Tracks.quiet (hEnding : turn.ending = .quiet) (hSame : SameBreaker s s')
    (hPaused : turn.Paused → s'.globalPause = true) : Tracks breaker (past ++ [turn]) s' := by
  have hStreak : streak (past ++ [turn]) = streak past := by rw [streak_append, hEnding]
  obtain ⟨hBreaker, hPause⟩ := hSame
  refine ⟨hBreaker ▸ h.base, hBreaker ▸ h.max, hBreaker ▸ h.unscaled, hBreaker ▸ h.noRevert,
    ?_, ?_, ?_, ?_, ?_⟩
  · rw [hBreaker, hStreak]
    exact h.count
  · rw [hStreak]
    exact h.bounded
  · rw [hStreak, hPause]
    exact h.veto
  · apply paused_snoc _ hPaused
    intro t ht hPausedAt
    rw [hPause]
    exact h.paused t ht hPausedAt
  · intro before first between hSplit hFirst hBetween
    rw [hBreaker]
    rcases List.eq_nil_or_concat between with rfl | ⟨between, last, rfl⟩
    · obtain ⟨-, hTurn⟩ := List.append_inj' hSplit rfl
      rw [← (List.cons.inj hTurn).1, hEnding] at hFirst
      exact absurd hFirst (by decide)
    · rw [List.concat_eq_append, ← List.cons_append, ← List.append_assoc] at hSplit
      apply h.last before first between (List.append_inj' hSplit rfl).1 hFirst
      intro t ht
      exact hBetween t (by simp [ht])

/-- A turn that settles its call finds the pause unset, with fewer than 21 rejections. -/
theorem Tracks.unpaused (hPause : s.globalPause = false) :
    streak past ≤ 20 ∧ ∀ turn ∈ past, ¬ turn.Paused := by
  constructor
  · by_contra hMore
    have hBound := h.bounded
    have hVeto := h.veto (by omega)
    rw [hPause] at hVeto
    exact absurd hVeto (by decide)
  · intro t ht hPaused
    have hSet := h.paused t ht hPaused
    rw [hPause] at hSet
    exact absurd hSet (by decide)

/-- An accepted turn. -/
theorem Tracks.accepted (hPause : s.globalPause = false) (hEnding : turn.ending = .accepted)
    (hBreaker : s'.circuitBreaker = s.circuitBreaker.recordSuccess)
    (hPaused : turn.Paused → s'.globalPause = true) : Tracks breaker (past ++ [turn]) s' := by
  have hStreak : streak (past ++ [turn]) = 0 := by rw [streak_append, hEnding]
  obtain ⟨-, hNone⟩ := h.unpaused hPause
  refine ⟨?_, ?_, ?_, ?_, ?_, ?_, ?_, ?_, ?_⟩
  · rw [hBreaker]
    exact h.base
  · rw [hBreaker]
    exact h.max
  · rw [hBreaker]
    rfl
  · rw [hBreaker]
    rfl
  · rw [hBreaker, hStreak]
    rfl
  · omega
  · omega
  · apply paused_snoc _ hPaused
    intro t ht hPausedAt
    exact absurd hPausedAt (hNone t ht)
  · apply last_of_settled
    · rw [hEnding]
      decide
    · intro hRejected
      rw [hEnding] at hRejected
      exact absurd hRejected (by decide)

/-- A rejected turn. -/
theorem Tracks.rejected {env : CallEnv} (hPause : s.globalPause = false)
    (hRejects : Rejects env s turn s') (hPaused : turn.Paused → s'.globalPause = true) :
    Tracks breaker (past ++ [turn]) s' := by
  obtain ⟨ftype, hType, hBreaker⟩ := hRejects.recorded
  obtain ⟨hFew, hNone⟩ := h.unpaused hPause
  have hCount := h.count
  have hSize : u64Size = 2 ^ 64 := rfl
  have hStreak : streak (past ++ [turn]) = streak past + 1 := by
    rw [streak_append, hRejects.ending]
  have hGas : s'.circuitBreaker.failureCounts .outOfGas = 0 := by
    rw [hBreaker]
    rcases hType with rfl | rfl
    · exact h.unscaled
    · exact h.unscaled
  have hRevert : s'.circuitBreaker.failureCounts .revert = 0 := by
    rw [hBreaker]
    rcases hType with rfl | rfl
    · exact h.noRevert
    · exact h.noRevert
  have hNext : s'.circuitBreaker.failureCounts .slippage +
      s'.circuitBreaker.failureCounts .other = streak past + 1 := by
    rw [hBreaker]
    rcases hType with rfl | rfl
    · show (s.circuitBreaker.failureCounts .slippage + 1) % u64Size +
        s.circuitBreaker.failureCounts .other = _
      rw [Nat.mod_eq_of_lt (by omega)]
      omega
    · show s.circuitBreaker.failureCounts .slippage +
        (s.circuitBreaker.failureCounts .other + 1) % u64Size = _
      rw [Nat.mod_eq_of_lt (by omega)]
      omega
  have hTotal : s'.circuitBreaker.total = streak past + 1 :=
    total_eq hGas hRevert hNext (by omega)
  refine ⟨?_, ?_, hGas, hRevert, ?_, ?_, ?_, ?_, ?_⟩
  · rw [hBreaker]
    exact h.base
  · rw [hBreaker]
    exact h.max
  · rw [hNext, hStreak]
  · omega
  · intro hFull
    rw [hRejects.veto, CircuitBreaker.vetoes, hTotal, decide_eq_true_eq]
    omega
  · apply paused_snoc _ hPaused
    intro t ht hPausedAt
    exact absurd hPausedAt (hNone t ht)
  · apply last_of_settled
    · rw [hRejects.ending]
      decide
    · intro _
      rw [hRejects.recordedAt, hBreaker]
      rfl

end Steps

theorem mainStep_env (cfg : Config) (s : ExecState) (call : CallEnv × Opportunity) :
    (mainStep cfg s call).output.env = call.1 := by
  unfold mainStep
  dsimp only
  split
  · rfl
  · split
    · rfl
    · split
      · rfl
      · rfl

/-- **Step lemma.**  A turn keeps what the breaker tracks, and satisfies its
specification. -/
theorem turn_spec {breaker : CircuitBreaker} (hWord : breaker.baseCooldownSecs < u64Size)
    (cfg : Config) (past : List Turn) (s : ExecState) (call : CallEnv × Opportunity)
    (h : Tracks breaker past s) :
    TurnSpec breaker past (mainStep cfg s call).output ∧
      ∀ s', (mainStep cfg s call).next = some s' →
        Tracks breaker (past ++ [(mainStep cfg s call).output]) s' := by
  have hBound := h.bounded
  have hEnv := mainStep_env cfg s call
  have hPaused := fun s' (hNext : (mainStep cfg s call).next = some s') =>
    fun hPausedAt => paused_next hPausedAt hNext
  rcases mainStep_cases cfg s call with
    ⟨hEnding, hNone, hSame⟩ | ⟨hPause, s', hNext, ⟨hEnding, hBreaker, _⟩ | hRejects⟩
  · generalize (mainStep cfg s call).output = turn at *
    constructor
    · have hNotRejected : ¬ turn.ending = .rejected := by
        rw [hEnding]
        decide
      refine ⟨?_, fun _ => hNone, fun hR => absurd hR hNotRejected,
        fun hR => absurd hR hNotRejected⟩
      rw [streak_append, hEnding]
      exact hBound
    · intro s' hNext
      exact h.quiet hEnding (hSame s' hNext) (hPaused s' hNext)
  · obtain ⟨_, hNoPause⟩ := h.unpaused hPause
    have hTracks := h.accepted hPause hEnding hBreaker (hPaused s' hNext)
    generalize (mainStep cfg s call).output = turn at *
    constructor
    · have hNotRejected : ¬ turn.ending = .rejected := by
        rw [hEnding]
        decide
      refine ⟨hTracks.bounded, ?_, fun hR => absurd hR hNotRejected,
        fun hR => absurd hR hNotRejected⟩
      intro ⟨earlier, hEarlier, hSet⟩
      exact absurd hSet (hNoPause earlier hEarlier)
    · intro s'' hNext'
      obtain rfl := Option.some.inj (hNext.symm.trans hNext')
      exact hTracks
  · obtain ⟨_, hNoPause⟩ := h.unpaused hPause
    have hTracks := h.rejected hPause hRejects (hPaused s' hNext)
    generalize (mainStep cfg s call).output = turn at *
    constructor
    · refine ⟨hTracks.bounded, ?_, ?_, ?_⟩
      · intro ⟨earlier, hEarlier, hSet⟩
        exact absurd hSet (hNoPause earlier hEarlier)
      · intro _
        rw [hEnv]
        exact hRejects.recordedAt
      · intro _ hEnough before first between hSplit hFirst hBetween
        rw [← h.max, ← h.total] at hEnough
        have hCooldown := cooldown_le_of_closed hRejects.closed hEnough
        have hOne : (1 + 0) % u64Size = 1 := rfl
        rw [h.unscaled, hOne, Nat.mul_one, h.base, Nat.mod_eq_of_lt hWord,
          h.last before first between hSplit hFirst hBetween] at hCooldown
        rw [hEnv]
        exact hCooldown
    · intro s'' hNext'
      obtain rfl := Option.some.inj (hNext.symm.trans hNext')
      exact hTracks

/-- The clock does not go back between the reads of the calls: of `is_open`, and of a
failure's record. -/
def ClockMonotone (calls : List (CallEnv × Opportunity)) : Prop :=
  (calls.flatMap fun call => [call.1.openClock, call.1.outcomeClock]).Pairwise (· ≤ ·)

/-- In a run on such a clock, a turn ends before a later one reads it. -/
theorem clock_le {cfg : Config} {s : ExecState} {calls : List (CallEnv × Opportunity)}
    (hClock : ClockMonotone calls) {before between after : List Turn} {first second : Turn}
    (hRun : outputs (mainStep cfg) s calls = before ++ first :: (between ++ second :: after)) :
    first.env.outcomeClock ≤ second.env.openClock ∧
      second.env.openClock ≤ second.env.outcomeClock := by
  obtain ⟨rest, hPrefix⟩ := outputs_map_prefix
    (fun s call => mainStep_env cfg s call) s calls
  have hReads : (calls.flatMap fun call => [call.1.openClock, call.1.outcomeClock]) =
      (calls.map Prod.fst).flatMap fun env => [env.openClock, env.outcomeClock] := by
    rw [List.flatMap_map]
  unfold ClockMonotone at hClock
  rw [hReads, ← hPrefix, hRun] at hClock
  simp only [List.map_append, List.map_cons, List.flatMap_append, List.flatMap_cons,
    List.append_assoc, List.cons_append, List.nil_append] at hClock
  obtain ⟨-, hClock, -⟩ := List.pairwise_append.mp hClock
  have hAfterFirst := (List.pairwise_cons.mp hClock).2
  obtain ⟨hFirst, hRest⟩ := List.pairwise_cons.mp hAfterFirst
  obtain ⟨-, hSecond, -⟩ := List.pairwise_append.mp hRest
  constructor
  · exact hFirst second.env.openClock (by simp)
  · exact (List.pairwise_cons.mp hSecond).1 second.env.outcomeClock (by simp)

/-- Any stretch without an acceptance, such as that between two accepted calls, has at most
21 rejections. -/
def FewRejections (turns : List Turn) : Prop :=
  ∀ before stretch after, turns = before ++ stretch ++ after →
    (∀ turn ∈ stretch, turn.ending ≠ .accepted) →
      (stretch.countP fun turn => turn.ending = .rejected) ≤ 21

/-- After a turn that left the pause set, nothing is broadcast. -/
def QuietOncePaused (turns : List Turn) : Prop :=
  ∀ before later after, turns = before ++ later :: after →
    (∃ earlier ∈ before, earlier.Paused) → later.broadcasts = []

/-- From the given number of rejections since the last acceptance on, two consecutive
rejections are recorded at least the cooldown apart. -/
def Spaced (maxFailures cooldown : ℕ) (turns : List Turn) : Prop :=
  ∀ before first between second after,
    turns = before ++ first :: (between ++ second :: after) →
      first.ending = .rejected → second.ending = .rejected →
        (∀ turn ∈ between, turn.ending = .quiet) →
          maxFailures ≤ streak (before ++ [first]) →
            first.recordedAt + cooldown ≤ second.recordedAt

/-- **The breaker over runs.**  From zero counts, on a clock that does not go back, for any
relay outcomes. -/
theorem breaker_over_runs (cfg : Config) (s : ExecState)
    (calls : List (CallEnv × Opportunity))
    (hZero : ∀ ftype, s.circuitBreaker.failureCounts ftype = 0)
    (hWord : s.circuitBreaker.baseCooldownSecs < u64Size) (hClock : ClockMonotone calls) :
    FewRejections (outputs (mainStep cfg) s calls) ∧
      QuietOncePaused (outputs (mainStep cfg) s calls) ∧
      Spaced s.circuitBreaker.maxFailures s.circuitBreaker.baseCooldownSecs
        (outputs (mainStep cfg) s calls) := by
  have hSpec : ∀ before turn after,
      outputs (mainStep cfg) s calls = before ++ turn :: after →
        TurnSpec s.circuitBreaker before turn := by
    intro before turn after hSplit
    have hAllowed : Allowed (mainStep cfg) (fun _ _ => True) s calls :=
      allowed_of_forall (fun _ _ _ => trivial) s
    exact outputs_history (Tracks s.circuitBreaker)
      (fun past s' call h _ => turn_spec hWord cfg past s' call h) (Tracks.start hZero)
      hAllowed hSplit
  refine ⟨?_, ?_, ?_⟩
  · intro before stretch after hSplit hNone
    rcases List.eq_nil_or_concat stretch with rfl | ⟨stretch, turn, rfl⟩
    · simp
    · rw [List.concat_eq_append] at hSplit hNone ⊢
      have hTurn := (hSpec (before ++ stretch) turn after (by simpa using hSplit)).bounded
      rw [List.append_assoc, streak_stretch before _ hNone] at hTurn
      omega
  · intro before later after hSplit hPaused
    exact (hSpec before later after hSplit).paused hPaused
  · intro before first between second after hSplit hFirst hSecond hBetween hEnough
    obtain ⟨hOrder, hWithin⟩ := clock_le hClock hSplit
    have hFirstSpec := hSpec before first (between ++ second :: after) hSplit
    have hSecondSpec := hSpec (before ++ first :: between) second after (by simpa using hSplit)
    have hStreak : streak (before ++ first :: between) = streak (before ++ [first]) := by
      have hNone : ∀ turn ∈ between, turn.ending ≠ .accepted := by
        intro turn hTurn
        rw [hBetween turn hTurn]
        decide
      have hCount : (between.countP fun turn => turn.ending = .rejected) = 0 := by
        rw [List.countP_eq_zero]
        intro turn hTurn
        rw [hBetween turn hTurn]
        decide
      have hStretch := streak_stretch (before ++ [first]) between hNone
      rw [hCount, List.append_assoc] at hStretch
      exact hStretch
    have hSpaced := hSecondSpec.spaced hSecond (hStreak ▸ hEnough) before first between rfl
      hFirst hBetween
    rw [hFirstSpec.recordedAt hFirst] at hSpaced ⊢
    rw [hSecondSpec.recordedAt hSecond]
    omega

/-- Three calls that every relay would reject, at seconds 1000, 1010 and 1031. -/
def rejectedCalls : List (CallEnv × Opportunity) :=
  [0, 10, 31].map fun later =>
    ({ sampleEnv (100 + later) 200000000 fun _ => [.error "bundle rejected"] with
        openClock := 1000 + later
        outcomeClock := 1001 + later },
      sampleOpportunity "a" 1 2)

/-- With one failure allowed and a cooldown of 30 seconds, the second call is not made. -/
theorem rejectedCalls_spaced :
    (outputs (mainStep sampleConfig)
        { freshState 0 with circuitBreaker := .new 1 30 } rejectedCalls).map Turn.ending =
      [.rejected, .quiet, .rejected] ∧
      FewRejections (outputs (mainStep sampleConfig)
        { freshState 0 with circuitBreaker := .new 1 30 } rejectedCalls) ∧
      QuietOncePaused (outputs (mainStep sampleConfig)
        { freshState 0 with circuitBreaker := .new 1 30 } rejectedCalls) ∧
      Spaced 1 30 (outputs (mainStep sampleConfig)
        { freshState 0 with circuitBreaker := .new 1 30 } rejectedCalls) := by
  refine ⟨by decide +kernel, ?_⟩
  exact breaker_over_runs sampleConfig { freshState 0 with circuitBreaker := .new 1 30 }
    rejectedCalls (fun _ => rfl) (by decide) (by unfold ClockMonotone; decide)

end SovereignShadow.Ports.BreakerRuns
