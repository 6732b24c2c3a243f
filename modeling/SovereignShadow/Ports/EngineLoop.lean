import SovereignShadow.Ports.BundleSequencer
import SovereignShadow.Verified.Permits

/-!
# The engine loop

Port of the loop at the end of `main`.  The loop takes opportunities off a channel and hands
each to a task of its own, if it gets the one permit of `exec_sem` at once; an opportunity that
finds a call in progress is dropped.  When a call ends well its tokens are registered for the
harvest and its profit, if the opportunity has one, goes to the profit manager.

A run interleaves messages, ends of calls and steps of other tasks.  Other tasks move the nonce,
the bidding engine, the breaker and the global pause, but neither lock pools nor vet tokens; so
the effects of a call on the executor are taken together, at its end.  A panic, of the loop or of
a call, ends the process.

## Main results

* `first_fresh` — what a call sends first is over pools that no earlier call has locked.
* `run_serial` — over every run: calls never overlap, and end in the order of the messages; no
  two send their first bundles for one block over a common pool; what is registered.
-/

namespace SovereignShadow.Ports.EngineLoop

open SovereignShadow.Verified.Permits
open SovereignShadow.Ports.Models
open SovereignShadow.Ports.Constants
open SovereignShadow.Ports.Bidding
open SovereignShadow.Ports.Breaker
open SovereignShadow.Ports.FlashLoanExecutor
open SovereignShadow.Ports.ExecutorStages

/-! ## The harvest registry -/

/-- `SAFE_TOKENS`. -/
def safeTokens : Chain → List Address
  | .base =>
      [tokenWeth, tokenUsdc, tokenDai, 0x940181a94A35A4569E4529A3CDfB74e38FD98631,
        0x4ed4E862860beD51a9570b96d89aF5E1B0Efefed]

/-- `register_token_for_harvest`. -/
def registerTokenForHarvest (registry : List Address) (token : Address) : List Address :=
  if token ≠ tokenWeth ∧ token ≠ 0 then registry.insert token else registry

/-- The tokens of every hop. -/
def registerHops (registry : List Address) (hops : List Hop) : List Address :=
  hops.foldl (fun registry hop =>
    registerTokenForHarvest (registerTokenForHarvest registry hop.tokenIn) hop.tokenOut) registry

/-! ## The loop -/

/-- What comes over `opp_rx`. -/
structure Message where
  opp : Opportunity
  /-- `net_profit` of `profit_details`. -/
  netProfit : Option U256

/-- A call of `simulate_and_execute` that has ended. -/
structure Call where
  message : Message
  env : CallEnv
  before : ExecState
  result : CallResult

inductive Status where
  | serving | panicked | stopped
  deriving DecidableEq, Repr

structure Engine where
  status : Status
  execSem : Server Message
  exec : ExecState
  harvestRegistry : List Address
  /-- The profits handed to `handle_profit`. -/
  handled : List U256
  /-- History: the calls that have ended. -/
  calls : List Call

def Engine.initial (cfg : Config) (exec : ExecState) : Engine where
  status := .serving
  execSem := Server.initial Message 1
  exec
  harvestRegistry := safeTokens cfg.chain
  handled := []
  calls := []

inductive Event where
  | received (message : Message)
  /-- The end of a running call, with what it met on its way. -/
  | ended (task : Nat) (env : CallEnv)
  /-- A step of another task. -/
  | others (nonce : UInt64) (biddingEngine : BiddingEngine) (circuitBreaker : CircuitBreaker)
      (globalPause : Bool)
  | shutdown

/-- The branch of `opp_rx.recv()`; the profit is converted to `u128` before anything else. -/
def Engine.receive (cfg : Config) (e : Engine) (message : Message) : Engine :=
  if e.exec.globalPause then e
  else if 2 ^ 128 ≤ message.opp.expectedProfit.toNat then { e with status := .panicked }
  else if cfg.contractAddress = 0 then e
  else { e with execSem := e.execSem.tryStart message }

/-- The rest of a task, after its call. -/
def Engine.settle (e : Engine) (message : Message) : Except Stop B256 → Engine
  | .ok _ =>
      { e with
        harvestRegistry := registerHops e.harvestRegistry message.opp.path.hops
        handled := e.handled ++ message.netProfit.toList }
  | .error .panicked => { e with status := .panicked }
  | .error (.err _) => e

/-- A call ends, and its task drops the permit. -/
def Engine.finish (cfg : Config) (e : Engine) (task : Nat) (env : CallEnv) : Engine :=
  match e.execSem.running[task]? with
  | none => e
  | some message =>
      let result := simulateAndExecute cfg env message.opp e.exec
      Engine.settle
        { e with
          execSem := e.execSem.finish task
          exec := result.state
          calls := e.calls ++ [{ message, env, before := e.exec, result }] }
        message result.ended

def next (cfg : Config) (e : Engine) (event : Event) : Engine :=
  match e.status with
  | .serving =>
      match event with
      | .received message => e.receive cfg message
      | .ended task env => e.finish cfg task env
      | .others nonce biddingEngine circuitBreaker globalPause =>
          { e with exec := { e.exec with nonce, biddingEngine, circuitBreaker, globalPause } }
      | .shutdown => { e with status := .stopped }
  | .panicked | .stopped => e

def run (cfg : Config) (e : Engine) (events : List Event) : Engine := events.foldl (next cfg) e

/-- The messages of a run. -/
def messages (events : List Event) : List Message :=
  events.filterMap fun
    | .received message => some message
    | .ended .. | .others .. | .shutdown => none

/-! ## What is claimed -/

/-- The first bundle of the call is for block `key.1`, over a path with pool `key.2`. -/
def FirstOccupies (call : Call) (key : Nat × Address) : Prop :=
  ∃ sent, call.result.broadcasts.head? = some sent ∧
    LockKey call.message.opp sent.bundle.targetBlock key

/-- The call is that of the executor. -/
def Executed (cfg : Config) (call : Call) : Prop :=
  call.result = simulateAndExecute cfg call.env call.message.opp call.before

/-- The call ended well, with `token` on its path. -/
def Traded (call : Call) (token : Address) : Prop :=
  (∃ hash, call.result.ended = .ok hash) ∧
    ∃ hop ∈ call.message.opp.path.hops, token = hop.tokenIn ∨ token = hop.tokenOut

/-- What is handed to the profit manager at the end of a call. -/
def Call.profits (call : Call) : List U256 :=
  match call.result.ended with
  | .ok _ => call.message.netProfit.toList
  | .error _ => []

/-- The state of the engine after the messages `received`. -/
structure Serial (cfg : Config) (received : List Message) (e : Engine) : Prop where
  /-- One permit, held by a call or left. -/
  exclusive : e.execSem.permits + e.execSem.running.length = 1
  /-- The calls that were started have ended in that order, but for the last. -/
  inOrder : e.execSem.started = e.calls.map Call.message ++ e.execSem.running
  /-- They are some of the messages, in their order. -/
  started : e.execSem.started.Sublist received
  /-- Nothing is started without a contract, nor above `u128`. -/
  gated : ∀ message ∈ e.execSem.started,
    cfg.contractAddress ≠ 0 ∧ message.opp.expectedProfit.toNat < 2 ^ 128
  executed : ∀ call ∈ e.calls, Executed cfg call
  /-- First bundles for one block have no pool in common. -/
  disjoint : e.calls.Pairwise fun earlier later =>
    ∀ key, FirstOccupies earlier key → ¬ FirstOccupies later key
  harvest : ∀ token, token ∈ e.harvestRegistry ↔
    token ∈ safeTokens cfg.chain ∨
      (token ≠ tokenWeth ∧ token ≠ 0 ∧ ∃ call ∈ e.calls, Traded call token)
  handled : e.handled = e.calls.flatMap Call.profits

/-! ## The registry -/

theorem mem_registerTokenForHarvest {registry : List Address} {token t : Address} :
    t ∈ registerTokenForHarvest registry token ↔
      t ∈ registry ∨ (t ≠ tokenWeth ∧ t ≠ 0 ∧ t = token) := by
  unfold registerTokenForHarvest
  split
  · rename_i hTracked
    rw [List.mem_insert_iff]
    constructor
    · rintro (rfl | hOld)
      · exact .inr ⟨hTracked.1, hTracked.2, rfl⟩
      · exact .inl hOld
    · rintro (hOld | ⟨-, -, rfl⟩)
      · exact .inr hOld
      · exact .inl rfl
  · rename_i hUntracked
    constructor
    · exact .inl
    · rintro (hOld | ⟨hWeth, hZero, rfl⟩)
      · exact hOld
      · exact absurd ⟨hWeth, hZero⟩ hUntracked

/-- Registered are the tokens of before, and those of the hops. -/
theorem mem_registerHops {registry : List Address} {hops : List Hop} {t : Address} :
    t ∈ registerHops registry hops ↔
      t ∈ registry ∨
        (t ≠ tokenWeth ∧ t ≠ 0 ∧ ∃ hop ∈ hops, t = hop.tokenIn ∨ t = hop.tokenOut) := by
  induction hops generalizing registry with
  | nil => simp [registerHops]
  | cons hop rest ih =>
      have hStep : registerHops registry (hop :: rest) =
          registerHops (registerTokenForHarvest (registerTokenForHarvest registry hop.tokenIn)
            hop.tokenOut) rest := rfl
      rw [hStep, ih, mem_registerTokenForHarvest, mem_registerTokenForHarvest,
        List.exists_mem_cons_iff]
      simp only [or_assoc, ← and_or_left]

/-! ## One call -/

/-- The first bundle is for the locked block. -/
theorem broadcastLoop_head (env : CallEnv) (opp : Opportunity) (c : Commitment) (s : ExecState)
    (retries attempts targetBlock : Nat) :
    (broadcastLoop env opp c s retries attempts targetBlock).broadcasts.head? =
      some (attemptBundle c targetBlock) := by
  unfold broadcastLoop
  dsimp only
  split
  · rfl
  · split
    · split <;> rfl
    · rfl

/-- **A first bundle** is over pools that were free for its block, and are locked from then
on. -/
theorem first_fresh {cfg : Config} {env : CallEnv} {opp : Opportunity} {s : ExecState}
    {sent : Broadcast} {key : Nat × Address}
    (hSent : (simulateAndExecute cfg env opp s).broadcasts.head? = some sent)
    (hKey : LockKey opp sent.bundle.targetBlock key) :
    ¬ (s.occupiedPools key).isSome ∧
      ((simulateAndExecute cfg env opp s).state.occupiedPools key).isSome := by
  obtain ⟨builder, targetBlock, candidate, checked, s', c, hCleared, hCommit, hLoop⟩ :=
    broadcasts_cases (List.mem_of_head? hSent)
  obtain ⟨-, hFree, hLocks, -⟩ := hCleared.acquired
  rw [hLoop, broadcastLoop_head] at hSent
  have hKeyAt : LockKey opp targetBlock key := by
    rw [← Option.some.inj hSent] at hKey
    exact hKey
  constructor
  · intro hTaken
    obtain ⟨hBlock, hop, hHop, hPool⟩ := hKeyAt
    have hCollides : collides s.occupiedPools targetBlock opp.path.hops = true := by
      rw [collides, List.any_eq_true]
      refine ⟨hop, hHop, ?_⟩
      rw [hPool, ← hBlock]
      exact hTaken
    rw [hFree] at hCollides
    cases hCollides
  · obtain ⟨_, _, _, -, -, -, -, -, hState⟩ := commit_ok hCommit
    have hMoved : s'.occupiedPools = checked.occupiedPools := by rw [hState]
    rw [hLoop, (broadcastLoop_frame env opp c s' (maxResilienceAttempts - 1) 0 targetBlock).1,
      hMoved, hLocks, lockPools_isSome]
    exact .inr hKeyAt

/-! ## Runs -/

/-- The invariant: the permits, and every key that a first bundle was for is locked. -/
structure Inv (cfg : Config) (received : List Message) (e : Engine) : Prop where
  serial : Serial cfg received e
  permits : InOrder e.execSem
  ended : e.execSem.ended = e.calls.map Call.message
  locked : ∀ call ∈ e.calls, ∀ key, FirstOccupies call key → (e.exec.occupiedPools key).isSome

section Steps

variable {cfg : Config} {received : List Message} {e : Engine}

theorem Inv.initial (cfg : Config) (exec : ExecState) :
    Inv cfg [] (Engine.initial cfg exec) where
  serial :=
    { exclusive := rfl
      inOrder := rfl
      started := .slnil
      gated := fun _ h => absurd h List.not_mem_nil
      executed := fun _ h => absurd h List.not_mem_nil
      disjoint := .nil
      harvest := fun token => by simp [Engine.initial]
      handled := rfl }
  permits := .initial
  ended := rfl
  locked := fun _ h => absurd h List.not_mem_nil

/-- More messages, none of them started. -/
theorem Inv.drop (h : Inv cfg received e) (more : List Message) :
    Inv cfg (received ++ more) e where
  serial :=
    { h.serial with
      started := h.serial.started.trans (List.sublist_append_left received more) }
  permits := h.permits
  ended := h.ended
  locked := h.locked

theorem Inv.status (h : Inv cfg received e) (status : Status) :
    Inv cfg received { e with status } where
  serial := { h.serial with }
  permits := h.permits
  ended := h.ended
  locked := h.locked

theorem Inv.others (h : Inv cfg received e) (nonce : UInt64) (biddingEngine : BiddingEngine)
    (circuitBreaker : CircuitBreaker) (globalPause : Bool) :
    Inv cfg received
      { e with exec := { e.exec with nonce, biddingEngine, circuitBreaker, globalPause } } where
  serial := { h.serial with }
  permits := h.permits
  ended := h.ended
  locked := h.locked

/-- **Step lemma**, a message: it starts a call, or is dropped. -/
theorem Inv.receive (h : Inv cfg received e) (message : Message) :
    Inv cfg (received ++ [message]) (e.receive cfg message) := by
  unfold Engine.receive
  split
  · exact h.drop [message]
  split
  · exact (h.drop [message]).status .panicked
  split
  · exact h.drop [message]
  rename_i hFits hContract
  have hPermits := h.permits.tryStart message
  have hEnded : (e.execSem.tryStart message).ended = e.calls.map Call.message :=
    (e.execSem.tryStart_ended message).trans h.ended
  constructor
  · exact
      { exclusive := hPermits.total
        inOrder := hEnded ▸ hPermits.order
        started := by
          rcases e.execSem.tryStart_started message with hSame | hMore
          · show (e.execSem.tryStart message).started.Sublist _
            rw [hSame]
            exact h.serial.started.trans (List.sublist_append_left received [message])
          · show (e.execSem.tryStart message).started.Sublist _
            rw [hMore]
            exact h.serial.started.append (.refl [message])
        gated := by
          intro m hm
          rcases e.execSem.tryStart_started message with hSame | hMore
          · exact h.serial.gated m (hSame ▸ hm)
          · have hMem : m ∈ e.execSem.started ++ [message] := hMore ▸ hm
            rcases List.mem_append.mp hMem with hOld | hNew
            · exact h.serial.gated m hOld
            · rw [List.mem_singleton.mp hNew]
              exact ⟨hContract, not_le.mp hFits⟩
        executed := h.serial.executed
        disjoint := h.serial.disjoint
        harvest := h.serial.harvest
        handled := h.serial.handled }
  · exact hPermits
  · exact hEnded
  · exact h.locked

/-- What the end of a call leaves, but for the tokens. -/
theorem settle_frame (e : Engine) (message : Message) (ended : Except Stop B256) :
    (e.settle message ended).execSem = e.execSem ∧ (e.settle message ended).exec = e.exec ∧
      (e.settle message ended).calls = e.calls := by
  rcases ended with (_ | _) | _ <;> exact ⟨rfl, rfl, rfl⟩

theorem receive_frame (cfg : Config) (e : Engine) (message : Message) :
    (e.receive cfg message).calls = e.calls ∧ (e.receive cfg message).exec = e.exec := by
  unfold Engine.receive
  split_ifs <;> exact ⟨rfl, rfl⟩

/-- **Inversion.**  A step ends one call, or none; other tasks may move the nonce. -/
theorem next_cases (cfg : Config) (e : Engine) (event : Event) :
    ((next cfg e event).calls = e.calls ∧
      ((next cfg e event).exec.nonce = e.exec.nonce ∨
        ∃ nonce biddingEngine circuitBreaker globalPause,
          event = .others nonce biddingEngine circuitBreaker globalPause ∧
            (next cfg e event).exec.nonce = nonce)) ∨
      ∃ message task env, event = .ended task env ∧
        let call : Call :=
          { message, env, before := e.exec
            result := simulateAndExecute cfg env message.opp e.exec }
        (next cfg e event).calls = e.calls ++ [call] ∧
          (next cfg e event).exec = call.result.state := by
  cases hStatus : e.status with
  | serving =>
      cases event with
      | received message =>
          have hNext : next cfg e (.received message) = e.receive cfg message := by
            rw [next, hStatus]
          obtain ⟨hCalls, hExec⟩ := receive_frame cfg e message
          rw [hNext]
          exact .inl ⟨hCalls, .inl (congrArg ExecState.nonce hExec)⟩
      | ended task env =>
          have hNext : next cfg e (.ended task env) = e.finish cfg task env := by
            rw [next, hStatus]
          rw [hNext]
          unfold Engine.finish
          split
          · exact .inl ⟨rfl, .inl rfl⟩
          · rename_i message _
            obtain ⟨-, hExec, hCalls⟩ := settle_frame
              { e with
                execSem := e.execSem.finish task
                exec := (simulateAndExecute cfg env message.opp e.exec).state
                calls := e.calls ++
                  [{ message, env, before := e.exec
                     result := simulateAndExecute cfg env message.opp e.exec }] }
              message (simulateAndExecute cfg env message.opp e.exec).ended
            exact .inr ⟨message, task, env, rfl, hCalls, hExec⟩
      | others nonce biddingEngine circuitBreaker globalPause =>
          have hNext : next cfg e (.others nonce biddingEngine circuitBreaker globalPause) =
              { e with
                exec := { e.exec with nonce, biddingEngine, circuitBreaker, globalPause } } := by
            rw [next, hStatus]
          rw [hNext]
          exact .inl ⟨rfl, .inr ⟨nonce, biddingEngine, circuitBreaker, globalPause, rfl, rfl⟩⟩
      | shutdown =>
          have hNext : next cfg e .shutdown = { e with status := .stopped } := by
            rw [next, hStatus]
          rw [hNext]
          exact .inl ⟨rfl, .inl rfl⟩
  | panicked | stopped =>
      have hNext : next cfg e event = e := by
        unfold next
        rw [hStatus]
      rw [hNext]
      exact .inl ⟨rfl, .inl rfl⟩

/-- A call that ended well registers its tokens, another none. -/
theorem mem_settle {message : Message} {ended : Except Stop B256} {token : Address} :
    token ∈ (e.settle message ended).harvestRegistry ↔
      token ∈ e.harvestRegistry ∨
        (token ≠ tokenWeth ∧ token ≠ 0 ∧ (∃ hash, ended = .ok hash) ∧
          ∃ hop ∈ message.opp.path.hops, token = hop.tokenIn ∨ token = hop.tokenOut) := by
  cases ended with
  | ok hash =>
      have hOk : ∃ hash', (Except.ok hash : Except Stop B256) = .ok hash' := ⟨hash, rfl⟩
      rw [Engine.settle, mem_registerHops, and_iff_right hOk]
  | error stop =>
      have hNot : ¬ ∃ hash, (Except.error stop : Except Stop B256) = .ok hash := by
        rintro ⟨_, h⟩
        cases h
      have hSame : (e.settle message (.error stop)).harvestRegistry = e.harvestRegistry := by
        cases stop <;> rfl
      rw [hSame]
      tauto

/-- The profit of a call that ended well is handed on, of another none. -/
theorem handled_settle (e : Engine) (call : Call) :
    (e.settle call.message call.result.ended).handled = e.handled ++ call.profits := by
  rw [Call.profits]
  rcases call.result.ended with (_ | _) | _
  · exact (List.append_nil e.handled).symm
  · exact (List.append_nil e.handled).symm
  · rfl

/-- **Step lemma**, the end of a call. -/
theorem Inv.finish (h : Inv cfg received e) (task : Nat) (env : CallEnv) :
    Inv cfg received (e.finish cfg task env) := by
  cases hTask : e.execSem.running[task]? with
  | none =>
      rw [Engine.finish, hTask]
      exact h
  | some message =>
      have hSem := Server.finish_some hTask
      have hPermits := h.permits.finish task
      set result := simulateAndExecute cfg env message.opp e.exec with hResult
      set call : Call := { message, env, before := e.exec, result } with hCall
      have hFinish : e.finish cfg task env = Engine.settle
          { e with
            execSem := e.execSem.finish task, exec := result.state, calls := e.calls ++ [call] }
          message result.ended := by
        rw [Engine.finish, hTask]
      obtain ⟨hExecSem, hExec, hCalls⟩ := settle_frame
        { e with
          execSem := e.execSem.finish task, exec := result.state, calls := e.calls ++ [call] }
        message result.ended
      rw [← hFinish] at hExecSem hExec hCalls
      dsimp only at hExecSem hExec hCalls
      have hEnded : (e.execSem.finish task).ended = (e.calls ++ [call]).map Call.message := by
        rw [hSem, List.map_append, ← h.ended]
        rfl
      have hStarted : (e.execSem.finish task).started = e.execSem.started := by rw [hSem]
      have hFresh : ∀ key, FirstOccupies call key →
          ¬ (e.exec.occupiedPools key).isSome ∧ (result.state.occupiedPools key).isSome := by
        rintro key ⟨sent, hSent, hKey⟩
        exact first_fresh hSent hKey
      have hKept : LocksKept e.exec result.state :=
        BundleSequencer.simulateAndExecute_keeps cfg env message.opp e.exec
      constructor
      · exact
          { exclusive := hExecSem ▸ hPermits.total
            inOrder := by rw [hExecSem, hCalls, ← hEnded, hPermits.order]
            started := by
              rw [hExecSem, hStarted]
              exact h.serial.started
            gated := by
              rw [hExecSem, hStarted]
              exact h.serial.gated
            executed := by
              rw [hCalls, List.forall_mem_append]
              exact ⟨h.serial.executed, List.forall_mem_singleton.mpr rfl⟩
            disjoint := by
              rw [hCalls, List.pairwise_append]
              refine ⟨h.serial.disjoint, List.pairwise_singleton _ _, ?_⟩
              intro earlier hEarlier later hLater key hFirst hSecond
              rw [List.mem_singleton.mp hLater] at hSecond
              exact (hFresh key hSecond).1 (h.locked earlier hEarlier key hFirst)
            harvest := by
              intro token
              rw [hFinish, mem_settle]
              show token ∈ e.harvestRegistry ∨ _ ↔ _
              rw [h.serial.harvest, ← hFinish, hCalls]
              show _ ∨ (_ ∧ _ ∧ Traded call token) ↔ _
              simp only [List.mem_append, List.mem_singleton, or_and_right, exists_or,
                exists_eq_left, or_assoc, ← and_or_left]
            handled := by
              rw [hFinish, handled_settle _ call, ← hFinish, hCalls, List.flatMap_append,
                List.flatMap_singleton, ← h.serial.handled] }
      · exact hExecSem ▸ hPermits
      · rw [hExecSem, hCalls]
        exact hEnded
      · intro call' hMem key hFirst
        rw [hExec]
        rw [hCalls] at hMem
        rcases List.mem_append.mp hMem with hOld | hNew
        · exact hKept key (h.locked call' hOld key hFirst)
        · rw [List.mem_singleton.mp hNew] at hFirst
          exact (hFresh key hFirst).2

/-- **Step lemma.** -/
theorem Inv.next (h : Inv cfg received e) (event : Event) :
    Inv cfg (received ++ messages [event]) (next cfg e event) := by
  have hQuiet : received ++ [] = received := List.append_nil received
  unfold EngineLoop.next
  split
  · cases event with
    | received message => exact h.receive message
    | ended task env => exact hQuiet.symm ▸ h.finish task env
    | others nonce biddingEngine circuitBreaker globalPause =>
        exact hQuiet.symm ▸ h.others nonce biddingEngine circuitBreaker globalPause
    | shutdown => exact hQuiet.symm ▸ h.status .stopped
  · exact h.drop _
  · exact h.drop _

/-- **Run lemma.** -/
theorem Inv.run (h : Inv cfg received e) (events : List Event) :
    Inv cfg (received ++ messages events) (run cfg e events) := by
  induction events generalizing received e with
  | nil => exact h.drop []
  | cons event events ih =>
      have hSplit : messages (event :: events) = messages [event] ++ messages events :=
        List.filterMap_append (l := [event])
      rw [hSplit, ← List.append_assoc]
      exact ih (h.next event)

end Steps

/-- **Calls are serial**, in any interleaving of messages, ends of calls and other tasks. -/
theorem run_serial (cfg : Config) (exec : ExecState) (events : List Event) :
    Serial cfg (messages events) (run cfg (Engine.initial cfg exec) events) :=
  ((Inv.initial cfg exec).run events).serial

end SovereignShadow.Ports.EngineLoop
