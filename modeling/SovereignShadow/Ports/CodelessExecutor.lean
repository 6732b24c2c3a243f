import SovereignShadow.Ports.BytecodeStore
import SovereignShadow.Ports.EngineLoop
import SovereignShadow.Ports.NoiseBranches

/-!
# The executor without code

The simulations run on the mirror, and an account of the mirror has the code that was cached for
it.  Code is fetched for the tokens and pools of paths and for announced pools, never for the
executor contract.  So unless its code came from disk, every simulation calls an account without
code, and earns nothing; no call of the engine broadcasts a bundle.

The EVM stays a parameter.  Of it is assumed what it does with a call of an account without
code, and that no other execution deploys code there.

## Main results

* `Unknown.run` — nothing asks for an account that no event names.
* `no_broadcast` — without profit in the simulations nothing is sent.
* `engine_silent` — no call of a run of the engine sends anything.
-/

namespace SovereignShadow.Ports.CodelessExecutor

open SovereignShadow.Ports.Models
open SovereignShadow.Ports.StateSimulator
open SovereignShadow.Ports.FlashLoanExecutor
open SovereignShadow.Ports.ExecutorStages
open SovereignShadow.Ports.BytecodeStore
open SovereignShadow.Ports.NoiseBranches

/-! ## The store -/

/-- The event announces the account, or fetches its code. -/
def Names (account : Address) : BytecodeStore.Event → Prop
  | .announce pool _ _ => pool = account
  | .spawn _ other => other = account
  | _ => False

/-- Nothing knows of the account. -/
structure Unknown (account : Address) (s : Store) : Prop where
  queued : ¬ Queued s account
  checking : ∀ task, s.tasks task ≠ some (.checkingPools account)
  fetching : ∀ task, ¬ Fetching s task account
  cached : ∀ code, (account, code) ∉ s.bytecodes

section Store

variable {s : Store} {event : BytecodeStore.Event} {account : Address}

/-- An event starts a fetch by naming the account, or off the queue. -/
theorem checking_next {task : Nat} (h : (next s event).tasks task = some (.checkingPools account)) :
    s.tasks task = some (.checkingPools account) ∨ event = .spawn task account ∨
      account ∈ s.queue := by
  rcases next_moves s event with hSame | hMoves
  · rw [hSame] at h
    exact .inl h
  · generalize next s event = s' at h hMoves
    cases hMoves with
    | @take pool rest hFree hQueue =>
        have hTask : (s.setTask 0 (some (.checkingPools pool))).tasks task = _ := h
        rw [setTask_tasks] at hTask
        split at hTask
        · obtain rfl := Fetch.checkingPools.inj (Option.some.inj hTask)
          exact .inr (.inr (hQueue ▸ List.mem_cons_self))
        · exact .inl hTask
    | @spawn other started hOther =>
        rw [setTask_tasks] at h
        split at h
        next hTask =>
          obtain rfl := Fetch.checkingPools.inj (Option.some.inj h)
          rw [hTask]
          exact .inr (.inl rfl)
        next => exact .inl h
    | leave =>
        rw [setTask_tasks] at h
        split at h
        · cases h
        · exact .inl h
    | checkPools =>
        rw [setTask_tasks] at h
        split at h
        · cases h
        · exact .inl h
    | checkStore =>
        rw [setTask_tasks] at h
        split at h
        · cases h
        · exact .inl h
    | @reply other pool code hOther =>
        rw [setTask_tasks, (receive_fields s pool code).2.2.2] at h
        split at h
        · cases h
        · exact .inl h
    | _ => exact .inl h

/-- **Step lemma.** -/
theorem Unknown.next (h : Unknown account s) (hEvent : ¬ Names account event) :
    Unknown account (next s event) where
  queued hQueued := by
    rcases queued_next hQueued with hBefore | ⟨⟨_, _, rfl, -⟩, -⟩
    · exact h.queued hBefore
    · exact hEvent rfl
  checking task hTask := by
    rcases checking_next hTask with hBefore | rfl | hQueue
    · exact h.checking task hBefore
    · exact hEvent rfl
    · exact h.queued (.inr (.inl hQueue))
  fetching task hFetching := by
    rcases fetching_next hFetching with hBefore | ⟨-, hChecking, -⟩
    · exact h.fetching task hBefore
    · exact h.checking task hChecking
  cached code hCached := by
    rcases cached_next hCached with hBefore | ⟨task, -, hTask, -⟩
    · exact h.cached code hBefore
    · exact h.fetching task (.inr hTask)

/-- **Run lemma.**  Nothing asks for an account that no event names. -/
theorem Unknown.run (h : Unknown account s) {events : List BytecodeStore.Event}
    (hEvents : ∀ event ∈ events, ¬ Names account event) :
    Unknown account (events.foldl BytecodeStore.next s) := by
  induction events generalizing s with
  | nil => exact h
  | cons event rest ih =>
      rw [List.forall_mem_cons] at hEvents
      exact ih (h.next hEvents.1) hEvents.2

theorem Unknown.initial {restored : List (Address × List UInt8)}
    (hRestored : ∀ entry ∈ restored, entry.1 ≠ account) (pools : Address → Option Aged) :
    Unknown account (BytecodeStore.initial restored pools) where
  queued := by
    rintro (⟨_, hFeed⟩ | hQueue | hTask)
    · cases hFeed
    · cases hQueue
    · cases hTask
  checking _ hTask := by cases hTask
  fetching _ hFetching := by rcases hFetching with hTask | hTask <;> cases hTask
  cached _ hCached := hRestored _ (mem_initial hCached) rfl

theorem Unknown.basicRef (h : Unknown account s) : s.basicRef account = none := by
  show s.bytecodes.lookup account = none
  rw [List.lookup_eq_none_iff]
  intro entry hEntry
  simp only [bne_iff_ne, ne_eq]
  rintro rfl
  exact h.cached entry.2 hEntry

end Store

/-! ## The simulation -/

variable {W S : Type}

/-- What the EVM does about an account without code, whose code is read by `codeOf`. -/
structure Codeless (evm : Evm W S) (codeOf : W → List UInt8) (account : Address) : Prop where
  insert : ∀ other balance w, codeOf w = [] → codeOf (evm.insertAccountInfo other balance w) = []
  load : ∀ other w, codeOf w = [] → codeOf (evm.loadAccount other w).2 = []
  reload : ∀ other w,
    (evm.loadAccount other (evm.loadAccount other w).2).1 = (evm.loadAccount other w).1
  /-- A call of it carries no ether, and runs nothing. -/
  call : ∀ tx w executed w', tx.transactTo = account → codeOf w = [] →
    evm.transact tx w = (some executed, w') →
      (evm.loadAccount account (evm.commit executed.state w')).1.getD 0 =
        (evm.loadAccount account w).1.getD 0

/-- What a simulation runs before the arbitrage: the triggers, and the noise. -/
def earlierTransactions (draws : Draws) (arb : Arb) (branch : SimulationBranch) : List TxEnv :=
  triggerTransactions arb.opp draws.triggers ++
    noiseTransactions arb.opp.path.hops branch (draws.noise branch)

/-- None of the transactions deploys code there. -/
def DeployNothing (evm : Evm W S) (codeOf : W → List UInt8) (txs : List TxEnv) : Prop :=
  ∀ tx ∈ txs, ∀ w, codeOf w = [] → codeOf (evm.transactCommit w tx) = []

section Codeless

variable {evm : Evm W S} {codeOf : W → List UInt8} {arb : Arb}

theorem DeployNothing.foldl {txs : List TxEnv} (h : DeployNothing evm codeOf txs) {w : W}
    (hw : codeOf w = []) : codeOf (txs.foldl evm.transactCommit w) = [] := by
  induction txs generalizing w with
  | nil => exact hw
  | cons tx rest ih =>
      refine ih (fun later hLater => h later (List.mem_cons_of_mem tx hLater)) ?_
      exact h tx List.mem_cons_self w hw

theorem Codeless.prepare (h : Codeless evm codeOf arb.targetContract) {draws : Draws}
    (hTriggers : DeployNothing evm codeOf (triggerTransactions arb.opp draws.triggers))
    {mirror : W} (hMirror : codeOf mirror = []) : codeOf (evm.prepare mirror draws arb) = [] := by
  apply hTriggers.foldl
  have hCaller := h.insert arb.callerEoa (10 ^ 18) mirror hMirror
  have hLoaded := h.load arb.targetContract _ hCaller
  rcases hLoad : evm.loadAccount arb.targetContract
      (evm.insertAccountInfo arb.callerEoa (10 ^ 18) mirror) with ⟨_ | balance, w⟩
  · rw [hLoad] at hLoaded
    exact h.insert arb.targetContract 0 w hLoaded
  · rw [hLoad] at hLoaded
    exact hLoaded

/-- **A simulation earns nothing** where the executor has no code. -/
theorem Codeless.measure_profit (h : Codeless evm codeOf arb.targetContract)
    {branch : SimulationBranch} {w : W} (hw : codeOf w = []) {r : SimResult}
    (hr : evm.measure arb branch w = some r) : r.profit = 0 := by
  have hLoaded := h.load arb.targetContract w hw
  have hReload := h.reload arb.targetContract w
  unfold Evm.measure at hr
  rcases hLoad : evm.loadAccount arb.targetContract w with ⟨before, w₁⟩
  rw [hLoad] at hLoaded hReload
  rw [hLoad] at hr
  dsimp only at hr hLoaded hReload
  rcases hRun : evm.transact arb.tx w₁ with ⟨_ | executed, w₂⟩
  · rw [hRun] at hr
    cases hr
  · have hSame := h.call arb.tx w₁ executed w₂ rfl hLoaded hRun
    rw [hRun] at hr
    obtain rfl := Option.some.inj hr
    show saturatingSub _ _ = 0
    rw [hSame, hReload]
    unfold saturatingSub
    simp

theorem Codeless.simulateStrategy_profit (h : Codeless evm codeOf arb.targetContract)
    {draws : Draws} {branch : SimulationBranch}
    (hEarlier : DeployNothing evm codeOf (earlierTransactions draws arb branch)) {mirror : W}
    (hMirror : codeOf mirror = []) {r : SimResult}
    (hr : simulateStrategy evm mirror draws arb branch = some r) : r.profit = 0 := by
  have hTriggers : DeployNothing evm codeOf (triggerTransactions arb.opp draws.triggers) :=
    fun tx hTx => hEarlier tx (List.mem_append_left _ hTx)
  have hNoise : DeployNothing evm codeOf
      (noiseTransactions arb.opp.path.hops branch (draws.noise branch)) :=
    fun tx hTx => hEarlier tx (List.mem_append_right _ hTx)
  exact h.measure_profit (hNoise.foldl (h.prepare hTriggers hMirror)) hr

end Codeless

/-! ## The executor -/

/-- **Without profit nothing is sent.** -/
theorem no_broadcast {cfg : Config} {env : CallEnv} {opp : Opportunity} {s : ExecState}
    (h : ∀ lender branch r, env.simulateStrategy lender branch = some r → r.profit = 0) :
    (simulateAndExecute cfg env opp s).broadcasts = [] := by
  rw [List.eq_nil_iff_forall_not_mem]
  intro sent hSent
  obtain ⟨_, _, candidate, _, _, _, hCleared, -, -⟩ := broadcasts_cases hSent
  obtain ⟨_, _, -, -, hSelect, hProtect⟩ := hCleared.through
  obtain ⟨_, _, -, -, hCovered⟩ := protect_ok hProtect
  obtain ⟨hTop, -⟩ := selectCandidate_ok hSelect
  obtain ⟨branch, -, hBranch⟩ := List.mem_filterMap.mp (List.mem_of_head? hTop)
  rw [h candidate.lender branch candidate.topSim hBranch] at hCovered
  exact absurd hCovered (Nat.not_lt_zero _)

/-- A call that sends nothing ends with an error. -/
theorem ended_of_silent {cfg : Config} {env : CallEnv} {opp : Opportunity} {s : ExecState}
    (h : (simulateAndExecute cfg env opp s).broadcasts = []) :
    ∃ stop, (simulateAndExecute cfg env opp s).ended = .error stop := by
  rcases simulateAndExecute_cases cfg env opp s with
    ⟨_, stop, hStop, -⟩ | ⟨_, targetBlock, _, _, -, ⟨_, stop, -, hStop⟩ | ⟨s', c, -, hLoop⟩⟩
  · exact ⟨stop, by rw [hStop]⟩
  · exact ⟨stop, by rw [hStop]⟩
  · have hHead := EngineLoop.broadcastLoop_head env opp c s' (maxResilienceAttempts - 1) 0
      targetBlock
    rw [← hLoop, h] at hHead
    cases hHead

/-! ## The engine -/

/-- The arbitrage that a call simulates with a lender. -/
def arbOf (cfg : Config) (opp : Opportunity) (callerEoa : Address) (lender : Lender) : Arb where
  opp
  arbData := buildCalldataWithLender cfg opp lender
  targetContract := cfg.contractAddress
  callerEoa

/-- The EVM, its database on a mirror, and the tables that the mirror restored. -/
structure Simulator (W S : Type) where
  evm : Evm W S
  database : (Address → Option (List UInt8)) → W
  codeOf : W → List UInt8
  restored : List (Address × List UInt8)
  pools : Address → Option Aged

/-- Each simulation of the call runs on the mirror of some moment, before which no event named
the executor, and no trigger or noise in it deploys code there. -/
def Simulates (sim : Simulator W S) (cfg : Config) (env : CallEnv) (opp : Opportunity) : Prop :=
  ∃ callerEoa, ∀ lender branch, ∃ draws : Draws, ∃ events : List BytecodeStore.Event,
    (∀ event ∈ events, ¬ Names cfg.contractAddress event) ∧
      DeployNothing sim.evm sim.codeOf
        (earlierTransactions draws (arbOf cfg opp callerEoa lender) branch) ∧
      env.simulateStrategy lender branch =
        simulateStrategy sim.evm
          (sim.database
            (events.foldl BytecodeStore.next
              (BytecodeStore.initial sim.restored sim.pools)).basicRef)
          draws (arbOf cfg opp callerEoa lender) branch

/-- The simulator is an EVM on the codes of the mirror, and found none of `account` on disk. -/
structure Simulator.Fits (sim : Simulator W S) (account : Address) : Prop where
  codeless : Codeless sim.evm sim.codeOf account
  database : ∀ codes, sim.codeOf (sim.database codes) = (codes account).getD []
  restored : ∀ entry ∈ sim.restored, entry.1 ≠ account

theorem Simulates.silent {sim : Simulator W S} {cfg : Config} {env : CallEnv}
    {opp : Opportunity} (hFits : sim.Fits cfg.contractAddress) (h : Simulates sim cfg env opp)
    (s : ExecState) : (simulateAndExecute cfg env opp s).broadcasts = [] := by
  obtain ⟨callerEoa, hSim⟩ := h
  apply no_broadcast
  intro lender branch r hr
  obtain ⟨draws, events, hEvents, hEarlier, hEq⟩ := hSim lender branch
  have hUnknown := (Unknown.initial hFits.restored sim.pools).run hEvents
  have hCode := hFits.database
    (events.foldl BytecodeStore.next (BytecodeStore.initial sim.restored sim.pools)).basicRef
  rw [hUnknown.basicRef, Option.getD_none] at hCode
  rw [hEq] at hr
  exact @Codeless.simulateStrategy_profit _ _ sim.evm sim.codeOf
    (arbOf cfg opp callerEoa lender) hFits.codeless draws branch hEarlier _ hCode r hr

theorem mem_next_calls {cfg : Config} {e : EngineLoop.Engine} {event : EngineLoop.Event}
    {call : EngineLoop.Call} (h : call ∈ (EngineLoop.next cfg e event).calls) :
    call ∈ e.calls ∨ ∃ task, event = .ended task call.env := by
  rcases EngineLoop.next_cases cfg e event with ⟨hCalls, -⟩ | ⟨message, task, env, rfl, hCalls, -⟩
  · rw [hCalls] at h
    exact .inl h
  · rw [hCalls] at h
    rcases List.mem_append.mp h with hOld | hNew
    · exact .inl hOld
    · rw [List.mem_singleton.mp hNew]
      exact .inr ⟨task, rfl⟩

/-- A call of a run met what its end says. -/
theorem mem_run_calls {cfg : Config} {e : EngineLoop.Engine} {events : List EngineLoop.Event}
    {call : EngineLoop.Call} (h : call ∈ (EngineLoop.run cfg e events).calls) :
    call ∈ e.calls ∨ ∃ task, EngineLoop.Event.ended task call.env ∈ events := by
  induction events generalizing e with
  | nil => exact .inl h
  | cons event rest ih =>
      rcases ih h with hStep | ⟨task, hRest⟩
      · rcases mem_next_calls hStep with hOld | ⟨task, rfl⟩
        · exact .inl hOld
        · exact .inr ⟨task, List.mem_cons_self⟩
      · exact .inr ⟨task, List.mem_cons_of_mem event hRest⟩

/-- **The engine is silent.**  In a run whose simulations never saw code of the executor every
call ends with an error and sends nothing; nothing but the safe tokens is registered, and no
profit is handed on. -/
theorem engine_silent {sim : Simulator W S} {cfg : Config} (hFits : sim.Fits cfg.contractAddress)
    (exec : ExecState) (events : List EngineLoop.Event)
    (hSim : ∀ call ∈ (EngineLoop.run cfg (.initial cfg exec) events).calls,
      Simulates sim cfg call.env call.message.opp) :
    let e := EngineLoop.run cfg (.initial cfg exec) events
    (∀ call ∈ e.calls, call.result.broadcasts = [] ∧ ∃ stop, call.result.ended = .error stop) ∧
      (∀ token, token ∈ e.harvestRegistry ↔ token ∈ EngineLoop.safeTokens cfg.chain) ∧
      e.handled = [] := by
  have hSerial := ((EngineLoop.Inv.initial cfg exec).run events).serial
  rw [List.nil_append] at hSerial
  have hSilent : ∀ call ∈ (EngineLoop.run cfg (.initial cfg exec) events).calls,
      call.result.broadcasts = [] ∧ ∃ stop, call.result.ended = .error stop := by
    intro call hCall
    have hSent := (hSim call hCall).silent hFits call.before
    rw [hSerial.executed call hCall]
    exact ⟨hSent, ended_of_silent hSent⟩
  refine ⟨hSilent, fun token => ?_, ?_⟩
  · rw [hSerial.harvest]
    constructor
    · rintro (hSafe | ⟨-, -, call, hCall, ⟨hash, hOk⟩, -⟩)
      · exact hSafe
      · obtain ⟨stop, hError⟩ := (hSilent call hCall).2
        rw [hError] at hOk
        cases hOk
    · exact .inl
  · rw [hSerial.handled, List.flatMap_eq_nil_iff]
    intro call hCall
    obtain ⟨stop, hError⟩ := (hSilent call hCall).2
    rw [EngineLoop.Call.profits, hError]

/-! ## A sample run -/

/-- Codes and balances; a call of an account with code earns it an ether. -/
abbrev Accounts := (Address → List UInt8) × (Address → U256)

def accountsEvm : Evm Accounts (Address → U256) where
  insertAccountInfo account balance w :=
    (Function.update w.1 account [], Function.update w.2 account balance)
  loadAccount account w := (some (w.2 account), w)
  transact tx w :=
    let state := if w.1 tx.transactTo = [] then w.2 else
      Function.update w.2 tx.transactTo (w.2 tx.transactTo + 1000000000000000000)
    (some { success := true, gasUsed := 21000, state }, w)
  commit state w := (w.1, state)
  touched _ := []

def accountsSimulator : Simulator Accounts (Address → U256) where
  evm := accountsEvm
  database codes := (fun account => (codes account).getD [], fun _ => 0)
  codeOf w := w.1 0xC0
  restored := []
  pools _ := none

theorem accountsSimulator_fits : accountsSimulator.Fits 0xC0 where
  codeless :=
    { insert := by
        intro other balance w hw
        show Function.update w.1 other [] 0xC0 = []
        rcases eq_or_ne 0xC0 other with rfl | hOther
        · exact Function.update_self _ _ _
        · rw [Function.update_of_ne hOther]
          exact hw
      load := fun _ _ hw => hw
      reload := fun _ _ => rfl
      call := by
        intro tx w executed w' hTo hw hRun
        have hNone : w.1 tx.transactTo = [] := by rw [hTo]; exact hw
        simp only [accountsSimulator, accountsEvm, if_pos hNone, Prod.mk.injEq,
          Option.some.injEq] at hRun
        obtain ⟨rfl, rfl⟩ := hRun
        rfl }
  database _ := rfl
  restored _ h := absurd h List.not_mem_nil

def quietDraws : Draws where
  triggers _ := 0xAA
  noise _ _ _ := (0xBB, 0xCC)

/-- A call whose simulations run on a fresh mirror. -/
def codelessEnv : CallEnv :=
  { sampleEnv 100 200000000 fun _ => [.ok ()] with
    simulateStrategy := fun lender =>
      simulateStrategy accountsEvm
        (accountsSimulator.database (BytecodeStore.initial [] fun _ => none).basicRef) quietDraws
        (arbOf sampleConfig (sampleOpportunity "a" 1 2) 0x5E lender) }

def codelessRun : List EngineLoop.Event :=
  [.received { opp := sampleOpportunity "a" 1 2, netProfit := some 5 }, .ended 0 codelessEnv]

theorem codelessRun_simulates :
    ∀ call ∈ (EngineLoop.run sampleConfig (.initial sampleConfig (freshState 0)) codelessRun).calls,
      Simulates accountsSimulator sampleConfig call.env call.message.opp := by
  intro call hCall
  have hEnv : call.env = codelessEnv := by
    rcases mem_run_calls hCall with hOld | ⟨task, hEnded⟩
    · exact absurd hOld List.not_mem_nil
    · simp only [codelessRun, List.mem_cons, reduceCtorEq, EngineLoop.Event.ended.injEq,
        List.not_mem_nil, or_false, false_or] at hEnded
      exact hEnded.2
  have hMessage : call.message ∈ EngineLoop.messages codelessRun := by
    have hSerial := ((EngineLoop.Inv.initial sampleConfig (freshState 0)).run codelessRun).serial
    apply hSerial.started.subset
    rw [hSerial.inOrder]
    exact List.mem_append_left _ (List.mem_map_of_mem hCall)
  rw [hEnv, List.mem_singleton.mp hMessage]
  exact ⟨0x5E, fun lender branch =>
    ⟨quietDraws, [], fun _ h => absurd h List.not_mem_nil, fun _ _ _ hw => hw, rfl⟩⟩

theorem engine_silent_sample :
    (EngineLoop.run sampleConfig (.initial sampleConfig (freshState 0)) codelessRun).handled = [] :=
  (engine_silent accountsSimulator_fits (freshState 0) codelessRun codelessRun_simulates).2.2

end SovereignShadow.Ports.CodelessExecutor
