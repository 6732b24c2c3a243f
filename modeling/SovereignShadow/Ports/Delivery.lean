import SovereignShadow.Ports.DetectorRuns
import SovereignShadow.Ports.EngineLoop
import SovereignShadow.Ports.ShadowBot

/-!
# From a log to the contract

The detector, the engine loop, the executor and `ShadowBot`, one after another.  The detector
sends its opportunities over a channel that the engine loop reads; searches run concurrently, so
they come in any order, and the last ones may not come at all.  The detector leaves
`profit_details` at its default, and nothing sets it later.

What the executor sends is a call of `executeArbitrage`.  The compiler decodes its argument,
`_initiateExecution` asks the lender for the loan, and the lender hands the payload back to the
callback, which reads the hops and the profit floor.  The calls of the contract are queries here,
as in `ShadowBot`: what they ask for, not the bytes that `EmptySelectors` is about.

## Main results

* `pathData_eq` — the decoder accepts what the executor sends.
* `buildCalldata_carries` — what the contract makes of it.
* `run_delivers` — over every run: where every call comes from, and what its bundles carry.
-/

namespace SovereignShadow.Ports.Delivery

open SovereignShadow.Verified.Bytes
open SovereignShadow.Verified.Checked
open SovereignShadow.Verified.Runs
open SovereignShadow.Ports.Models
open SovereignShadow.Ports.Evm
open SovereignShadow.Ports.GhostPayload
open SovereignShadow.Ports.FlashLoanExecutor
open SovereignShadow.Ports.ExecutorStages
open SovereignShadow.Ports.EngineLoop
open SovereignShadow.Ports.Detector
open SovereignShadow.Ports.GenuineCycles
open SovereignShadow.Ports.RegistryRoutes
open SovereignShadow.Ports.DetectorRuns
open SovereignShadow.Ports.ShadowBot

/-! ## The argument of the contract -/

/-- `pathData` of `executeArbitrage`, as the compiler decodes it; `none` is a revert, or another
entry point. -/
def pathData (input : List UInt8) : Option CalldataSlice :=
  let calldata := ofList input
  let offset := (loadWord calldata 4).toNat
  let head := 4 + offset
  let length := (loadWord calldata head).toNat
  if input.take 4 = executeArbitrageSelector ∧ 36 ≤ input.length ∧ offset < 2 ^ 64 ∧
      head + 0x1f < input.length ∧ length < 2 ^ 64 ∧ head + 0x20 + length ≤ input.length then
    some { calldata, offset := head + 0x20, length }
  else none

/-- The calldata of `executeArbitrage` for a payload. -/
def arbitrageCall (payload : List UInt8) : List UInt8 :=
  executeArbitrageSelector ++ abiEncodeBytes payload

section Argument

variable {payload : List UInt8}

theorem arbitrageCall_eq (payload : List UInt8) :
    arbitrageCall payload =
      (executeArbitrageSelector ++ u256Bytes 0x20 ++ u256Bytes (BitVec.ofNat 256 payload.length)) ++
        payload ++ List.replicate ((32 - payload.length % 32) % 32) 0 := by
  simp only [arbitrageCall, abiEncodeBytes, List.append_assoc]

theorem holds_payload (payload : List UInt8) :
    Holds (ofList (arbitrageCall payload)) 68 payload := by
  have hLength : (executeArbitrageSelector ++ u256Bytes 0x20 ++
      u256Bytes (BitVec.ofNat 256 payload.length)).length = 68 := by
    simp only [List.length_append, u256Bytes_length]
    rfl
  have h := holds_ofList (executeArbitrageSelector ++ u256Bytes 0x20 ++
    u256Bytes (BitVec.ofNat 256 payload.length)) payload
      (List.replicate ((32 - payload.length % 32) % 32) 0)
  rw [hLength] at h
  rw [arbitrageCall_eq]
  exact h

theorem arbitrageCall_offset (payload : List UInt8) :
    loadWord (ofList (arbitrageCall payload)) 4 = 0x20 := by
  apply loadWord_u256
  have h := holds_ofList executeArbitrageSelector (u256Bytes 0x20)
    (u256Bytes (BitVec.ofNat 256 payload.length) ++ payload ++
      List.replicate ((32 - payload.length % 32) % 32) 0)
  rw [arbitrageCall_eq]
  simp only [List.append_assoc] at h ⊢
  exact h

theorem arbitrageCall_length (hPayload : payload.length < 2 ^ 64) :
    (loadWord (ofList (arbitrageCall payload)) 36).toNat = payload.length := by
  have h := holds_ofList (executeArbitrageSelector ++ u256Bytes 0x20)
    (u256Bytes (BitVec.ofNat 256 payload.length))
    (payload ++ List.replicate ((32 - payload.length % 32) % 32) 0)
  have hLength : (executeArbitrageSelector ++ u256Bytes 0x20).length = 36 := by
    simp only [List.length_append, u256Bytes_length]
    rfl
  rw [hLength] at h
  have hWord : loadWord (ofList (arbitrageCall payload)) 36 =
      BitVec.ofNat 256 payload.length := by
    apply loadWord_u256
    rw [arbitrageCall_eq]
    simp only [List.append_assoc] at h ⊢
    exact h
  rw [hWord, BitVec.toNat_ofNat, Nat.mod_eq_of_lt (hPayload.trans (by norm_num))]

/-- The decoder accepts what the executor sends. -/
theorem pathData_eq (hPayload : payload.length < 2 ^ 64) :
    pathData (arbitrageCall payload) =
      some
        { calldata := ofList (arbitrageCall payload), offset := 68,
          length := payload.length } := by
  have hSize : 68 + payload.length ≤ (arbitrageCall payload).length := by
    rw [arbitrageCall_eq]
    simp only [List.length_append, u256Bytes_length]
    show 68 + payload.length ≤ 4 + 32 + 32 + payload.length + _
    omega
  have hOffset : (loadWord (ofList (arbitrageCall payload)) 4).toNat = 32 := by
    rw [arbitrageCall_offset]
    rfl
  have hSelector : (arbitrageCall payload).take 4 = executeArbitrageSelector :=
    List.take_left' rfl
  unfold pathData
  dsimp only
  rw [hOffset, arbitrageCall_length hPayload, if_pos]
  refine ⟨hSelector, ?_, ?_, ?_, hPayload, hSize⟩
  · omega
  · norm_num
  · omega

theorem bytes_of_holds {data : CalldataSlice} (hLength : data.length = payload.length)
    (h : Holds data.calldata data.offset payload) : data.bytes = payload := by
  apply List.ext_getElem
  · simp [CalldataSlice.bytes, hLength]
  · intro i _ hi
    simp only [CalldataSlice.bytes, List.getElem_map, List.getElem_range]
    exact h i hi

end Argument

/-! ## What the contract makes of it -/

/-- The lenders that `_initiateExecution` knows. -/
def lenderAddress : Lender → Option Address
  | .balancer => some balancerVault
  | .aaveV3 => some aaveV3Pool
  | _ => none

/-- The contract, called with `data`, runs the opportunity with a loan of `lender`. -/
structure Carries (cfg : Config) (opp : Opportunity) (lender : Lender) (data : CalldataSlice) :
    Prop where
  /-- The lender is asked for the input. -/
  asks : ∃ vault, lenderAddress lender = some vault ∧ ∀ self,
    ShadowBot.initiateExecution self data =
      initFlash vault self data ([addressWord opp.inputToken], [opp.inputAmount])
  /-- The vault's callback runs the hops, wherever it finds the payload. -/
  vault : ∀ ctx loans memory userData, Holds memory (userData + 0x20) data.bytes →
    receiveFlashLoan ctx loans memory userData =
      receiveFlashLoanWith ctx loans cfg.minProfitWei
        (executeHops ctx.self (opp.path.hops.map hopWords))
  /-- So does the pool's callback. -/
  pool : ∀ ctx loans calldata params, Holds calldata params data.bytes →
    executeOperation ctx loans calldata params =
      executeOperationWith ctx loans cfg.minProfitWei
        (executeHops ctx.self (opp.path.hops.map hopWords))

theorem encodeGhostMulti_length (path : ArbitragePath) (loans : List (Address × U256))
    (minProfit : U256) :
    (path.encodeGhostMulti loans minProfit).length =
      35 + 52 * loans.length + 43 * path.hops.length := by
  have hHops : (path.hops.flatMap encodeHop).length = 43 * path.hops.length := by
    induction path.hops with
    | nil => rfl
    | cons hop rest ih =>
        rw [List.flatMap_cons, List.length_append, encodeHop_length, ih, List.length_cons]
        omega
  rw [ArbitragePath.encodeGhostMulti, encodeHops]
  simp only [List.length_append, List.length_cons, List.length_nil, u256Bytes_length,
    flatMap_encodeLoan_length, hHops]
  omega

section Payload

variable {cfg : Config} {opp : Opportunity} {path : ArbitragePath} {data : CalldataSlice}

/-- A payload for one loan makes `_initiateExecution` ask its lender for that loan. -/
theorem initiateExecution_eq {loan : Address × U256} {minProfit : U256} {vault : Address}
    (h : PayloadAt data.calldata data.offset path [loan] minProfit)
    (hLender : lenderAddress path.lender = some vault) (self : Address) :
    ShadowBot.initiateExecution self data =
      initFlash vault self data ([addressWord loan.1], [loan.2]) := by
  have hTokens := readLoanTokens_flatMap [loan] _ h.loansAt
  have hAmounts := readLoanAmounts_flatMap [loan] _ h.loansAt
  have hDispatch : GhostPayload.initiateExecution data.calldata data.offset =
      (path.lender.id.toNat, 1) := by
    have hOne := h.loansLenByte (by show 1 < 256; norm_num)
    rw [GhostPayload.initiateExecution, h.lenderByte, hOne]
    rfl
  rw [ShadowBot.initiateExecution, hDispatch]
  cases hKind : path.lender with
  | balancer =>
      rw [hKind] at hLender
      obtain rfl := Option.some.inj hLender
      show initFlash balancerVault self data (initBalancerFlashLoans _ _ 1) = _
      rw [initBalancerFlashLoans]
      exact congrArg (initFlash balancerVault self data) (Prod.ext hTokens hAmounts)
  | aaveV3 =>
      rw [hKind] at hLender
      obtain rfl := Option.some.inj hLender
      show initFlash aaveV3Pool self data (initAaveFlashLoans _ _ 1) = _
      rw [initAaveFlashLoans]
      exact congrArg (initFlash aaveV3Pool self data) (Prod.ext hTokens hAmounts)
  | uniswapV2 | uniswapV3 | aerodrome | makerDAO | morphoBlue | curve =>
      rw [hKind] at hLender
      cases hLender

/-- What the contract makes of the payload of an opportunity. -/
theorem carries_of_payload {vault : Address} (hLender : lenderAddress path.lender = some vault)
    (hHops : path.hops = opp.path.hops) (hShort : opp.path.hops.length < 256)
    (h : Holds data.calldata data.offset
      (path.encodeGhostMulti [(opp.inputToken, opp.inputAmount)] cfg.minProfitWei))
    (hBytes : data.bytes =
      path.encodeGhostMulti [(opp.inputToken, opp.inputAmount)] cfg.minProfitWei) :
    Carries cfg opp path.lender data := by
  have hOne : [(opp.inputToken, opp.inputAmount)].length < 256 := by
    show 1 < 256
    norm_num
  rw [← hHops] at hShort
  constructor
  case asks => exact ⟨vault, hLender, initiateExecution_eq (.of_holds h) hLender⟩
  case vault =>
      intro ctx loans memory userData hHeld
      rw [hBytes] at hHeld
      have hAt := PayloadAt.of_holds hHeld
      have hRead : executeArbitrageHops memory userData = path.hops.map hopWords :=
        hAt.decodeHops_eq hOne hShort
      have hFloor : minProfitMemory memory userData = cfg.minProfitWei :=
        loadWord_u256 hAt.minProfitAt
      rw [receiveFlashLoan, hRead, hFloor, hHops]
  case pool =>
      intro ctx loans calldata params hHeld
      rw [hBytes] at hHeld
      have hAt := PayloadAt.of_holds hHeld
      have hRead : executeArbitrageHopsCalldata calldata params = path.hops.map hopWords :=
        hAt.decodeHops_eq hOne hShort
      have hFloor : minProfitCalldata calldata params = cfg.minProfitWei :=
        loadWord_u256 hAt.minProfitAt
      rw [executeOperation, hRead, hFloor, hHops]

end Payload

/-- What the contract makes of what the executor sends. -/
theorem buildCalldata_carries (cfg : Config) {opp : Opportunity} {lender : Lender}
    {vault : Address} (hLender : lenderAddress lender = some vault)
    (hShort : opp.path.hops.length < 256) :
    ∃ data, pathData (buildCalldataWithLender cfg opp lender) = some data ∧
      Carries cfg opp lender data := by
  let path : ArbitragePath :=
    { hops := opp.path.hops, loans := [(opp.inputToken, opp.inputAmount)], lender }
  generalize hPayload :
    path.encodeGhostMulti [(opp.inputToken, opp.inputAmount)] cfg.minProfitWei = payload
  have hLength : payload.length < 2 ^ 64 := by
    rw [← hPayload, encodeGhostMulti_length]
    show 35 + 52 * 1 + 43 * opp.path.hops.length < 2 ^ 64
    omega
  have hCall : buildCalldataWithLender cfg opp lender = arbitrageCall payload := by
    rw [← hPayload]
    rfl
  have hHeld := holds_payload payload
  rw [hCall]
  refine ⟨_, pathData_eq hLength, ?_⟩
  refine @carries_of_payload cfg opp path _ vault hLender rfl hShort ?_ ?_
  · rw [hPayload]
    exact hHeld
  · rw [hPayload]
    exact bytes_of_holds rfl hHeld

/-! ## What a call sends -/

/-- The candidate holds the calldata for its lender, which the contract knows. -/
def Encoded (cfg : Config) (opp : Opportunity) (candidate : Candidate) : Prop :=
  candidate.calldata = buildCalldataWithLender cfg opp candidate.lender ∧
    (lenderAddress candidate.lender).isSome

section Executor

variable {cfg : Config} {env : CallEnv} {opp : Opportunity} {s s' : ExecState}

theorem costCandidate_encoded {lender : Lender} (hLender : (lenderAddress lender).isSome)
    {topSim : StateSimulator.SimResult} {price : U256} {candidate : Candidate}
    (h : costCandidate cfg env opp lender topSim price = some candidate) :
    Encoded cfg opp candidate := by
  unfold costCandidate at h
  dsimp only at h
  split at h
  · cases h
  · rw [← Option.some.inj h]
    exact ⟨rfl, hLender⟩

/-- **Step lemma** of the selection. -/
theorem considerLender_encoded {lender : Lender} (hLender : (lenderAddress lender).isSome)
    {price : U256} {best best' : Option Candidate}
    (h : considerLender cfg env opp price best lender = .ok best')
    (hBest : ∀ candidate ∈ best, Encoded cfg opp candidate) :
    ∀ candidate ∈ best', Encoded cfg opp candidate := by
  unfold considerLender at h
  dsimp only at h
  split at h
  · rw [← Except.ok.inj h]
    exact hBest
  · split at h
    · split at h
      · cases h
      · rename_i topSim _ _ candidate hCost
        have hNew := costCandidate_encoded hLender hCost
        have hOnly : ∀ other ∈ some candidate, Encoded cfg opp other := by
          intro other hOther
          rw [← Option.some.inj hOther]
          exact hNew
        split at h
        · rw [← Except.ok.inj h]
          exact hOnly
        · split at h
          · rw [← Except.ok.inj h]
            exact hOnly
          · rw [← Except.ok.inj h]
            exact hBest
    · rw [← Except.ok.inj h]
      exact hBest

theorem selectCandidate_encoded {candidate : Candidate}
    (h : selectCandidate cfg env opp = .ok candidate) : Encoded cfg opp candidate := by
  unfold selectCandidate at h
  split at h
  · cases h
  · rename_i best hFirst
    have hBest := considerLender_encoded (by rfl) hFirst
      (fun other hOther => absurd hOther (Option.not_mem_none other))
    split at h
    · cases h
    · cases h
    · rename_i selected hSecond
      rw [← Except.ok.inj h]
      exact considerLender_encoded (by rfl) hSecond hBest selected rfl

/-- The transaction carries the candidate to the contract. -/
theorem commit_tx {builder : BuilderConfig} {candidate : Candidate} {c : Commitment}
    (h : commit cfg env opp builder candidate s = (s', .ok c)) :
    c.tx.toAddr = cfg.contractAddress ∧ c.tx.input = candidate.calldata := by
  unfold commit at h
  dsimp only at h
  split at h
  · cases (Prod.mk.inj h).2
  · split at h
    · cases (Prod.mk.inj h).2
    · split at h
      · split at h
        · cases (Prod.mk.inj h).2
        · rw [← Except.ok.inj (Prod.mk.inj h).2]
          exact ⟨rfl, rfl⟩
      · cases (Prod.mk.inj h).2

/-- What the executor has checked about the candidate it selected, with the bidding engine it
started from. -/
structure Passed (cfg : Config) (env : CallEnv) (opp : Opportunity) (s : ExecState)
    (candidate : Candidate) : Prop where
  selected : selectCandidate cfg env opp = .ok candidate
  admitted : Admitted cfg env env.totalGasPrice candidate.lender candidate
  success : candidate.topSim.success = true
  covers : ∃ bribePct engine,
    s.biddingEngine.calculateBribe cfg.floats.heatRising opp env.firstBribe =
        some (bribePct, engine) ∧
      adjustedTotalCost candidate + bribeWei candidate bribePct < candidate.topSim.profit
  floor : 200000000000000 ≤ candidate.netProfit

/-- A broadcast of a call that starts in `s` is a call of the contract that runs the opportunity,
with a loan of the lender that has passed. -/
structure Delivered (cfg : Config) (env : CallEnv) (opp : Opportunity) (s : ExecState)
    (sent : Broadcast) : Prop where
  toContract : sent.tx.toAddr = cfg.contractAddress
  carries : ∃ candidate data, Passed cfg env opp s candidate ∧
    pathData sent.tx.input = some data ∧ Carries cfg opp candidate.lender data

theorem passed_of_cleared {builder : BuilderConfig} {targetBlock : Nat} {candidate : Candidate}
    {checked : ExecState} (h : Cleared cfg env opp s builder targetBlock candidate checked) :
    Passed cfg env opp s candidate := by
  have hSelect : selectCandidate cfg env opp = .ok candidate := by
    obtain ⟨_, _, -, -, hSelect, -⟩ := h.through
    exact hSelect
  obtain ⟨-, vetted, hEngine, hProtect⟩ := h.checks hSelect
  obtain ⟨bribePct, engine, hBribe, -, -, hCovers, hSuccess, hFloor⟩ := protect_ok_iff.mp hProtect
  rw [hEngine] at hBribe
  exact
    { selected := hSelect
      admitted := selectCandidate_ok hSelect
      success := hSuccess
      covers := ⟨bribePct, engine, hBribe, hCovers⟩
      floor := hFloor }

/-- What a call sends for an opportunity with fewer than 256 hops. -/
theorem delivered_of_broadcast (hShort : opp.path.hops.length < 256) {sent : Broadcast}
    (hSent : sent ∈ (simulateAndExecute cfg env opp s).broadcasts) :
    Delivered cfg env opp s sent := by
  obtain ⟨builder, targetBlock, candidate, checked, s', c, hCleared, hCommit, hRun⟩ :=
    broadcasts_cases hSent
  have hTx : sent.tx = c.tx := by
    have hFrame := broadcastLoop_frame env opp c s' (maxResilienceAttempts - 1) 0 targetBlock
    rw [hRun] at hSent
    exact (hFrame.2.2.1 sent hSent).1
  obtain ⟨hTo, hInput⟩ := commit_tx hCommit
  have hEncoded : Encoded cfg opp candidate := by
    obtain ⟨_, _, -, -, hSelect, -⟩ := hCleared.through
    exact selectCandidate_encoded hSelect
  obtain ⟨vault, hLender⟩ := Option.isSome_iff_exists.mp hEncoded.2
  obtain ⟨data, hData, hCarries⟩ := buildCalldata_carries cfg hLender hShort
  constructor
  · rw [hTx, hTo]
  · refine ⟨candidate, data, passed_of_cleared hCleared, ?_, hCarries⟩
    rw [hTx, hInput, hEncoded.1, hData]

end Executor

/-! ## The whole way -/

/-- An opportunity as the detector sends it. -/
def messageOf (opp : Opportunity) : Message where
  opp
  netProfit := none

/-- The opportunities that the detector sends. -/
def sentOf (outcomes : List Outcome) : List Opportunity := outcomes.flatMap Outcome.sent

/-- The engine loop received some of what the detector sent, each of it once. -/
def Fed (outcomes : List Outcome) (received : List Message) : Prop :=
  received.Subperm ((sentOf outcomes).map messageOf)

/-- The opportunity was found in the turn of one of the outcomes, for its trigger. -/
structure Found (config : DetectorConfig) (outcomes : List Outcome) (opp : Opportunity) :
    Prop where
  sound : ∃ before outcome later trigger, outcomes = before ++ outcome :: later ∧
    Triggered outcome.turn trigger ∧
      Sound config (before.map Outcome.turn) outcome.turn.around trigger opp
  /-- The loan is of the token that the first hop swaps. -/
  input : ∃ first, opp.path.hops.head? = some first ∧ opp.inputToken = first.tokenIn

/-- The engine after the messages of these outcomes. -/
structure Pipeline (config : DetectorConfig) (cfg : Config) (outcomes : List Outcome)
    (e : Engine) : Prop where
  /-- No opportunity is executed more often than it was sent. -/
  once : (e.calls.map fun call => call.message.opp).Subperm (sentOf outcomes)
  found : ∀ call ∈ e.calls, Found config outcomes call.message.opp
  delivered : ∀ call ∈ e.calls, ∀ sent ∈ call.result.broadcasts,
    Delivered cfg call.env call.message.opp call.before sent
  /-- The profit manager is handed nothing. -/
  handled : e.handled = []

section Run

variable {build : Build} {config : DetectorConfig} {start : Surroundings} {turns : List Turn}

/-- Whatever a turn sends, one of its searches sends. -/
theorem handle_searched (st : DetectorState) (turn : Turn) {opp : Opportunity}
    (h : opp ∈ (handle build config st turn).1) :
    ∃ env det event task, opp ∈ runTask env det event task := by
  have hProcess : ∀ trigger st', opp ∈ (process config turn.around trigger st').1 →
      ∃ env det event task, opp ∈ runTask env det event task := by
    intro trigger st' hSent
    have hMem : opp ∈ (spawnedTasks (view config turn.around st') trigger.event).flatMap
        (search (view config turn.around st') turn.around trigger.event) := by
      unfold process at hSent
      dsimp only at hSent
      split_ifs at hSent <;> exact hSent
    obtain ⟨task, -, hTask⟩ := List.mem_flatMap.mp hMem
    exact ⟨_, _, _, task, hTask⟩
  unfold handle at h
  split at h
  · cases h
  · exact hProcess _ _ h
  · exact hProcess _ _ h
  · cases h
  · cases h

theorem run_searched {outcome : Outcome}
    (hOutcome : outcome ∈ DetectorRuns.run build config start turns) {opp : Opportunity}
    (hOpp : opp ∈ outcome.sent) :
    ∃ env det event task, opp ∈ runTask env det event task := by
  unfold DetectorRuns.run at hOutcome
  split at hOutcome
  · cases hOutcome
  · rename_i st _
    have hAll : Throughout (fun _ outcome => ∀ opp ∈ outcome.sent,
        ∃ env det event task, opp ∈ runTask env det event task)
        (outputs (step build config) st turns) := by
      refine outputs_throughout (fun _ _ => True) (fun _ st turn _ _ => ⟨?_, fun _ _ => trivial⟩)
        trivial (allowed_of_forall (fun _ _ _ => trivial) st)
      intro opp hSent
      apply handle_searched st turn
      unfold step at hSent
      split at hSent
      all_goals
        rename_i hHandle
        rw [hHandle]
        exact hSent
    obtain ⟨before, later, hSplit⟩ := List.append_of_mem hOutcome
    exact hAll before outcome later hSplit opp hOpp

/-- Whatever the detector has sent, it has found. -/
theorem found_of_sent (hStart : start.entries.length < 2 ^ 31)
    (hTurns : ∀ turn ∈ turns, turn.around.entries.length < 2 ^ 31) {opp : Opportunity}
    (hSent : opp ∈ sentOf (DetectorRuns.run build config start turns)) :
    Found config (DetectorRuns.run build config start turns) opp := by
  obtain ⟨outcome, hOutcome, hOpp⟩ := List.mem_flatMap.mp hSent
  constructor
  case sound =>
      obtain ⟨before, later, hSplit⟩ := List.append_of_mem hOutcome
      have hSpec := run_spec hStart hTurns before outcome later hSplit
      obtain ⟨trigger, hTriggered, hSound⟩ := hSpec.sound opp hOpp
      exact ⟨before, outcome, later, trigger, hSplit, hTriggered, hSound⟩
  case input =>
      obtain ⟨_, _, _, _, hTask⟩ := run_searched hOutcome hOpp
      obtain ⟨_, -, -, -, hInput⟩ := walk_of_sent hTask
      exact hInput

theorem Found.short {outcomes : List Outcome} {opp : Opportunity} (h : Found config outcomes opp)
    (hLength : config.maxPathLength < 256) : opp.path.hops.length < 256 := by
  obtain ⟨_, _, _, _, -, -, hSound⟩ := h.sound
  by_cases hTwo : 2 ≤ opp.path.hops.length
  · exact (hSound.short hTwo).trans_lt hLength
  · omega

/-- **From a log to the contract**, over any run of the detector and of the engine loop. -/
theorem run_delivers (hStart : start.entries.length < 2 ^ 31)
    (hTurns : ∀ turn ∈ turns, turn.around.entries.length < 2 ^ 31)
    (hLength : config.maxPathLength < 256) {cfg : Config} {exec : ExecState}
    {events : List EngineLoop.Event}
    (hFed : Fed (DetectorRuns.run build config start turns) (messages events)) :
    Pipeline config cfg (DetectorRuns.run build config start turns)
      (EngineLoop.run cfg (Engine.initial cfg exec) events) := by
  have hSerial := ((Inv.initial cfg exec).run events).serial
  have hCalls : ((EngineLoop.run cfg (Engine.initial cfg exec) events).calls.map
      Call.message).Subperm ((sentOf (DetectorRuns.run build config start turns)).map
        messageOf) := by
    have hStarted := hSerial.started
    rw [hSerial.inOrder] at hStarted
    exact ((List.sublist_append_left _ _).trans hStarted).subperm.trans hFed
  have hSent : ∀ call ∈ (EngineLoop.run cfg (Engine.initial cfg exec) events).calls,
      ∃ opp ∈ sentOf (DetectorRuns.run build config start turns), call.message = messageOf opp := by
    intro call hCall
    obtain ⟨opp, hOpp, hSame⟩ := List.mem_map.mp (hCalls.subset (List.mem_map_of_mem hCall))
    exact ⟨opp, hOpp, hSame.symm⟩
  have hFound : ∀ call ∈ (EngineLoop.run cfg (Engine.initial cfg exec) events).calls,
      Found config (DetectorRuns.run build config start turns) call.message.opp := by
    intro call hCall
    obtain ⟨opp, hOpp, hSame⟩ := hSent call hCall
    rw [hSame]
    exact found_of_sent hStart hTurns hOpp
  constructor
  case once =>
      obtain ⟨kept, hPerm, hSub⟩ := hCalls
      have hMap := (hPerm.map Message.opp).symm
      rw [List.map_map] at hMap
      have hBack : ((sentOf (DetectorRuns.run build config start turns)).map messageOf).map
          Message.opp = sentOf (DetectorRuns.run build config start turns) := by
        rw [List.map_map]
        exact List.map_id _
      have hOf := hSub.map Message.opp
      rw [hBack] at hOf
      exact ⟨_, hMap.symm, hOf⟩
  case found => exact hFound
  case delivered =>
      intro call hCall sent hBroadcast
      have hExecuted : call.result =
          simulateAndExecute cfg call.env call.message.opp call.before :=
        hSerial.executed call hCall
      rw [hExecuted] at hBroadcast
      exact delivered_of_broadcast ((hFound call hCall).short hLength) hBroadcast
  case handled =>
      rw [hSerial.handled, List.flatMap_eq_nil_iff]
      intro call hCall
      obtain ⟨opp, -, hSame⟩ := hSent call hCall
      unfold Call.profits
      rw [hSame]
      split <;> rfl

end Run

/-! ## A run -/

/-- Both cycles of the call are received, and the execution of the first one ends. -/
noncomputable def twoPoolEvents : List EngineLoop.Event :=
  (sentOf twoPoolOutcomes).map (fun opp => .received (messageOf opp)) ++
    [.ended 0 (sampleEnv 100 200000000 fun _ => [.ok ()])]

theorem messages_received (opps : List Opportunity) (env : CallEnv) :
    messages (opps.map (fun opp => EngineLoop.Event.received (messageOf opp)) ++
      [.ended 0 env]) = opps.map messageOf := by
  induction opps with
  | nil => rfl
  | cons opp rest ih => exact congrArg (messageOf opp :: ·) ih

/-- The engine after them. -/
noncomputable def twoPoolEngine : Engine :=
  EngineLoop.run sampleConfig (Engine.initial sampleConfig (freshState 7)) twoPoolEvents

/-- A bundle goes out for it. -/
theorem twoPoolEngine_broadcasts :
    twoPoolEngine.calls.map (fun call => call.result.broadcasts.length) = [1] := by
  decide +kernel

theorem run_delivers_twoPools :
    ∃ call ∈ twoPoolEngine.calls, ∃ sent ∈ call.result.broadcasts,
      Found circularDetector.config twoPoolOutcomes call.message.opp ∧
        Delivered sampleConfig call.env call.message.opp call.before sent := by
  have hPipeline : Pipeline circularDetector.config sampleConfig twoPoolOutcomes twoPoolEngine := by
    refine run_delivers (by show 2 < 2 ^ 31; norm_num) twoPoolTurns_small
      (by show 4 < 256; norm_num) ?_
    unfold Fed twoPoolEvents
    rw [messages_received]
    exact .refl _
  have hOne : 1 ∈ twoPoolEngine.calls.map (fun call => call.result.broadcasts.length) := by
    rw [twoPoolEngine_broadcasts]
    exact List.mem_cons_self ..
  obtain ⟨call, hCall, hLength⟩ := List.mem_map.mp hOne
  obtain ⟨sent, hSent⟩ := List.exists_mem_of_length_pos (by rw [hLength]; exact Nat.one_pos)
  exact ⟨call, hCall, sent, hSent, hPipeline.found call hCall,
    hPipeline.delivered call hCall sent hSent⟩

end SovereignShadow.Ports.Delivery
