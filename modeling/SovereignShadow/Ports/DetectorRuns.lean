import SovereignShadow.Ports.PoolFeed
import SovereignShadow.Ports.RegistryRoutes
import SovereignShadow.Ports.SentQuotes
import SovereignShadow.Verified.RetainedTable
import SovereignShadow.Verified.Runs

/-!
# Runs of the detector

Port of the loop of `run` of `arbitrage_detector.rs`, with `sync_registry` and the registry
updates of new pools.  A turn takes a sync tick, a swap event, a forced rebuild or a new
pool; the order is arbitrary.  Every turn that changes the registry rebuilds the graph, so
the graph speaks of registered pools only, whatever the order.

The other tasks write the mirror all the time: a turn comes with what it reads of it, and a
spawned search with the mirror that it will see.  Nothing that sends swap events sets
`mempool_tx`, so a search prices the mirror as it is.

## Main results

* `registryAfter_iff` — a pool is registered as it was last announced, if it was mirrored at
  every sync since.
* `run_sent` — what is sent in any run.
* `run_survives` — which runs get through all their turns.
-/

namespace SovereignShadow.Ports.DetectorRuns

open SovereignShadow.Verified
open SovereignShadow.Verified.Checked
open SovereignShadow.Verified.Routes
open SovereignShadow.Verified.RetainedTable
open SovereignShadow.Verified.Runs
open SovereignShadow.Ports.Models
open SovereignShadow.Ports.Mirror
open SovereignShadow.Ports.MathEngine
open SovereignShadow.Ports.CycleSearch
open SovereignShadow.Ports.GraphBuilder
open SovereignShadow.Ports.GraphInvariant
open SovereignShadow.Ports.Detector
open SovereignShadow.Ports.GenuineCycles
open SovereignShadow.Ports.SearchBounds
open SovereignShadow.Ports.PoolFeed
open SovereignShadow.Ports.RegistryRoutes
open SovereignShadow.Ports.SentQuotes

/-! ## State and input -/

/-- The tables of the task.  Instants are nanoseconds. -/
structure DetectorState where
  graph : StaticGraph
  poolRegistry : Address → Option (Address × Address × DexName)
  poolActivity : Address → Option Nat
  alphaGracePeriod : Address → Option Nat

/-- What a turn reads from outside. -/
structure Surroundings where
  now : Nat
  /-- `state_mirror.pools`, each key once, in iteration order. -/
  entries : List (Address × MirrorEntry)
  nodup : (entries.map Prod.fst).Nodup
  traderRegistry : Address → Option (Finset Address)
  setOrder : SetOrder
  /-- The keys of the registry, in iteration order. -/
  registryOrder : List Address
  /-- `skew > 1.02`, of two reserves. -/
  skewed : Nat → Nat → Bool
  env : Environment
  /-- The mirror that a spawned task sees. -/
  taskMirror : SearchTask → StateMirror

/-- The fields of a swap event that its senders fill. -/
structure Trigger where
  sender : Address
  swapInfo : SwapInfo

def Trigger.event (trigger : Trigger) : SwapEvent where
  sender := trigger.sender
  swapInfo := trigger.swapInfo
  mempoolTx := none

/-- The branches of the `select!`. -/
inductive Input where
  | syncTick
  | priority (trigger : Trigger)
  | swap (trigger : Trigger)
  | force
  | pool (event : NewPoolEvent)

structure Turn where
  input : Input
  around : Surroundings

/-- Where the task panics: in `rebuild_graph`, in the skew check, or at an index of the loop
that spawns the searches. -/
inductive Panic where
  | rebuild
  | skew
  | index
  deriving DecidableEq, Repr

/-- A turn, what its searches send, and its panic. -/
structure Outcome where
  turn : Turn
  sent : List Opportunity
  panic : Option Panic

/-! ## A turn -/

/-- `t.elapsed().as_secs()`. -/
def elapsedSecs (now t : Nat) : Nat := (now - t) / 10 ^ 9

def Surroundings.mirror (around : Surroundings) : StateMirror where
  pools pool := (around.entries.lookup pool).map MirrorEntry.toPoolState
  traderRegistry := around.traderRegistry

/-- The tables that `rebuild_graph` reads. -/
def tables (around : Surroundings) (st : DetectorState) : Tables where
  entries := around.entries
  nodup := around.nodup
  poolRegistry := st.poolRegistry
  poolActivity pool := (st.poolActivity pool).map (elapsedSecs around.now)
  alphaGracePeriod pool := (st.alphaGracePeriod pool).map (elapsedSecs around.now)
  traderRegistry := around.traderRegistry

/-- `rebuild_graph` and the store of its graph. -/
def rebuild (build : Build) (around : Surroundings) (st : DetectorState) :
    Except Panic DetectorState :=
  match rebuildGraph build around.setOrder (tables around st) with
  | none => .error .rebuild
  | some graph => .ok { st with graph }

/-- `pool_registry.retain`. -/
def retainMirrored (around : Surroundings) (st : DetectorState) : DetectorState :=
  { st with poolRegistry := fun pool =>
      if pool ∈ (around.entries.map Prod.fst).toFinset then st.poolRegistry pool else none }

/-- The registry entry of a new pool. -/
def poolEntry : NewPoolEvent → Address × Address × Address × DexName
  | .v2 data => (data.pair, data.token0, data.token1, data.dexName)
  | .v3 data => (data.pool, data.token0, data.token1, data.dexName)

/-- The two inserts for a new pool. -/
def register (around : Surroundings) (event : NewPoolEvent) (st : DetectorState) : DetectorState :=
  { st with
    poolRegistry := Function.update st.poolRegistry (poolEntry event).1 (some (poolEntry event).2)
    alphaGracePeriod :=
      Function.update st.alphaGracePeriod (poolEntry event).1 (some around.now) }

/-- `pool_activity.insert(pool, Instant::now())`. -/
def heat (around : Surroundings) (pool : Address) (st : DetectorState) : DetectorState :=
  { st with poolActivity := Function.update st.poolActivity pool (some around.now) }

/-- `get_pool_from_router`, which does not look at the router. -/
def getPoolFromRouter (around : Surroundings) (st : DetectorState) (tIn tOut : Address) :
    Option Address :=
  around.registryOrder.find? fun pool =>
    match st.poolRegistry pool with
    | none => false
    | some (t0, t1, _) => decide (t0 = tIn ∧ t1 = tOut ∨ t0 = tOut ∧ t1 = tIn)

/-- The activity update before a swap event is processed. -/
def noteActivity (around : Surroundings) (trigger : Trigger) (st : DetectorState) :
    DetectorState :=
  if trigger.swapInfo.tokenIn = 0 then heat around trigger.swapInfo.router st
  else
    match getPoolFromRouter around st trigger.swapInfo.tokenIn trigger.swapInfo.tokenOut with
    | none => st
    | some pool => heat around pool st

/-- The detector as an event meets it. -/
def view (config : DetectorConfig) (around : Surroundings) (st : DetectorState) :
    ArbitrageDetector where
  config
  stateMirror := around.mirror
  graph := st.graph
  poolRegistry := st.poolRegistry

/-- The activity update of the skew check. -/
def checkSkew (around : Surroundings) (trigger : Trigger) (st : DetectorState) : DetectorState :=
  if isAiToken trigger.swapInfo.tokenIn || isAiToken trigger.swapInfo.tokenOut then
    match around.mirror.getPoolData trigger.swapInfo.router with
    | none => st
    | some state =>
        match calculateLiquiditySkew state.reserves0 state.reserves1 with
        | some (some (n0, n1)) =>
            if around.skewed n0 n1 then heat around trigger.swapInfo.router st else st
        | _ => st
  else st

/-- What a spawned search sends. -/
def search (det : ArbitrageDetector) (around : Surroundings) (event : SwapEvent)
    (task : SearchTask) : List Opportunity :=
  runTask around.env { det with stateMirror := around.taskMirror task } event task

/-- `process_event`: what its searches send, and the state after it. -/
def process (config : DetectorConfig) (around : Surroundings) (trigger : Trigger)
    (st : DetectorState) : List Opportunity × Except Panic DetectorState :=
  let det := view config around st
  let sent := (spawnedTasks det trigger.event).flatMap (search det around trigger.event)
  if det.stateMirror.isCongested trigger.swapInfo.router 3 then (sent, .ok st)
  else if skewChecked trigger.event det.stateMirror then
    if (spawnAll st.graph (searchDirections det trigger.event)).finished then
      (sent, .ok (checkSkew around trigger st))
    else (sent, .error .index)
  else (sent, .error .skew)

/-- What a turn does. -/
def handle (build : Build) (config : DetectorConfig) (st : DetectorState) (turn : Turn) :
    List Opportunity × Except Panic DetectorState :=
  match turn.input with
  | .syncTick => ([], rebuild build turn.around (retainMirrored turn.around st))
  | .priority trigger => process config turn.around trigger st
  | .swap trigger => process config turn.around trigger (noteActivity turn.around trigger st)
  | .force => ([], rebuild build turn.around st)
  | .pool event => ([], rebuild build turn.around (register turn.around event st))

def step (build : Build) (config : DetectorConfig) (st : DetectorState) (turn : Turn) :
    Step DetectorState Outcome :=
  match handle build config st turn with
  | (sent, .ok st') => { output := { turn, sent, panic := none }, next := some st' }
  | (sent, .error panic) => { output := { turn, sent, panic := some panic }, next := none }

/-- The state of `new`. -/
def initial : DetectorState where
  graph :=
    { tokens := [], tokenToIdx := fun _ => none, pools := [], poolToIdx := fun _ => none
      nodes := [], edges := [] }
  poolRegistry _ := none
  poolActivity _ := none
  alphaGracePeriod _ := none

/-- `run`: the outcomes of its turns. -/
def run (build : Build) (config : DetectorConfig) (start : Surroundings) (turns : List Turn) :
    List Outcome :=
  match rebuild build start initial with
  | .error _ => []
  | .ok st => outputs (step build config) st turns

/-! ## The registry -/

/-- What a turn does to the registry. -/
def registryOp (turn : Turn) : Option (Op Address (Address × Address × DexName)) :=
  match turn.input with
  | .syncTick => some (.retain (turn.around.entries.map Prod.fst).toFinset)
  | .pool event => some (.put (poolEntry event).1 (poolEntry event).2)
  | _ => none

def registryAfter (turns : List Turn) : Address → Option (Address × Address × DexName) :=
  after (turns.filterMap registryOp)

/-- The turn announces the pool with this entry. -/
def Announces (pool : Address) (entry : Address × Address × DexName) (turn : Turn) : Prop :=
  ∃ event, turn.input = .pool event ∧ poolEntry event = (pool, entry)

/-- The turn is no sync tick that misses the pool in the mirror, and no announcement of it. -/
def Keeps (pool : Address) (turn : Turn) : Prop :=
  match turn.input with
  | .syncTick => pool ∈ turn.around.entries.map Prod.fst
  | .pool event => (poolEntry event).1 ≠ pool
  | _ => True

/-- The last announcement of the pool has this entry, and every sync since found the pool in
the mirror. -/
def Stands (turns : List Turn) (pool : Address) (entry : Address × Address × DexName) : Prop :=
  ∃ earlier turn later, turns = earlier ++ turn :: later ∧ Announces pool entry turn ∧
    ∀ turn' ∈ later, Keeps pool turn'

theorem announces_iff {pool : Address} {entry : Address × Address × DexName} {turn : Turn} :
    Announces pool entry turn ↔ registryOp turn = some (.put pool entry) := by
  unfold Announces registryOp
  cases turn.input with
  | pool event => simp [Prod.ext_iff]
  | syncTick => simp
  | priority trigger => simp
  | swap trigger => simp
  | force => simp

theorem keeps_iff {pool : Address} {turn : Turn} :
    Keeps pool turn ↔ ∀ op, registryOp turn = some op → op.Leaves pool := by
  unfold Keeps registryOp
  cases turn.input with
  | pool event => simp [Op.Leaves]
  | syncTick => simp [Op.Leaves]
  | priority trigger => simp
  | swap trigger => simp
  | force => simp

/-- **Who is registered.** -/
theorem registryAfter_iff {turns : List Turn} {pool : Address}
    {entry : Address × Address × DexName} :
    registryAfter turns pool = some entry ↔ Stands turns pool entry := by
  rw [registryAfter, lookup_iff]
  constructor
  · rintro ⟨ops, ops', hSplit, hLeaves⟩
    obtain ⟨earlier, rest, rfl, -, hRest⟩ := List.filterMap_eq_append_iff.mp hSplit
    obtain ⟨idle, turn, later, rfl, -, hPut, hLater⟩ := List.filterMap_eq_cons_iff.mp hRest
    refine ⟨earlier ++ idle, turn, later, by simp, announces_iff.mpr hPut, ?_⟩
    intro turn' hTurn'
    rw [keeps_iff]
    intro op hOp
    apply hLeaves
    rw [← hLater, List.mem_filterMap]
    exact ⟨turn', hTurn', hOp⟩
  · rintro ⟨earlier, turn, later, rfl, hAnnounces, hKeeps⟩
    refine ⟨earlier.filterMap registryOp, later.filterMap registryOp, ?_, ?_⟩
    · rw [List.filterMap_append, List.filterMap_cons, announces_iff.mp hAnnounces]
    · intro op hOp
      obtain ⟨turn', hTurn', hEq⟩ := List.mem_filterMap.mp hOp
      exact keeps_iff.mp (hKeeps turn' hTurn') op hEq

theorem registryAfter_snoc (turns : List Turn) (turn : Turn) :
    registryAfter (turns ++ [turn]) =
      match registryOp turn with
      | none => registryAfter turns
      | some op => op.apply (registryAfter turns) := by
  unfold registryAfter
  rw [List.filterMap_append]
  cases hOp : registryOp turn with
  | none => simp [hOp]
  | some op => simp [hOp, after_snoc]

/-! ## The rebuild -/

/-- A registered pool whose liquidity estimate panics. -/
def Oversized (registry : Address → Option (Address × Address × DexName))
    (around : Surroundings) : Prop :=
  ∃ entry ∈ around.entries, ∃ t0 t1 dexName,
    registry entry.1 = some (t0, t1, dexName) ∧ liqUsd t0 t1 entry.2.toPoolState = none

theorem visitEntry_eq_none {tables : Tables} {entry : Address × MirrorEntry} :
    visitEntry tables entry = none ↔ ∃ t0 t1 dexName,
      tables.poolRegistry entry.1 = some (t0, t1, dexName) ∧
        liqUsd t0 t1 entry.2.toPoolState = none := by
  unfold visitEntry
  cases hRegistered : tables.poolRegistry entry.1 with
  | none => simp
  | some found =>
      obtain ⟨t0, t1, dexName⟩ := found
      cases hLiquidity : liqUsd t0 t1 entry.2.toPoolState with
      | none => simp [hLiquidity]
      | some liquidity =>
          simp only [hLiquidity, Option.bind_eq_bind, Option.bind_some, Option.some.injEq,
            Prod.mk.injEq]
          constructor
          · intro h
            split at h
            · exact absurd h (by simp)
            · exact absurd h (by simp)
          · rintro ⟨_, _, _, ⟨rfl, rfl, rfl⟩, hNone⟩
            rw [hLiquidity] at hNone
            exact absurd hNone (by simp)

/-- An admitted pool is registered as it is stored. -/
theorem visitEntry_registered {tables : Tables} {entry : Address × MirrorEntry}
    {pool : IncludedPool} (h : visitEntry tables entry = some (some pool)) :
    tables.poolRegistry pool.address = some (pool.t0, pool.t1, pool.dexName) := by
  rw [visitEntry_address h]
  unfold visitEntry at h
  split at h
  · exact absurd h (by simp)
  · rename_i hRegistered
    obtain ⟨liquidity, -, h⟩ := Option.bind_eq_some_iff.mp h
    dsimp only at h
    split at h
    · exact absurd h (by simp)
    · obtain rfl := Option.some.inj (Option.some.inj h)
      exact hRegistered

theorem includedPools_eq_none {tables : Tables} :
    includedPools tables = none ↔ ∃ entry ∈ tables.entries, visitEntry tables entry = none := by
  rw [includedPools, Option.map_eq_none_iff]
  constructor
  · intro h
    by_contra hAll
    push Not at hAll
    obtain ⟨found, hFound⟩ := exists_mapM fun entry hEntry =>
      Option.ne_none_iff_exists'.mp (hAll entry hEntry)
    rw [hFound] at h
    exact absurd h (by simp)
  · rintro ⟨entry, hEntry, hNone⟩
    cases hFound : tables.entries.mapM (visitEntry tables) with
    | none => rfl
    | some found =>
        obtain ⟨part, hPart⟩ := exists_part_of_mapM hFound hEntry
        rw [hNone] at hPart
        exact absurd hPart (by simp)

/-- The admitted pools are registered, and no more than the mirror's. -/
theorem included_spec {tables : Tables} {included : List IncludedPool}
    (h : includedPools tables = some included) :
    included.length ≤ tables.entries.length ∧ ∀ pool ∈ included,
      tables.poolRegistry pool.address = some (pool.t0, pool.t1, pool.dexName) := by
  obtain ⟨found, hFound, rfl⟩ := Option.map_eq_some_iff.mp h
  have hEach := mapM_eq_some.mp hFound
  constructor
  · rw [hEach.length_eq]
    exact List.reduceOption_length_le found
  · intro pool hPool
    rw [List.reduceOption_mem_iff] at hPool
    obtain ⟨entry, -, hVisit⟩ := exists_of_forall₂_right hEach hPool
    exact visitEntry_registered hVisit

/-- The graph speaks of registered pools only. -/
def Coherent (st : DetectorState) : Prop :=
  ∃ included, Built included st.graph ∧ ∀ pool ∈ included,
    st.poolRegistry pool.address = some (pool.t0, pool.t1, pool.dexName)

section Rebuild

variable {build : Build} {around : Surroundings} (hSmall : around.entries.length < 2 ^ 31)
include hSmall

/-- **A rebuild** panics on an oversized reserve only, and stores a coherent graph. -/
theorem rebuild_spec (st : DetectorState) :
    rebuild build around st = .error .rebuild ∧ Oversized st.poolRegistry around ∨
      ∃ graph, rebuild build around st = .ok { st with graph } ∧
        ¬ Oversized st.poolRegistry around ∧ Coherent { st with graph } := by
  have hNone : includedPools (tables around st) = none ↔ Oversized st.poolRegistry around := by
    rw [includedPools_eq_none]
    simp only [visitEntry_eq_none]
    rfl
  unfold rebuild
  rw [← hNone]
  cases hIncluded : includedPools (tables around st) with
  | none =>
      left
      rw [rebuildGraph, scanPools_eq, hIncluded]
      exact ⟨rfl, rfl⟩
  | some included =>
      right
      obtain ⟨hLength, hRegistered⟩ := included_spec hIncluded
      have hCount : included.length < 2 ^ 31 := Nat.lt_of_le_of_lt hLength hSmall
      have hFits : Fits build (2 * included.length) := Or.inr (by omega)
      rw [rebuildGraph_eq hIncluded, if_pos hFits]
      exact ⟨_, rfl, by simp, included, graphOf_built hCount (included_nodup hIncluded),
        hRegistered⟩

end Rebuild

/-! ## A turn -/

@[simp] theorem noteActivity_graph (around : Surroundings) (trigger : Trigger)
    (st : DetectorState) : (noteActivity around trigger st).graph = st.graph := by
  unfold noteActivity
  split
  · rfl
  · split <;> rfl

@[simp] theorem noteActivity_poolRegistry (around : Surroundings) (trigger : Trigger)
    (st : DetectorState) : (noteActivity around trigger st).poolRegistry = st.poolRegistry := by
  unfold noteActivity
  split
  · rfl
  · split <;> rfl

@[simp] theorem checkSkew_graph (around : Surroundings) (trigger : Trigger)
    (st : DetectorState) : (checkSkew around trigger st).graph = st.graph := by
  unfold checkSkew
  split
  · split
    · rfl
    · split
      · split <;> rfl
      · rfl
  · rfl

@[simp] theorem checkSkew_poolRegistry (around : Surroundings) (trigger : Trigger)
    (st : DetectorState) : (checkSkew around trigger st).poolRegistry = st.poolRegistry := by
  unfold checkSkew
  split
  · split
    · rfl
    · split
      · split <;> rfl
      · rfl
  · rfl

/-- The turn takes a swap event. -/
def Triggered (turn : Turn) (trigger : Trigger) : Prop :=
  turn.input = .priority trigger ∨ turn.input = .swap trigger

/-- The turn rebuilds the graph. -/
def Rebuilds (turn : Turn) : Prop := ∀ trigger, ¬ Triggered turn trigger

/-- The skew check of the turn panics. -/
def SkewPanics (turn : Turn) : Prop :=
  ∃ trigger, Triggered turn trigger ∧
    turn.around.mirror.isCongested trigger.swapInfo.router 3 = false ∧
      skewChecked trigger.event turn.around.mirror = false

/-- The tokens that a swap event asks to connect. -/
def Asked (past : List Turn) (trigger : Trigger) (source target : Address) : Prop :=
  if trigger.swapInfo.tokenIn = 0 then
    ∃ t0 t1 dexName, Stands past trigger.swapInfo.router (t0, t1, dexName) ∧
      ((source, target) = (t0, t1) ∨ (source, target) = (t1, t0))
  else
    (source, target) = (trigger.swapInfo.tokenIn, trigger.swapInfo.tokenOut) ∨
      (source, target) = (trigger.swapInfo.tokenOut, trigger.swapInfo.tokenIn)

/-- The hop swaps the two tokens of a pool that stands so. -/
def StandingHop (past : List Turn) (hop : Hop) : Prop :=
  ∃ t0 t1, Stands past hop.poolAddress (t0, t1, hop.dexName) ∧
    (hop.tokenIn = t0 ∧ hop.tokenOut = t1 ∨ hop.tokenIn = t1 ∧ hop.tokenOut = t0)

/-- What holds of an opportunity that is sent after the turns `past`, for `trigger`. -/
structure Sound (config : DetectorConfig) (past : List Turn) (around : Surroundings)
    (trigger : Trigger) (opp : Opportunity) : Prop where
  /-- It connects two tokens that the event asks for. -/
  asked : ∃ source target, Asked past trigger source target ∧
    (∀ hop ∈ opp.path.hops.head?, hop.tokenIn = source) ∧
      ∀ hop ∈ opp.path.hops.getLast?, hop.tokenOut = target
  chained : opp.path.hops.IsChain fun hop next => hop.tokenOut = next.tokenIn
  standing : ∀ hop ∈ opp.path.hops, StandingHop past hop
  pools : (opp.path.hops.map Hop.poolAddress).Nodup
  fresh : ∀ hop ∈ opp.path.hops.tail, hop.poolAddress ≠ trigger.swapInfo.router
  short : 2 ≤ opp.path.hops.length → opp.path.hops.length ≤ config.maxPathLength
  floor : config.minProfitWei < opp.expectedProfit
  /-- On the mirror that its search saw, the input comes back with the profit. -/
  quotes : ∃ task, Quotes around.env.stableOutput opp.path.hops
    (fetchStates (around.taskMirror task) [] opp.path.hops) opp.inputAmount opp.expectedProfit

theorem mem_searchDirections {det : ArbitrageDetector} {past : List Turn}
    (hRegistry : det.poolRegistry = registryAfter past) {trigger : Trigger}
    {direction : Address × Address} (h : direction ∈ searchDirections det trigger.event) :
    Asked past trigger direction.2 direction.1 := by
  unfold searchDirections at h
  unfold Asked
  have hTokenIn : trigger.event.swapInfo.tokenIn = trigger.swapInfo.tokenIn := rfl
  rw [hTokenIn] at h
  split at h
  · rename_i hZero
    rw [if_pos hZero]
    split at h
    · exact absurd h (by simp)
    · rename_i t0 t1 dexName hEntry
      rw [hRegistry] at hEntry
      refine ⟨t0, t1, dexName, registryAfter_iff.mp hEntry, ?_⟩
      rw [List.mem_cons, List.mem_singleton] at h
      rcases h with rfl | rfl
      · exact Or.inr rfl
      · exact Or.inl rfl
  · rename_i hSwap
    rw [if_neg hSwap]
    rw [List.mem_cons, List.mem_singleton] at h
    rcases h with rfl | rfl
    · exact Or.inr rfl
    · exact Or.inl rfl

/-- What a search sends. -/
theorem search_sound {config : DetectorConfig} {past : List Turn} {around : Surroundings}
    {trigger : Trigger} {st : DetectorState} (hCoherent : Coherent st)
    (hRegistry : st.poolRegistry = registryAfter past) {task : SearchTask}
    (hTask : task ∈ spawnedTasks (view config around st) trigger.event) {opp : Opportunity}
    (hSent : opp ∈ search (view config around st) around trigger.event task) :
    Sound config past around trigger opp := by
  obtain ⟨included, hBuilt, hRegistered⟩ := hCoherent
  have hPromise := runTask_promise hSent
  obtain ⟨walks, hWalks, hMem, -, -⟩ := walk_of_sent hSent
  have hSpawned : task ∈ (spawnAll st.graph
      (searchDirections (view config around st) trigger.event)).tasks := by
    unfold spawnedTasks at hTask
    split at hTask
    · exact absurd hTask (by simp)
    · split at hTask
      · exact hTask
      · exact absurd hTask (by simp)
  obtain ⟨direction, hDirection, hOf⟩ := (mem_spawnAll hBuilt).mp hSpawned
  have hSearches : Searches included
      { view config around st with stateMirror := around.taskMirror task } trigger.event direction
      opp.path.hops := searches_of_walk hBuilt hOf hWalks hMem
  constructor
  case asked =>
      exact ⟨direction.2, direction.1, mem_searchDirections hRegistry hDirection,
        hSearches.path.starts, hSearches.path.ends⟩
  case chained => exact hSearches.path.chained
  case standing =>
      intro hop hHop
      obtain ⟨pool, hPool, hTokens, hEq⟩ := hSearches.path.swaps hop hHop
      have hEntry := hRegistered pool hPool
      rw [hRegistry, registryAfter_iff] at hEntry
      have hAddress : hop.poolAddress = pool.address := by rw [hEq]; rfl
      have hDex : hop.dexName = pool.dexName := by rw [hEq]; rfl
      refine ⟨pool.t0, pool.t1, ?_, hTokens⟩
      rw [hAddress, hDex]
      exact hEntry
  case pools => exact hSearches.path.pools
  case fresh => exact hSearches.trigger
  case short => exact hSearches.short
  case floor => exact hPromise.floor
  case quotes => exact ⟨task, hPromise.quotes⟩

/-- What holds of a turn after the turns `past`. -/
structure TurnSpec (config : DetectorConfig) (past : List Turn) (turn : Turn)
    (result : List Opportunity × Except Panic DetectorState) : Prop where
  sound : ∀ opp ∈ result.1, ∃ trigger, Triggered turn trigger ∧
    Sound config past turn.around trigger opp
  rebuild : result.2 = .error .rebuild ↔
    Rebuilds turn ∧ Oversized (registryAfter (past ++ [turn])) turn.around
  skew : result.2 = .error .skew ↔ SkewPanics turn
  index : result.2 ≠ .error .index
  next : ∀ st', result.2 = .ok st' →
    st'.poolRegistry = registryAfter (past ++ [turn]) ∧ Coherent st'

theorem process_spec {config : DetectorConfig} {past : List Turn} {turn : Turn}
    {trigger : Trigger} (hTriggered : Triggered turn trigger) {st : DetectorState}
    (hCoherent : Coherent st) (hRegistry : st.poolRegistry = registryAfter past) :
    TurnSpec config past turn (process config turn.around trigger st) := by
  have hOnly : ∀ trigger', Triggered turn trigger' → trigger' = trigger := by
    intro trigger' hTriggered'
    rcases hTriggered with h | h <;> rcases hTriggered' with h' | h' <;>
      · rw [h] at h'
        simp at h'
        try exact h'.symm
  have hSame : registryAfter (past ++ [turn]) = registryAfter past := by
    have hNone : registryOp turn = none := by
      unfold registryOp
      rcases hTriggered with h | h <;> rw [h]
    rw [registryAfter_snoc, hNone]
  have hNot : ¬ Rebuilds turn := fun h => h trigger hTriggered
  have hFinished : (spawnAll st.graph
      (searchDirections (view config turn.around st) trigger.event)).finished = true := by
    obtain ⟨included, hBuilt, -⟩ := hCoherent
    exact (spawnAll_finished hBuilt.wellFormed (fun t i => (hBuilt.token_inverse t i).mp) _).1
  have hSound : ∀ opp ∈ (spawnedTasks (view config turn.around st) trigger.event).flatMap
      (search (view config turn.around st) turn.around trigger.event),
      ∃ trigger, Triggered turn trigger ∧ Sound config past turn.around trigger opp := by
    intro opp hOpp
    obtain ⟨task, hTask, hSent⟩ := List.mem_flatMap.mp hOpp
    exact ⟨trigger, hTriggered, search_sound hCoherent hRegistry hTask hSent⟩
  have hSkewIff : SkewPanics turn ↔
      turn.around.mirror.isCongested trigger.swapInfo.router 3 = false ∧
        skewChecked trigger.event turn.around.mirror = false := by
    constructor
    · rintro ⟨trigger', hTriggered', hPanics⟩
      rw [hOnly trigger' hTriggered'] at hPanics
      exact hPanics
    · intro hPanics
      exact ⟨trigger, hTriggered, hPanics⟩
  have hView : (view config turn.around st).stateMirror = turn.around.mirror := rfl
  unfold process
  simp only [hView, hFinished, if_true]
  cases hCongested : turn.around.mirror.isCongested trigger.swapInfo.router 3 with
  | true =>
      simp only [if_true]
      constructor
      case sound => exact hSound
      case rebuild => simp [hNot]
      case skew => simp [hSkewIff, hCongested]
      case index => simp
      case next =>
          intro st' hNext
          obtain rfl := Except.ok.inj hNext
          exact ⟨hRegistry.trans hSame.symm, hCoherent⟩
  | false =>
      cases hChecked : skewChecked trigger.event turn.around.mirror with
      | true =>
          simp only [Bool.false_eq_true, if_false, if_true]
          constructor
          case sound => exact hSound
          case rebuild => simp [hNot]
          case skew => simp [hSkewIff, hChecked]
          case index => simp
          case next =>
              intro st' hNext
              obtain rfl := Except.ok.inj hNext
              rw [checkSkew_poolRegistry, hSame]
              refine ⟨hRegistry, ?_⟩
              unfold Coherent
              rw [checkSkew_graph, checkSkew_poolRegistry]
              exact hCoherent
      | false =>
          simp only [Bool.false_eq_true, if_false]
          constructor
          case sound => exact hSound
          case rebuild => simp [hNot]
          case skew => simp [hSkewIff, hCongested, hChecked]
          case index => simp
          case next => simp

/-- A turn that brings the registry up to date and rebuilds. -/
theorem rebuild_turn {build : Build} {config : DetectorConfig} {past : List Turn} {turn : Turn}
    (hSmall : turn.around.entries.length < 2 ^ 31) (hRebuilds : Rebuilds turn)
    {st : DetectorState} (hRegistry : st.poolRegistry = registryAfter (past ++ [turn])) :
    TurnSpec config past turn ([], DetectorRuns.rebuild build turn.around st) := by
  have hSkew : ¬ SkewPanics turn := by
    rintro ⟨trigger, hTriggered, -⟩
    exact hRebuilds trigger hTriggered
  rcases rebuild_spec hSmall st with ⟨hPanic, hOversized⟩ | ⟨graph, hOk, hSized, hCoherent⟩
  · rw [hRegistry] at hOversized
    rw [hPanic]
    constructor
    case sound => simp
    case rebuild => simp [hRebuilds, hOversized]
    case skew => simp [hSkew]
    case index => simp
    case next => simp
  · rw [hRegistry] at hSized
    rw [hOk]
    constructor
    case sound => simp
    case rebuild => simp [hSized]
    case skew => simp [hSkew]
    case index => simp
    case next =>
        intro st' hNext
        obtain rfl := Except.ok.inj hNext
        exact ⟨hRegistry, hCoherent⟩

/-- **One turn.** -/
theorem handle_spec {build : Build} {config : DetectorConfig} {past : List Turn} {turn : Turn}
    (hSmall : turn.around.entries.length < 2 ^ 31) {st : DetectorState}
    (hCoherent : Coherent st) (hRegistry : st.poolRegistry = registryAfter past) :
    TurnSpec config past turn (handle build config st turn) := by
  have hSnoc := registryAfter_snoc past turn
  unfold handle
  cases hInput : turn.input with
  | syncTick =>
      apply rebuild_turn hSmall
      · simp [Rebuilds, Triggered, hInput]
      · rw [hSnoc, registryOp, hInput]
        show (retainMirrored turn.around st).poolRegistry = Op.apply _ (.retain _)
        rw [retainMirrored, hRegistry]
        rfl
  | priority trigger => exact process_spec (Or.inl hInput) hCoherent hRegistry
  | swap trigger =>
      apply process_spec (Or.inr hInput)
      · unfold Coherent
        rw [noteActivity_graph, noteActivity_poolRegistry]
        exact hCoherent
      · rw [noteActivity_poolRegistry, hRegistry]
  | force =>
      apply rebuild_turn hSmall
      · simp [Rebuilds, Triggered, hInput]
      · rw [hSnoc, registryOp, hInput, hRegistry]
  | pool event =>
      apply rebuild_turn hSmall
      · simp [Rebuilds, Triggered, hInput]
      · rw [hSnoc, registryOp, hInput]
        show (register turn.around event st).poolRegistry = Op.apply _ (.put _ _)
        rw [register, hRegistry]
        rfl

/-! ## Runs -/

/-- The invariant of the loop. -/
structure Inv (past : List Outcome) (st : DetectorState) : Prop where
  registry : st.poolRegistry = registryAfter (past.map Outcome.turn)
  coherent : Coherent st

/-- What holds of an outcome after the outcomes `past`. -/
structure OutcomeSpec (config : DetectorConfig) (past : List Turn) (outcome : Outcome) :
    Prop where
  sound : ∀ opp ∈ outcome.sent, ∃ trigger, Triggered outcome.turn trigger ∧
    Sound config past outcome.turn.around trigger opp
  rebuild : outcome.panic = some .rebuild ↔ Rebuilds outcome.turn ∧
    Oversized (registryAfter (past ++ [outcome.turn])) outcome.turn.around
  skew : outcome.panic = some .skew ↔ SkewPanics outcome.turn
  index : outcome.panic ≠ some .index

theorem step_spec {build : Build} {config : DetectorConfig} {past : List Outcome}
    {st : DetectorState} (hInv : Inv past st) {turn : Turn}
    (hSmall : turn.around.entries.length < 2 ^ 31) :
    OutcomeSpec config (past.map Outcome.turn) (step build config st turn).output ∧
      ∀ st', (step build config st turn).next = some st' →
        Inv (past ++ [(step build config st turn).output]) st' := by
  have hSpec := @handle_spec build config _ _ hSmall _ hInv.coherent hInv.registry
  unfold step
  generalize handle build config st turn = result at hSpec ⊢
  obtain ⟨sent, panic | st'⟩ := result
  · refine ⟨⟨hSpec.sound, ?_, ?_, ?_⟩, by simp⟩
    · simpa using hSpec.rebuild
    · simpa using hSpec.skew
    · simpa using hSpec.index
  · have hNext := hSpec.next st' rfl
    refine ⟨⟨hSpec.sound, ?_, ?_, ?_⟩, ?_⟩
    · simpa using hSpec.rebuild
    · simpa using hSpec.skew
    · simp
    · intro st'' hEq
      obtain rfl := Option.some.inj hEq
      refine ⟨?_, hNext.2⟩
      rw [List.map_append]
      exact hNext.1

/-- The turn ends a run of the turns `past`: a rebuild finds an oversized reserve, or the skew
check does. -/
def Stops (past : List Turn) (turn : Turn) : Prop :=
  Rebuilds turn ∧ Oversized (registryAfter (past ++ [turn])) turn.around ∨ SkewPanics turn

theorem OutcomeSpec.panic_iff {config : DetectorConfig} {past : List Turn} {outcome : Outcome}
    (h : OutcomeSpec config past outcome) :
    outcome.panic = none ↔ ¬ Stops past outcome.turn := by
  unfold Stops
  rw [← h.rebuild, ← h.skew]
  cases hPanic : outcome.panic with
  | none => simp
  | some panic =>
      cases panic with
      | rebuild => simp
      | skew => simp
      | index => exact absurd hPanic h.index

/-- A step reports its turn, and ends the run where it panics. -/
theorem step_turn (build : Build) (config : DetectorConfig) (st : DetectorState) (turn : Turn) :
    (step build config st turn).output.turn = turn ∧
      ((step build config st turn).output.panic = none ↔
        ∃ st', (step build config st turn).next = some st') := by
  unfold step
  rcases handle build config st turn with ⟨sent, panic | st'⟩
  · simp
  · simp

/-- All turns are handled, without a panic. -/
def Handled (turns : List Turn) (outcomes : List Outcome) : Prop :=
  outcomes.map Outcome.turn = turns ∧ ∀ outcome ∈ outcomes, outcome.panic = none

theorem outputs_handled {build : Build} {config : DetectorConfig} {past : List Outcome}
    {st : DetectorState} (hInv : Inv past st) {turns : List Turn}
    (hTurns : ∀ turn ∈ turns, turn.around.entries.length < 2 ^ 31) :
    Handled turns (outputs (step build config) st turns) ↔
      ∀ earlier turn later, turns = earlier ++ turn :: later →
        ¬ Stops (past.map Outcome.turn ++ earlier) turn := by
  induction turns generalizing past st with
  | nil => simp [Handled, outputs]
  | cons turn rest ih =>
      rw [List.forall_mem_cons] at hTurns
      obtain ⟨hSpec, hNext⟩ := @step_spec build config _ _ hInv _ hTurns.1
      obtain ⟨hTurn, hGoes⟩ := step_turn build config st turn
      have hPanic := hSpec.panic_iff
      rw [hTurn] at hPanic
      unfold Handled
      rw [outputs, List.map_cons, List.forall_mem_cons, hTurn, List.cons.injEq]
      cases hSt : (step build config st turn).next with
      | none =>
          have hStops : Stops (past.map Outcome.turn) turn := by
            by_contra hNot
            obtain ⟨st', hSt'⟩ := hGoes.mp (hPanic.mpr hNot)
            rw [hSt] at hSt'
            exact absurd hSt' (by simp)
          constructor
          · rintro ⟨-, hNone, -⟩
            exact absurd hStops (hPanic.mp hNone)
          · intro hAll
            refine absurd hStops ?_
            have hHere := hAll [] turn rest rfl
            rw [List.append_nil] at hHere
            exact hHere
      | some st' =>
          have hNone := hGoes.mpr ⟨st', hSt⟩
          have hRest := ih (hNext st' hSt) hTurns.2
          rw [List.map_append, List.map_singleton, hTurn] at hRest
          unfold Handled at hRest
          constructor
          · rintro ⟨⟨-, hMap⟩, -, hPanics⟩ earlier turn' later hSplit
            cases earlier with
            | nil =>
                obtain ⟨rfl, rfl⟩ := List.cons.inj hSplit
                rw [List.append_nil]
                exact hPanic.mp hNone
            | cons first earlier =>
                obtain ⟨rfl, rfl⟩ := List.cons.inj hSplit
                have hLater := hRest.mp ⟨hMap, hPanics⟩ earlier turn' later rfl
                rw [List.append_assoc] at hLater
                exact hLater
          · intro hAll
            obtain ⟨hMap, hPanics⟩ := hRest.mpr (by
              intro earlier turn' later hSplit
              rw [List.append_assoc]
              exact hAll (turn :: earlier) turn' later (by rw [hSplit]; rfl))
            exact ⟨⟨rfl, hMap⟩, hNone, hPanics⟩

section Run

variable {build : Build} {config : DetectorConfig} {start : Surroundings} {turns : List Turn}

/-- The first rebuild, of an empty registry, gets through. -/
theorem run_eq (hStart : start.entries.length < 2 ^ 31) :
    ∃ st, run build config start turns = outputs (step build config) st turns ∧ Inv [] st := by
  unfold run
  rcases @rebuild_spec build start hStart initial with
    ⟨-, entry, -, _, _, _, hNone, -⟩ | ⟨graph, hOk, -, hCoherent⟩
  · exact absurd hNone (by simp [initial])
  · rw [hOk]
    exact ⟨_, rfl, rfl, hCoherent⟩

/-- **Every outcome of a run.** -/
theorem run_spec (hStart : start.entries.length < 2 ^ 31)
    (hTurns : ∀ turn ∈ turns, turn.around.entries.length < 2 ^ 31) :
    Throughout (fun past => OutcomeSpec config (past.map Outcome.turn))
      (run build config start turns) := by
  obtain ⟨st, hRun, hInv⟩ := @run_eq build config start turns hStart
  have hAllowed : Allowed (step build config)
      (fun _ turn => turn.around.entries.length < 2 ^ 31) st turns :=
    allowed_of_forall (fun turn hTurn _ => hTurns turn hTurn) st
  rw [hRun]
  exact outputs_throughout Inv (fun past s turn hInv hSmall => step_spec hInv hSmall) hInv hAllowed

/-- **Which runs get through**, and that no index of the spawning loop is ever out of range. -/
theorem run_survives (hStart : start.entries.length < 2 ^ 31)
    (hTurns : ∀ turn ∈ turns, turn.around.entries.length < 2 ^ 31) :
    (Handled turns (run build config start turns) ↔
        ∀ earlier turn later, turns = earlier ++ turn :: later → ¬ Stops earlier turn) ∧
      ∀ outcome ∈ run build config start turns, outcome.panic ≠ some .index := by
  constructor
  · obtain ⟨st, hRun, hInv⟩ := @run_eq build config start turns hStart
    rw [hRun, outputs_handled hInv hTurns]
    rfl
  · intro outcome hOutcome
    obtain ⟨before, later, hSplit⟩ := List.append_of_mem hOutcome
    exact (@run_spec build config start turns hStart hTurns before outcome later hSplit).index

end Run

/-! ## A run -/

/-- Hash sets of two tokens, listed in order. -/
noncomputable def twoTokenOrder : SetOrder where
  list s := if s = {0xA, 0xB} then [0xA, 0xB] else if s = ∅ then [] else s.toList
  nodup s := by
    split_ifs
    · decide
    · exact List.nodup_nil
    · exact s.nodup_toList
  mem_list s t := by
    split_ifs with hBoth hNone
    · simp [hBoth]
    · simp [hNone]
    · exact Finset.mem_toList

/-- Two pools in the mirror, just registered, and priced by the time a search runs. -/
noncomputable def twoPoolAround : Surroundings where
  now := 0
  entries := [(0x11, newEntry), (0x22, newEntry)]
  nodup := by decide
  traderRegistry _ := none
  setOrder := twoTokenOrder
  registryOrder := [0x11, 0x22]
  skewed _ _ := false
  env := sampleEnvironment
  taskMirror _ := circularDetector.stateMirror

/-- Both pools are announced, and then a router call comes in that ends where it starts. -/
noncomputable def twoPoolTurns : List Turn :=
  [⟨.pool (.v2 ⟨0x11, 0xA, 0xB, .uniswapV2⟩), twoPoolAround⟩,
    ⟨.pool (.v2 ⟨0x22, 0xA, 0xB, .sushiSwap⟩), twoPoolAround⟩,
    ⟨.swap ⟨0x5, circularEvent.swapInfo⟩, twoPoolAround⟩]

noncomputable def twoPoolOutcomes : List Outcome :=
  run .release circularDetector.config twoPoolAround twoPoolTurns

theorem twoPoolTurns_small :
    ∀ turn ∈ twoPoolTurns, turn.around.entries.length < 2 ^ 31 := by
  intro turn hTurn
  have hAround : turn.around = twoPoolAround := by
    simp only [twoPoolTurns, List.mem_cons, List.not_mem_nil, or_false] at hTurn
    rcases hTurn with rfl | rfl | rfl <;> rfl
  rw [hAround]
  show 2 < 2 ^ 31
  norm_num

/-- It gets through, so none of its turns meets an oversized reserve. -/
theorem run_survives_twoPools :
    Handled twoPoolTurns twoPoolOutcomes ∧
      ∀ earlier turn later, twoPoolTurns = earlier ++ turn :: later → ¬ Stops earlier turn := by
  have hPanics : twoPoolOutcomes.map Outcome.panic = [none, none, none] := by decide +kernel
  have hTurns : twoPoolOutcomes.map Outcome.turn = twoPoolTurns := rfl
  have hHandled : Handled twoPoolTurns twoPoolOutcomes := by
    refine ⟨hTurns, fun outcome hOutcome => ?_⟩
    have hMem : outcome.panic ∈ twoPoolOutcomes.map Outcome.panic := List.mem_map_of_mem hOutcome
    rw [hPanics] at hMem
    simpa using hMem
  exact ⟨hHandled, (@run_survives .release circularDetector.config twoPoolAround twoPoolTurns
    (by show 2 < 2 ^ 31; norm_num) twoPoolTurns_small).1.mp hHandled⟩

end SovereignShadow.Ports.DetectorRuns
