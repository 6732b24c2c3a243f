import SovereignShadow.Ports.CycleSearch
import SovereignShadow.Ports.MathEngine

/-!
# The arbitrage detector

Port of `process_event` of `arbitrage_detector.rs`.  A swap event names two tokens; for
both directions the detector spawns one task for every edge out of the second token.
A task takes its edge as the first hop, lets `find_cycles_dfs` extend it to the first
token, prices every path found and sends those above the floor.

Panics unwind, as in the dev and test profiles: a task that panics ends alone, with what
it has sent, and an index panic in the loop that spawns ends the event, with the tasks
it has spawned.  The sizing of a path with an
Aerodrome hop and the stable-pool quote run on `f64` and are parameters.  So is the
number that the shared counter shows to a task, which other tasks move as well.
-/

namespace SovereignShadow.Ports.Detector

open SovereignShadow.Verified.Bitmap
open SovereignShadow.Ports.Models
open SovereignShadow.Ports.Constants
open SovereignShadow.Ports.Mirror
open SovereignShadow.Ports.MathEngine
open SovereignShadow.Ports.CycleSearch

/-! ## Configuration and input -/

structure DetectorConfig where
  minProfitWei : U256
  maxPathLength : Nat
  chain : Chain

structure SwapEvent where
  sender : Address
  swapInfo : SwapInfo
  mempoolTx : Option MempoolTx

structure ArbitrageDetector where
  config : DetectorConfig
  stateMirror : StateMirror
  graph : StaticGraph
  poolRegistry : Address → Option (Address × Address × DexName)

/-- The parts that run on `f64`, and the counter.  A `none` is a panic. -/
structure Environment where
  stableOutput : U256 → U256 → U256 → Option U256
  /-- `find_optimal_input_newton` with the price closure of `process_event`. -/
  newtonInput : StateMirror → List Hop → List PoolState → Option U256
  /-- `CYCLES_FOUND.load` when this path is sent. -/
  cyclesFound : List Hop → Nat

/-! ## Before the search -/

/-- `project_reserve_impact_v2`. -/
def projectReserveImpactV2 (event : SwapEvent) (mirror : StateMirror) :
    List (Address × U256 × U256) :=
  match event.mempoolTx with
  | none => []
  | some tx =>
      if event.swapInfo.amountIn < 5000000000000000 then [] else projectReserveImpact tx mirror

/-- `calculate_liquidity_skew` up to its `f64` quotient: the operands, or the panic of
`to::<u128>()`.  The quotient only marks the pool as hot. -/
def calculateLiquiditySkew (r0 r1 : U256) : Option (Option (Nat × Nat)) :=
  if r0 = 0 ∨ r1 = 0 then some none
  else do
    let n0 ← toU128 r0
    let n1 ← toU128 r1
    some (some (n0, n1))

def isAiToken (token : Address) : Bool :=
  token = tokenVirtual || token = tokenLuna || token = tokenAi16z

/-- The skew check of an AI pool gets through without a panic. -/
def skewChecked (event : SwapEvent) (mirror : StateMirror) : Bool :=
  if isAiToken event.swapInfo.tokenIn || isAiToken event.swapInfo.tokenOut then
    match mirror.getPoolData event.swapInfo.router with
    | none => true
    | some state => (calculateLiquiditySkew state.reserves0 state.reserves1).isSome
  else true

/-- `search_directions`. -/
def searchDirections (det : ArbitrageDetector) (event : SwapEvent) : List (Address × Address) :=
  if event.swapInfo.tokenIn = 0 then
    match det.poolRegistry event.swapInfo.router with
    | none => []
    | some (t0, t1, _) => [(t0, t1), (t1, t0)]
  else
    [(event.swapInfo.tokenIn, event.swapInfo.tokenOut),
      (event.swapInfo.tokenOut, event.swapInfo.tokenIn)]

/-! ## Spawning -/

/-- A spawned task: the two token indices and its first edge. -/
structure SearchTask where
  start : Nat
  current : Nat
  edge : StaticEdge
  deriving DecidableEq, Repr

/-- The tasks spawned, and whether the loop has run to its end. -/
structure Spawned where
  tasks : List SearchTask
  finished : Bool
  deriving DecidableEq, Repr

/-- `for i in start_idx..end_idx`. -/
def spawnEdges (g : StaticGraph) (start current : Nat) : List Nat → Spawned
  | [] => { tasks := [], finished := true }
  | i :: rest =>
      match g.edges[i]? with
      | none => { tasks := [], finished := false }
      | some edge =>
          let later := spawnEdges g start current rest
          { later with tasks := { start, current, edge } :: later.tasks }

/-- One turn of the loop over `search_directions`. -/
def spawnDirection (g : StaticGraph) (direction : Address × Address) : Spawned :=
  match g.tokenToIdx direction.1, g.tokenToIdx direction.2 with
  | some start, some current =>
      match g.edgeRange current with
      | none => { tasks := [], finished := false }
      | some indices => spawnEdges g start current indices
  | _, _ => { tasks := [], finished := true }

/-- `for (t_in, t_out) in search_directions`. -/
def spawnAll (g : StaticGraph) : List (Address × Address) → Spawned
  | [] => { tasks := [], finished := true }
  | direction :: rest =>
      let here := spawnDirection g direction
      if here.finished then
        let later := spawnAll g rest
        { later with tasks := here.tasks ++ later.tasks }
      else here

/-- The tasks that an event spawns. -/
def spawnedTasks (det : ArbitrageDetector) (event : SwapEvent) : List SearchTask :=
  if det.stateMirror.isCongested event.swapInfo.router 3 then []
  else if skewChecked event det.stateMirror then
    (spawnAll det.graph (searchDirections det event)).tasks
  else []

/-! ## A task -/

/-- `visited_pools` with the trigger pool, where the graph has it. -/
def triggerVisited (g : StaticGraph) (router : Address) : Option VisitedPools :=
  match g.poolToIdx router with
  | none => some (Vector.replicate 64 0#64)
  | some triggerIdx => mark (Vector.replicate 64 0#64) triggerIdx

/-- `paths`.  The first edge is not tested against the visited pools. -/
def findPaths (det : ArbitrageDetector) (event : SwapEvent) (task : SearchTask) :
    Option (List (List Hop)) := do
  let visited ← triggerVisited det.graph event.swapInfo.router
  let hop ← makeHop det.graph det.stateMirror task.current task.edge
  let visited ← mark visited task.edge.poolIdx
  if task.edge.targetTokenIdx = task.start then some [[hop]]
  else do
    let s ← findCyclesDfs det.graph det.stateMirror task.edge.targetTokenIdx task.start
      { currentHops := [hop], visitedPools := visited, results := [] } 2 det.config.maxPathLength
    some s.results

/-- `fetched_states`, up to the first pool that is not mirrored. -/
def fetchStates (mirror : StateMirror) (impacts : List (Address × U256 × U256)) :
    List Hop → List PoolState
  | [] => []
  | hop :: rest =>
      match mirror.getPoolData hop.poolAddress with
      | none => []
      | some state =>
          let state := match impacts.lookup hop.poolAddress with
            | none => state
            | some (r0, r1) => { state with reserves0 := r0, reserves1 := r1 }
          state :: fetchStates mirror impacts rest

/-- `(optimal_in, profit)`. -/
def sizePath (env : Environment) (mirror : StateMirror) (hops : List Hop)
    (states : List PoolState) : Option (U256 × U256) :=
  if hops.any fun hop => hop.dexName = .aerodrome then do
    let optIn ← env.newtonInput mirror hops states
    let out ← getPathOutputWithStates env.stableOutput hops optIn states
    some (optIn, saturatingSub out optIn)
  else optimalCycleInput env.stableOutput hops states

/-- The body of the loop over `paths`: what it sends, or a panic. -/
def evaluatePath (env : Environment) (det : ArbitrageDetector) (event : SwapEvent)
    (hops : List Hop) : Option (List Opportunity) :=
  let states := fetchStates det.stateMirror
    (projectReserveImpactV2 event det.stateMirror) hops
  if states.length ≠ hops.length then some []
  else do
    let first ← hops.head?
    let (optimalIn, profit) ← sizePath env det.stateMirror hops states
    if det.config.minProfitWei < profit then
      some
        [{ id := "cycle-" ++ toString (env.cyclesFound hops)
           path := { hops, totalGas := 200000 }
           expectedProfit := profit
           gasEstimate := 0
           inputToken := first.tokenIn
           inputAmount := optimalIn
           isWhaleTrigger := false
           chain := det.config.chain
           triggerGasPrice := none
           triggerSender := some event.sender
           pendingTxs := event.mempoolTx.toList }]
    else some []

/-- `for hops in paths`. -/
def sendPaths (evaluate : List Hop → Option (List Opportunity)) :
    List (List Hop) → List Opportunity
  | [] => []
  | hops :: rest =>
      match evaluate hops with
      | none => []
      | some sent => sent ++ sendPaths evaluate rest

/-- What one task sends. -/
def runTask (env : Environment) (det : ArbitrageDetector) (event : SwapEvent)
    (task : SearchTask) : List Opportunity :=
  match findPaths det event task with
  | none => []
  | some paths => sendPaths (evaluatePath env det event) paths

/-- What the tasks of an event send, task by task. -/
def processEvent (env : Environment) (det : ArbitrageDetector) (event : SwapEvent) :
    List Opportunity :=
  (spawnedTasks det event).flatMap (runTask env det event)

end SovereignShadow.Ports.Detector
