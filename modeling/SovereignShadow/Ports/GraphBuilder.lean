import SovereignShadow.Ports.CycleSearch
import SovereignShadow.Verified.Checked

/-!
# The graph builder

Port of `rebuild_graph` of `arbitrage_detector.rs`.  One pass over the mirrored pools
collects the pools that the filter admits, the set of their tokens and the adjacency
lists by token; a second pass over the tokens lays the lists out as one edge table.

The order in which a hash map or set iterates is arbitrary: the mirror comes as the list
of its entries in that order, the token set with a function that lists it.  Indices and
offsets are `u32`: the casts drop the high bits, and the running offset follows the
build.  A `none` is a panic.
-/

namespace SovereignShadow.Ports.GraphBuilder

open SovereignShadow.Verified.Checked
open SovereignShadow.Ports.Models
open SovereignShadow.Ports.Constants
open SovereignShadow.Ports.Mirror
open SovereignShadow.Ports.CycleSearch

/-! ## Input -/

/-- The tables that `rebuild_graph` reads.  The clocks are seconds elapsed. -/
structure Tables where
  /-- `state_mirror.pools`, each key once, in iteration order. -/
  entries : List (Address × MirrorEntry)
  nodup : (entries.map Prod.fst).Nodup
  poolRegistry : Address → Option (Address × Address × DexName)
  poolActivity : Address → Option Nat
  alphaGracePeriod : Address → Option Nat
  traderRegistry : Address → Option (Finset Address)

/-- An order in which hash sets iterate. -/
structure SetOrder where
  list : Finset Address → List Address
  nodup : ∀ s, (list s).Nodup
  mem_list : ∀ s t, t ∈ list s ↔ t ∈ s

/-! ## The filter -/

/-- `saturating_mul` of `u128`. -/
def saturatingMulU128 (a b : Nat) : Nat := min (a * b) (2 ^ 128 - 1)

/-- `liq_usd`; a reserve beyond `u128` panics. -/
def liqUsd (t0 t1 : Address) (state : PoolState) : Option Nat :=
  if t0 = tokenUsdc then do
    let r ← toU128 state.reserves0
    some (saturatingMulU128 (r / 1000000) 2)
  else if t1 = tokenUsdc then do
    let r ← toU128 state.reserves1
    some (saturatingMulU128 (r / 1000000) 2)
  else if t0 = tokenWeth then do
    let r ← toU128 state.reserves0
    some (saturatingMulU128 (saturatingMulU128 (r / 10 ^ 18) 2) estimatedEthPrice)
  else if t1 = tokenWeth then do
    let r ← toU128 state.reserves1
    some (saturatingMulU128 (saturatingMulU128 (r / 10 ^ 18) 2) estimatedEthPrice)
  else some 0

/-- `is_ai_star`. -/
def isAiStar (t0 t1 : Address) : Bool :=
  t0 = tokenVirtual || t1 = tokenVirtual || t0 = tokenLuna || t1 = tokenLuna ||
    t0 = tokenAi16z || t1 = tokenAi16z

/-- `is_in_sweet_spot`. -/
def isInSweetSpot (isCore : Bool) (t0 t1 : Address) (liquidity : Nat) : Bool :=
  if isAiStar t0 t1 then decide (500 ≤ liquidity ∧ liquidity ≤ maxAlphaLiquidityUsd)
  else isCore || decide (1000 ≤ liquidity ∧ liquidity ≤ maxAlphaLiquidityUsd)

/-- An admitted pool. -/
structure IncludedPool where
  address : Address
  t0 : Address
  t1 : Address
  dexName : DexName
  deriving DecidableEq, Repr

/-- The filter on one entry: the pool where it is admitted. -/
def visitEntry (tables : Tables) (entry : Address × MirrorEntry) :
    Option (Option IncludedPool) :=
  match tables.poolRegistry entry.1 with
  | none => some none
  | some (t0, t1, dex) => do
      let isCore := top100Pools.contains entry.1
      let isHot := ((tables.poolActivity entry.1).map (decide <| · < poolHotnessTtlSec)).getD false
      let isAlpha := ((tables.alphaGracePeriod entry.1).map (decide <| · < 1800)).getD false
      let liquidity ← liqUsd t0 t1 entry.2.toPoolState
      let isNew := decide (entry.2.lastUpdatedBlock = 0)
      let compScore := ((tables.traderRegistry entry.1).map Finset.card).getD 0
      let isNicheDex := decide (dex = .sushiSwap ∨ dex = .baseSwap ∨ dex = .pancakeSwap)
      let shouldInclude := isCore || isAlpha || isHot || isNicheDex ||
        isInSweetSpot isCore t0 t1 liquidity || isNew
      if (compScore > 2 ∧ ¬ isCore) ∨ ¬ shouldInclude then some none
      else some (some { address := entry.1, t0, t1, dexName := dex })

/-! ## The pass over the pools -/

structure PoolEdge where
  poolAddress : Address
  tokenB : Address
  dexName : DexName
  deriving DecidableEq, Repr

/-- `adj`, `tokens_set` and `pool_list`. -/
structure Lists where
  adj : Address → List PoolEdge
  tokensSet : Finset Address
  poolList : List Address

/-- `adj.entry(token).or_default().push(edge)`. -/
def pushAdj (adj : Address → List PoolEdge) (token : Address) (edge : PoolEdge) :
    Address → List PoolEdge :=
  fun t => if t = token then adj t ++ [edge] else adj t

def Lists.add (lists : Lists) (pool : IncludedPool) : Lists where
  adj := pushAdj (pushAdj lists.adj pool.t0 ⟨pool.address, pool.t1, pool.dexName⟩)
    pool.t1 ⟨pool.address, pool.t0, pool.dexName⟩
  tokensSet := insert pool.t1 (insert pool.t0 lists.tokensSet)
  poolList := lists.poolList ++ [pool.address]

def Lists.empty : Lists where
  adj _ := []
  tokensSet := ∅
  poolList := []

/-- The body of the loop over the mirror. -/
def scanEntry (tables : Tables) (lists : Lists) (entry : Address × MirrorEntry) :
    Option Lists := do
  match ← visitEntry tables entry with
  | none => some lists
  | some pool => some (lists.add pool)

def scanPools (tables : Tables) : Option Lists :=
  tables.entries.foldlM (scanEntry tables) Lists.empty

/-! ## The pass over the tokens -/

/-- `i as u32`. -/
def asU32 (i : Nat) : Nat := i % 2 ^ 32

/-- A table of indices, filled in list order. -/
def indexMap (keys : List Address) : Address → Option Nat :=
  keys.zipIdx.foldl (fun map entry => Function.update map entry.1 (some (asU32 entry.2)))
    fun _ => none

/-- `+= 1` on `u32`. -/
def incU32 (build : Build) (n : Nat) : Option Nat :=
  if n + 1 < 2 ^ 32 then some (n + 1)
  else match build with
    | .debug => none
    | .release => some (asU32 (n + 1))

/-- `nodes`, `edges` and `current_offset`. -/
structure Rows where
  nodes : List Nat
  edges : List StaticEdge
  currentOffset : Nat

/-- The body of the loop over `adj[token]`; both lookups are unwrapped. -/
def pushEdge (build : Build) (poolToIdx tokenToIdx : Address → Option Nat) (rows : Rows)
    (edge : PoolEdge) : Option Rows := do
  let poolIdx ← poolToIdx edge.poolAddress
  let targetTokenIdx ← tokenToIdx edge.tokenB
  let currentOffset ← incU32 build rows.currentOffset
  some
    { rows with
      edges := rows.edges ++ [{ poolIdx, targetTokenIdx, dexName := edge.dexName }]
      currentOffset }

/-- The body of the loop over `tokens`. -/
def pushRow (build : Build) (poolToIdx tokenToIdx : Address → Option Nat)
    (adj : Address → List PoolEdge) (rows : Rows) (token : Address) : Option Rows :=
  (adj token).foldlM (pushEdge build poolToIdx tokenToIdx)
    { rows with nodes := rows.nodes ++ [rows.currentOffset] }

/-- `static_graph` from the lists of the first pass. -/
def layOut (build : Build) (order : SetOrder) (lists : Lists) : Option StaticGraph := do
  let tokens := order.list lists.tokensSet
  let tokenToIdx := indexMap tokens
  let poolToIdx := indexMap lists.poolList
  let rows ← tokens.foldlM (pushRow build poolToIdx tokenToIdx lists.adj)
    { nodes := [], edges := [], currentOffset := 0 }
  some
    { tokens, tokenToIdx, pools := lists.poolList, poolToIdx
      nodes := rows.nodes ++ [rows.currentOffset]
      edges := rows.edges }

/-- `rebuild_graph`. -/
def rebuildGraph (build : Build) (order : SetOrder) (tables : Tables) : Option StaticGraph := do
  let lists ← scanPools tables
  layOut build order lists

end SovereignShadow.Ports.GraphBuilder
