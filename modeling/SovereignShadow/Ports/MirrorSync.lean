import SovereignShadow.Ports.StateMirror
import SovereignShadow.Verified.Bytes

/-!
# Writing the mirror

Port of the parts of `state_mirror.rs` that write pool entries: the two log updates,
`batch_update_reserves`, and the calls and results of one multicall of
`sync_batch_with_jitter`.

Two loops run over the pools of a chunk, one that pushes their calls and one that takes
their results off an iterator; each has its own match on the pool's type.  The decoders
of the returned words are those that the interface bindings generate, and are parameters.
-/

namespace SovereignShadow.Ports.MirrorSync

open SovereignShadow.Verified.Bytes
open SovereignShadow.Ports.Models
open SovereignShadow.Ports.Constants
open SovereignShadow.Ports.Mirror

/-! ## Calls -/

/-- The call data, by the function it calls. -/
inductive PoolCall where
  | getReserves | slot0 | liquidity
  deriving DecidableEq, Repr

/-- A call of the multicall; `allowFailure` is always set. -/
structure Call3 where
  target : Address
  callData : PoolCall
  deriving DecidableEq, Repr

/-- The calls pushed for one pool. -/
def poolCalls (pool : Address × DexType) : List Call3 :=
  { target := pool.1
    callData := match pool.2 with
      | .uniswapV3 => .slot0
      | _ => .getReserves } ::
    if pool.2 = .uniswapV3 then [{ target := pool.1, callData := .liquidity }] else []

def buildCalls (chunk : List (Address × DexType)) : List Call3 := chunk.flatMap poolCalls

/-! ## Results -/

structure MulticallResult where
  success : Bool
  returnData : List UInt8
  deriving DecidableEq, Repr

/-- `abi_decode_returns` of the three functions. -/
structure Decoders where
  getReserves : List UInt8 → Option (U256 × U256)
  slot0 : List UInt8 → Option (U256 × Int)
  liquidity : List UInt8 → Option U256

/-- A push to `updates` or to `to_prune`. -/
inductive Decision where
  | update (state : MirrorEntry)
  | prune
  deriving DecidableEq, Repr

/-- The state that a pool starts from. -/
def blankState (currentBlock : Nat) (dexType : DexType) : MirrorEntry where
  reserves0 := 0
  reserves1 := 0
  dexType
  isStable := false
  liquidity := 0
  sqrtPriceX96 := 0
  tick := 0
  lastUpdatedBlock := currentBlock

/-- `eth_threshold`. -/
def ethThreshold : U256 := 40000000000000000

def decideReserves (decoders : Decoders) (currentBlock : Nat) (pool : Address × DexType)
    (res : MulticallResult) : Option Decision :=
  if res.success then
    match decoders.getReserves res.returnData with
    | none => none
    | some (reserve0, reserve1) =>
        if reserve0 < ethThreshold ∧ reserve1 < ethThreshold ∧ ¬ top100Pools.contains pool.1 then
          some .prune
        else
          some (.update { blankState currentBlock pool.2 with
            reserves0 := reserve0, reserves1 := reserve1 })
  else none

def decideV3 (decoders : Decoders) (currentBlock : Nat) (pool : Address × DexType)
    (s0 l : MulticallResult) : Option Decision :=
  if s0.success ∧ l.success then
    match decoders.slot0 s0.returnData, decoders.liquidity l.returnData with
    | some (sqrtPriceX96, tick), some liquidity =>
        some (.update { blankState currentBlock pool.2 with sqrtPriceX96, tick, liquidity })
    | _, _ => none
  else none

/-- How many results the second loop takes for a pool. -/
def resultsTaken : DexType → Nat
  | .uniswapV2 | .aerodrome => 1
  | .uniswapV3 => 2
  | .maverickV2 => 0

/-- The decision on a pool from the results that the iterator still holds. -/
def decidePool (decoders : Decoders) (currentBlock : Nat) (pool : Address × DexType)
    (results : List MulticallResult) : Option Decision :=
  match pool.2 with
  | .uniswapV2 | .aerodrome => results[0]?.bind (decideReserves decoders currentBlock pool)
  | .uniswapV3 => do
      let s0 ← results[0]?
      let l ← results[1]?
      decideV3 decoders currentBlock pool s0 l
  | .maverickV2 => none

/-- The second loop: the decisions in the order they are made. -/
def decideChunk (decoders : Decoders) (currentBlock : Nat) :
    List (Address × DexType) → List MulticallResult → List (Address × Decision)
  | [], _ => []
  | pool :: rest, results =>
      ((decidePool decoders currentBlock pool results).map (pool.1, ·)).toList ++
        decideChunk decoders currentBlock rest (results.drop (resultsTaken pool.2))

/-! ## Entries -/

/-- `pools`. -/
abbrev PoolTable := Address → Option MirrorEntry

/-- `and_modify` of `batch_update_reserves`. -/
def mergeEntry (existing state : MirrorEntry) : MirrorEntry :=
  let existing := { existing with
    reserves0 := state.reserves0
    reserves1 := state.reserves1
    lastUpdatedBlock := state.lastUpdatedBlock }
  let existing :=
    if state.sqrtPriceX96 ≠ 0 then
      { existing with
        sqrtPriceX96 := state.sqrtPriceX96, tick := state.tick, liquidity := state.liquidity }
    else existing
  if state.isStable then { existing with isStable := true, dexType := .aerodrome } else existing

/-- One turn of the loop of `batch_update_reserves`. -/
def updateEntry (pools : PoolTable) (update : Address × MirrorEntry) : PoolTable :=
  Function.update pools update.1 <| some <|
    match pools update.1 with
    | none => update.2
    | some existing => mergeEntry existing update.2

def batchUpdateReserves (pools : PoolTable) (updates : List (Address × MirrorEntry)) :
    PoolTable :=
  updates.foldl updateEntry pools

def removePool (pools : PoolTable) (pool : Address) : PoolTable :=
  Function.update pools pool none

def updates (decisions : List (Address × Decision)) : List (Address × MirrorEntry) :=
  decisions.filterMap fun
    | (pool, .update state) => some (pool, state)
    | (_, .prune) => none

def toPrune (decisions : List (Address × Decision)) : List Address :=
  decisions.filterMap fun
    | (_, .update _) => none
    | (pool, .prune) => some pool

/-- What is applied of a chunk: nothing where nothing is to be updated. -/
def appliedDecisions (chunk : List (Address × DexType)) (decisions : List (Address × Decision)) :
    List (Address × MirrorEntry) × List Address :=
  if (updates decisions).isEmpty ∧ ¬ chunk.isEmpty then ([], [])
  else (updates decisions, toPrune decisions)

section Updates

variable {decoders : Decoders} {currentBlock : Nat}

theorem decidePool_blank {pool : Address × DexType} {results : List MulticallResult}
    {state : MirrorEntry}
    (h : decidePool decoders currentBlock pool results = some (.update state)) :
    state.lastUpdatedBlock = currentBlock ∧ state.isStable = false := by
  have hReserves : ∀ res, decideReserves decoders currentBlock pool res = some (.update state) →
      state.lastUpdatedBlock = currentBlock ∧ state.isStable = false := by
    intro res hRes
    unfold decideReserves at hRes
    split at hRes
    · split at hRes
      · exact absurd hRes (by simp)
      · split at hRes
        · exact absurd hRes (by simp)
        · obtain rfl := Decision.update.inj (Option.some.inj hRes)
          exact ⟨rfl, rfl⟩
    · exact absurd hRes (by simp)
  unfold decidePool at h
  split at h
  · obtain ⟨res, _, hRes⟩ := Option.bind_eq_some_iff.mp h
    exact hReserves res hRes
  · obtain ⟨res, _, hRes⟩ := Option.bind_eq_some_iff.mp h
    exact hReserves res hRes
  · obtain ⟨s0, _, h⟩ := Option.bind_eq_some_iff.mp h
    obtain ⟨l, _, h⟩ := Option.bind_eq_some_iff.mp h
    unfold decideV3 at h
    split at h
    · split at h
      · obtain rfl := Decision.update.inj (Option.some.inj h)
        exact ⟨rfl, rfl⟩
      · exact absurd h (by simp)
    · exact absurd h (by simp)
  · exact absurd h (by simp)

theorem decideChunk_blank {chunk : List (Address × DexType)} {results : List MulticallResult}
    {pool : Address} {state : MirrorEntry}
    (h : (pool, .update state) ∈ decideChunk decoders currentBlock chunk results) :
    state.lastUpdatedBlock = currentBlock ∧ state.isStable = false := by
  induction chunk generalizing results with
  | nil => exact absurd h (by simp [decideChunk])
  | cons first rest ih =>
      rcases List.mem_append.mp h with hHere | hLater
      · rw [Option.mem_toList] at hHere
        obtain ⟨decision, hDecision, hEq⟩ := Option.map_eq_some_iff.mp hHere
        obtain rfl : decision = .update state := congrArg Prod.snd hEq
        exact decidePool_blank hDecision
      · exact ih hLater

/-- Every entry of a batch carries the block of the sync's start, and no stable flag. -/
theorem updates_blank {chunk : List (Address × DexType)} {results : List MulticallResult}
    {update : Address × MirrorEntry}
    (h : update ∈ (appliedDecisions chunk (decideChunk decoders currentBlock chunk results)).1) :
    update.2.lastUpdatedBlock = currentBlock ∧ update.2.isStable = false := by
  unfold appliedDecisions at h
  split at h
  · exact absurd h (by simp)
  · obtain ⟨⟨pool, decision⟩, hMem, hUpdate⟩ := List.mem_filterMap.mp h
    cases decision with
    | prune => exact absurd hUpdate (by simp)
    | update state =>
        obtain rfl := Option.some.inj hUpdate
        exact decideChunk_blank hMem

end Updates

/-- `update_v2_reserves`; a pool that is not mirrored stays so. -/
def updateV2Reserves (pools : PoolTable) (currentBlock : Nat) (pool : Address) (r0 r1 : U256) :
    PoolTable :=
  Function.update pools pool <| (pools pool).map fun p =>
    { p with reserves0 := r0, reserves1 := r1, lastUpdatedBlock := currentBlock }

/-- `update_v3_state`. -/
def updateV3State (pools : PoolTable) (currentBlock : Nat) (pool : Address) (sqrtPrice : U256)
    (tick : Int) (liquidity : U256) : PoolTable :=
  Function.update pools pool <| (pools pool).map fun p =>
    { p with sqrtPriceX96 := sqrtPrice, tick, liquidity, lastUpdatedBlock := currentBlock }

/-! ## Decoders -/

/-- The decoders on words that fit their types. -/
def wordDecoders : Decoders where
  getReserves data :=
    let word k := readBE (ofList data) (32 * k) 32
    if data.length = 96 ∧ word 0 < 2 ^ 112 ∧ word 1 < 2 ^ 112 ∧ word 2 < 2 ^ 32 then
      some (BitVec.ofNat 256 (word 0), BitVec.ofNat 256 (word 1))
    else none
  slot0 data :=
    let word k := readBE (ofList data) (32 * k) 32
    let tick : Int := if word 1 < 2 ^ 255 then word 1 else word 1 - 2 ^ 256
    if data.length = 224 ∧ word 0 < 2 ^ 160 ∧ -2 ^ 23 ≤ tick ∧ tick < 2 ^ 23 ∧ word 2 < 2 ^ 16 ∧
        word 3 < 2 ^ 16 ∧ word 4 < 2 ^ 16 ∧ word 5 < 2 ^ 8 ∧ word 6 < 2 then
      some (BitVec.ofNat 256 (word 0), tick)
    else none
  liquidity data :=
    let word := readBE (ofList data) 0 32
    if data.length = 32 ∧ word < 2 ^ 128 then some (BitVec.ofNat 256 word) else none

/-- `reserve0 = 2 ^ 64`, the other words zero. -/
def reservesData : List UInt8 :=
  List.replicate 23 0 ++ 1 :: List.replicate 72 0

end SovereignShadow.Ports.MirrorSync
