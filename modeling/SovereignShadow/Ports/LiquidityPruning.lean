import SovereignShadow.Ports.MulticallAlignment

/-!
# Liquidity pruning

Port of what `sync_batch_with_jitter` does with a chunk once the reply is there: the updates
and the removals, or the penalty of the provider.  One test decides between them, that no
pool of the chunk is to be updated.  It cannot tell a reply that did not decode from a
reply that found every pool shallow.

A pool is decoded from the results that the loop takes for it (`turns`).  These are the
results of its own calls unless it stands behind a MaverickV2 pool, for which the loop takes
none.

## Main results

* `decidePool_prune_iff`, `decidePool_update_iff` — the decisions by what decodes.
* `processChunk_of_kept` — a chunk with a pool to update removes its shallow pools.
* `processChunk_of_none_kept` — a chunk without one leaves the mirror and marks the provider.
* `independent_iff` — when neither depends on the chunk mates.
-/

namespace SovereignShadow.Ports.LiquidityPruning

open SovereignShadow.Ports.Models
open SovereignShadow.Ports.Constants
open SovereignShadow.Ports.Mirror
open SovereignShadow.Ports.MirrorSync
open SovereignShadow.Ports.MulticallAlignment

/-! ## A chunk and its reply -/

/-- The mirror after a chunk, whether `mark_unhealthy(idx, 60)` was called, and the
`dynamic_batch_size`. -/
structure ChunkOutcome where
  pools : PoolTable
  marked : Bool
  dynamicBatchSize : ℕ

/-- A chunk with its reply; `none` is a failed multicall. -/
def processChunk (decoders : Decoders) (currentBlock : ℕ) (pools : PoolTable)
    (dynamicBatchSize : ℕ) (chunk : List (Address × DexType)) :
    Option (List MulticallResult) → ChunkOutcome
  | none => { pools, marked := true, dynamicBatchSize }
  | some results =>
      let decisions := decideChunk decoders currentBlock chunk results
      if (updates decisions).isEmpty ∧ ¬ chunk.isEmpty then
        { pools, marked := true, dynamicBatchSize := max (dynamicBatchSize / 2) 1 }
      else
        { pools := (toPrune decisions).foldl removePool
            (batchUpdateReserves pools (updates decisions))
          marked := false
          dynamicBatchSize }

/-! ## What a pool's results decode to -/

/-- A pool and the results that are left when the loop comes to it. -/
abbrev Turn := (Address × DexType) × List MulticallResult

/-- The pools of a chunk, each with the results left after `width` of them for every pool
before it. -/
def walk (width : Address × DexType → ℕ) :
    List (Address × DexType) → List MulticallResult → List Turn
  | [], _ => []
  | pool :: rest, results => (pool, results) :: walk width rest (results.drop (width pool))

/-- The turns of the loop. -/
def turns : List (Address × DexType) → List MulticallResult → List Turn :=
  walk fun pool => resultsTaken pool.2

variable {decoders : Decoders} {currentBlock : ℕ}

/-- The reserves that a turn's first result decodes to. -/
def reservesOf (decoders : Decoders) (turn : Turn) : Option (U256 × U256) :=
  turn.2[0]?.bind fun res => if res.success then decoders.getReserves res.returnData else none

/-- A V2 or Aerodrome pool outside `TOP_100_POOLS` with both reserves below the threshold. -/
def Shallow (decoders : Decoders) (turn : Turn) : Prop :=
  (turn.1.2 = .uniswapV2 ∨ turn.1.2 = .aerodrome) ∧ ¬ top100Pools.contains turn.1.1 ∧
    ∃ reserve0 reserve1, reservesOf decoders turn = some (reserve0, reserve1) ∧
      reserve0 < ethThreshold ∧ reserve1 < ethThreshold

/-- What the loop reads of the pool's results decodes; of a MaverickV2 pool it reads none. -/
def Decoded (decoders : Decoders) (turn : Turn) : Prop :=
  match turn.1.2 with
  | .uniswapV2 | .aerodrome => (reservesOf decoders turn).isSome
  | .uniswapV3 => ∃ s0 l, turn.2[0]? = some s0 ∧ turn.2[1]? = some l ∧
      (s0.success ∧ l.success) ∧ (decoders.slot0 s0.returnData).isSome ∧
      (decoders.liquidity l.returnData).isSome
  | .maverickV2 => False

/-- The pool decodes, and is deep, or in `TOP_100_POOLS`, or a V3 pool. -/
def Kept (decoders : Decoders) (turn : Turn) : Prop :=
  Decoded decoders turn ∧ ¬ Shallow decoders turn

theorem mem_of_mem_walk {width : Address × DexType → ℕ} {chunk : List (Address × DexType)}
    {results : List MulticallResult} {turn : Turn} (h : turn ∈ walk width chunk results) :
    turn.1 ∈ chunk := by
  induction chunk generalizing results with
  | nil => cases h
  | cons pool rest ih =>
      rcases List.mem_cons.mp h with rfl | hLater
      · exact List.mem_cons_self
      · exact List.mem_cons_of_mem pool (ih hLater)

/-! ## Decisions -/

/-- The decision on a pool whose reserves decode. -/
def reservesDecision (currentBlock : ℕ) (pool : Address × DexType) (reserves : U256 × U256) :
    Decision :=
  if reserves.1 < ethThreshold ∧ reserves.2 < ethThreshold ∧ ¬ top100Pools.contains pool.1 then
    .prune
  else
    .update { blankState currentBlock pool.2 with
      reserves0 := reserves.1, reserves1 := reserves.2 }

theorem decideReserves_eq (pool : Address × DexType) (results : List MulticallResult) :
    results[0]?.bind (decideReserves decoders currentBlock pool) =
      (reservesOf decoders (pool, results)).map (reservesDecision currentBlock pool) := by
  unfold reservesOf
  cases results[0]? with
  | none => rfl
  | some res =>
      simp only [Option.bind_some, decideReserves]
      split
      · cases decoders.getReserves res.returnData with
        | none => rfl
        | some reserves =>
            simp only [Option.map_some, reservesDecision]
            split <;> rfl
      · rfl

theorem decidePool_reserves {turn : Turn}
    (hType : turn.1.2 = .uniswapV2 ∨ turn.1.2 = .aerodrome) :
    decidePool decoders currentBlock turn.1 turn.2 =
      (reservesOf decoders turn).map (reservesDecision currentBlock turn.1) := by
  rw [← decideReserves_eq]
  unfold decidePool
  rcases hType with hType | hType
  · rw [hType]
  · rw [hType]

theorem decoded_reserves {turn : Turn}
    (hType : turn.1.2 = .uniswapV2 ∨ turn.1.2 = .aerodrome) :
    Decoded decoders turn ↔ (reservesOf decoders turn).isSome := by
  unfold Decoded
  rcases hType with hType | hType
  · rw [hType]
  · rw [hType]

/-- A V3 pool is updated or left out. -/
theorem decidePool_v3 {turn : Turn} (hType : turn.1.2 = .uniswapV3) :
    decidePool decoders currentBlock turn.1 turn.2 ≠ some .prune ∧
      ((∃ state, decidePool decoders currentBlock turn.1 turn.2 = some (.update state)) ↔
        Decoded decoders turn) := by
  unfold decidePool Decoded
  rw [hType]
  cases hs0 : turn.2[0]? with
  | none => simp
  | some s0 =>
      cases hl : turn.2[1]? with
      | none => simp
      | some l =>
          by_cases hSuccess : s0.success ∧ l.success
          · cases hSlot : decoders.slot0 s0.returnData with
            | none => simp [decideV3, hSuccess, hSlot]
            | some slot =>
                cases hLiquidity : decoders.liquidity l.returnData with
                | none => simp [decideV3, hSuccess, hLiquidity]
                | some liquidity => simp [decideV3, hSuccess, hSlot, hLiquidity]
          · simp [decideV3, hSuccess]

theorem decidePool_prune_iff (currentBlock : ℕ) {turn : Turn} :
    decidePool decoders currentBlock turn.1 turn.2 = some .prune ↔ Shallow decoders turn := by
  by_cases hType : turn.1.2 = .uniswapV2 ∨ turn.1.2 = .aerodrome
  · rw [decidePool_reserves hType, Option.map_eq_some_iff]
    constructor
    · rintro ⟨⟨reserve0, reserve1⟩, hReserves, hDecision⟩
      unfold reservesDecision at hDecision
      split at hDecision
      case isTrue hLow => exact ⟨hType, hLow.2.2, reserve0, reserve1, hReserves, hLow.1, hLow.2.1⟩
      case isFalse => cases hDecision
    · rintro ⟨-, hTop, reserve0, reserve1, hReserves, hLow0, hLow1⟩
      exact ⟨(reserve0, reserve1), hReserves, if_pos ⟨hLow0, hLow1, hTop⟩⟩
  · refine iff_of_false ?_ fun hShallow => hType hShallow.1
    cases hOther : turn.1.2 with
    | uniswapV2 => exact absurd (.inl hOther) hType
    | aerodrome => exact absurd (.inr hOther) hType
    | uniswapV3 => exact (decidePool_v3 hOther).1
    | maverickV2 =>
        unfold decidePool
        rw [hOther]
        exact nofun

theorem decidePool_update_iff (currentBlock : ℕ) {turn : Turn} :
    (∃ state, decidePool decoders currentBlock turn.1 turn.2 = some (.update state)) ↔
      Kept decoders turn := by
  by_cases hType : turn.1.2 = .uniswapV2 ∨ turn.1.2 = .aerodrome
  · rw [Kept, ← decidePool_prune_iff currentBlock, decoded_reserves hType,
      decidePool_reserves hType]
    cases reservesOf decoders turn with
    | none => simp
    | some reserves =>
        cases hDecision : reservesDecision currentBlock turn.1 reserves with
        | update state => simp [hDecision]
        | prune => simp [hDecision]
  · have hDeep : ¬ Shallow decoders turn := fun hShallow => hType hShallow.1
    rw [Kept, and_iff_left hDeep]
    cases hOther : turn.1.2 with
    | uniswapV2 => exact absurd (.inl hOther) hType
    | aerodrome => exact absurd (.inr hOther) hType
    | uniswapV3 => exact (decidePool_v3 hOther).2
    | maverickV2 =>
        unfold decidePool Decoded
        rw [hOther]
        simp

theorem mem_decideChunk_iff {chunk : List (Address × DexType)} {results : List MulticallResult}
    {pool : Address} {decision : Decision} :
    (pool, decision) ∈ decideChunk decoders currentBlock chunk results ↔
      ∃ turn ∈ turns chunk results, turn.1.1 = pool ∧
        decidePool decoders currentBlock turn.1 turn.2 = some decision := by
  induction chunk generalizing results with
  | nil => simp [decideChunk, turns, walk]
  | cons first rest ih =>
      unfold turns at ih ⊢
      rw [decideChunk, List.mem_append, ih, walk, List.exists_mem_cons_iff, Option.mem_toList,
        Option.map_eq_some_iff]
      apply or_congr_left
      constructor
      · rintro ⟨d, hDecision, hEq⟩
        obtain ⟨rfl, rfl⟩ := Prod.mk.inj hEq
        exact ⟨rfl, hDecision⟩
      · rintro ⟨rfl, hDecision⟩
        exact ⟨decision, hDecision, rfl⟩

/-! ## The mirror after the chunk -/

theorem foldl_removePool (pools : PoolTable) {dead : List Address} {pool : Address}
    (hDead : pool ∈ dead) : dead.foldl removePool pools pool = none := by
  have hKeeps : ∀ (rest : List Address) (table : PoolTable), table pool = none →
      rest.foldl removePool table pool = none := by
    intro rest
    induction rest with
    | nil => exact fun _ hNone => hNone
    | cons first rest ih =>
        intro table hNone
        refine ih _ ?_
        by_cases hFirst : pool = first
        · rw [removePool, hFirst, Function.update_self]
        · rw [removePool, Function.update_of_ne hFirst, hNone]
  induction dead generalizing pools with
  | nil => cases hDead
  | cons first rest ih =>
      rcases List.mem_cons.mp hDead with rfl | hLater
      · exact hKeeps rest _ (Function.update_self ..)
      · exact ih _ hLater

theorem mem_toPrune_iff {decisions : List (Address × Decision)} {pool : Address} :
    pool ∈ toPrune decisions ↔ (pool, .prune) ∈ decisions := by
  unfold toPrune
  rw [List.mem_filterMap]
  constructor
  · rintro ⟨⟨pool', decision⟩, hMem, hPrune⟩
    cases decision with
    | update state => cases hPrune
    | prune =>
        obtain rfl := Option.some.inj hPrune
        exact hMem
  · intro hMem
    exact ⟨_, hMem, rfl⟩

theorem updates_isEmpty_iff {decisions : List (Address × Decision)} :
    (updates decisions).isEmpty ↔ ∀ pool state, (pool, .update state) ∉ decisions := by
  unfold updates
  rw [List.isEmpty_iff, List.filterMap_eq_nil_iff]
  constructor
  · intro hNone pool state hMem
    cases hNone _ hMem
  · rintro hNone ⟨pool, decision⟩ hMem
    cases decision with
    | update state => exact absurd hMem (hNone pool state)
    | prune => rfl

section Chunk

variable {chunk : List (Address × DexType)} {results : List MulticallResult}

/-- The test of the chunk: no pool is kept. -/
theorem no_updates_iff :
    (updates (decideChunk decoders currentBlock chunk results)).isEmpty ↔
      ∀ turn ∈ turns chunk results, ¬ Kept decoders turn := by
  rw [updates_isEmpty_iff]
  constructor
  · intro hNone turn hTurn hKept
    obtain ⟨state, hState⟩ := (decidePool_update_iff currentBlock).mpr hKept
    exact hNone turn.1.1 state (mem_decideChunk_iff.mpr ⟨turn, hTurn, rfl, hState⟩)
  · intro hNone pool state hMem
    obtain ⟨turn, hTurn, -, hState⟩ := mem_decideChunk_iff.mp hMem
    exact hNone turn hTurn ((decidePool_update_iff currentBlock).mp ⟨state, hState⟩)

theorem processChunk_of_kept (currentBlock : ℕ) (pools : PoolTable) (size : ℕ)
    (hKept : ∃ turn ∈ turns chunk results, Kept decoders turn) :
    let after := processChunk decoders currentBlock pools size chunk (some results)
    after.marked = false ∧
      ∀ turn ∈ turns chunk results, Shallow decoders turn → after.pools turn.1.1 = none := by
  have hSome : ¬ ((updates (decideChunk decoders currentBlock chunk results)).isEmpty ∧
      ¬ chunk.isEmpty) := by
    rintro ⟨hEmpty, -⟩
    obtain ⟨turn, hTurn, hTurnKept⟩ := hKept
    exact no_updates_iff.mp hEmpty turn hTurn hTurnKept
  simp only [processChunk, if_neg hSome, true_and]
  intro turn hTurn hShallow
  apply foldl_removePool
  rw [mem_toPrune_iff, mem_decideChunk_iff]
  exact ⟨turn, hTurn, rfl, (decidePool_prune_iff currentBlock).mpr hShallow⟩

theorem processChunk_of_none_kept (pools : PoolTable) (size : ℕ) (hChunk : chunk ≠ [])
    (hNone : ∀ turn ∈ turns chunk results, ¬ Kept decoders turn) :
    processChunk decoders currentBlock pools size chunk (some results) =
      { pools, marked := true, dynamicBatchSize := max (size / 2) 1 } := by
  have hEmpty : (updates (decideChunk decoders currentBlock chunk results)).isEmpty ∧
      ¬ chunk.isEmpty := ⟨no_updates_iff.mpr hNone, by rwa [List.isEmpty_iff]⟩
  simp only [processChunk, if_pos hEmpty]

end Chunk

/-! ## Independence of the chunk mates -/

/-- Every shallow pool is gone, and a provider whose reply decoded is not marked. -/
structure Independent (decoders : Decoders) (chunk : List (Address × DexType))
    (results : List MulticallResult) (after : ChunkOutcome) : Prop where
  pruned : ∀ turn ∈ turns chunk results, Shallow decoders turn → after.pools turn.1.1 = none
  spared : (∀ turn ∈ turns chunk results, Decoded decoders turn) → after.marked = false

/-- **Pruning.**  A chunk removes its shallow pools and spares a provider whose reply
decoded if and only if it keeps a pool, or has no shallow pool to remove and one that did
not decode, or is empty. -/
theorem independent_iff (decoders : Decoders) (currentBlock : ℕ) (pools : PoolTable) (size : ℕ)
    (chunk : List (Address × DexType)) (results : List MulticallResult) :
    Independent decoders chunk results
        (processChunk decoders currentBlock pools size chunk (some results)) ↔
      chunk = [] ∨ (∃ turn ∈ turns chunk results, Kept decoders turn) ∨
        (∀ turn ∈ turns chunk results, Shallow decoders turn → pools turn.1.1 = none) ∧
          ∃ turn ∈ turns chunk results, ¬ Decoded decoders turn := by
  by_cases hChunk : chunk = []
  · subst hChunk
    refine iff_of_true ⟨nofun, fun _ => ?_⟩ (.inl rfl)
    simp [processChunk]
  by_cases hKept : ∃ turn ∈ turns chunk results, Kept decoders turn
  · obtain ⟨hSpared, hPruned⟩ := processChunk_of_kept currentBlock pools size hKept
    exact iff_of_true ⟨hPruned, fun _ => hSpared⟩ (.inr (.inl hKept))
  · have hNone : ∀ turn ∈ turns chunk results, ¬ Kept decoders turn := by
      intro turn hTurn hTurnKept
      exact hKept ⟨turn, hTurn, hTurnKept⟩
    rw [processChunk_of_none_kept pools size hChunk hNone]
    constructor
    · intro hIndependent
      refine .inr (.inr ⟨hIndependent.pruned, ?_⟩)
      by_contra hAll
      have hDecoded : ∀ turn ∈ turns chunk results, Decoded decoders turn := by
        intro turn hTurn
        by_contra hNot
        exact hAll ⟨turn, hTurn, hNot⟩
      cases hIndependent.spared hDecoded
    · rintro (hEmpty | hSome | ⟨hAbsent, turn, hTurn, hNot⟩)
      · exact absurd hEmpty hChunk
      · exact absurd hSome hKept
      · exact ⟨hAbsent, fun hAll => absurd (hAll turn hTurn) hNot⟩

/-- A chunk of one mirrored pool whose reserves are zero. -/
def emptyPair : List (Address × DexType) := [(0x22, .uniswapV2)]

def emptyPairReply : List MulticallResult := [⟨true, List.replicate 96 0⟩]

/-- The pool stays in the mirror and the provider is marked. -/
theorem not_independent :
    let pools := Function.update (fun _ => none) 0x22 (some (blankState 0 .uniswapV2))
    let after := processChunk wordDecoders 1 pools 1 emptyPair (some emptyPairReply)
    (∀ turn ∈ turns emptyPair emptyPairReply, Shallow wordDecoders turn) ∧
      after.pools 0x22 ≠ none ∧ after.marked = true ∧
        ¬ Independent wordDecoders emptyPair emptyPairReply after := by
  intro pools after
  have hTurns : turns emptyPair emptyPairReply = [((0x22, .uniswapV2), emptyPairReply)] := rfl
  have hReserves : reservesOf wordDecoders ((0x22, .uniswapV2), emptyPairReply) =
      some (0, 0) := by decide +kernel
  have hShallow : Shallow wordDecoders ((0x22, .uniswapV2), emptyPairReply) :=
    ⟨.inl rfl, by decide, 0, 0, hReserves, by decide, by decide⟩
  have hAll : ∀ turn ∈ turns emptyPair emptyPairReply, Shallow wordDecoders turn := by
    rw [hTurns]
    exact List.forall_mem_singleton.mpr hShallow
  have hAfter : after = { pools, marked := true, dynamicBatchSize := 1 } :=
    processChunk_of_none_kept pools 1 (by decide) fun turn hTurn hKept =>
      hKept.2 (hAll turn hTurn)
  have hStays : after.pools 0x22 ≠ none := by
    rw [hAfter]
    exact nofun
  refine ⟨hAll, hStays, by rw [hAfter], ?_⟩
  intro hIndependent
  have hGone := hIndependent.pruned ((0x22, .uniswapV2), emptyPairReply)
    (hTurns ▸ List.mem_singleton.mpr rfl) hShallow
  exact hStays hGone

end SovereignShadow.Ports.LiquidityPruning
