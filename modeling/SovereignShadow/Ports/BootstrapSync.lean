import SovereignShadow.Ports.LiquidityPruning
import SovereignShadow.Verified.Chunks

/-!
# The bootstrap

Port of `smart_bootstrap` and of the loop of `sync_batch_with_jitter`.  The pools in the mirror
are synced in two batches, those of `TOP_100_POOLS` and then, in the background, the others.  A
batch is cut by `batch.chunks(dynamic_batch_size)` before the loop, at most two pools to a
multicall; the loop halves `dynamic_batch_size` after a poor reply, but nothing reads it again.

While a multicall is on its way the other tasks write the mirror.

## Main results

* `processChunk_local`, `processChunk_other` — a multicall decides on the pools of its chunk, on
  each from its own entry.
* `bootstrap_synced` — every mirrored pool is in one multicall, whatever the replies, and that
  multicall decides what becomes of it.
-/

namespace SovereignShadow.Ports.BootstrapSync

open SovereignShadow.Verified.Chunks
open SovereignShadow.Ports.Models
open SovereignShadow.Ports.Constants
open SovereignShadow.Ports.Mirror
open SovereignShadow.Ports.MirrorSync
open SovereignShadow.Ports.LiquidityPruning

/-! ## The syncs -/

/-- `MULTICALL_BATCH_SIZE`. -/
def multicallBatchSize : ℕ := 2

/-- What meets the multicalls, by their number: the writes of other tasks while each is on its
way, and its reply. -/
structure Surroundings where
  meanwhile : ℕ → PoolTable → PoolTable
  reply : ℕ → Option (List MulticallResult)

structure Progress where
  pools : PoolTable
  dynamicBatchSize : ℕ
  multicalls : ℕ

/-- A turn of the loop over the chunks. -/
def syncChunk (decoders : Decoders) (around : Surroundings) (currentBlock : ℕ) (s : Progress)
    (chunk : List (Address × DexType)) : Progress :=
  let after := processChunk decoders currentBlock (around.meanwhile s.multicalls s.pools)
    s.dynamicBatchSize chunk (around.reply s.multicalls)
  { pools := after.pools
    dynamicBatchSize := after.dynamicBatchSize
    multicalls := s.multicalls + 1 }

/-- `sync_batch_with_jitter`.  No caller passes a batch size of zero, on which `chunks` panics. -/
def syncBatchWithJitter (decoders : Decoders) (around : Surroundings) (currentBlock : ℕ)
    (batch : List (Address × DexType)) (batchSize : ℕ) (s : Progress) : Progress :=
  let dynamicBatchSize := min batchSize multicallBatchSize
  (chunks dynamicBatchSize batch).foldl (syncChunk decoders around currentBlock)
    { s with dynamicBatchSize }

/-- `self.pools.iter()`, each key once. -/
structure Snapshot where
  allPools : List (Address × DexType)
  nodup : (allPools.map Prod.fst).Nodup

def Snapshot.top100 (snapshot : Snapshot) : List (Address × DexType) :=
  snapshot.allPools.filter fun pool => top100Pools.contains pool.1

def Snapshot.remaining (snapshot : Snapshot) : List (Address × DexType) :=
  snapshot.allPools.filter fun pool => !top100Pools.contains pool.1

theorem Snapshot.mem_top100 {snapshot : Snapshot} {pool : Address × DexType} :
    pool ∈ snapshot.top100 ↔ pool ∈ snapshot.allPools ∧ top100Pools.contains pool.1 = true :=
  List.mem_filter

theorem Snapshot.mem_remaining {snapshot : Snapshot} {pool : Address × DexType} :
    pool ∈ snapshot.remaining ↔ pool ∈ snapshot.allPools ∧ top100Pools.contains pool.1 = false := by
  rw [Snapshot.remaining, List.mem_filter, Bool.not_eq_true']

theorem Snapshot.top100_nodup (snapshot : Snapshot) : (snapshot.top100.map Prod.fst).Nodup :=
  (List.filter_sublist.map _).nodup snapshot.nodup

theorem Snapshot.remaining_nodup (snapshot : Snapshot) :
    (snapshot.remaining.map Prod.fst).Nodup :=
  (List.filter_sublist.map _).nodup snapshot.nodup

/-- The addresses of the two parts are told apart by `TOP_100_POOLS`. -/
theorem Snapshot.not_mem_remaining {snapshot : Snapshot} {pool : Address}
    (hTop : top100Pools.contains pool = true) : pool ∉ snapshot.remaining.map Prod.fst := by
  intro h
  obtain ⟨other, hOther, rfl⟩ := List.mem_map.mp h
  rw [(Snapshot.mem_remaining.mp hOther).2] at hTop
  cases hTop

theorem Snapshot.not_mem_top100 {snapshot : Snapshot} {pool : Address}
    (hRest : top100Pools.contains pool = false) : pool ∉ snapshot.top100.map Prod.fst := by
  intro h
  obtain ⟨other, hOther, rfl⟩ := List.mem_map.mp h
  rw [(Snapshot.mem_top100.mp hOther).2] at hRest
  cases hRest

/-- `smart_bootstrap` to the end of its background task.  Each sync reads the block when it
starts. -/
def smartBootstrap (decoders : Decoders) (around : Surroundings) (topBlock restBlock : ℕ)
    (snapshot : Snapshot) (s : Progress) : Progress :=
  let s :=
    if snapshot.top100.isEmpty then s
    else syncBatchWithJitter decoders around topBlock snapshot.top100 100 s
  if snapshot.remaining.isEmpty then s
  else syncBatchWithJitter decoders around restBlock snapshot.remaining 40 s

/-- The multicalls, in order. -/
def Snapshot.multicalls (snapshot : Snapshot) : List (List (Address × DexType)) :=
  chunks multicallBatchSize snapshot.top100 ++ chunks multicallBatchSize snapshot.remaining

/-! ## One multicall -/

section Chunk

variable {decoders : Decoders} {currentBlock size size' : ℕ} {pools pools' : PoolTable}
  {chunk : List (Address × DexType)} {reply : Option (List MulticallResult)} {pool : Address}

theorem batchUpdateReserves_local {updates : List (Address × MirrorEntry)}
    (h : pools pool = pools' pool) :
    batchUpdateReserves pools updates pool = batchUpdateReserves pools' updates pool := by
  induction updates generalizing pools pools' with
  | nil => exact h
  | cons update rest ih =>
      apply ih
      by_cases hSame : pool = update.1
      · subst hSame
        rw [updateEntry, updateEntry, Function.update_self, Function.update_self, h]
      · rw [updateEntry, updateEntry, Function.update_of_ne hSame, Function.update_of_ne hSame, h]

theorem batchUpdateReserves_other {updates : List (Address × MirrorEntry)}
    (h : ∀ update ∈ updates, update.1 ≠ pool) :
    batchUpdateReserves pools updates pool = pools pool := by
  induction updates generalizing pools with
  | nil => rfl
  | cons update rest ih =>
      rw [List.forall_mem_cons] at h
      show batchUpdateReserves (updateEntry pools update) rest pool = pools pool
      rw [ih h.2, updateEntry, Function.update_of_ne h.1.symm]

theorem batchUpdateReserves_isSome {updates : List (Address × MirrorEntry)}
    (h : (pools pool).isSome) : (batchUpdateReserves pools updates pool).isSome := by
  induction updates generalizing pools with
  | nil => exact h
  | cons update rest ih =>
      apply ih
      by_cases hSame : pool = update.1
      · rw [updateEntry, hSame, Function.update_self]
        rfl
      · rw [updateEntry, Function.update_of_ne hSame]
        exact h

theorem foldl_removePool_local {dead : List Address} (h : pools pool = pools' pool) :
    dead.foldl removePool pools pool = dead.foldl removePool pools' pool := by
  induction dead generalizing pools pools' with
  | nil => exact h
  | cons other rest ih =>
      apply ih
      by_cases hSame : pool = other
      · rw [removePool, removePool, hSame, Function.update_self, Function.update_self]
      · rw [removePool, removePool, Function.update_of_ne hSame, Function.update_of_ne hSame, h]

theorem foldl_removePool_other {dead : List Address} (h : pool ∉ dead) :
    dead.foldl removePool pools pool = pools pool := by
  induction dead generalizing pools with
  | nil => rfl
  | cons other rest ih =>
      rw [List.mem_cons, not_or] at h
      rw [List.foldl_cons, ih h.2, removePool, Function.update_of_ne h.1]

/-- What becomes of a pool in a multicall depends on its own entry. -/
theorem processChunk_local (h : pools pool = pools' pool) :
    (processChunk decoders currentBlock pools size chunk reply).pools pool =
      (processChunk decoders currentBlock pools' size' chunk reply).pools pool := by
  cases reply with
  | none => exact h
  | some results =>
      unfold processChunk
      dsimp only
      split_ifs
      · exact h
      · exact foldl_removePool_local (batchUpdateReserves_local h)

/-- A decision is about a pool of the chunk. -/
theorem fst_mem_of_decision {results : List MulticallResult} {decision : Decision}
    (h : (pool, decision) ∈ decideChunk decoders currentBlock chunk results) :
    pool ∈ chunk.map Prod.fst := by
  obtain ⟨turn, hTurn, rfl, -⟩ := mem_decideChunk_iff.mp h
  exact List.mem_map_of_mem (mem_of_mem_walk hTurn)

/-- A multicall writes the pools of its chunk only. -/
theorem processChunk_other (h : pool ∉ chunk.map Prod.fst) :
    (processChunk decoders currentBlock pools size chunk reply).pools pool = pools pool := by
  cases reply with
  | none => rfl
  | some results =>
      unfold processChunk
      dsimp only
      split_ifs
      · rfl
      · dsimp only
        rw [foldl_removePool_other, batchUpdateReserves_other]
        · intro update hUpdate hSame
          obtain ⟨⟨other, decision⟩, hDecision, hState⟩ := List.mem_filterMap.mp hUpdate
          cases decision with
          | prune => cases hState
          | update state =>
              obtain rfl := Option.some.inj hState
              exact h (hSame ▸ fst_mem_of_decision hDecision)
        · exact fun hPrune => h (fst_mem_of_decision (mem_toPrune_iff.mp hPrune))

/-- A multicall removes no pool of `TOP_100_POOLS`. -/
theorem processChunk_top (hTop : top100Pools.contains pool = true) (h : (pools pool).isSome) :
    ((processChunk decoders currentBlock pools size chunk reply).pools pool).isSome := by
  cases reply with
  | none => exact h
  | some results =>
      unfold processChunk
      dsimp only
      split_ifs
      · exact h
      · dsimp only
        rw [foldl_removePool_other]
        · exact batchUpdateReserves_isSome h
        · rw [mem_toPrune_iff, mem_decideChunk_iff]
          rintro ⟨turn, -, rfl, hPrune⟩
          exact ((decidePool_prune_iff currentBlock).mp hPrune).2.1 hTop

end Chunk

/-! ## The run -/

theorem syncChunks_multicalls (decoders : Decoders) (around : Surroundings) (currentBlock : ℕ)
    (chunks : List (List (Address × DexType))) (s : Progress) :
    (chunks.foldl (syncChunk decoders around currentBlock) s).multicalls =
      s.multicalls + chunks.length := by
  induction chunks generalizing s with
  | nil => rfl
  | cons chunk rest ih =>
      rw [List.foldl_cons, ih, List.length_cons]
      show s.multicalls + 1 + rest.length = _
      omega

/-- A pool outside the batch is in none of its chunks. -/
theorem outside_chunks {batch : List (Address × DexType)} {pool : Address}
    (h : pool ∉ batch.map Prod.fst) :
    ∀ chunk ∈ chunks multicallBatchSize batch, pool ∉ chunk.map Prod.fst := by
  intro chunk hChunk hMem
  apply h
  rw [← flatten_chunks (show 0 < multicallBatchSize by decide) batch, List.map_flatten]
  exact List.mem_flatten.mpr ⟨_, List.mem_map_of_mem hChunk, hMem⟩

/-- A pool of the batch is in one of its chunks. -/
theorem exists_chunk {batch : List (Address × DexType)} (hNodup : (batch.map Prod.fst).Nodup)
    {pool : Address × DexType} (hPool : pool ∈ batch) :
    ∃ before chunk later, chunks multicallBatchSize batch = before ++ chunk :: later ∧
      pool ∈ chunk ∧ ∀ other ∈ before ++ later, pool.1 ∉ other.map Prod.fst := by
  have hFlatten := flatten_chunks (show 0 < multicallBatchSize by decide) batch
  rw [← hFlatten] at hPool
  obtain ⟨chunk, hChunk, hMem⟩ := List.mem_flatten.mp hPool
  obtain ⟨before, later, hSplit⟩ := List.append_of_mem hChunk
  refine ⟨before, chunk, later, hSplit, hMem, ?_⟩
  have hOwn : pool.1 ∈ chunk.map Prod.fst := List.mem_map_of_mem hMem
  rw [← hFlatten, hSplit, List.flatten_append, List.flatten_cons, List.map_append,
    List.map_append, List.nodup_append', List.nodup_append'] at hNodup
  obtain ⟨-, ⟨-, -, hLater⟩, hBefore⟩ := hNodup
  intro other hOther hIn
  rcases List.mem_append.mp hOther with hOld | hNew
  · refine hBefore ?_ (List.mem_append_left _ hOwn)
    rw [List.map_flatten]
    exact List.mem_flatten.mpr ⟨_, List.mem_map_of_mem hOld, hIn⟩
  · refine hLater hOwn ?_
    rw [List.map_flatten]
    exact List.mem_flatten.mpr ⟨_, List.mem_map_of_mem hNew, hIn⟩

section Run

variable {decoders : Decoders} {around : Surroundings} {pool : Address}
  (hAlone : ∀ i pools, around.meanwhile i pools pool = pools pool)
include hAlone

/-- Multicalls without the pool leave its entry. -/
theorem syncChunks_other {currentBlock : ℕ} {chunks : List (List (Address × DexType))}
    (h : ∀ chunk ∈ chunks, pool ∉ chunk.map Prod.fst) (s : Progress) :
    (chunks.foldl (syncChunk decoders around currentBlock) s).pools pool = s.pools pool := by
  induction chunks generalizing s with
  | nil => rfl
  | cons chunk rest ih =>
      rw [List.forall_mem_cons] at h
      rw [List.foldl_cons, ih h.2]
      exact (processChunk_other h.1).trans (hAlone _ _)

/-- The multicall of the pool decides on its entry. -/
theorem syncChunks_own {currentBlock : ℕ} {before later : List (List (Address × DexType))}
    {chunk : List (Address × DexType)}
    (h : ∀ other ∈ before ++ later, pool ∉ other.map Prod.fst) (s : Progress) :
    ((before ++ chunk :: later).foldl (syncChunk decoders around currentBlock) s).pools pool =
      (processChunk decoders currentBlock s.pools 2 chunk
        (around.reply (s.multicalls + before.length))).pools pool := by
  rw [List.foldl_append, List.foldl_cons,
    syncChunks_other hAlone fun other hOther => h other (List.mem_append_right _ hOther)]
  show (processChunk decoders currentBlock (around.meanwhile _ _) _ chunk _).pools pool = _
  rw [syncChunks_multicalls]
  apply processChunk_local
  rw [hAlone]
  exact syncChunks_other hAlone (fun other hOther => h other (List.mem_append_left _ hOther)) s

end Run

/-- What a bootstrap makes of one mirrored pool. -/
structure Synced (decoders : Decoders) (around : Surroundings) (topBlock restBlock : ℕ)
    (snapshot : Snapshot) (s : Progress) (pool : Address × DexType) : Prop where
  /-- One multicall is about it, and decides on its entry. -/
  own : ∃ before chunk later, snapshot.multicalls = before ++ chunk :: later ∧ pool ∈ chunk ∧
    (∀ other ∈ before ++ later, pool.1 ∉ other.map Prod.fst) ∧
      (smartBootstrap decoders around topBlock restBlock snapshot s).pools pool.1 =
        (processChunk decoders (if top100Pools.contains pool.1 then topBlock else restBlock)
          s.pools 2 chunk (around.reply (s.multicalls + before.length))).pools pool.1
  /-- A pool of `TOP_100_POOLS` stays. -/
  top : top100Pools.contains pool.1 = true → (s.pools pool.1).isSome →
    ((smartBootstrap decoders around topBlock restBlock snapshot s).pools pool.1).isSome

section Bootstrap

variable {decoders : Decoders} {around : Surroundings} {topBlock restBlock : ℕ}
  {snapshot : Snapshot} {s : Progress}

/-- A batch is cut once, into pairs. -/
theorem syncBatch_eq (currentBlock : ℕ) (batch : List (Address × DexType)) {batchSize : ℕ}
    (hSize : multicallBatchSize ≤ batchSize) (s : Progress) :
    (if batch.isEmpty then s
      else syncBatchWithJitter decoders around currentBlock batch batchSize s).pools =
        ((chunks multicallBatchSize batch).foldl (syncChunk decoders around currentBlock)
          { s with dynamicBatchSize := 2 }).pools ∧
    (if batch.isEmpty then s
      else syncBatchWithJitter decoders around currentBlock batch batchSize s).multicalls =
        s.multicalls + (chunks multicallBatchSize batch).length := by
  split
  · rename_i hEmpty
    rw [List.isEmpty_iff] at hEmpty
    subst hEmpty
    exact ⟨rfl, rfl⟩
  · unfold syncBatchWithJitter
    rw [Nat.min_eq_right hSize]
    exact ⟨rfl, syncChunks_multicalls ..⟩

theorem bootstrap_other {pool : Address}
    (hAlone : ∀ i pools, around.meanwhile i pools pool = pools pool)
    (hPool : pool ∉ snapshot.allPools.map Prod.fst) :
    (smartBootstrap decoders around topBlock restBlock snapshot s).pools pool = s.pools pool := by
  have hTop : pool ∉ snapshot.top100.map Prod.fst :=
    fun h => hPool ((List.filter_sublist.map _).subset h)
  have hRest : pool ∉ snapshot.remaining.map Prod.fst :=
    fun h => hPool ((List.filter_sublist.map _).subset h)
  unfold smartBootstrap
  rw [(syncBatch_eq restBlock snapshot.remaining (by decide) _).1,
    syncChunks_other hAlone (outside_chunks hRest)]
  show (if _ then s else _).pools pool = _
  rw [(syncBatch_eq topBlock snapshot.top100 (by decide) s).1,
    syncChunks_other hAlone (outside_chunks hTop)]

theorem bootstrap_own {pool : Address × DexType} (hPool : pool ∈ snapshot.allPools)
    (hAlone : ∀ i pools, around.meanwhile i pools pool.1 = pools pool.1) :
    Synced decoders around topBlock restBlock snapshot s pool := by
  have hOwn : ∃ before chunk later, snapshot.multicalls = before ++ chunk :: later ∧
      pool ∈ chunk ∧ (∀ other ∈ before ++ later, pool.1 ∉ other.map Prod.fst) ∧
        (smartBootstrap decoders around topBlock restBlock snapshot s).pools pool.1 =
          (processChunk decoders (if top100Pools.contains pool.1 then topBlock else restBlock)
            s.pools 2 chunk (around.reply (s.multicalls + before.length))).pools pool.1 := by
    unfold smartBootstrap
    rw [(syncBatch_eq restBlock snapshot.remaining (by decide) _).1]
    cases hTop : top100Pools.contains pool.1 with
    | true =>
        have hOutside := outside_chunks (@Snapshot.not_mem_remaining snapshot _ hTop)
        obtain ⟨before, chunk, later, hSplit, hMem, hOthers⟩ :=
          exists_chunk snapshot.top100_nodup (Snapshot.mem_top100.mpr ⟨hPool, hTop⟩)
        refine ⟨before, chunk, later ++ chunks multicallBatchSize snapshot.remaining, ?_, hMem, ?_,
          ?_⟩
        · rw [Snapshot.multicalls, hSplit, List.append_assoc, List.cons_append]
        · intro other hOther
          rw [← List.append_assoc] at hOther
          rcases List.mem_append.mp hOther with hNear | hFar
          · exact hOthers other hNear
          · exact hOutside other hFar
        · rw [syncChunks_other hAlone hOutside, if_pos rfl]
          show (if _ then s else _).pools pool.1 = _
          rw [(syncBatch_eq topBlock snapshot.top100 (by decide) s).1, hSplit]
          exact syncChunks_own hAlone hOthers _
    | false =>
        have hOutside := outside_chunks (@Snapshot.not_mem_top100 snapshot _ hTop)
        obtain ⟨before, chunk, later, hSplit, hMem, hOthers⟩ :=
          exists_chunk snapshot.remaining_nodup (Snapshot.mem_remaining.mpr ⟨hPool, hTop⟩)
        refine ⟨chunks multicallBatchSize snapshot.top100 ++ before, chunk, later, ?_, hMem, ?_, ?_⟩
        · rw [Snapshot.multicalls, hSplit, List.append_assoc]
        · intro other hOther
          rw [List.append_assoc] at hOther
          rcases List.mem_append.mp hOther with hFar | hNear
          · exact hOutside other hFar
          · exact hOthers other hNear
        · rw [hSplit, syncChunks_own hAlone hOthers, if_neg Bool.false_ne_true]
          show (processChunk decoders restBlock (if _ then s else _).pools 2 chunk
            (around.reply ((if _ then s else _).multicalls + _))).pools pool.1 = _
          rw [(syncBatch_eq topBlock snapshot.top100 (by decide) s).2, List.length_append,
            Nat.add_assoc]
          apply processChunk_local
          rw [(syncBatch_eq topBlock snapshot.top100 (by decide) s).1]
          exact syncChunks_other hAlone hOutside _
  refine ⟨hOwn, fun hTop hMirrored => ?_⟩
  obtain ⟨before, chunk, later, -, -, -, hEntry⟩ := hOwn
  rw [hEntry]
  exact processChunk_top hTop hMirrored

/-- **A bootstrap asks for every mirrored pool once**, in pairs, the top pools first, and what
becomes of a pool that no other task writes is up to its own multicall. -/
theorem bootstrap_synced (decoders : Decoders) (around : Surroundings) (topBlock restBlock : ℕ)
    (snapshot : Snapshot) (s : Progress) :
    snapshot.multicalls.flatten.Perm snapshot.allPools ∧
      (∀ chunk ∈ snapshot.multicalls, 0 < chunk.length ∧ chunk.length ≤ multicallBatchSize) ∧
      (∀ pool, (∀ i pools, around.meanwhile i pools pool = pools pool) →
        pool ∉ snapshot.allPools.map Prod.fst →
          (smartBootstrap decoders around topBlock restBlock snapshot s).pools pool =
            s.pools pool) ∧
      ∀ pool ∈ snapshot.allPools,
        (∀ i pools, around.meanwhile i pools pool.1 = pools pool.1) →
          Synced decoders around topBlock restBlock snapshot s pool := by
  have hPositive : 0 < multicallBatchSize := by decide
  refine ⟨?_, ?_, fun pool hAlone hPool => bootstrap_other hAlone hPool,
    fun pool hPool hAlone => bootstrap_own hPool hAlone⟩
  · rw [Snapshot.multicalls, List.flatten_append, flatten_chunks hPositive,
      flatten_chunks hPositive]
    exact List.filter_append_perm _ _
  · intro chunk hChunk
    rcases List.mem_append.mp hChunk with hTop | hRest
    · exact mem_chunks_length hPositive hTop
    · exact mem_chunks_length hPositive hRest

end Bootstrap

end SovereignShadow.Ports.BootstrapSync
