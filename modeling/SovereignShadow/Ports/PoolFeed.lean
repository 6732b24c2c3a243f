import SovereignShadow.Ports.MirrorSync

/-!
# From a factory log to the mirror

Port of `factory_scanner.rs` and of the pool feed task of `main.rs`.  The scanner reads the
stable topic of an Aerodrome pool and drops it: the event has no field for it.  The feed
inserts the pool, waits for the initialisation queue to take it, and then marks it stable
whatever the topic was.  In between the other tasks write the mirror.

## Main results

* `batches_keep` — batches of multicall results keep an entry's type and stable flag.
* `carried_iff` — for which logs the mirror ends up with the log's kind of pool.
-/

namespace SovereignShadow.Ports.PoolFeed

open SovereignShadow.Ports.Models
open SovereignShadow.Ports.Mirror
open SovereignShadow.Ports.MirrorSync

/-! ## Factories -/

def baseAerodromeFactory : Address := 0x420DD381b31aEf6683db6B902084c0BAc2D1b5d5
def baseSushiswapFactory : Address := 0x71524B9573c8d199127E09e2108269128355eeA0
def basePancakeswapFactory : Address := 0x0BFbCF9fa4f9C56B0F40a671Ad40E0805A091865
def baseBaseswapFactory : Address := 0xFDa619b6d20975be8074d3315450bbBA58456B12
def baseMaverickFactory : Address := 0x3708D64936496924f2b1853B0287515089304386

/-- The inserts of `setup_factories`, in order; a later one replaces an earlier one. -/
def factories : List (Address × DexName) :=
  [(baseAerodromeFactory, .aerodrome),
   (baseBaseswapFactory, .baseSwap),
   (basePancakeswapFactory, .pancakeSwap),
   (baseSushiswapFactory, .sushiSwap),
   (baseMaverickFactory, .maverick),
   (0x33128a8fC170d56ED8068699e168a9A301C035De, .uniswapV3),
   (0x04C9F118A4864700721A163744021d21DB27c11f, .uniswapV2),
   (0x3D2d7681335A74Be482D207137f814bA688849E8, .uniswapV2),
   (baseBaseswapFactory, .uniswapV3),
   (baseMaverickFactory, .maverick)]

/-- `setup_factories`. -/
def factoryMap : Address → Option DexName :=
  factories.foldl (fun map entry => Function.update map entry.1 (some entry.2)) fun _ => none

/-! ## Parsing -/

def eventV2PairCreated : B256 :=
  0x0d3648bd0f6ba80134a33ba9275ac585d9d315f0ad835062d573067ad61d5733
def eventAeroPoolCreated : B256 :=
  0x212847ad1f2f1ad0d76077f4a7f5f3e728cc2ac818eb64fed8004e115fbcca67
def eventV3PoolCreated : B256 :=
  0x783cca1c0412dd0d695e784568c96da2e9c22ffc959087dddeaf319803d01584

structure Log where
  address : Address
  topics : List B256
  data : List UInt8

structure V2PoolData where
  pair : Address
  token0 : Address
  token1 : Address
  dexName : DexName
  deriving DecidableEq, Repr

structure V3PoolData where
  pool : Address
  token0 : Address
  token1 : Address
  fee : Nat
  dexName : DexName
  deriving DecidableEq, Repr

inductive NewPoolEvent where
  | v2 (data : V2PoolData)
  | v3 (data : V3PoolData)
  deriving DecidableEq, Repr

/-- `Address::from_word`: the low 20 bytes. -/
def addressFromWord (word : B256) : Address := word.setWidth 160

/-- `data.get(start..start + 20)` and `Address::from_slice`. -/
def addressFromSlice (data : List UInt8) (start : Nat) : Option Address :=
  if start + 20 ≤ data.length then
    some (BitVec.ofNat 160 (Verified.Bytes.readBE (Verified.Bytes.ofList data) start 20))
  else none

/-- `parse_factory_log`. -/
def parseFactoryLog (map : Address → Option DexName) (log : Log) : Option NewPoolEvent :=
  match log.topics with
  | [] => none
  | topic0 :: indexed =>
      match map log.address with
      | none => none
      | some dexName =>
          if topic0 = eventV2PairCreated then
            match indexed with
            | token0 :: token1 :: _ =>
                (addressFromSlice log.data 12).map fun pair =>
                  .v2 { pair, token0 := addressFromWord token0,
                        token1 := addressFromWord token1, dexName }
            | _ => none
          else if topic0 = eventAeroPoolCreated ∧ dexName = .aerodrome then
            match indexed with
            -- the third topic, whether the pool is stable, is read and not used
            | token0 :: token1 :: _isStable :: _ =>
                (addressFromSlice log.data 12).map fun pair =>
                  .v2 { pair, token0 := addressFromWord token0,
                        token1 := addressFromWord token1, dexName := .aerodrome }
            | _ => none
          else if topic0 = eventV3PoolCreated then
            match indexed with
            | token0 :: token1 :: fee :: _ =>
                (addressFromSlice log.data 44).map fun pool =>
                  .v3 { pool, token0 := addressFromWord token0,
                        token1 := addressFromWord token1, fee := fee.toNat % 2 ^ 24, dexName }
            | _ => none
          else none

/-! ## The feed -/

/-- The pool of an event, and the type that its entry starts with. -/
def poolAndType : NewPoolEvent → Address × DexType
  | .v2 data => (data.pair, if data.dexName = .aerodrome then .aerodrome else .uniswapV2)
  | .v3 data => (data.pool, .uniswapV3)

/-- `or_insert` of the feed. -/
def feedInsert (pools : PoolTable) (event : NewPoolEvent) : PoolTable :=
  let pool := poolAndType event
  Function.update pools pool.1 (some ((pools pool.1).getD (blankState 0 pool.2)))

/-- `update_aerodrome_stable`; a pool that is not mirrored stays so. -/
def updateAerodromeStable (pools : PoolTable) (currentBlock : Nat) (pool : Address)
    (isStable : Bool) : PoolTable :=
  Function.update pools pool <| (pools pool).map fun p =>
    { p with isStable, dexType := .aerodrome, lastUpdatedBlock := currentBlock }

/-- The feed's last step. -/
def feedMark (pools : PoolTable) (currentBlock : Nat) : NewPoolEvent → PoolTable
  | .v2 data =>
      if data.dexName = .aerodrome then
        updateAerodromeStable pools currentBlock data.pair true
      else pools
  | .v3 _ => pools

/-- A write of the table by another task. -/
inductive Write where
  /-- `batch_update_reserves` with what one multicall returned. -/
  | batch (decoders : Decoders) (currentBlock : Nat) (chunk : List (Address × DexType))
      (results : List MulticallResult)
  /-- A removal, by the liquidity filter or by `prune_stale_pools`. -/
  | remove (pool : Address)
  | v2Reserves (currentBlock : Nat) (pool : Address) (r0 r1 : U256)
  | v3State (currentBlock : Nat) (pool : Address) (sqrtPrice : U256) (tick : Int)
      (liquidity : U256)

def Write.apply (pools : PoolTable) : Write → PoolTable
  | .batch decoders currentBlock chunk results =>
      batchUpdateReserves pools
        (appliedDecisions chunk (decideChunk decoders currentBlock chunk results)).1
  | .remove pool => removePool pools pool
  | .v2Reserves currentBlock pool r0 r1 => updateV2Reserves pools currentBlock pool r0 r1
  | .v3State currentBlock pool sqrtPrice tick liquidity =>
      updateV3State pools currentBlock pool sqrtPrice tick liquidity

/-- The table when the feed marks the pool: after the insert, and what the other tasks write
while the queue takes the pool. -/
def whenMarked (pools : PoolTable) (event : NewPoolEvent) (others : List Write) : PoolTable :=
  others.foldl Write.apply (feedInsert pools event)

/-- The table after the feed has handled an event. -/
def handlePool (pools : PoolTable) (event : NewPoolEvent) (others : List Write)
    (currentBlock : Nat) : PoolTable :=
  feedMark (whenMarked pools event others) currentBlock event

/-! ## Later batches -/

/-- The same type and stable flag. -/
def SameKind (e e' : MirrorEntry) : Prop := e'.dexType = e.dexType ∧ e'.isStable = e.isStable

theorem mergeEntry_sameKind {existing state : MirrorEntry} (hState : state.isStable = false) :
    SameKind existing (mergeEntry existing state) := by
  unfold mergeEntry
  rw [hState, if_neg (by decide)]
  dsimp only
  split
  · exact ⟨rfl, rfl⟩
  · exact ⟨rfl, rfl⟩

/-- A batch without stable entries keeps the kind of every entry. -/
theorem batchUpdateReserves_sameKind {updates : List (Address × MirrorEntry)}
    (hUpdates : ∀ update ∈ updates, update.2.isStable = false) {pools : PoolTable}
    {pool : Address} {e : MirrorEntry} (hEntry : pools pool = some e) :
    ∃ e', batchUpdateReserves pools updates pool = some e' ∧ SameKind e e' := by
  induction updates generalizing pools e with
  | nil => exact ⟨e, hEntry, rfl, rfl⟩
  | cons update rest ih =>
      rw [List.forall_mem_cons] at hUpdates
      have hStep : ∃ e', updateEntry pools update pool = some e' ∧ SameKind e e' := by
        by_cases hPool : pool = update.1
        · subst hPool
          refine ⟨mergeEntry e update.2, ?_, mergeEntry_sameKind hUpdates.1⟩
          rw [updateEntry, Function.update_self, hEntry]
        · refine ⟨e, ?_, rfl, rfl⟩
          rw [updateEntry, Function.update_of_ne hPool]
          exact hEntry
      obtain ⟨e', hNext, hSame⟩ := hStep
      obtain ⟨e'', hLast, hSame'⟩ := ih hUpdates.2 hNext
      exact ⟨e'', hLast, hSame'.1.trans hSame.1, hSame'.2.trans hSame.2⟩

/-- What one multicall returned: the decoders, the block, the chunk and the results. -/
abbrev Returned := Decoders × Nat × List (Address × DexType) × List MulticallResult

/-- The table after the batches of these multicalls. -/
def afterBatches (pools : PoolTable) (batches : List Returned) : PoolTable :=
  batches.foldl (fun pools b => Write.apply pools (.batch b.1 b.2.1 b.2.2.1 b.2.2.2)) pools

/-- **Batches keep the kind.** -/
theorem batches_keep (batches : List Returned) {pools : PoolTable} {pool : Address}
    {e : MirrorEntry} (hEntry : pools pool = some e) :
    ∃ e', afterBatches pools batches pool = some e' ∧ SameKind e e' := by
  induction batches generalizing pools e with
  | nil => exact ⟨e, hEntry, rfl, rfl⟩
  | cons batch rest ih =>
      obtain ⟨e', hNext, hSame⟩ := batchUpdateReserves_sameKind
        (fun update hUpdate => (updates_blank hUpdate).2) hEntry
      obtain ⟨e'', hLast, hSame'⟩ := ih hNext
      exact ⟨e'', hLast, hSame'.1.trans hSame.1, hSame'.2.trans hSame.2⟩

/-! ## The kind of pool -/

/-- The third indexed topic: zero for a volatile pool. -/
def stableTopic (log : Log) : B256 := log.topics.getD 3 0

/-- The mirror has the log's kind of pool, and batches of multicall results keep it. -/
def Carried (log : Log) (pool : Address) (pools : PoolTable) : Prop :=
  ∃ e, pools pool = some e ∧ e.dexType = .aerodrome ∧
    (e.isStable = true ↔ stableTopic log ≠ 0) ∧
    ∀ batches, ∃ e', afterBatches pools batches pool = some e' ∧ SameKind e e'

theorem factoryMap_aerodrome : factoryMap baseAerodromeFactory = some .aerodrome := by decide

/-- A pool log of the Aerodrome factory becomes an Aerodrome event. -/
theorem parseFactoryLog_aerodrome {log : Log} {event : NewPoolEvent}
    (hFactory : log.address = baseAerodromeFactory)
    (hTopic : log.topics.head? = some eventAeroPoolCreated)
    (hParsed : parseFactoryLog factoryMap log = some event) :
    ∃ data, event = .v2 data ∧ data.dexName = .aerodrome ∧
      addressFromSlice log.data 12 = some data.pair := by
  unfold parseFactoryLog at hParsed
  cases hTopics : log.topics with
  | nil => simp [hTopics] at hTopic
  | cons topic0 indexed =>
      rw [hTopics, List.head?_cons] at hTopic
      obtain rfl := Option.some.inj hTopic
      rw [hTopics, hFactory, factoryMap_aerodrome] at hParsed
      dsimp only at hParsed
      rw [if_neg (by decide), if_pos ⟨rfl, rfl⟩] at hParsed
      split at hParsed
      · obtain ⟨pair, hPair, rfl⟩ := Option.map_eq_some_iff.mp hParsed
        exact ⟨_, rfl, rfl, hPair⟩
      · exact absurd hParsed (by simp)

/-- **The exact condition.**  The mirror carries the log's kind of pool if and only if the
log is of a stable pool and no other task has removed the entry by the time it is marked. -/
theorem carried_iff (log : Log) (event : NewPoolEvent) (pools : PoolTable)
    (others : List Write) (currentBlock : Nat)
    (hFactory : log.address = baseAerodromeFactory)
    (hTopic : log.topics.head? = some eventAeroPoolCreated)
    (hParsed : parseFactoryLog factoryMap log = some event) :
    Carried log (poolAndType event).1 (handlePool pools event others currentBlock) ↔
      stableTopic log ≠ 0 ∧ (whenMarked pools event others (poolAndType event).1).isSome := by
  obtain ⟨data, rfl, hName, _⟩ := parseFactoryLog_aerodrome hFactory hTopic hParsed
  have hPool : (poolAndType (.v2 data)).1 = data.pair := rfl
  rw [hPool]
  generalize hWhen : whenMarked pools (.v2 data) others = marked
  have hHandled : handlePool pools (.v2 data) others currentBlock =
      updateAerodromeStable marked currentBlock data.pair true := by
    rw [handlePool, hWhen, feedMark, if_pos hName]
  have hEntry : updateAerodromeStable marked currentBlock data.pair true data.pair =
      (marked data.pair).map fun p =>
        { p with isStable := true, dexType := .aerodrome, lastUpdatedBlock := currentBlock } :=
    Function.update_self _ _ _
  rw [hHandled]
  constructor
  · intro ⟨e, hAfter, _, hStable, _⟩
    rw [hEntry] at hAfter
    obtain ⟨p, hMarked, rfl⟩ := Option.map_eq_some_iff.mp hAfter
    exact ⟨hStable.mp rfl, hMarked ▸ rfl⟩
  · intro ⟨hStable, hSome⟩
    obtain ⟨p, hMarked⟩ := Option.isSome_iff_exists.mp hSome
    rw [hMarked] at hEntry
    refine ⟨_, hEntry, rfl, ⟨fun _ => hStable, fun _ => rfl⟩, ?_⟩
    intro batches
    exact batches_keep batches hEntry

/-- The log of a pool 0xC5 of tokens 0xA and 0xB. -/
def samplePoolLog (stable : B256) : Log where
  address := baseAerodromeFactory
  topics := [eventAeroPoolCreated, 0xA, 0xB, stable]
  data := List.replicate 31 0 ++ 0xC5 :: List.replicate 32 0

/-- Its event. -/
def samplePool : NewPoolEvent :=
  .v2 { pair := 0xC5, token0 := 0xA, token1 := 0xB, dexName := .aerodrome }

/-- A stable pool, on an empty mirror. -/
theorem stablePool_carried :
    parseFactoryLog factoryMap (samplePoolLog 1) = some samplePool ∧
      Carried (samplePoolLog 1) 0xC5 (handlePool (fun _ => none) samplePool [] 7) := by
  have hParsed : parseFactoryLog factoryMap (samplePoolLog 1) = some samplePool := by decide
  refine ⟨hParsed, ?_⟩
  exact (carried_iff (samplePoolLog 1) samplePool (fun _ => none) [] 7 rfl rfl hParsed).mpr
    ⟨by decide, rfl⟩

/-- **The stable flag is made up.**  A volatile pool is mirrored as a stable one. -/
theorem volatilePool_stable :
    ¬ ∀ (log : Log) (event : NewPoolEvent) (pools : PoolTable),
      log.address = baseAerodromeFactory → log.topics.head? = some eventAeroPoolCreated →
        parseFactoryLog factoryMap log = some event → pools (poolAndType event).1 = none →
          Carried log (poolAndType event).1 (handlePool pools event [] 7) := by
  intro hAll
  obtain ⟨e, hEntry, _, hStable, _⟩ := hAll (samplePoolLog 0) samplePool (fun _ => none) rfl rfl
    (by decide) rfl
  have hMarked : e.isStable = true := by
    rw [← Option.some.inj hEntry]
  exact hStable.mp hMarked rfl

end SovereignShadow.Ports.PoolFeed
