import SovereignShadow.Ports.ArbitrageDetector
import SovereignShadow.Verified.FirstSeen

/-!
# Nerve Bridge A

The task of `main.rs` that turns the global log stream into events for the detector.  It
deduplicates by transaction, before it looks whether the log's pool is mirrored.  So a
transaction gets one event at most: for the pool of its first log, if that one is
mirrored.

## Main results

* `bridge_eq` — the bridge is a deduplication, a filter and a conversion.
* `delivers_iff` — for which streams every mirrored pool gets its trigger.
-/

namespace SovereignShadow.Ports.NerveBridge

open SovereignShadow.Verified.FirstSeen
open SovereignShadow.Ports.Models
open SovereignShadow.Ports.Detector

/-! ## The task -/

/-- The fields of a log that the bridge reads. -/
structure Log where
  address : Address
  transactionHash : Option B256
  deriving DecidableEq, Repr

/-- `transaction_hash.unwrap_or_default()`. -/
def Log.txHash (log : Log) : B256 := log.transactionHash.getD 0

/-- A log with the pools of the mirror at the moment it is handled. -/
structure Handling where
  log : Log
  pools : Finset Address

/-- `pools.contains_key(&log.address())`. -/
def Handling.Tracked (handling : Handling) : Prop := handling.log.address ∈ handling.pools

instance (handling : Handling) : Decidable handling.Tracked := by
  unfold Handling.Tracked
  infer_instance

/-- An event as it is sent, with the fields that the detector's search does not read. -/
structure SentEvent extends SwapEvent where
  txHash : B256
  effectiveGasPrice : U256
  isWhaleTrigger : Bool

/-- The event of a log. -/
def swapEvent (log : Log) : SentEvent where
  sender := 0
  swapInfo := { (default : SwapInfo) with dex := .uniswapV2, router := log.address }
  mempoolTx := none
  txHash := log.txHash
  effectiveGasPrice := 0
  isWhaleTrigger := false

/-- The loop of the bridge: the events sent, from the hashes already seen. -/
def bridge : Finset B256 → List Handling → List SentEvent
  | _, [] => []
  | seenHashes, handling :: rest =>
      let txHash := handling.log.txHash
      -- `insert` answers whether the hash was new, and stores it before the filter
      if txHash ∈ seenHashes then bridge seenHashes rest
      else if handling.Tracked then
        swapEvent handling.log :: bridge (insert txHash seenHashes) rest
      else bridge (insert txHash seenHashes) rest

/-! ## What is sent -/

/-- The deduplication key. -/
def Handling.key (handling : Handling) : B256 := handling.log.txHash

theorem bridge_eq (seenHashes : Finset B256) (stream : List Handling) :
    bridge seenHashes stream =
      ((firstSeen Handling.key seenHashes stream).filter fun h => h.Tracked).map
        fun h => swapEvent h.log := by
  induction stream generalizing seenHashes with
  | nil => rfl
  | cons handling rest ih =>
      rw [bridge, firstSeen]
      by_cases hSeen : handling.log.txHash ∈ seenHashes
      · rw [if_pos hSeen, if_pos (show handling.key ∈ seenHashes from hSeen)]
        exact ih seenHashes
      · rw [if_neg hSeen, if_neg (show handling.key ∉ seenHashes from hSeen)]
        by_cases hTracked : handling.Tracked
        · rw [if_pos hTracked, ih, List.filter_cons_of_pos (by simpa using hTracked)]
          rfl
        · rw [if_neg hTracked, ih, List.filter_cons_of_neg (by simpa using hTracked)]
          rfl

/-- A trigger for the log's pool and transaction. -/
def TriggerFor (log : Log) (event : SentEvent) : Prop :=
  event.swapInfo.router = log.address ∧ event.txHash = log.txHash

/-- Every log of a mirrored pool has its trigger. -/
def Delivers (stream : List Handling) : Prop :=
  ∀ handling ∈ stream, handling.Tracked →
    ∃ event ∈ bridge ∅ stream, TriggerFor handling.log event

/-- The first log with the same hash, transactions without one taken together, is of the same
pool, which was mirrored already. -/
def FirstStandsFor (stream : List Handling) (handling : Handling) : Prop :=
  ∀ first, firstWith Handling.key handling.key stream = some first →
    first.log.address = handling.log.address ∧ first.Tracked

theorem mem_bridge_iff {stream : List Handling} {event : SentEvent} :
    event ∈ bridge ∅ stream ↔
      ∃ first, firstWith Handling.key first.key stream = some first ∧ first.Tracked ∧
        swapEvent first.log = event := by
  rw [bridge_eq, List.mem_map]
  apply exists_congr
  intro first
  rw [List.mem_filter, mem_firstSeen_iff, decide_eq_true_eq, and_assoc, and_assoc]
  constructor
  · intro h
    exact h.2
  · intro h
    exact ⟨Finset.notMem_empty _, h⟩

/-- **The exact condition.**  No trigger is lost if and only if every log of a mirrored pool
is stood for by the first log of its transaction. -/
theorem delivers_iff (stream : List Handling) :
    Delivers stream ↔
      ∀ handling ∈ stream, handling.Tracked → FirstStandsFor stream handling := by
  constructor
  · intro hDelivers handling hMem hTracked first hFirst
    obtain ⟨event, hEvent, hRouter, hHash⟩ := hDelivers handling hMem hTracked
    obtain ⟨sent, hSent, hSentTracked, rfl⟩ := mem_bridge_iff.mp hEvent
    have hKey : sent.key = handling.key := hHash
    rw [hKey, hFirst] at hSent
    obtain rfl := Option.some.inj hSent
    exact ⟨hRouter, hSentTracked⟩
  · intro hFirsts handling hMem hTracked
    have hExists : ∃ first ∈ stream,
        firstWith Handling.key handling.key stream = some first := exists_firstWith hMem
    obtain ⟨first, _, hFirst⟩ := hExists
    obtain ⟨hAddress, hFirstTracked⟩ := hFirsts handling hMem hTracked first hFirst
    have hKey := key_of_firstWith hFirst
    refine ⟨swapEvent first.log, mem_bridge_iff.mpr ⟨first, ?_, hFirstTracked, rfl⟩,
      hAddress, hKey⟩
    rw [hKey]
    exact hFirst

/-- One transaction through an unmirrored pool and then a mirrored one. -/
def routedSwap : List Handling :=
  [{ log := { address := 0xA, transactionHash := some 0x1 }, pools := {0xB} },
   { log := { address := 0xB, transactionHash := some 0x1 }, pools := {0xB} }]

/-- The first log uses up the transaction, and the mirrored pool gets no trigger. -/
theorem routedSwap_not_delivered : ¬ Delivers routedSwap := by
  intro hDelivers
  have hNone : bridge ∅ routedSwap = [] := by decide
  have hMem : routedSwap.get ⟨1, by decide⟩ ∈ routedSwap := List.get_mem _ _
  obtain ⟨event, hEvent, _⟩ := hDelivers _ hMem (by decide)
  rw [hNone] at hEvent
  exact absurd hEvent (by simp)

end SovereignShadow.Ports.NerveBridge
