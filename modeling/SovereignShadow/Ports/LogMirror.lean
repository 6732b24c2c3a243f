import SovereignShadow.Ports.PoolFeed
import SovereignShadow.Ports.MathEngine
import SovereignShadow.Ports.MirrorSync
import SovereignShadow.Verified.Abi

/-!
# Logs into the mirror

Port of `update_mirror_state` of `mempool_listener.rs` and `decode_v3_swap_log` of `v3_math.rs`,
with the block step of the heartbeat.  A `Sync` of a pair and a `Swap` of a V3 pool write their
values over the entry of the emitting pool; any other log, or one of a pool that is not
mirrored, writes nothing.

The logs of the chain are the encodings of what the pools emit: words of 32 bytes, the tick with
its sign extended.

## Main results

* `decodeV3SwapLog_encode` — the decoder reads back what a pool emitted, below zero too.
* `run_entry` — the entry of a pool after any logs and blocks, from that pool's logs alone.
-/

namespace SovereignShadow.Ports.LogMirror

open SovereignShadow.Verified.Bytes
open SovereignShadow.Verified.Abi
open SovereignShadow.Ports.Models
open SovereignShadow.Ports.Mirror
open SovereignShadow.Ports.MathEngine (wordAt)
open SovereignShadow.Ports.MirrorSync
open SovereignShadow.Ports.PoolFeed

/-! ## The code -/

/-- `v2_sync_topic`. -/
def v2SyncTopic : B256 := 0x1c411e9a96e071241c2f21f7726b17ae89e3cab4c78be50e062b03a9fffbbad1

/-- `v3_swap_topic`. -/
def v3SwapTopic : B256 := 0xc42079f94a6350d7e6235f29174924f928cc2ac818eb64fed8004e115fbcca67

structure V3SwapLog where
  amount0 : I256
  amount1 : I256
  sqrtPrice : U256
  liquidity : U256
  tick : Int
  deriving DecidableEq, Repr

/-- `i32::try_from`. -/
def i32TryFrom (x : I256) : Option Int :=
  if -2 ^ 31 ≤ x.toInt ∧ x.toInt < 2 ^ 31 then some x.toInt else none

/-- `decode_v3_swap_log`, from the data of the log. -/
def decodeV3SwapLog (data : List UInt8) : Option V3SwapLog :=
  if data.length < 160 then none
  else do
    let amount0 : I256 := wordAt data 0
    let amount1 : I256 := wordAt data 32
    let sqrtPrice := wordAt data 64
    let liquidity := wordAt data 96
    let tick ← i32TryFrom (wordAt data 128)
    some { amount0, amount1, sqrtPrice, liquidity, tick }

/-- `update_mirror_state`. -/
def updateMirrorState (log : Log) (currentBlock : Nat) (pools : PoolTable) : PoolTable :=
  match log.topics.head? with
  | none => pools
  | some topic0 =>
      if topic0 = v2SyncTopic then
        if 64 ≤ log.data.length then
          updateV2Reserves pools currentBlock log.address (wordAt log.data 0) (wordAt log.data 32)
        else pools
      else if topic0 = v3SwapTopic then
        match decodeV3SwapLog log.data with
        | none => pools
        | some state =>
            updateV3State pools currentBlock log.address state.sqrtPrice state.tick state.liquidity
      else pools

/-! ## The chain -/

/-- A tick of a pool: `int24`. -/
abbrev Tick := { tick : Int // -2 ^ 23 ≤ tick ∧ tick < 2 ^ 23 }

/-- What the contracts emit. -/
inductive Emission where
  /-- `Sync(uint112,uint112)`. -/
  | sync (pool : Address) (r0 r1 : BitVec 112)
  /-- `Swap(address,address,int256,int256,uint160,uint128,int24)`, the two indexed. -/
  | swap (pool : Address) (sender recipient : B256) (amount0 amount1 : I256)
      (sqrtPrice : BitVec 160) (liquidity : BitVec 128) (tick : Tick)
  /-- A log of another signature, or anonymous. -/
  | other (log : Log) (hSync : log.topics.head? ≠ some v2SyncTopic)
      (hSwap : log.topics.head? ≠ some v3SwapTopic)

/-- The words of a `Swap`. -/
def swapWords (amount0 amount1 : I256) (sqrtPrice : BitVec 160) (liquidity : BitVec 128)
    (tick : Tick) : List ℕ :=
  [amount0.toNat, amount1.toNat, sqrtPrice.toNat, liquidity.toNat,
    (BitVec.ofInt 256 tick.val).toNat]

/-- The log of an emission. -/
def encode : Emission → Log
  | .sync pool r0 r1 =>
      { address := pool, topics := [v2SyncTopic], data := [r0.toNat, r1.toNat].flatMap wordBytes }
  | .swap pool sender recipient amount0 amount1 sqrtPrice liquidity tick =>
      { address := pool
        topics := [v3SwapTopic, sender, recipient]
        data := (swapWords amount0 amount1 sqrtPrice liquidity tick).flatMap wordBytes }
  | .other log _ _ => log

/-! ## Decoding -/

/-- The word at an index. -/
theorem wordAt_flatMap (pre : List ℕ) {x : ℕ} (post : List ℕ) (hx : x < 2 ^ 256) :
    wordAt ((pre ++ x :: post).flatMap wordBytes) (32 * pre.length) = BitVec.ofNat 256 x := by
  have hHeld := holds_ofList (pre.flatMap wordBytes) (wordBytes x) (post.flatMap wordBytes)
  rw [flatMap_wordBytes_length] at hHeld
  rw [List.flatMap_append, List.flatMap_cons, ← List.append_assoc, wordAt,
    readBE_wordBytes hHeld hx]

theorem wide {w : ℕ} (x : BitVec w) (hw : w ≤ 256) : x.toNat < 2 ^ 256 :=
  x.isLt.trans_le (Nat.pow_le_pow_right Nat.two_pos hw)

theorem ofNat_toNat_eq_setWidth {w : ℕ} (x : BitVec w) :
    BitVec.ofNat 256 x.toNat = x.setWidth 256 := by
  rw [BitVec.ofNat_toNat]

/-- A tick is its own sign extension. -/
theorem i32TryFrom_tick (tick : Tick) :
    i32TryFrom (BitVec.ofInt 256 tick.val) = some tick.val := by
  obtain ⟨hLow, hHigh⟩ := tick.property
  have hValue : (BitVec.ofInt 256 tick.val).toInt = tick.val := by
    rw [BitVec.toInt_ofInt]
    exact Int.bmod_eq_of_le (by omega) (by omega)
  rw [i32TryFrom, hValue, if_pos (by omega)]

/-- **The decoder** reads back what a pool emitted. -/
theorem decodeV3SwapLog_encode (amount0 amount1 : I256) (sqrtPrice : BitVec 160)
    (liquidity : BitVec 128) (tick : Tick) :
    decodeV3SwapLog ((swapWords amount0 amount1 sqrtPrice liquidity tick).flatMap wordBytes) =
      some { amount0, amount1, sqrtPrice := sqrtPrice.setWidth 256
             liquidity := liquidity.setWidth 256, tick := tick.val } := by
  have h0 := wordAt_flatMap [] [amount1.toNat, sqrtPrice.toNat, liquidity.toNat,
    (BitVec.ofInt 256 tick.val).toNat] (wide amount0 le_rfl)
  have h1 := wordAt_flatMap [amount0.toNat] [sqrtPrice.toNat, liquidity.toNat,
    (BitVec.ofInt 256 tick.val).toNat] (wide amount1 le_rfl)
  have h2 := wordAt_flatMap [amount0.toNat, amount1.toNat] [liquidity.toNat,
    (BitVec.ofInt 256 tick.val).toNat] (wide sqrtPrice (by norm_num))
  have h3 := wordAt_flatMap [amount0.toNat, amount1.toNat, sqrtPrice.toNat]
    [(BitVec.ofInt 256 tick.val).toNat] (wide liquidity (by norm_num))
  have h4 := wordAt_flatMap [amount0.toNat, amount1.toNat, sqrtPrice.toNat, liquidity.toNat] []
    (wide (BitVec.ofInt 256 tick.val) le_rfl)
  have hLength : ¬ ((swapWords amount0 amount1 sqrtPrice liquidity tick).flatMap
      wordBytes).length < 160 := by
    rw [flatMap_wordBytes_length]
    exact Nat.lt_irrefl 160
  rw [ofNat_toNat_eq_setWidth] at h0 h1 h2 h3 h4
  rw [BitVec.setWidth_eq] at h0 h1 h4
  generalize hData : (swapWords amount0 amount1 sqrtPrice liquidity tick).flatMap wordBytes = data
    at hLength
  have hAmount0 : wordAt data 0 = amount0 := hData ▸ h0
  have hAmount1 : wordAt data 32 = amount1 := hData ▸ h1
  have hSqrtPrice : wordAt data 64 = sqrtPrice.setWidth 256 := hData ▸ h2
  have hLiquidity : wordAt data 96 = liquidity.setWidth 256 := hData ▸ h3
  have hTick : wordAt data 128 = BitVec.ofInt 256 tick.val := hData ▸ h4
  rw [decodeV3SwapLog, if_neg hLength, hAmount0, hAmount1, hSqrtPrice, hLiquidity, hTick,
    i32TryFrom_tick]
  rfl

/-! ## Runs -/

/-- What one task or another of the listeners handles: a log, or a block. -/
inductive Event where
  | emission (emission : Emission)
  | block (number : Nat)

structure Mirror where
  pools : PoolTable
  currentBlock : Nat

def next (s : Mirror) : Event → Mirror
  | .emission emission =>
      { s with pools := updateMirrorState (encode emission) s.currentBlock s.pools }
  | .block number => { s with currentBlock := number }

def run (s : Mirror) (feed : List Event) : Mirror := feed.foldl next s

/-! ## Observations -/

/-- What a pool said of itself. -/
inductive Said where
  | reserves (r0 r1 : U256)
  | price (sqrtPrice : U256) (tick : Int) (liquidity : U256)
  deriving DecidableEq, Repr

/-- The pool that emitted, and what it said. -/
def said : Emission → Option (Address × Said)
  | .sync pool r0 r1 => some (pool, .reserves (r0.setWidth 256) (r1.setWidth 256))
  | .swap pool _ _ _ _ sqrtPrice liquidity tick =>
      some (pool, .price (sqrtPrice.setWidth 256) tick.val (liquidity.setWidth 256))
  | .other .. => none

/-- What a pool said in a run, with the block of the time. -/
def history (pool : Address) (block : Nat) : List Event → List (Nat × Said)
  | [] => []
  | .block number :: feed => history pool number feed
  | .emission emission :: feed =>
      ((said emission).bind fun (emitter, said) =>
        if emitter = pool then some (block, said) else none).toList ++ history pool block feed

def reservesOf : Nat × Said → Option (U256 × U256)
  | (_, .reserves r0 r1) => some (r0, r1)
  | (_, .price ..) => none

def priceOf : Nat × Said → Option (U256 × Int × U256)
  | (_, .reserves ..) => none
  | (_, .price sqrtPrice tick liquidity) => some (sqrtPrice, tick, liquidity)

def blockOf (said : Nat × Said) : Option Nat := some said.1

/-- The last of the values that a history holds. -/
def lastOr {α : Type} (read : Nat × Said → Option α) (start : α) (said : List (Nat × Said)) : α :=
  ((said.filterMap read).getLast?).getD start

/-- An entry, with the last reserves, the last price and the last block that a history holds. -/
def shown (e : MirrorEntry) (said : List (Nat × Said)) : MirrorEntry :=
  let reserves := lastOr reservesOf (e.reserves0, e.reserves1) said
  let price := lastOr priceOf (e.sqrtPriceX96, e.tick, e.liquidity) said
  { e with
    reserves0 := reserves.1
    reserves1 := reserves.2
    sqrtPriceX96 := price.1
    tick := price.2.1
    liquidity := price.2.2
    lastUpdatedBlock := lastOr blockOf e.lastUpdatedBlock said }

/-- An entry after one of them. -/
def write (e : MirrorEntry) : Nat × Said → MirrorEntry
  | (block, .reserves r0 r1) =>
      { e with reserves0 := r0, reserves1 := r1, lastUpdatedBlock := block }
  | (block, .price sqrtPrice tick liquidity) =>
      { e with sqrtPriceX96 := sqrtPrice, tick, liquidity, lastUpdatedBlock := block }

section History

variable {α : Type} (read : Nat × Said → Option α)

theorem lastOr_cons_some {start value : α} {first : Nat × Said} (h : read first = some value)
    (rest : List (Nat × Said)) : lastOr read start (first :: rest) = lastOr read value rest := by
  rw [lastOr, lastOr, List.filterMap_cons_some h, List.getLast?_cons, Option.getD_some]

theorem lastOr_cons_none {start : α} {first : Nat × Said} (h : read first = none)
    (rest : List (Nat × Said)) : lastOr read start (first :: rest) = lastOr read start rest := by
  rw [lastOr, lastOr, List.filterMap_cons_none h]

end History

/-- What comes later is shown over what came first. -/
theorem shown_cons (e : MirrorEntry) (first : Nat × Said) (rest : List (Nat × Said)) :
    shown e (first :: rest) = shown (write e first) rest := by
  have hBlock : lastOr blockOf e.lastUpdatedBlock (first :: rest) = lastOr blockOf first.1 rest :=
    lastOr_cons_some blockOf rfl rest
  obtain ⟨block, ⟨r0, r1⟩ | ⟨sqrtPrice, tick, liquidity⟩⟩ := first
  · have hReserves : lastOr reservesOf (e.reserves0, e.reserves1)
        ((block, .reserves r0 r1) :: rest) = lastOr reservesOf (r0, r1) rest :=
      lastOr_cons_some reservesOf rfl rest
    have hPrice : lastOr priceOf (e.sqrtPriceX96, e.tick, e.liquidity)
        ((block, .reserves r0 r1) :: rest) = lastOr priceOf _ rest :=
      lastOr_cons_none priceOf rfl rest
    rw [shown, hReserves, hPrice, hBlock]
    rfl
  · have hReserves : lastOr reservesOf (e.reserves0, e.reserves1)
        ((block, .price sqrtPrice tick liquidity) :: rest) = lastOr reservesOf _ rest :=
      lastOr_cons_none reservesOf rfl rest
    have hPrice : lastOr priceOf (e.sqrtPriceX96, e.tick, e.liquidity)
        ((block, .price sqrtPrice tick liquidity) :: rest) =
          lastOr priceOf (sqrtPrice, tick, liquidity) rest :=
      lastOr_cons_some priceOf rfl rest
    rw [shown, hReserves, hPrice, hBlock]
    rfl

/-! ## Main result -/

/-- A log of the chain writes what its emitter said, to the emitter's entry. -/
theorem updateMirrorState_encode (emission : Emission) (block : Nat) (pools : PoolTable) :
    updateMirrorState (encode emission) block pools =
      match said emission with
      | none => pools
      | some (pool, said) =>
          Function.update pools pool ((pools pool).map (write · (block, said))) := by
  cases emission with
  | sync pool r0 r1 =>
      have h0 := wordAt_flatMap [] [r1.toNat] (wide r0 (by norm_num))
      have h1 := wordAt_flatMap [r0.toNat] [] (wide r1 (by norm_num))
      rw [ofNat_toNat_eq_setWidth] at h0 h1
      have hWord0 : wordAt ([r0.toNat, r1.toNat].flatMap wordBytes) 0 = r0.setWidth 256 := h0
      have hWord1 : wordAt ([r0.toNat, r1.toNat].flatMap wordBytes) 32 = r1.setWidth 256 := h1
      have hLength : 64 ≤ ([r0.toNat, r1.toNat].flatMap wordBytes).length := by
        exact (flatMap_wordBytes_length [r0.toNat, r1.toNat]).ge
      simp only [updateMirrorState, encode, List.head?_cons, if_pos, hLength, hWord0, hWord1]
      rfl
  | swap pool sender recipient amount0 amount1 sqrtPrice liquidity tick =>
      have hTopic : v3SwapTopic ≠ v2SyncTopic := by decide
      simp only [updateMirrorState, encode, List.head?_cons, if_neg hTopic, if_pos,
        decodeV3SwapLog_encode]
      rfl
  | other log hSync hSwap =>
      show updateMirrorState log block pools = pools
      unfold updateMirrorState
      cases hHead : log.topics.head? with
      | none => rfl
      | some topic =>
          rw [hHead] at hSync hSwap
          have hNotSync : topic ≠ v2SyncTopic := fun h => hSync (congrArg some h)
          have hNotSwap : topic ≠ v3SwapTopic := fun h => hSwap (congrArg some h)
          simp only [if_neg hNotSync, if_neg hNotSwap]

/-- **The mirror shows** of each pool the last reserves and the last price that the pool itself
emitted, under the block of its last log, in any run of logs and blocks. -/
theorem run_entry (s : Mirror) (feed : List Event) (pool : Address) :
    (run s feed).pools pool =
      (s.pools pool).map (shown · (history pool s.currentBlock feed)) := by
  induction feed generalizing s with
  | nil =>
      show s.pools pool = (s.pools pool).map id
      rw [Option.map_id, id]
  | cons event feed ih =>
      have hRun : run s (event :: feed) = run (next s event) feed := rfl
      rw [hRun, ih]
      cases event with
      | block number => rfl
      | emission emission =>
          have hPools : (next s (.emission emission)).pools = _ :=
            updateMirrorState_encode emission s.currentBlock s.pools
          have hBlock : (next s (.emission emission)).currentBlock = s.currentBlock := rfl
          rw [hPools, hBlock, history]
          cases hSaid : said emission with
          | none => rfl
          | some said =>
              obtain ⟨emitter, said⟩ := said
              rcases eq_or_ne pool emitter with rfl | hOther
              · simp only [Function.update_self, Option.bind_some, if_true, Option.toList_some,
                  List.singleton_append, Option.map_map, Function.comp_def, shown_cons]
              · simp only [Function.update_of_ne hOther, Option.bind_some, if_neg hOther.symm,
                  Option.toList_none, List.nil_append]

end SovereignShadow.Ports.LogMirror
