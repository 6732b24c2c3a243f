import SovereignShadow.Verified.Checked
import SovereignShadow.Verified.Tiling
import SovereignShadow.Ports.PoolFeed

/-!
# The warm start of the discovery

Port of `warm_start` and `parse_historical_log` of `discovery.rs`.  The loop asks for the
logs of the last 2000 blocks in ranges of 251 blocks, both ends included, and repeats a
range until a provider answers.  Its bound is strict: it ends when the next range would
start at the head.  Whether that leaves the head out depends on where the last range but
one ends.

Block numbers are words.  The replies of the providers are an argument, one for each turn;
which provider gives one does not matter here.

## Main results

* `loop_invariant` — what a turn keeps holds when the loop ends.
* `loop_tiles` — below the word's end, the fetched ranges tile what lies before the next one.
* `warmStart_ends` — eight answers end the loop.
* `loop_wraps` — near the word's end, a loop that ends has fetched an empty range.
* `warmStart_covers_iff` — for which heads the loop fetches its window once.
-/

namespace SovereignShadow.Ports.WarmStart

open SovereignShadow.Ports.Models
open SovereignShadow.Ports.PoolFeed
open SovereignShadow.Verified.Checked
open SovereignShadow.Verified.Tiling

/-! ## Historical logs -/

/-- `parse_historical_log`. -/
def parseHistoricalLog (log : Log) : Option NewPoolEvent :=
  match log.topics with
  | [] => none
  | topic0 :: indexed =>
      match indexed with
      | token0 :: token1 :: _ =>
          if topic0 = eventV2PairCreated ∧ 32 ≤ log.data.length then
            (addressFromSlice log.data 12).map fun pair =>
              .v2 { token0 := addressFromWord token0, token1 := addressFromWord token1,
                    pair, dexName := .uniswapV2 }
          else if topic0 = eventV3PoolCreated ∧ 64 ≤ log.data.length then
            (addressFromSlice log.data 44).map fun pool =>
              .v3 { pool, token0 := addressFromWord token0, token1 := addressFromWord token1,
                    fee := 0, dexName := .uniswapV3 }
          else if topic0 = eventAeroPoolCreated ∧ 32 ≤ log.data.length then
            (addressFromSlice log.data 12).map fun pair =>
              .v2 { token0 := addressFromWord token0, token1 := addressFromWord token1,
                    pair, dexName := .aerodrome }
          else none
      | _ => none

/-! ## The loop -/

def lookback : ℕ := 2000

/-- `current_block.saturating_sub(lookback)`. -/
def firstBlock (currentBlock : ℕ) : ℕ := currentBlock - lookback

/-- What the loop has done: the ranges that a provider answered, in order, and the events
sent to `pool_tx`. -/
structure Scan where
  startBlock : ℕ
  fetched : List (ℕ × ℕ)
  sent : List NewPoolEvent
  deriving DecidableEq, Repr

def Scan.start (currentBlock : ℕ) : Scan where
  startBlock := firstBlock currentBlock
  fetched := []
  sent := []

/-- A turn of the loop; `none` is an error of the provider. -/
def fetchBatch (build : Build) (currentBlock : ℕ) (s : Scan) (reply : Option (List Log)) :
    Outcome Scan := do
  let limit ← uadd build s.startBlock 250
  let endBatch := min limit currentBlock
  match reply with
  | some logs =>
      let next ← uadd build endBatch 1
      .value { startBlock := next
               fetched := s.fetched ++ [(s.startBlock, endBatch)]
               sent := s.sent ++ logs.filterMap parseHistoricalLog }
  | none => .value s

/-- The loop on the replies it gets; `none` while it waits for one more. -/
def loop (build : Build) (currentBlock : ℕ) : Scan → List (Option (List Log)) → Outcome Scan
  | s, [] => if s.startBlock < currentBlock then .none else .value s
  | s, reply :: replies =>
      if s.startBlock < currentBlock then do
        let s' ← fetchBatch build currentBlock s reply
        loop build currentBlock s' replies
      else .value s

/-- `warm_start` with the head's number. -/
def warmStart (build : Build) (currentBlock : ℕ) (replies : List (Option (List Log))) :
    Outcome Scan :=
  loop build currentBlock (.start currentBlock) replies

variable {build : Build} {currentBlock : ℕ}

/-- A turn fetches a range or leaves everything as it is. -/
theorem fetchBatch_cases {s s' : Scan} {reply : Option (List Log)}
    (h : fetchBatch build currentBlock s reply = .value s') :
    s' = s ∨ ∃ limit, uadd build s.startBlock 250 = .value limit ∧
      uadd build (min limit currentBlock) 1 = .value s'.startBlock ∧
      s'.fetched = s.fetched ++ [(s.startBlock, min limit currentBlock)] := by
  obtain ⟨limit, hLimit, h⟩ := Outcome.bind_eq_value h
  cases reply with
  | none =>
      left
      exact (Outcome.value.inj h).symm
  | some logs =>
      obtain ⟨next, hNext, h⟩ := Outcome.bind_eq_value h
      obtain rfl := Outcome.value.inj h
      exact .inr ⟨limit, hLimit, hNext, rfl⟩

/-- **Invariant rule.** -/
theorem loop_invariant {Inv : Scan → Prop}
    (hTurn : ∀ s s' reply, s.startBlock < currentBlock → Inv s →
      fetchBatch build currentBlock s reply = .value s' → Inv s')
    {s t : Scan} (hs : Inv s) {replies : List (Option (List Log))}
    (hEnd : loop build currentBlock s replies = .value t) :
    Inv t ∧ currentBlock ≤ t.startBlock := by
  induction replies generalizing s with
  | nil =>
      rw [loop] at hEnd
      split at hEnd
      case isTrue => cases hEnd
      case isFalse hStop =>
        obtain rfl := Outcome.value.inj hEnd
        exact ⟨hs, not_lt.mp hStop⟩
  | cons reply replies ih =>
      rw [loop] at hEnd
      split at hEnd
      case isTrue hGuard =>
        obtain ⟨s', hBatch, hRest⟩ := Outcome.bind_eq_value hEnd
        exact ih (hTurn s s' reply hGuard hs hBatch) hRest
      case isFalse hStop =>
        obtain rfl := Outcome.value.inj hEnd
        exact ⟨hs, not_lt.mp hStop⟩

/-! ## Below the word's end -/

/-- A range with both ends, as a half-open one. -/
def halfOpen (range : ℕ × ℕ) : ℕ × ℕ := (range.1, range.2 + 1)

/-- The blocks before the next range are tiled.  The next range starts a multiple of 251
blocks after the first one, or right after the head when the head ended a shorter range. -/
structure Advances (currentBlock : ℕ) (s : Scan) : Prop where
  tiled : Tiles (firstBlock currentBlock) (s.fetched.map halfOpen) s.startBlock
  position : (∃ k, s.startBlock = firstBlock currentBlock + 251 * k ∧
      s.startBlock ≤ currentBlock) ∨
    (s.startBlock = currentBlock + 1 ∧ ¬ 251 ∣ currentBlock - firstBlock currentBlock)

theorem firstBlock_le (currentBlock : ℕ) : firstBlock currentBlock ≤ currentBlock :=
  Nat.sub_le _ _

theorem start_eq :
    (Scan.start currentBlock).startBlock = firstBlock currentBlock + 251 * 0 := by
  rw [Nat.mul_zero, Nat.add_zero]
  rfl

theorem advances_start : Advances currentBlock (.start currentBlock) where
  tiled := tiles_nil.mpr rfl
  position := .inl ⟨0, start_eq, firstBlock_le currentBlock⟩

/-- The sums of the loop stay in the word. -/
theorem limit_lt {start k : ℕ} (hFits : currentBlock + 7 < 2 ^ 64)
    (hStart : start = firstBlock currentBlock + 251 * k) (hGuard : start < currentBlock) :
    start + 250 < 2 ^ 64 := by
  unfold firstBlock lookback at hStart
  omega

theorem Advances.fetch {s : Scan} (h : Advances currentBlock s)
    (hGuard : s.startBlock < currentBlock) (hFits : currentBlock + 7 < 2 ^ 64) {s' : Scan}
    {reply : Option (List Log)} (hTurn : fetchBatch build currentBlock s reply = .value s') :
    Advances currentBlock s' := by
  rcases fetchBatch_cases hTurn with rfl | ⟨limit, hLimit, hNext, hFetched⟩
  · exact h
  rcases h.position with ⟨k, hStart, -⟩ | ⟨hStart, -⟩
  · rw [uadd_of_lt build (limit_lt hFits hStart hGuard)] at hLimit
    obtain rfl := Outcome.value.inj hLimit
    have hBelow : min (s.startBlock + 250) currentBlock + 1 < 2 ^ 64 := by omega
    rw [uadd_of_lt build hBelow] at hNext
    have hNext := Outcome.value.inj hNext
    constructor
    · rw [hFetched, List.map_append, ← hNext]
      apply h.tiled.snoc
      omega
    · rcases Nat.lt_or_ge (s.startBlock + 250) currentBlock with hInner | hLast
      · left
        rw [Nat.min_eq_left hInner.le] at hNext
        exact ⟨k + 1, by omega, by omega⟩
      · right
        rw [Nat.min_eq_right hLast] at hNext
        exact ⟨hNext.symm, by omega⟩
  · omega

theorem loop_tiles (hFits : currentBlock + 7 < 2 ^ 64) {replies : List (Option (List Log))}
    {t : Scan} (hEnd : warmStart build currentBlock replies = .value t) :
    Advances currentBlock t ∧ currentBlock ≤ t.startBlock :=
  loop_invariant (fun _ _ _ hGuard hs hTurn => hs.fetch hGuard hFits hTurn) advances_start hEnd

/-- An answered turn moves on by a whole range or up to the head. -/
theorem Advances.fetchBatch_some (build : Build) {s : Scan} (h : Advances currentBlock s)
    (hGuard : s.startBlock < currentBlock) (hFits : currentBlock + 7 < 2 ^ 64)
    (logs : List Log) : ∃ s', fetchBatch build currentBlock s (some logs) = .value s' ∧
      min (s.startBlock + 251) (currentBlock + 1) ≤ s'.startBlock := by
  rcases h.position with ⟨k, hStart, -⟩ | ⟨hPast, -⟩
  · have hBelow : min (s.startBlock + 250) currentBlock + 1 < 2 ^ 64 := by omega
    rw [fetchBatch, uadd_of_lt build (limit_lt hFits hStart hGuard), Outcome.value_bind]
    dsimp only
    rw [uadd_of_lt build hBelow, Outcome.value_bind]
    refine ⟨_, rfl, ?_⟩
    show min (s.startBlock + 251) (currentBlock + 1) ≤ min (s.startBlock + 250) currentBlock + 1
    omega
  · omega

theorem fetchBatch_none {s : Scan} (h : Advances currentBlock s)
    (hGuard : s.startBlock < currentBlock) (hFits : currentBlock + 7 < 2 ^ 64) :
    fetchBatch build currentBlock s none = .value s := by
  rcases h.position with ⟨k, hStart, -⟩ | ⟨hPast, -⟩
  · rw [fetchBatch, uadd_of_lt build (limit_lt hFits hStart hGuard), Outcome.value_bind]
  · omega

/-- Enough answers end the loop, whatever the failures between them. -/
theorem loop_ends (hFits : currentBlock + 7 < 2 ^ 64) {s : Scan} (hs : Advances currentBlock s)
    {replies : List (Option (List Log))}
    (hEnough : currentBlock ≤ s.startBlock + 251 * replies.countP Option.isSome) :
    ∃ t, loop build currentBlock s replies = .value t := by
  induction replies generalizing s with
  | nil =>
      have hStop : ¬ s.startBlock < currentBlock := not_lt.mpr hEnough
      exact ⟨s, by rw [loop, if_neg hStop]⟩
  | cons reply replies ih =>
      rw [loop]
      split
      case isFalse => exact ⟨s, rfl⟩
      case isTrue hGuard =>
        cases reply with
        | none =>
            rw [fetchBatch_none hs hGuard hFits, Outcome.value_bind]
            exact ih hs (by simpa using hEnough)
        | some logs =>
            obtain ⟨s', hTurn, hMoved⟩ := hs.fetchBatch_some build hGuard hFits logs
            rw [hTurn, Outcome.value_bind]
            refine ih (hs.fetch hGuard hFits hTurn) ?_
            rw [List.countP_cons_of_pos rfl] at hEnough
            omega

/-- Eight answers are enough for every head. -/
theorem warmStart_ends (hFits : currentBlock + 7 < 2 ^ 64) {replies : List (Option (List Log))}
    (hEnough : 8 ≤ replies.countP Option.isSome) :
    ∃ t, warmStart build currentBlock replies = .value t := by
  refine loop_ends hFits advances_start ?_
  rw [start_eq]
  unfold firstBlock lookback
  omega

/-! ## At the word's end -/

/-- The ranges before the sum that wraps, or an empty range behind it. -/
def WrapsAhead (currentBlock : ℕ) (s : Scan) : Prop :=
  (∃ k ≤ 7, s.startBlock = firstBlock currentBlock + 251 * k) ∨ ∃ r ∈ s.fetched, r.2 < r.1

theorem WrapsAhead.fetch {s : Scan} (h : WrapsAhead currentBlock s)
    (hWord : currentBlock < 2 ^ 64) (hWraps : 2 ^ 64 ≤ currentBlock + 7) {s' : Scan}
    {reply : Option (List Log)} (hTurn : fetchBatch build currentBlock s reply = .value s') :
    WrapsAhead currentBlock s' := by
  rcases fetchBatch_cases hTurn with rfl | ⟨limit, hLimit, hNext, hFetched⟩
  · exact h
  rcases h with ⟨k, hk, hStart⟩ | ⟨r, hr, hEmpty⟩
  · unfold firstBlock lookback at hStart
    rcases Nat.lt_or_ge k 7 with hInner | hLast
    · have hSum : s.startBlock + 250 < 2 ^ 64 := by omega
      have hBelow : min (s.startBlock + 250) currentBlock + 1 < 2 ^ 64 := by omega
      rw [uadd_of_lt build hSum] at hLimit
      obtain rfl := Outcome.value.inj hLimit
      rw [uadd_of_lt build hBelow] at hNext
      have hNext := Outcome.value.inj hNext
      left
      refine ⟨k + 1, hInner, ?_⟩
      unfold firstBlock lookback
      omega
    · -- the eighth sum leaves the word
      right
      have hOver : ¬ s.startBlock + 250 < 2 ^ 64 := by omega
      have hSmall : (s.startBlock + 250) % 2 ^ 64 < s.startBlock := by omega
      unfold uadd word at hLimit
      rw [if_neg hOver] at hLimit
      cases build with
      | debug => cases hLimit
      | release =>
          obtain rfl := Outcome.value.inj hLimit
          refine ⟨(s.startBlock, min ((s.startBlock + 250) % M) currentBlock), ?_, ?_⟩
          · rw [hFetched]
            exact List.mem_append_right _ (List.mem_singleton.mpr rfl)
          · exact (Nat.min_le_left _ currentBlock).trans_lt hSmall
  · right
    rw [hFetched]
    exact ⟨r, List.mem_append_left _ hr, hEmpty⟩

theorem loop_wraps (hWord : currentBlock < 2 ^ 64) (hWraps : 2 ^ 64 ≤ currentBlock + 7)
    {replies : List (Option (List Log))} {t : Scan}
    (hEnd : warmStart build currentBlock replies = .value t) : ∃ r ∈ t.fetched, r.2 < r.1 := by
  have hStart : WrapsAhead currentBlock (.start currentBlock) := .inl ⟨0, by omega, start_eq⟩
  obtain ⟨hWrapped, hStop⟩ :=
    loop_invariant (fun _ _ _ _ hs hTurn => hs.fetch hWord hWraps hTurn) hStart hEnd
  rcases hWrapped with ⟨k, hk, hPosition⟩ | hEmpty
  · unfold firstBlock lookback at hPosition
    omega
  · exact hEmpty

/-! ## The window -/

/-- The number of fetched ranges that a block lies in. -/
def fetchedTimes (s : Scan) (block : ℕ) : ℕ :=
  s.fetched.countP fun range => range.1 ≤ block ∧ block ≤ range.2

/-- Every block of the window was fetched once, and no range is empty or leaves it. -/
structure Covers (currentBlock : ℕ) (s : Scan) : Prop where
  once : ∀ block, firstBlock currentBlock ≤ block → block ≤ currentBlock →
    fetchedTimes s block = 1
  inside : ∀ range ∈ s.fetched, range.1 ≤ range.2 ∧ firstBlock currentBlock ≤ range.1 ∧
    range.2 ≤ currentBlock

theorem fetchedTimes_eq_count (s : Scan) (block : ℕ) :
    fetchedTimes s block = count (s.fetched.map halfOpen) block := by
  rw [fetchedTimes, count, List.countP_map]
  congr 1
  funext range
  simp only [Function.comp_apply, Contains, halfOpen, Nat.lt_succ_iff]

/-- A tiling up to the head's successor covers the window, one up to the head does not. -/
theorem Advances.covers_iff {t : Scan} (h : Advances currentBlock t) :
    Covers currentBlock t ↔ t.startBlock = currentBlock + 1 := by
  constructor
  · intro hCovers
    by_contra hHead
    have hEnd : t.startBlock ≤ currentBlock := by
      rcases h.position with ⟨k, -, hLe⟩ | ⟨hPast, -⟩
      · exact hLe
      · exact absurd hPast hHead
    have hOnce := hCovers.once currentBlock (firstBlock_le currentBlock) le_rfl
    rw [fetchedTimes_eq_count, h.tiled.count_eq_zero hEnd] at hOnce
    exact absurd hOnce (by decide)
  · intro hPast
    have hTiled := h.tiled
    rw [hPast] at hTiled
    constructor
    · intro block hLow hHigh
      rw [fetchedTimes_eq_count]
      exact hTiled.count_eq_one hLow (Nat.lt_succ_of_le hHigh)
    · intro range hRange
      have hWithin := hTiled.within (List.mem_map_of_mem hRange)
      simp only [halfOpen] at hWithin
      omega

/-- The head ends a shorter range unless the window before it is a multiple of 251 long. -/
theorem Advances.past_head_iff {t : Scan} (h : Advances currentBlock t)
    (hStop : currentBlock ≤ t.startBlock) :
    t.startBlock = currentBlock + 1 ↔ ¬ 251 ∣ currentBlock - firstBlock currentBlock := by
  rcases h.position with ⟨k, hStart, hLe⟩ | ⟨hPast, hDvd⟩
  · have hHead : t.startBlock = currentBlock := le_antisymm hLe hStop
    have hMultiple : 251 ∣ currentBlock - firstBlock currentBlock := ⟨k, by omega⟩
    constructor
    · intro hPast
      omega
    · intro hDvd
      exact absurd hMultiple hDvd
  · exact iff_of_true hPast hDvd

/-- **The window.**  A warm start that ends has fetched every block of its window once, in
non-empty ranges inside it, if and only if the head is not within seven blocks of the word's
end and is not a multiple of 251 below 2000. -/
theorem warmStart_covers_iff (build : Build) (currentBlock : ℕ) (hWord : currentBlock < 2 ^ 64)
    (replies : List (Option (List Log))) (t : Scan)
    (hEnd : warmStart build currentBlock replies = .value t) :
    Covers currentBlock t ↔
      currentBlock + 7 < 2 ^ 64 ∧ (2000 ≤ currentBlock ∨ ¬ 251 ∣ currentBlock) := by
  rcases Nat.lt_or_ge (currentBlock + 7) (2 ^ 64) with hFits | hWraps
  · obtain ⟨hAdvances, hStop⟩ := loop_tiles hFits hEnd
    rw [hAdvances.covers_iff, hAdvances.past_head_iff hStop]
    unfold firstBlock lookback
    omega
  · have hEmpty := loop_wraps hWord hWraps hEnd
    constructor
    · intro hCovers
      obtain ⟨range, hRange, hLt⟩ := hEmpty
      have hInside := (hCovers.inside range hRange).1
      omega
    · intro hCondition
      omega

/-- Two ranges, the first one at the second try. -/
theorem warmStart_covers_iff_example :
    252 < 2 ^ 64 ∧ ∃ t, warmStart .debug 252 [none, some [], some []] = .value t ∧
      Covers 252 t := by
  have hEnd : warmStart .debug 252 [none, some [], some []] =
      .value ⟨253, [(0, 250), (251, 252)], []⟩ := by
    decide +kernel
  refine ⟨by norm_num, _, hEnd, ?_⟩
  exact (warmStart_covers_iff .debug 252 (by norm_num) _ _ hEnd).mpr (by decide)

/-- With the head at 251 the loop ends after the range of the blocks 0 to 250. -/
theorem not_warmStart_covers :
    ∃ t, warmStart .debug 251 [some []] = .value t ∧ fetchedTimes t 251 = 0 ∧
      ¬ Covers 251 t := by
  have hEnd : warmStart .debug 251 [some []] = .value ⟨251, [(0, 250)], []⟩ := by
    decide +kernel
  refine ⟨_, hEnd, by decide, ?_⟩
  intro hCovers
  exact absurd (hCovers.once 251 (by decide) le_rfl) (by decide)

end SovereignShadow.Ports.WarmStart
