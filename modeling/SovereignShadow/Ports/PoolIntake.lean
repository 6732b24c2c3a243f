import SovereignShadow.Ports.PoolFeed
import SovereignShadow.Verified.Broadcast

/-!
# The intake of new pools

New pools are announced on a broadcast channel of 2048 values, by the factory scanner and the
two discoveries.  The feed task of `main.rs` inserts each into the mirror and hands it over to the
initialisation worker, by a queue of 2048 entries that makes it wait while it is full.  The
worker takes one pool in four seconds and more.

The loop of the feed is `while let Ok(event) = pool_rx.recv().await`.  Behind a full queue it
falls back, and when it has lost an announcement its next receive is an error: the feed ends, and
no later pool is mirrored.

A run interleaves the announcements, the steps of the feed and of the worker, the syncs of
pools restored from disk, and the writes of logs and filters.

## Main results

* `mirrored_next` — what inserts a pool.
* `run_served` — what the feed has handled and the worker has taken in any run, when the feed
  ends, and how far ahead announcements can be without ending it.
-/

namespace SovereignShadow.Ports.PoolIntake

open SovereignShadow.Verified.Broadcast
open SovereignShadow.Ports.Models
open SovereignShadow.Ports.Mirror
open SovereignShadow.Ports.MirrorSync
open SovereignShadow.Ports.PoolFeed

/-! ## State -/

/-- `broadcast::channel::<NewPoolEvent>(2048)`. -/
def announcementCapacity : ℕ := 2048

/-- `mpsc::channel(2048)` of the worker. -/
def queueCapacity : ℕ := 2048

/-- The feed between its await points. -/
inductive Phase where
  | receiving
  /-- `init_tx.send`. -/
  | sending (event : NewPoolEvent)
  | marking (event : NewPoolEvent)
  deriving DecidableEq, Repr

structure Intake where
  /-- History: the announcements. -/
  announced : List NewPoolEvent
  feed : Reader NewPoolEvent
  phase : Phase
  queue : List (Address × DexType)
  /-- History: the pools that the worker took. -/
  taken : List (Address × DexType)
  /-- The pools restored from disk, which `smart_bootstrap` syncs. -/
  restored : List (Address × DexType)
  pools : PoolTable
  currentBlock : Nat

def restoreEntry (pools : PoolTable) (entry : Address × MirrorEntry) : PoolTable :=
  Function.update pools entry.1 (some entry.2)

/-- `load_state_checkpoint`. -/
def restore (entries : List (Address × MirrorEntry)) : PoolTable :=
  entries.foldl restoreEntry fun _ => none

/-- When the feed subscribes, the scanner may have announced pools already. -/
def Intake.initial (announced : List NewPoolEvent) (entries : List (Address × MirrorEntry)) :
    Intake where
  announced
  feed := subscribe announced
  phase := .receiving
  queue := []
  taken := []
  restored := entries.map fun entry => (entry.1, entry.2.dexType)
  pools := restore entries
  currentBlock := 0

inductive Event where
  | announce (event : NewPoolEvent)
  | receive
  | enqueue
  | mark
  | take
  /-- The multicall of the worker for the `i`-th pool that it took. -/
  | synced (i : ℕ) (decoders : Decoders) (block : Nat) (results : List MulticallResult)
  /-- A multicall of `smart_bootstrap`. -/
  | bootstrapped (chunk : List (Address × DexType)) (decoders : Decoders) (block : Nat)
      (results : List MulticallResult)
  /-- A removal, by the liquidity filter or by `prune_stale_pools`. -/
  | removed (pool : Address)
  | v2Log (pool : Address) (r0 r1 : U256)
  | v3Log (pool : Address) (sqrtPrice : U256) (tick : Int) (liquidity : U256)
  | block (number : Nat)

/-- The feed takes what `recv` returns. -/
def Intake.receive (s : Intake) : Intake :=
  let (feed, value) := s.feed.receive announcementCapacity s.announced
  match value with
  | none => { s with feed }
  | some event => { s with feed, phase := .sending event, pools := feedInsert s.pools event }

/-- What a multicall returned for a chunk. -/
def Intake.sync (s : Intake) (chunk : List (Address × DexType)) (decoders : Decoders)
    (block : Nat) (results : List MulticallResult) : Intake :=
  { s with pools := Write.apply s.pools (.batch decoders block chunk results) }

def next (s : Intake) : Event → Intake
  | .announce event => { s with announced := s.announced ++ [event] }
  | .receive =>
      match s.phase with
      | .receiving => s.receive
      | .sending _ | .marking _ => s
  | .enqueue =>
      match s.phase with
      | .sending event =>
          if s.queue.length < queueCapacity then
            { s with queue := s.queue ++ [poolAndType event], phase := .marking event }
          else s
      | .receiving | .marking _ => s
  | .mark =>
      match s.phase with
      | .marking event =>
          { s with pools := feedMark s.pools s.currentBlock event, phase := .receiving }
      | .receiving | .sending _ => s
  | .take =>
      match s.queue with
      | [] => s
      | pool :: rest => { s with queue := rest, taken := s.taken ++ [pool] }
  | .synced i decoders block results =>
      match s.taken[i]? with
      | none => s
      | some pool => s.sync [pool] decoders block results
  | .bootstrapped chunk decoders block results =>
      if chunk ⊆ s.restored then s.sync chunk decoders block results else s
  | .removed pool => { s with pools := Write.apply s.pools (.remove pool) }
  | .v2Log pool r0 r1 =>
      { s with pools := Write.apply s.pools (.v2Reserves s.currentBlock pool r0 r1) }
  | .v3Log pool sqrtPrice tick liquidity =>
      { s with
        pools := Write.apply s.pools (.v3State s.currentBlock pool sqrtPrice tick liquidity) }
  | .block number => { s with currentBlock := number }

def run (s : Intake) (events : List Event) : Intake := events.foldl next s

/-! ## What is claimed -/

/-- What the feed has received and not yet queued. -/
def Phase.inHand : Phase → List (Address × DexType)
  | .sending event => [poolAndType event]
  | .receiving | .marking _ => []

/-- The intake, whose feed subscribed after `start` announcements. -/
structure Served (start : ℕ) (s : Intake) : Prop where
  /-- The feed has handled the first announcements since then, each once. -/
  follows : Follows start s.announced s.feed
  /-- Each of them was taken by the worker, or is queued, or in the feed's hand. -/
  inOrder : s.taken ++ s.queue ++ s.phase.inHand = s.feed.handled.map poolAndType
  bounded : s.queue.length ≤ queueCapacity
  /-- Mirrored are only these pools, and those from disk. -/
  mirrored : ∀ pool, (s.pools pool).isSome →
    pool ∈ s.restored.map Prod.fst ∨ ∃ event ∈ s.feed.handled, (poolAndType event).1 = pool

/-- The feed waits for an announcement and has lost one. -/
def Doomed (s : Intake) : Prop :=
  s.phase = .receiving ∧ Overrun announcementCapacity s.announced s.feed

/-! ## The mirror -/

theorem isSome_restore {entries : List (Address × MirrorEntry)} {pools : PoolTable}
    {pool : Address} (h : (entries.foldl restoreEntry pools pool).isSome) :
    (pools pool).isSome ∨ pool ∈ entries.map Prod.fst := by
  induction entries generalizing pools with
  | nil => exact .inl h
  | cons entry rest ih =>
      rcases ih h with hStep | hRest
      · by_cases hPool : pool = entry.1
        · exact .inr (hPool ▸ List.mem_cons_self)
        · rw [restoreEntry, Function.update_of_ne hPool] at hStep
          exact .inl hStep
      · exact .inr (List.mem_cons_of_mem _ hRest)

/-- A batch inserts at most the pools of its chunk. -/
theorem isSome_batch {decoders : Decoders} {block : Nat} {chunk : List (Address × DexType)}
    {results : List MulticallResult} {pools : PoolTable} {pool : Address}
    (h : (Write.apply pools (.batch decoders block chunk results) pool).isSome) :
    (pools pool).isSome ∨ pool ∈ chunk.map Prod.fst := by
  have hBatch : ∀ (updates : List (Address × MirrorEntry)) (pools : PoolTable),
      (batchUpdateReserves pools updates pool).isSome →
        (pools pool).isSome ∨ pool ∈ updates.map Prod.fst := by
    intro updates
    induction updates with
    | nil => exact fun _ h => .inl h
    | cons update rest ih =>
        intro pools h
        rcases ih _ h with hStep | hRest
        · by_cases hPool : pool = update.1
          · exact .inr (hPool ▸ List.mem_cons_self)
          · rw [updateEntry, Function.update_of_ne hPool] at hStep
            exact .inl hStep
        · exact .inr (List.mem_cons_of_mem _ hRest)
  have hDecided : ∀ (chunk : List (Address × DexType)) (results : List MulticallResult) d,
      d ∈ decideChunk decoders block chunk results → d.1 ∈ chunk.map Prod.fst := by
    intro chunk
    induction chunk with
    | nil => exact fun _ _ h => absurd h List.not_mem_nil
    | cons first rest ih =>
        intro results d hd
        rcases List.mem_append.mp hd with hHere | hLater
        · obtain ⟨decision, -, rfl⟩ := Option.map_eq_some_iff.mp (Option.mem_toList.mp hHere)
          exact List.mem_cons_self
        · exact List.mem_cons_of_mem _ (ih _ d hLater)
  rcases hBatch _ pools h with hOld | hNew
  · exact .inl hOld
  · right
    obtain ⟨update, hUpdate, rfl⟩ := List.mem_map.mp hNew
    unfold appliedDecisions at hUpdate
    split at hUpdate
    · cases hUpdate
    · obtain ⟨⟨target, decision⟩, hMem, hState⟩ := List.mem_filterMap.mp hUpdate
      cases decision with
      | prune => cases hState
      | update state =>
          obtain rfl := Option.some.inj hState
          exact hDecided chunk results _ hMem

/-- A write of an entry that is there. -/
theorem isSome_modify {pools : PoolTable} {pool other : Address}
    {f : MirrorEntry → MirrorEntry}
    (h : (Function.update pools other ((pools other).map f) pool).isSome) :
    (pools pool).isSome := by
  by_cases hPool : pool = other
  · subst hPool
    rw [Function.update_self, Option.isSome_map] at h
    exact h
  · rw [Function.update_of_ne hPool] at h
    exact h

theorem isSome_feedMark {pools : PoolTable} {block : Nat} {event : NewPoolEvent}
    {pool : Address} (h : (feedMark pools block event pool).isSome) : (pools pool).isSome := by
  unfold feedMark at h
  split at h
  · split at h
    · exact isSome_modify h
    · exact h
  · exact h

theorem isSome_feedInsert {pools : PoolTable} {event : NewPoolEvent} {pool : Address}
    (h : (feedInsert pools event pool).isSome) :
    (pools pool).isSome ∨ (poolAndType event).1 = pool := by
  by_cases hPool : pool = (poolAndType event).1
  · exact .inr hPool.symm
  · rw [feedInsert, Function.update_of_ne hPool] at h
    exact .inl h

/-! ## Runs -/

section Steps

variable {start : ℕ} {s : Intake} {event : Event}

theorem Served.initial (announced : List NewPoolEvent)
    (entries : List (Address × MirrorEntry)) :
    Served announced.length (Intake.initial announced entries) where
  follows := .subscribe announced
  inOrder := rfl
  bounded := Nat.zero_le _
  mirrored pool h := by
    rcases isSome_restore h with hNone | hDisk
    · cases hNone
    · left
      show pool ∈ (entries.map fun entry => (entry.1, entry.2.dexType)).map Prod.fst
      rw [List.map_map]
      exact hDisk

/-- A step that only writes entries of the mirror. -/
theorem Served.write (h : Served start s) {pools : PoolTable}
    (hPools : ∀ pool, (pools pool).isSome →
      (s.pools pool).isSome ∨ pool ∈ s.restored.map Prod.fst ∨ pool ∈ s.taken.map Prod.fst) :
    Served start { s with pools } where
  follows := h.follows
  inOrder := h.inOrder
  bounded := h.bounded
  mirrored pool hPool := by
    rcases hPools pool hPool with hOld | hDisk | hTaken
    · exact h.mirrored pool hOld
    · exact .inl hDisk
    · right
      have hHandled : pool ∈ (s.feed.handled.map poolAndType).map Prod.fst := by
        rw [← h.inOrder, List.append_assoc, List.map_append]
        exact List.mem_append_left _ hTaken
      rw [List.map_map] at hHandled
      exact List.mem_map.mp hHandled

/-- **Step lemma**, a receive. -/
theorem Served.receive (h : Served start s) (hPhase : s.phase = .receiving) :
    Served start s.receive := by
  have hFollows : Follows start s.announced
      (s.feed.receive announcementCapacity s.announced).1 := h.follows.receive
  have hOrder := h.inOrder
  rw [hPhase] at hOrder
  unfold Intake.receive
  rcases receive_cases announcementCapacity s.announced s.feed with
    ⟨hSame, -⟩ | ⟨-, -, hEnd⟩ | ⟨value, -, -, -, hNext⟩
  · rw [hSame]
    exact ⟨h.follows, h.inOrder, h.bounded, h.mirrored⟩
  · rw [hEnd] at hFollows ⊢
    exact ⟨hFollows, h.inOrder, h.bounded, h.mirrored⟩
  · rw [hNext] at hFollows ⊢
    constructor
    · exact hFollows
    · show s.taken ++ s.queue ++ [poolAndType value] = (s.feed.handled ++ [value]).map poolAndType
      rw [List.map_append, ← hOrder, List.map_singleton]
      show _ = s.taken ++ s.queue ++ [] ++ _
      rw [List.append_nil]
    · exact h.bounded
    · intro pool hPool
      rcases isSome_feedInsert hPool with hOld | hNew
      · refine (h.mirrored pool hOld).imp id ?_
        rintro ⟨event, hEvent, hAt⟩
        exact ⟨event, List.mem_append_left _ hEvent, hAt⟩
      · exact .inr ⟨value, List.mem_append_right _ (List.mem_singleton_self value), hNew⟩

/-- **Step lemma.** -/
theorem Served.next (h : Served start s) (event : Event) : Served start (next s event) := by
  have hOrder := h.inOrder
  cases event with
  | announce event => exact ⟨h.follows.send [event], h.inOrder, h.bounded, h.mirrored⟩
  | receive =>
      unfold PoolIntake.next
      cases hPhase : s.phase with
      | receiving => exact h.receive hPhase
      | sending _ => exact h
      | marking _ => exact h
  | enqueue =>
      unfold PoolIntake.next
      cases hPhase : s.phase with
      | receiving => exact h
      | marking _ => exact h
      | sending event =>
          dsimp only
          split_ifs with hRoom
          · rw [hPhase] at hOrder
            constructor
            · exact h.follows
            · show s.taken ++ (s.queue ++ [poolAndType event]) ++ [] = _
              rw [List.append_nil, ← List.append_assoc]
              exact hOrder
            · show (s.queue ++ [poolAndType event]).length ≤ queueCapacity
              rw [List.length_append, List.length_singleton]
              exact hRoom
            · exact h.mirrored
          · exact h
  | mark =>
      unfold PoolIntake.next
      cases hPhase : s.phase with
      | receiving => exact h
      | sending _ => exact h
      | marking event =>
          rw [hPhase] at hOrder
          exact ⟨h.follows, hOrder, h.bounded, fun pool hPool =>
            h.mirrored pool (isSome_feedMark hPool)⟩
  | take =>
      unfold PoolIntake.next
      cases hQueue : s.queue with
      | nil => exact h
      | cons pool rest =>
          have hBounded := h.bounded
          rw [hQueue] at hOrder hBounded
          constructor
          · exact h.follows
          · show s.taken ++ [pool] ++ rest ++ s.phase.inHand = _
            rw [← hOrder, List.append_assoc s.taken]
            rfl
          · exact (Nat.le_succ _).trans hBounded
          · exact h.mirrored
  | synced i decoders block results =>
      unfold PoolIntake.next
      dsimp only
      split
      · exact h
      · rename_i pool hPool
        refine h.write fun other hOther => (isSome_batch hOther).imp id fun hMem => .inr ?_
        obtain rfl := List.mem_singleton.mp hMem
        exact List.mem_map_of_mem (List.mem_of_getElem? hPool)
  | bootstrapped chunk decoders block results =>
      unfold PoolIntake.next
      dsimp only
      split_ifs with hChunk
      · refine h.write fun other hOther => (isSome_batch hOther).imp id fun hMem => .inl ?_
        exact List.map_subset Prod.fst hChunk hMem
      · exact h
  | removed pool =>
      refine h.write fun other hOther => .inl ?_
      by_cases hPool : other = pool
      · subst hPool
        rw [Write.apply, removePool, Function.update_self] at hOther
        cases hOther
      · rw [Write.apply, removePool, Function.update_of_ne hPool] at hOther
        exact hOther
  | v2Log pool r0 r1 => exact h.write fun other hOther => .inl (isSome_modify hOther)
  | v3Log pool sqrtPrice tick liquidity =>
      exact h.write fun other hOther => .inl (isSome_modify hOther)
  | block number => exact ⟨h.follows, h.inOrder, h.bounded, h.mirrored⟩

/-- **Run lemma.** -/
theorem Served.run (h : Served start s) (events : List Event) : Served start (run s events) := by
  induction events generalizing s with
  | nil => exact h
  | cons event rest ih => exact ih (h.next event)

end Steps

/-! ## The end of the feed -/

section Ending

variable {start : ℕ} {s : Intake} {event : Event}

theorem receive_fields (s : Intake) :
    s.receive.announced = s.announced ∧
      s.receive.feed = (s.feed.receive announcementCapacity s.announced).1 := by
  unfold Intake.receive
  rcases s.feed.receive announcementCapacity s.announced with ⟨feed, _ | value⟩ <;> exact ⟨rfl, rfl⟩

/-- Nothing takes an announcement back.  Only a receive moves the feed, and only while it waits
for one. -/
theorem next_fields (s : Intake) (event : Event) :
    (∃ more, (next s event).announced = s.announced ++ more) ∧
      ((next s event).feed = s.feed ∨
        event = .receive ∧ s.phase = .receiving ∧
          (next s event).feed = (s.feed.receive announcementCapacity s.announced).1) := by
  have hQuiet : (next s event).announced = s.announced ∧ (next s event).feed = s.feed →
      (∃ more, (next s event).announced = s.announced ++ more) ∧
        ((next s event).feed = s.feed ∨
          event = .receive ∧ s.phase = .receiving ∧
            (next s event).feed = (s.feed.receive announcementCapacity s.announced).1) :=
    fun h => ⟨⟨[], by rw [h.1, List.append_nil]⟩, .inl h.2⟩
  cases event with
  | announce event => exact ⟨⟨[event], rfl⟩, .inl rfl⟩
  | receive =>
      by_cases hPhase : s.phase = .receiving
      · have hStep : next s .receive = s.receive := by rw [next, hPhase]
        rw [hStep, (receive_fields s).1]
        exact ⟨⟨[], (List.append_nil _).symm⟩, .inr ⟨rfl, hPhase, (receive_fields s).2⟩⟩
      · apply hQuiet
        have hStep : next s .receive = s := by
          rw [next]
          split
          · rename_i hReceiving
            exact absurd hReceiving hPhase
          · rfl
          · rfl
        rw [hStep]
        exact ⟨rfl, rfl⟩
  | enqueue =>
      apply hQuiet
      unfold PoolIntake.next
      cases s.phase with
      | sending event =>
          dsimp only
          split_ifs <;> exact ⟨rfl, rfl⟩
      | receiving => exact ⟨rfl, rfl⟩
      | marking _ => exact ⟨rfl, rfl⟩
  | mark =>
      apply hQuiet
      unfold PoolIntake.next
      cases s.phase <;> exact ⟨rfl, rfl⟩
  | take =>
      apply hQuiet
      unfold PoolIntake.next
      cases s.queue <;> exact ⟨rfl, rfl⟩
  | synced i decoders block results =>
      apply hQuiet
      unfold PoolIntake.next
      dsimp only
      cases s.taken[i]? <;> exact ⟨rfl, rfl⟩
  | bootstrapped chunk decoders block results =>
      apply hQuiet
      unfold PoolIntake.next
      dsimp only
      split_ifs <;> exact ⟨rfl, rfl⟩
  | removed pool => exact hQuiet ⟨rfl, rfl⟩
  | v2Log pool r0 r1 => exact hQuiet ⟨rfl, rfl⟩
  | v3Log pool sqrtPrice tick liquidity => exact hQuiet ⟨rfl, rfl⟩
  | block number => exact hQuiet ⟨rfl, rfl⟩

/-- **The end of the feed**, in one step. -/
theorem closed_next (s : Intake) (event : Event) :
    (next s event).feed.closed = true ↔
      s.feed.closed = true ∨ event = .receive ∧ Doomed s := by
  rcases (next_fields s event).2 with hSame | ⟨rfl, hPhase, hReceive⟩
  · rw [hSame]
    constructor
    · exact .inl
    · rintro (hClosed | ⟨rfl, hPhase, hOver⟩)
      · exact hClosed
      · rw [← hSame, next, hPhase]
        dsimp only
        rw [(receive_fields s).2]
        exact receive_closed.mpr (.inr hOver)
  · rw [hReceive, receive_closed]
    exact or_congr_right ⟨fun hOver => ⟨rfl, hPhase, hOver⟩, fun h => h.2.2⟩

/-- Over a run: the feed has ended if and only if it was doomed at some receive. -/
theorem closed_run (events : List Event) (s : Intake) :
    (run s events).feed.closed = true ↔
      s.feed.closed = true ∨
        ∃ before after, events = before ++ .receive :: after ∧ Doomed (run s before) := by
  induction events generalizing s with
  | nil =>
      constructor
      · exact .inl
      · rintro (hClosed | ⟨before, after, hSplit, -⟩)
        · exact hClosed
        · cases before <;> cases hSplit
  | cons event rest ih =>
      show (run (next s event) rest).feed.closed = true ↔ _
      rw [ih, closed_next, or_assoc]
      refine or_congr_right ⟨?_, ?_⟩
      · rintro (⟨rfl, hDoomed⟩ | ⟨before, after, rfl, hDoomed⟩)
        · exact ⟨[], rest, rfl, hDoomed⟩
        · exact ⟨event :: before, after, rfl, hDoomed⟩
      · rintro ⟨before, after, hSplit, hDoomed⟩
        cases before with
        | nil =>
            obtain ⟨rfl, -⟩ := List.cons.inj hSplit
            exact .inl ⟨rfl, hDoomed⟩
        | cons first before =>
            obtain ⟨rfl, rfl⟩ := List.cons.inj hSplit
            exact .inr ⟨before, after, rfl, hDoomed⟩

/-- The feed has ended, or has lost an announcement. -/
def Lost (s : Intake) : Prop :=
  s.feed.closed = true ∨ Overrun announcementCapacity s.announced s.feed

/-- **A lost feed handles nothing**, whatever is done to the queue. -/
theorem Lost.next (h : Lost s) (event : Event) :
    Lost (next s event) ∧ (next s event).feed.handled = s.feed.handled := by
  obtain ⟨⟨more, hMore⟩, hFeed⟩ := next_fields s event
  have hStays : ∀ feed : Reader NewPoolEvent, feed.place = s.feed.place →
      Overrun announcementCapacity s.announced s.feed →
        Overrun announcementCapacity (PoolIntake.next s event).announced feed := by
    intro feed hPlace hOver
    rw [hMore]
    have hMoved := hOver.send more
    unfold Overrun at hMoved ⊢
    rwa [hPlace]
  rcases hFeed with hSame | ⟨-, -, hReceive⟩
  · rw [Lost, hSame]
    exact ⟨h.imp id (hStays _ rfl), rfl⟩
  · obtain ⟨hHandled, hPlace, -⟩ := receive_handled h
    rw [Lost, hReceive]
    exact ⟨.inl (receive_closed.mpr h), hHandled⟩

theorem Lost.run (h : Lost s) (events : List Event) :
    (run s events).feed.handled = s.feed.handled := by
  induction events generalizing s with
  | nil => rfl
  | cons event rest ih =>
      obtain ⟨hNext, hHandled⟩ := h.next event
      exact (ih hNext).trans hHandled

/-- How far the announcements can be ahead of the worker before one is lost: what the channel
keeps, what the queue holds, and what the feed has in its hand. -/
theorem Served.lost (h : Served start s)
    (hAhead : start + s.taken.length + (announcementCapacity + queueCapacity + 1) <
      s.announced.length) : Lost s := by
  right
  have hLength := congrArg List.length h.inOrder
  rw [List.length_append, List.length_append, List.length_map] at hLength
  have hHand : s.phase.inHand.length ≤ 1 := by
    cases s.phase <;> simp [Phase.inHand]
  have hBounded := h.bounded
  have hPlace := h.follows.place
  unfold Overrun
  omega

end Ending

/-- **The intake**, in any interleaving.  What the feed has handled is a prefix of what was
announced since it subscribed, and goes to the worker in that order; only these pools and those
from disk are mirrored.  The feed ends exactly at a receive at which it has lost an announcement;
once it has, or once the announcements are too far ahead of the worker, it handles nothing
more. -/
theorem run_served (announced : List NewPoolEvent) (entries : List (Address × MirrorEntry))
    (earlier later : List Event) :
    let s := run (Intake.initial announced entries) earlier
    let s' := run s later
    Served announced.length s' ∧
      (s'.feed.closed = true ↔ ∃ before after, earlier ++ later = before ++ .receive :: after ∧
        Doomed (run (Intake.initial announced entries) before)) ∧
      (s.feed.closed = true ∨ announced.length + s.taken.length +
          (announcementCapacity + queueCapacity + 1) < s.announced.length →
        s'.feed.handled = s.feed.handled) := by
  intro s s'
  have hServed : Served announced.length s := (Served.initial announced entries).run earlier
  refine ⟨hServed.run later, ?_, ?_⟩
  · have hRun : s' = run (Intake.initial announced entries) (earlier ++ later) :=
      List.foldl_append.symm
    rw [hRun, closed_run]
    exact or_iff_right Bool.false_ne_true
  · rintro (hClosed | hAhead)
    · exact Lost.run (.inl hClosed) later
    · exact (hServed.lost hAhead).run later

end SovereignShadow.Ports.PoolIntake
