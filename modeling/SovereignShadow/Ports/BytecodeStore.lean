import SovereignShadow.Ports.BytecodeScan
import SovereignShadow.Ports.Constants
import SovereignShadow.Verified.Runs

/-!
# The bytecode store

Port of `fetch_and_cache_bytecode`, `prune_stale_pools`, `load_bytecode_cache`, `basic_ref` and
`is_poisoned` of `state_mirror.rs`, with their callers: the pool feed and the initialisation
worker of `main.rs` and the fetches of `simulate_and_execute`.

The feed puts a pool into the mirror before it queues it, and a fetch leaves an address alone
that it finds mirrored.  So the worker asks for the code of a pool only after the pool was removed
again.  A pool that is announced once more after this check is scanned though it is mirrored.

The tasks run in any order between two accesses to the shared tables; the worker is task `0`.
Of an entry of the mirror only what the pruning reads is kept.

## Main results

* `queued_next`, `fetching_next` — what an event adds to the queue and to the fetches.
* `run_store` — what is requested, cached and poisoned in any run.
-/

namespace SovereignShadow.Ports.BytecodeStore

open SovereignShadow.Verified.Runs
open SovereignShadow.Ports.Models
open SovereignShadow.Ports.Constants
open SovereignShadow.Ports.BytecodeScan

/-! ## Pruning -/

/-- `CORE_POOLS`. -/
def corePools : List Address :=
  [0xd0b53D9277642d899DF5C87A3966A349A798F224, 0x4C36388bE6F416A29C8d8Eee819bb35ed3737a01,
    0x7E3411B04766089cFaa52DB688855356A12f05D1, 0x21943f679eD5f05329883584860D49C039237685]

structure Aged where
  lastUpdatedBlock : Nat
  lastAccessTs : Nat
  deriving DecidableEq, Repr

/-- The closure of `retain` in `prune_stale_pools`. -/
def retained (current now : Nat) (pool : Address) (entry : Aged) : Bool :=
  if pool ∈ corePools then true
  else
    let blockAge := if entry.lastUpdatedBlock = 0 then 0 else current - entry.lastUpdatedBlock
    let timeSinceAccess := now - entry.lastAccessTs
    let isHot := decide (blockAge < 500) || decide (timeSinceAccess < 1800)
    let isNew := decide (entry.lastUpdatedBlock = 0)
    isHot || isNew

/-! ## State -/

/-- The feed task, between two pools or at one of its steps. -/
inductive Feed where
  | idle
  /-- `init_tx.send`. -/
  | sending (pool : Address) (aerodrome : Bool)
  /-- `update_aerodrome_stable`. -/
  | marking (pool : Address)
  deriving DecidableEq, Repr

/-- A call of `fetch_and_cache_bytecode`. -/
inductive Fetch where
  | checkingPools (account : Address)
  | checkingStore (account : Address)
  /-- `get_code_at` is on its way. -/
  | fetching (account : Address)
  deriving DecidableEq, Repr

structure Store where
  pools : Address → Option Aged
  bytecodes : List (Address × List UInt8)
  poisoned : List Address
  currentBlock : Nat
  feed : Feed
  queue : List Address
  tasks : Nat → Option Fetch

/-- `insert`. -/
def insertCode (codes : List (Address × List UInt8)) (entry : Address × List UInt8) :
    List (Address × List UInt8) :=
  entry :: codes.filter fun other => other.1 ≠ entry.1

/-- A mirror at its start: the tables restored from disk. -/
def initial (restored : List (Address × List UInt8)) (pools : Address → Option Aged) : Store where
  pools
  bytecodes := restored.foldl insertCode []
  poisoned := []
  currentBlock := 0
  feed := .idle
  queue := []
  tasks _ := none

/-- `get_bytecode`. -/
def Store.getBytecode (s : Store) (account : Address) : Option (List UInt8) :=
  s.bytecodes.lookup account

/-- `is_poisoned`. -/
def Store.isPoisoned (s : Store) (account : Address) : Bool := s.poisoned.contains account

/-- The code in the answer of `basic_ref`; without one there is no account. -/
def Store.basicRef (s : Store) (account : Address) : Option (List UInt8) := s.getBytecode account

/-- The whitelists of a fetch. -/
def Whitelisted (account : Address) : Prop :=
  account ∈ coreTokens ∨ account ∈ corePools ∨ account ∈ top100Pools

instance (account : Address) : Decidable (Whitelisted account) :=
  inferInstanceAs (Decidable (_ ∨ _ ∨ _))

/-! ## Events -/

inductive Event where
  /-- The feed takes a pool event and inserts the pool. -/
  | announce (pool : Address) (aerodrome : Bool) (now : Nat)
  | enqueue
  | mark
  /-- The worker takes a pool from the queue. -/
  | take
  /-- `simulate_and_execute` starts a fetch. -/
  | spawn (task : Nat) (account : Address)
  | checkPools (task : Nat)
  | checkStore (task : Nat)
  | reply (task : Nat) (code : Option (List UInt8))
  /-- An entry of `batch_update_reserves`. -/
  | batchWrite (pool : Address) (block now : Nat)
  | logWrite (pool : Address)
  /-- `get_pool_data`. -/
  | access (pool : Address) (now : Nat)
  /-- A removal by the liquidity filter. -/
  | drop (pool : Address)
  /-- One entry of `prune_stale_pools`, with the block and the time that it has read. -/
  | prune (current now : Nat) (pool : Address)
  /-- One bytecode of `prune_stale_pools`, with the length that it has read. -/
  | pruneCode (length : Nat) (account : Address)
  | syncBlock (number : Nat)

def Store.setTask (s : Store) (task : Nat) (fetch : Option Fetch) : Store :=
  { s with tasks := Function.update s.tasks task fetch }

def Store.setPool (s : Store) (pool : Address) (entry : Option Aged) : Store :=
  { s with pools := Function.update s.pools pool entry }

/-- A fetch that has the reply of `get_code_at`. -/
def Store.receive (s : Store) (account : Address) : Option (List UInt8) → Store
  | none => s
  | some code =>
      if code = [] then s
      else if isMaliciousBytecode code then { s with poisoned := account :: s.poisoned }
      else { s with bytecodes := insertCode s.bytecodes (account, code) }

/-- The transition; an event of a task that is elsewhere does nothing. -/
def next (s : Store) : Event → Store
  | .announce pool aerodrome now =>
      if s.feed = .idle then
        { s.setPool pool (some ((s.pools pool).getD ⟨0, now⟩)) with
          feed := .sending pool aerodrome }
      else s
  | .enqueue =>
      match s.feed with
      | .sending pool aerodrome =>
          if s.queue.length < 2048 then
            { s with queue := s.queue ++ [pool]
                     feed := if aerodrome then .marking pool else .idle }
          else s
      | _ => s
  | .mark =>
      match s.feed with
      | .marking pool =>
          { s.setPool pool ((s.pools pool).map ({ · with lastUpdatedBlock := s.currentBlock })) with
            feed := .idle }
      | _ => s
  | .take =>
      match s.tasks 0, s.queue with
      | none, pool :: rest => { s.setTask 0 (some (.checkingPools pool)) with queue := rest }
      | _, _ => s
  | .spawn task account =>
      if task ≠ 0 ∧ s.tasks task = none ∧ s.getBytecode account = none then
        s.setTask task (some (.checkingPools account))
      else s
  | .checkPools task =>
      match s.tasks task with
      | some (.checkingPools account) =>
          if Whitelisted account ∨ s.pools account ≠ none then s.setTask task none
          else s.setTask task (some (.checkingStore account))
      | _ => s
  | .checkStore task =>
      match s.tasks task with
      | some (.checkingStore account) =>
          if s.getBytecode account ≠ none ∨ s.isPoisoned account then s.setTask task none
          else s.setTask task (some (.fetching account))
      | _ => s
  | .reply task code =>
      match s.tasks task with
      | some (.fetching account) => (s.receive account code).setTask task none
      | _ => s
  | .batchWrite pool block now =>
      s.setPool pool (some ⟨block, ((s.pools pool).map Aged.lastAccessTs).getD now⟩)
  | .logWrite pool =>
      s.setPool pool ((s.pools pool).map ({ · with lastUpdatedBlock := s.currentBlock }))
  | .access pool now => s.setPool pool ((s.pools pool).map ({ · with lastAccessTs := now }))
  | .drop pool => if pool ∈ top100Pools then s else s.setPool pool none
  | .prune current now pool =>
      match s.pools pool with
      | none => s
      | some entry =>
          if current = 0 ∨ retained current now pool entry then s else s.setPool pool none
  | .pruneCode length account =>
      if 500 < length ∧ s.pools account = none then
        { s with bytecodes := s.bytecodes.filter fun entry => entry.1 ≠ account }
      else s
  | .syncBlock number => { s with currentBlock := number }

structure Transition where
  before : Store
  event : Event
  after : Store

def step (s : Store) (event : Event) : Step Store Transition where
  output := { before := s, event, after := next s event }
  next := some (next s event)

/-! ## History -/

/-- The feed inserts the pool. -/
def Announces (pool : Address) (tr : Transition) : Prop :=
  ∃ aerodrome now, tr.event = .announce pool aerodrome now ∧ tr.before.feed = .idle

/-- The pool leaves the mirror. -/
def Removes (pool : Address) (tr : Transition) : Prop :=
  tr.before.pools pool ≠ none ∧ tr.after.pools pool = none

def Announced (past : List Transition) (pool : Address) : Prop := ∃ tr ∈ past, Announces pool tr

/-- The pool was announced, and left the mirror later. -/
def RemovedSince (past : List Transition) (pool : Address) : Prop :=
  ∃ tr tr', [tr, tr'].Sublist past ∧ Announces pool tr ∧ Removes pool tr'

/-- The task checks the mirror for the account, and does not find it. -/
structure FindsUnmirrored (task : Nat) (account : Address) (tr : Transition) : Prop where
  checks : tr.event = .checkPools task
  checking : tr.before.tasks task = some (.checkingPools account)
  absent : tr.before.pools account = none

section Snoc

variable {past : List Transition} {tr : Transition} {account : Address}

theorem Announced.snoc (h : Announced past account) : Announced (past ++ [tr]) account := by
  obtain ⟨earlier, hMem, hAnnounces⟩ := h
  exact ⟨earlier, List.mem_append_left _ hMem, hAnnounces⟩

theorem RemovedSince.snoc (h : RemovedSince past account) :
    RemovedSince (past ++ [tr]) account := by
  obtain ⟨first, second, hSublist, hBoth⟩ := h
  exact ⟨first, second, hSublist.trans (List.sublist_append_left _ _), hBoth⟩

theorem RemovedSince.of_removes (hAnnounced : Announced past account)
    (hRemoves : Removes account tr) : RemovedSince (past ++ [tr]) account := by
  obtain ⟨first, hMem, hFirst⟩ := hAnnounced
  exact ⟨first, tr, (List.singleton_sublist.mpr hMem).append (List.Sublist.refl [tr]), hFirst,
    hRemoves⟩

end Snoc

/-! ## What an event does -/

/-- An event that does something, with the guards that it has passed. -/
inductive Moves (s : Store) : Event → Store → Prop
  | announce {pool aerodrome now} (hIdle : s.feed = .idle) :
      Moves s (.announce pool aerodrome now)
        { s.setPool pool (some ((s.pools pool).getD ⟨0, now⟩)) with
          feed := .sending pool aerodrome }
  | enqueue {pool aerodrome} (hFeed : s.feed = .sending pool aerodrome) :
      Moves s .enqueue
        { s with queue := s.queue ++ [pool], feed := if aerodrome then .marking pool else .idle }
  | mark {pool entry} (hKept : s.pools pool ≠ none → entry ≠ none) :
      Moves s .mark { s.setPool pool entry with feed := .idle }
  | take {pool rest} (hFree : s.tasks 0 = none) (hQueue : s.queue = pool :: rest) :
      Moves s .take { s.setTask 0 (some (.checkingPools pool)) with queue := rest }
  | spawn {task account} (hTask : task ≠ 0) :
      Moves s (.spawn task account) (s.setTask task (some (.checkingPools account)))
  | leave {event task} : Moves s event (s.setTask task none)
  | checkPools {task account} (hTask : s.tasks task = some (.checkingPools account))
      (hListed : ¬ Whitelisted account) (hAbsent : s.pools account = none) :
      Moves s (.checkPools task) (s.setTask task (some (.checkingStore account)))
  | checkStore {task account} (hTask : s.tasks task = some (.checkingStore account)) :
      Moves s (.checkStore task) (s.setTask task (some (.fetching account)))
  | reply {task account code} (hTask : s.tasks task = some (.fetching account)) :
      Moves s (.reply task code) ((s.receive account code).setTask task none)
  | write {event pool entry} (hKept : s.pools pool ≠ none → entry ≠ none) :
      Moves s event (s.setPool pool entry)
  | remove {event pool} (hCore : pool ∉ corePools) : Moves s event (s.setPool pool none)
  | pruneCode {length account} :
      Moves s (.pruneCode length account)
        { s with bytecodes := s.bytecodes.filter fun entry => entry.1 ≠ account }
  | syncBlock {number} : Moves s (.syncBlock number) { s with currentBlock := number }

theorem core_subset_top {pool : Address} (h : pool ∈ corePools) : pool ∈ top100Pools := by
  simp only [corePools, List.mem_cons, List.not_mem_nil, or_false] at h
  unfold top100Pools
  rcases h with rfl | rfl | rfl | rfl
  · exact List.mem_cons_of_mem _ List.mem_cons_self
  · exact List.mem_cons_of_mem _ (List.mem_cons_of_mem _ List.mem_cons_self)
  · exact List.mem_cons_of_mem _ (List.mem_cons_of_mem _
      (List.mem_cons_of_mem _ (List.mem_cons_of_mem _ List.mem_cons_self)))
  · exact List.mem_cons_of_mem _ (List.mem_cons_of_mem _
      (List.mem_cons_of_mem _ List.mem_cons_self))

theorem map_ne_none {entry : Option Aged} (f : Aged → Aged) :
    entry ≠ none → entry.map f ≠ none := by
  simp

/-- **Inversion.** -/
theorem next_moves (s : Store) (event : Event) :
    next s event = s ∨ Moves s event (next s event) := by
  cases event with
  | announce pool aerodrome now =>
      simp only [next]
      split
      next hIdle => exact Or.inr (.announce hIdle)
      next => exact Or.inl rfl
  | enqueue =>
      simp only [next]
      split
      next pool aerodrome hFeed =>
        split
        · exact Or.inr (.enqueue hFeed)
        · exact Or.inl rfl
      next => exact Or.inl rfl
  | mark =>
      simp only [next]
      split
      next => exact Or.inr (.mark (map_ne_none _))
      next => exact Or.inl rfl
  | take =>
      simp only [next]
      split
      next hFree hQueue => exact Or.inr (.take hFree hQueue)
      next => exact Or.inl rfl
  | spawn task account =>
      simp only [next]
      split
      next hFree => exact Or.inr (.spawn hFree.1)
      next => exact Or.inl rfl
  | checkPools task =>
      simp only [next]
      split
      next account hTask =>
        split
        next => exact Or.inr .leave
        next hPass =>
          rw [not_or, not_not] at hPass
          exact Or.inr (.checkPools hTask hPass.1 hPass.2)
      next => exact Or.inl rfl
  | checkStore task =>
      simp only [next]
      split
      next account hTask =>
        split
        · exact Or.inr .leave
        · exact Or.inr (.checkStore hTask)
      next => exact Or.inl rfl
  | reply task code =>
      simp only [next]
      split
      next account hTask => exact Or.inr (.reply hTask)
      next => exact Or.inl rfl
  | batchWrite pool block now => exact Or.inr (.write fun _ => Option.some_ne_none _)
  | logWrite pool => exact Or.inr (.write (map_ne_none _))
  | access pool now => exact Or.inr (.write (map_ne_none _))
  | drop pool =>
      simp only [next]
      split
      next => exact Or.inl rfl
      next hTop => exact Or.inr (.remove fun hCore => hTop (core_subset_top hCore))
  | prune current now pool =>
      simp only [next]
      split
      next => exact Or.inl rfl
      next entry _ =>
        split
        next => exact Or.inl rfl
        next hStale =>
          refine Or.inr (.remove fun hCore => hStale (Or.inr ?_))
          unfold retained
          rw [if_pos hCore]
  | pruneCode length account =>
      simp only [next]
      split
      · exact Or.inr .pruneCode
      · exact Or.inl rfl
  | syncBlock number => exact Or.inr .syncBlock

/-! ## What an event adds -/

/-- A pool between the feed and the first check of the worker. -/
def Queued (s : Store) (pool : Address) : Prop :=
  (∃ aerodrome, s.feed = .sending pool aerodrome) ∨ pool ∈ s.queue ∨
    s.tasks 0 = some (.checkingPools pool)

/-- A fetch that is past the whitelists and the mirror. -/
def Fetching (s : Store) (task : Nat) (account : Address) : Prop :=
  s.tasks task = some (.checkingStore account) ∨ s.tasks task = some (.fetching account)

section Next

variable {s : Store} {event : Event} {task : Nat} {account : Address}

theorem setTask_tasks (s : Store) (task other : Nat) (fetch : Option Fetch) :
    (s.setTask task fetch).tasks other = if other = task then fetch else s.tasks other := by
  by_cases h : other = task
  · rw [h, if_pos rfl]
    exact Function.update_self _ _ _
  · rw [if_neg h]
    exact Function.update_of_ne h _ _

/-- The fields that a reply leaves alone. -/
theorem receive_fields (s : Store) (account : Address) (code : Option (List UInt8)) :
    (s.receive account code).pools = s.pools ∧ (s.receive account code).feed = s.feed ∧
      (s.receive account code).queue = s.queue ∧ (s.receive account code).tasks = s.tasks := by
  unfold Store.receive
  split
  · exact ⟨rfl, rfl, rfl, rfl⟩
  · split
    · exact ⟨rfl, rfl, rfl, rfl⟩
    · split
      · exact ⟨rfl, rfl, rfl, rfl⟩
      · exact ⟨rfl, rfl, rfl, rfl⟩

/-- A task that is set to something else than a queued pool takes nothing in. -/
theorem queued_setTask {fetch : Option Fetch}
    (hFetch : fetch ≠ some (.checkingPools account) ∨ task ≠ 0)
    (h : Queued (s.setTask task fetch) account) : Queued s account := by
  rcases h with hFeed | hMem | hTask
  · exact Or.inl hFeed
  · exact Or.inr (Or.inl hMem)
  · rw [setTask_tasks] at hTask
    split at hTask
    next hZero => exact absurd hTask (hFetch.resolve_right fun hTask' => hTask' hZero.symm)
    next => exact Or.inr (Or.inr hTask)

/-- An event queues a pool only by announcing it, and then it is mirrored. -/
theorem queued_next (h : Queued (next s event) account) :
    Queued s account ∨
      (∃ aerodrome now, event = .announce account aerodrome now ∧ s.feed = .idle) ∧
        (next s event).pools account ≠ none := by
  rcases next_moves s event with hSame | hMoves
  · rw [hSame] at h
    exact Or.inl h
  · generalize next s event = s' at h hMoves
    cases hMoves with
    | @announce pool aerodrome now hIdle =>
        rcases h with ⟨_, hSending⟩ | hRest
        · obtain ⟨rfl, rfl⟩ := Feed.sending.inj hSending
          refine Or.inr ⟨⟨_, now, rfl, hIdle⟩, ?_⟩
          show Function.update s.pools pool _ pool ≠ none
          rw [Function.update_self]
          exact Option.some_ne_none _
        · exact Or.inl (Or.inr hRest)
    | @enqueue pool aerodrome hFeed =>
        rcases h with ⟨_, hSending⟩ | hMem | hTask
        · cases aerodrome <;> simp at hSending
        · rcases List.mem_append.mp hMem with hMem | hLast
          · exact Or.inl (Or.inr (Or.inl hMem))
          · rw [List.mem_singleton.mp hLast]
            exact Or.inl (Or.inl ⟨aerodrome, hFeed⟩)
        · exact Or.inl (Or.inr (Or.inr hTask))
    | mark =>
        rcases h with ⟨_, hSending⟩ | hRest
        · exact absurd hSending (by simp)
        · exact Or.inl (Or.inr hRest)
    | @take pool rest hFree hQueue =>
        rcases h with hFeed | hMem | hTask
        · exact Or.inl (Or.inl hFeed)
        · exact Or.inl (Or.inr (Or.inl (hQueue ▸ List.mem_cons_of_mem _ hMem)))
        · have hHead : (s.setTask 0 (some (.checkingPools pool))).tasks 0 =
              some (.checkingPools account) := hTask
          rw [setTask_tasks, if_pos rfl] at hHead
          obtain rfl := Fetch.checkingPools.inj (Option.some.inj hHead)
          exact Or.inl (Or.inr (Or.inl (hQueue ▸ List.mem_cons_self)))
    | spawn hTask => exact Or.inl (queued_setTask (Or.inr hTask) h)
    | leave => exact Or.inl (queued_setTask (Or.inl (by simp)) h)
    | checkPools => exact Or.inl (queued_setTask (Or.inl (by simp)) h)
    | checkStore => exact Or.inl (queued_setTask (Or.inl (by simp)) h)
    | @reply task pool code hTask =>
        obtain ⟨-, hFeed, hQueue, hTasks⟩ := receive_fields s pool code
        have hBefore := queued_setTask (Or.inl (by simp)) h
        unfold Queued at hBefore
        rw [hFeed, hQueue, hTasks] at hBefore
        exact Or.inl hBefore
    | write => exact Or.inl h
    | remove => exact Or.inl h
    | pruneCode => exact Or.inl h
    | syncBlock => exact Or.inl h

/-- A task that is set to something else than such a fetch adds none. -/
theorem fetching_setTask {other : Nat} {fetch : Option Fetch}
    (h : Fetching (s.setTask other fetch) task account) :
    Fetching s task account ∨
      task = other ∧
        (fetch = some (.checkingStore account) ∨ fetch = some (.fetching account)) := by
  unfold Fetching at h ⊢
  rw [setTask_tasks] at h
  by_cases hTask : task = other
  · rw [if_pos hTask] at h
    exact Or.inr ⟨hTask, h⟩
  · rw [if_neg hTask] at h
    exact Or.inl h

/-- An event lets a fetch past the first check only where nothing is listed or mirrored. -/
theorem fetching_next (h : Fetching (next s event) task account) :
    Fetching s task account ∨
      event = .checkPools task ∧ s.tasks task = some (.checkingPools account) ∧
        ¬ Whitelisted account ∧ s.pools account = none := by
  rcases next_moves s event with hSame | hMoves
  · rw [hSame] at h
    exact Or.inl h
  · generalize next s event = s' at h hMoves
    cases hMoves with
    | take hFree hQueue =>
        rcases fetching_setTask h with hBefore | ⟨-, hFetch | hFetch⟩
        · exact Or.inl hBefore
        · exact absurd hFetch (by simp)
        · exact absurd hFetch (by simp)
    | spawn hTask =>
        rcases fetching_setTask h with hBefore | ⟨-, hFetch | hFetch⟩
        · exact Or.inl hBefore
        · exact absurd hFetch (by simp)
        · exact absurd hFetch (by simp)
    | leave =>
        rcases fetching_setTask h with hBefore | ⟨-, hFetch | hFetch⟩
        · exact Or.inl hBefore
        · exact absurd hFetch (by simp)
        · exact absurd hFetch (by simp)
    | checkPools hTask hListed hAbsent =>
        rcases fetching_setTask h with hBefore | ⟨rfl, hFetch | hFetch⟩
        · exact Or.inl hBefore
        · obtain rfl := Fetch.checkingStore.inj (Option.some.inj hFetch)
          exact Or.inr ⟨rfl, hTask, hListed, hAbsent⟩
        · exact absurd hFetch (by simp)
    | checkStore hTask =>
        rcases fetching_setTask h with hBefore | ⟨rfl, hFetch | hFetch⟩
        · exact Or.inl hBefore
        · exact absurd hFetch (by simp)
        · obtain rfl := Fetch.fetching.inj (Option.some.inj hFetch)
          exact Or.inl (Or.inl hTask)
    | @reply other pool code hTask =>
        rcases fetching_setTask h with hBefore | ⟨-, hFetch | hFetch⟩
        · unfold Fetching at hBefore
          rw [(receive_fields s pool code).2.2.2] at hBefore
          exact Or.inl hBefore
        · exact absurd hFetch (by simp)
        · exact absurd hFetch (by simp)
    | _ => exact Or.inl h

theorem mem_insertCode {codes : List (Address × List UInt8)} {new entry : Address × List UInt8}
    (h : entry ∈ insertCode codes new) : entry ∈ codes ∨ entry = new := by
  rcases List.mem_cons.mp h with hNew | hOld
  · exact Or.inr hNew
  · exact Or.inl (List.mem_of_mem_filter hOld)

/-- A reply caches a scanned code, or poisons the account. -/
theorem receive_spec {code : Option (List UInt8)} {other : Address} {cached : List UInt8}
    (h : (other, cached) ∈ (s.receive account code).bytecodes) :
    (other, cached) ∈ s.bytecodes ∨ other = account ∧ code = some cached ∧ cached ≠ [] ∧
      isMaliciousBytecode cached = false := by
  unfold Store.receive at h
  split at h
  · exact Or.inl h
  next bytes =>
    split at h
    · exact Or.inl h
    next hNonempty =>
      split at h
      · exact Or.inl h
      next hScan =>
        rcases mem_insertCode h with hOld | hNew
        · exact Or.inl hOld
        · obtain ⟨rfl, rfl⟩ := Prod.mk.inj hNew
          exact Or.inr ⟨rfl, rfl, hNonempty, by simpa using hScan⟩

theorem receive_poisons {code : Option (List UInt8)} {other : Address}
    (h : other ∈ (s.receive account code).poisoned) :
    other ∈ s.poisoned ∨ other = account ∧ ∃ bytes, code = some bytes ∧
      isMaliciousBytecode bytes = true := by
  unfold Store.receive at h
  split at h
  · exact Or.inl h
  next bytes =>
    split at h
    · exact Or.inl h
    · split at h
      next hScan =>
        rcases List.mem_cons.mp h with hNew | hOld
        · exact Or.inr ⟨hNew, bytes, rfl, hScan⟩
        · exact Or.inl hOld
      next => exact Or.inl h

/-- A code comes into the store only by a reply. -/
theorem cached_next {code : List UInt8} (h : (account, code) ∈ (next s event).bytecodes) :
    (account, code) ∈ s.bytecodes ∨
      ∃ task, event = .reply task (some code) ∧ s.tasks task = some (.fetching account) ∧
        code ≠ [] ∧ isMaliciousBytecode code = false := by
  rcases next_moves s event with hSame | hMoves
  · rw [hSame] at h
    exact Or.inl h
  · generalize next s event = s' at h hMoves
    cases hMoves with
    | @reply task pool reply hTask =>
        rcases receive_spec h with hOld | ⟨rfl, rfl, hScanned⟩
        · exact Or.inl hOld
        · exact Or.inr ⟨task, rfl, hTask, hScanned⟩
    | pruneCode => exact Or.inl (List.mem_of_mem_filter h)
    | _ => exact Or.inl h

/-- An account is poisoned only by a reply. -/
theorem poisoned_next (h : account ∈ (next s event).poisoned) :
    account ∈ s.poisoned ∨
      ∃ task code, event = .reply task (some code) ∧ s.tasks task = some (.fetching account) ∧
        isMaliciousBytecode code = true := by
  rcases next_moves s event with hSame | hMoves
  · rw [hSame] at h
    exact Or.inl h
  · generalize next s event = s' at h hMoves
    cases hMoves with
    | @reply task pool reply hTask =>
        rcases receive_poisons h with hOld | ⟨rfl, code, rfl, hScan⟩
        · exact Or.inl hOld
        · exact Or.inr ⟨task, code, rfl, hTask, hScan⟩
    | _ => exact Or.inl h

theorem setPool_ne_none {pool : Address} {entry : Option Aged}
    (hKept : s.pools pool ≠ none → entry ≠ none) (h : s.pools account ≠ none) :
    (s.setPool pool entry).pools account ≠ none := by
  show Function.update s.pools pool entry account ≠ none
  by_cases hPool : account = pool
  · subst hPool
    rw [Function.update_self]
    exact hKept h
  · rw [Function.update_of_ne hPool]
    exact h

/-- No event removes a core pool. -/
theorem core_next (hCore : account ∈ corePools) (h : s.pools account ≠ none) :
    (next s event).pools account ≠ none := by
  rcases next_moves s event with hSame | hMoves
  · rw [hSame]
    exact h
  · generalize next s event = s' at hMoves
    cases hMoves with
    | announce => exact setPool_ne_none (fun _ => Option.some_ne_none _) h
    | mark hKept => exact setPool_ne_none hKept h
    | write hKept => exact setPool_ne_none hKept h
    | @remove _ pool hOther =>
        have hNe : account ≠ pool := by
          rintro rfl
          exact hOther hCore
        show Function.update s.pools pool none account ≠ none
        rw [Function.update_of_ne hNe]
        exact h
    | @reply _ pool code =>
        show (s.receive pool code).pools account ≠ none
        rw [(receive_fields s pool code).1]
        exact h
    | _ => exact h

end Next

/-! ## Runs -/

/-- What a fetch that asks for the code of an account has found itself. -/
structure Vetted (past : List Transition) (task : Nat) (account : Address) : Prop where
  unlisted : ¬ Whitelisted account
  /-- The task has been at this fetch since its check; the worker takes announced pools only. -/
  found : ∃ earlier tr since, past = earlier ++ tr :: since ∧ FindsUnmirrored task account tr ∧
    (task = 0 → RemovedSince earlier account) ∧ ∀ later ∈ since, Fetching later.after task account

/-- The code is the reply to such a fetch. -/
def Fetched (past : List Transition) (account : Address) (code : List UInt8) : Prop :=
  ∃ earlier tr later task, past = earlier ++ tr :: later ∧ tr.event = .reply task (some code) ∧
    tr.before.tasks task = some (.fetching account) ∧ Vetted earlier task account

/-- Where the entries of the store come from. -/
structure Sourced (chain : Address → List UInt8) (restored : List (Address × List UInt8))
    (past : List Transition) (s : Store) : Prop where
  cached : ∀ account code, (account, code) ∈ s.bytecodes → (account, code) ∈ restored ∨
    (code = chain account ∧ code ≠ [] ∧ isMaliciousBytecode code = false ∧
      Fetched past account code)
  poisoned : ∀ account ∈ s.poisoned, isMaliciousBytecode (chain account) = true ∧
    Fetched past account (chain account)

/-- The node answers with the code of the chain. -/
def Faithful (chain : Address → List UInt8) (s : Store) (event : Event) : Prop :=
  ∀ task account code, event = .reply task (some code) →
    s.tasks task = some (.fetching account) → code = chain account

/-- What holds of a step after the steps before it. -/
structure Lawful (chain : Address → List UInt8) (restored : List (Address × List UInt8))
    (past : List Transition) (tr : Transition) : Prop where
  /-- Whatever code is being asked for. -/
  requested : ∀ task account, tr.after.tasks task = some (.fetching account) →
    Vetted (past ++ [tr]) task account
  sourced : Sourced chain restored (past ++ [tr]) tr.after
  core : ∀ pool ∈ corePools, tr.before.pools pool ≠ none → tr.after.pools pool ≠ none

structure Inv (chain : Address → List UInt8) (restored : List (Address × List UInt8))
    (past : List Transition) (s : Store) : Prop where
  queued : ∀ pool, Queued s pool → Announced past pool ∧
    (s.pools pool ≠ none ∨ RemovedSince past pool)
  fetching : ∀ task account, Fetching s task account → Vetted past task account
  sourced : Sourced chain restored past s

section Run

variable {chain : Address → List UInt8} {restored : List (Address × List UInt8)}
  {past : List Transition} {s : Store} {event : Event}

/-- A fetch that goes on keeps what it has found. -/
theorem Vetted.snoc {task : Nat} {account : Address} {tr : Transition}
    (h : Vetted past task account) (hFetching : Fetching tr.after task account) :
    Vetted (past ++ [tr]) task account where
  unlisted := h.unlisted
  found := by
    obtain ⟨earlier, check, since, rfl, hFinds, hRemoved, hSince⟩ := h.found
    refine ⟨earlier, check, since ++ [tr], by simp, hFinds, hRemoved, fun later hMem => ?_⟩
    rcases List.mem_append.mp hMem with hBefore | hLast
    · exact hSince later hBefore
    · rw [List.mem_singleton.mp hLast]
      exact hFetching

theorem Fetched.snoc {account : Address} {code : List UInt8} {tr : Transition}
    (h : Fetched past account code) : Fetched (past ++ [tr]) account code := by
  obtain ⟨earlier, reply, later, task, rfl, hReply⟩ := h
  exact ⟨earlier, reply, later ++ [tr], task, by simp, hReply⟩

/-- The transition of an event. -/
abbrev transition (s : Store) (event : Event) : Transition := (step s event).output

/-- A queued pool is still mirrored, or was removed on the way. -/
theorem Inv.queued_next (h : Inv chain restored past s) {pool : Address}
    (hQueued : Queued (next s event) pool) :
    Announced (past ++ [transition s event]) pool ∧
      ((next s event).pools pool ≠ none ∨ RemovedSince (past ++ [transition s event]) pool) := by
  rcases BytecodeStore.queued_next hQueued with
    hBefore | ⟨⟨aerodrome, now, hEvent, hIdle⟩, hMirrored⟩
  · obtain ⟨hAnnounced, hMirrored | hRemoved⟩ := h.queued pool hBefore
    · refine ⟨hAnnounced.snoc, ?_⟩
      by_cases hGone : (next s event).pools pool = none
      · exact Or.inr (RemovedSince.of_removes hAnnounced ⟨hMirrored, hGone⟩)
      · exact Or.inl hGone
    · exact ⟨hAnnounced.snoc, Or.inr hRemoved.snoc⟩
  · exact ⟨⟨transition s event, by simp, aerodrome, now, hEvent, hIdle⟩, Or.inl hMirrored⟩

/-- A fetch gets past the first check only for an account that is not mirrored. -/
theorem Inv.fetching_next (h : Inv chain restored past s) {task : Nat} {account : Address}
    (hFetching : Fetching (next s event) task account) :
    Vetted (past ++ [transition s event]) task account := by
  rcases BytecodeStore.fetching_next hFetching with hBefore | ⟨hEvent, hTask, hListed, hAbsent⟩
  · exact (h.fetching task account hBefore).snoc hFetching
  · refine ⟨hListed, past, transition s event, [], rfl, ⟨hEvent, hTask, hAbsent⟩, ?_, by simp⟩
    rintro rfl
    obtain ⟨-, hMirrored | hRemoved⟩ := h.queued account (Or.inr (Or.inr hTask))
    · exact absurd hAbsent hMirrored
    · exact hRemoved

theorem Inv.sourced_next (h : Inv chain restored past s) (hReply : Faithful chain s event) :
    Sourced chain restored (past ++ [transition s event]) (next s event) where
  cached account code hMem := by
    rcases cached_next hMem with hOld | ⟨task, hEvent, hTask, hNonempty, hScan⟩
    · rcases h.sourced.cached account code hOld with hDisk | ⟨hChain, hNonempty, hScan, hFetched⟩
      · exact Or.inl hDisk
      · exact Or.inr ⟨hChain, hNonempty, hScan, hFetched.snoc⟩
    · have hVetted := h.fetching task account (Or.inr hTask)
      exact Or.inr ⟨hReply task account code hEvent hTask, hNonempty, hScan,
        past, transition s event, [], task, rfl, hEvent, hTask, hVetted⟩
  poisoned account hMem := by
    rcases poisoned_next hMem with hOld | ⟨task, code, hEvent, hTask, hScan⟩
    · obtain ⟨hScan, hFetched⟩ := h.sourced.poisoned account hOld
      exact ⟨hScan, hFetched.snoc⟩
    · have hVetted := h.fetching task account (Or.inr hTask)
      obtain rfl := hReply task account code hEvent hTask
      exact ⟨hScan, past, transition s event, [], task, rfl, hEvent, hTask, hVetted⟩

/-- **One step.** -/
theorem Inv.step (h : Inv chain restored past s) (hReply : Faithful chain s event) :
    Lawful chain restored past (transition s event) ∧
      Inv chain restored (past ++ [transition s event]) (next s event) := by
  have hNext : Inv chain restored (past ++ [transition s event]) (next s event) :=
    ⟨fun _ hQueued => h.queued_next hQueued, fun _ _ hFetching => h.fetching_next hFetching,
      h.sourced_next hReply⟩
  exact ⟨⟨fun task account hTask => hNext.fetching task account (Or.inr hTask), hNext.sourced,
    fun pool hCore hMirrored => core_next hCore hMirrored⟩, hNext⟩

theorem mem_initial {entry : Address × List UInt8} {pools : Address → Option Aged}
    (h : entry ∈ (initial restored pools).bytecodes) : entry ∈ restored := by
  have hFold : ∀ (rest codes : List (Address × List UInt8)),
      entry ∈ rest.foldl insertCode codes → entry ∈ codes ∨ entry ∈ rest := by
    intro rest
    induction rest with
    | nil => exact fun codes hMem => Or.inl hMem
    | cons first rest ih =>
        intro codes hMem
        rcases ih (insertCode codes first) hMem with hCodes | hRest
        · rcases mem_insertCode hCodes with hOld | rfl
          · exact Or.inl hOld
          · exact Or.inr List.mem_cons_self
        · exact Or.inr (List.mem_cons_of_mem _ hRest)
  exact (hFold restored [] h).resolve_left List.not_mem_nil

theorem inv_initial (pools : Address → Option Aged) :
    Inv chain restored [] (initial restored pools) where
  queued pool hQueued := by
    rcases hQueued with ⟨_, hFeed⟩ | hMem | hTask
    · exact absurd hFeed (by simp [initial])
    · exact absurd hMem (by simp [initial])
    · exact absurd hTask (by simp [initial])
  fetching task account hFetching := by
    rcases hFetching with hTask | hTask
    · exact absurd hTask (by simp [initial])
    · exact absurd hTask (by simp [initial])
  sourced :=
    { cached := fun _ _ hMem => Or.inl (mem_initial hMem)
      poisoned := fun _ hMem => absurd hMem (by simp [initial]) }

/-- **The store in any run.**  A fetch asks only for the code of an account on no whitelist that
its own check did not find in the mirror; the worker asks only for pools that had left the mirror
after they were announced.  What is cached was restored or is unmarked code of the chain, what is
poisoned has marked code, and both are replies to such fetches.  A core pool stays mirrored. -/
theorem run_store (pools : Address → Option Aged) {events : List Event}
    (hReplies : Allowed step (Faithful chain) (initial restored pools) events) :
    Throughout (Lawful chain restored) (outputs step (initial restored pools) events) := by
  refine outputs_throughout (Inv chain restored) ?_ (inv_initial pools) hReplies
  intro past s event hInv hReply
  obtain ⟨hLawful, hNext⟩ := hInv.step hReply
  refine ⟨hLawful, fun s' hStep => ?_⟩
  obtain rfl := Option.some.inj hStep
  exact hNext

end Run

/-! ## A run -/

/-- A pool with a jail in its code is announced, filtered out while it is queued, and fetched
then. -/
def jailedPool : List Event :=
  [.announce 0x11 false 0, .enqueue, .drop 0x11, .take, .checkPools 0, .checkStore 0,
    .reply 0 (some [0x33, 0x54, 0xfd])]

theorem jailedPool_faithful (pools : Address → Option Aged) :
    Allowed step (Faithful fun _ => [0x33, 0x54, 0xfd]) (initial [] pools) jailedPool := by
  apply allowed_of_forall
  intro event hEvent s task account code hReply _
  rw [hReply] at hEvent
  simp only [jailedPool, List.mem_cons, reduceCtorEq, Event.reply.injEq, Option.some.injEq,
    List.not_mem_nil, or_false, false_or] at hEvent
  exact hEvent.2

theorem run_store_jailedPool :
    Throughout (Lawful (fun _ => [0x33, 0x54, 0xfd]) [])
        (outputs step (initial [] fun _ => none) jailedPool) ∧
      (outputs step (initial [] fun _ => none) jailedPool).map
        (fun tr => tr.after.isPoisoned 0x11) = [false, false, false, false, false, false, true] :=
  ⟨run_store (fun _ => none) (jailedPool_faithful fun _ => none), by decide⟩

end SovereignShadow.Ports.BytecodeStore
