import SovereignShadow.Ports.MirrorSync
import SovereignShadow.Verified.Runs

/-!
# Freshness of the mirror

Log updates, block steps and multicall syncs write one pool table in any order.  A log
stamps its entry with the current block when it is applied; a sync stamps every entry
with the block that was current when the sync started, and writes it whatever the entry
holds by then.  So a sync can turn a stamp back and put an older observation over the
reserves of a newer log.

A run is a list of events.  Beside the fields of the mirror its state carries history
variables: the chain position of the last log, the last log of each pool, and for each
sync the stamps written since its start and the logs applied since its observation.  The
entries of a batch are written one event each, since other tasks run between them.

## Main results

* `Inv.next` — every stamp is that of the start of a sync or of a later write.
* `run_kept` — a run keeps stamps and logs where no sync writes over a later stamp or log.
-/

namespace SovereignShadow.Ports.MirrorFreshness

open SovereignShadow.Verified.Runs
open SovereignShadow.Ports.Models
open SovereignShadow.Ports.Mirror
open SovereignShadow.Ports.MirrorSync

/-! ## State -/

/-- A call of `sync_batch_with_jitter`, between two of its chunks or inside one. -/
structure SyncTask where
  /-- `current_block`, read at the start. -/
  startBlock : Nat
  /-- The chain point of the observation that is being applied. -/
  point : Nat
  updates : List (Address × MirrorEntry)
  toPrune : List Address
  /-- History: the stamps written since the start. -/
  writes : List (Address × Nat)
  /-- History: the positions of the logs applied since the observation. -/
  logs : List (Address × Nat)

structure MirrorState where
  pools : PoolTable
  currentBlock : Nat
  tasks : Nat → Option SyncTask
  /-- History: the chain position of the last log. -/
  applied : Nat
  /-- History: the chain position of the last log that wrote a pool. -/
  lastLog : Address → Nat

/-- A mirror before any sync and any log. -/
def MirrorState.initial (pools : PoolTable) (currentBlock : Nat) : MirrorState where
  pools
  currentBlock
  tasks _ := none
  applied := 0
  lastLog _ := 0

/-! ## Events -/

inductive Event where
  | v2Log (position : Nat) (pool : Address) (r0 r1 : U256)
  | v3Log (position : Nat) (pool : Address) (sqrtPrice : U256) (tick : Int) (liquidity : U256)
  | syncBlock (number : Nat)
  | start (task : Nat)
  /-- The reply of a multicall, with the chain point that it shows. -/
  | observe (task point : Nat) (chunk : List (Address × DexType))
      (results : List MulticallResult)
  /-- The next entry of `batch_update_reserves`. -/
  | applyNext (task : Nat)
  /-- The next removal from `to_prune`. -/
  | pruneNext (task : Nat)
  | finish (task : Nat)

/-- The table after a write to `pool`, noted by every sync. -/
def MirrorState.write (s : MirrorState) (pool : Address) (pools : PoolTable) : MirrorState :=
  { s with
    pools
    tasks := fun k => (s.tasks k).map fun t =>
      { t with writes :=
          ((pools pool).map fun e => (pool, e.lastUpdatedBlock)).toList ++ t.writes } }

/-- The table after a log update of `pool`; a pool that is not mirrored is not written. -/
def MirrorState.log (s : MirrorState) (position : Nat) (pool : Address) (pools : PoolTable) :
    MirrorState :=
  match s.pools pool with
  | none => { s with applied := position }
  | some _ =>
      let s := s.write pool pools
      { s with
        applied := position
        lastLog := Function.update s.lastLog pool position
        tasks := fun k => (s.tasks k).map fun t => { t with logs := (pool, position) :: t.logs } }

def MirrorState.setTask (s : MirrorState) (task : Nat) (t : Option SyncTask) : MirrorState :=
  { s with tasks := Function.update s.tasks task t }

/-- The transition; an event of a task that is not there does nothing. -/
def next (decoders : Decoders) (s : MirrorState) : Event → MirrorState
  | .v2Log position pool r0 r1 =>
      s.log position pool (updateV2Reserves s.pools s.currentBlock pool r0 r1)
  | .v3Log position pool sqrtPrice tick liquidity =>
      s.log position pool (updateV3State s.pools s.currentBlock pool sqrtPrice tick liquidity)
  | .syncBlock number => { s with currentBlock := number }
  | .start task =>
      s.setTask task (some { startBlock := s.currentBlock, point := 0, updates := []
                             toPrune := [], writes := [], logs := [] })
  | .observe task point chunk results =>
      match s.tasks task with
      | none => s
      | some t =>
          let applied := appliedDecisions chunk (decideChunk decoders t.startBlock chunk results)
          s.setTask task
            (some { t with point, updates := applied.1, toPrune := applied.2, logs := [] })
  | .applyNext task =>
      match s.tasks task with
      | none => s
      | some t =>
          match t.updates with
          | [] => s
          | update :: rest =>
              (s.setTask task (some { t with updates := rest })).write update.1
                (updateEntry s.pools update)
  | .pruneNext task =>
      match s.tasks task with
      | none => s
      | some t =>
          match t.updates, t.toPrune with
          | [], pool :: rest =>
              { s.setTask task (some { t with toPrune := rest }) with
                pools := removePool s.pools pool
                lastLog := Function.update s.lastLog pool 0 }
          | _, _ => s
  | .finish task => s.setTask task none

/-- The interleavings: logs come in chain order, block numbers increase, and an
observation shows at least the logs applied before it. -/
def Valid (s : MirrorState) : Event → Prop
  | .v2Log position _ _ _ => s.applied < position
  | .v3Log position _ _ _ _ => s.applied < position
  | .syncBlock number => s.currentBlock < number
  | .start task => s.tasks task = none
  | .observe task point _ _ =>
      s.applied ≤ point ∧ ∀ t, s.tasks task = some t → t.updates = [] ∧ t.toPrune = []
  | _ => True

/-! ## Freshness -/

/-- What a step leaves of the table. -/
structure Transition where
  before : MirrorState
  event : Event
  after : MirrorState

/-- No stamp goes back. -/
def StampsKept (tr : Transition) : Prop :=
  ∀ pool e e', tr.before.pools pool = some e → tr.after.pools pool = some e' →
    e.lastUpdatedBlock ≤ e'.lastUpdatedBlock

/-- The same reserves and the same V3 state. -/
structure SameState (e e' : MirrorEntry) : Prop where
  reserves0 : e'.reserves0 = e.reserves0
  reserves1 : e'.reserves1 = e.reserves1
  sqrtPriceX96 : e'.sqrtPriceX96 = e.sqrtPriceX96
  tick : e'.tick = e.tick
  liquidity : e'.liquidity = e.liquidity

/-- An observation older than the last log of a pool leaves the pool's state. -/
def LogsKept (tr : Transition) : Prop :=
  ∀ task t update rest e, tr.event = .applyNext task → tr.before.tasks task = some t →
    t.updates = update :: rest → t.point < tr.before.lastLog update.1 →
      tr.before.pools update.1 = some e →
        ∃ e', tr.after.pools update.1 = some e' ∧ SameState e e'

/-- The condition on a step: an entry is applied only where every stamp written to its
pool since the sync started is at most the sync's own, and every log of the pool applied
since the observation is no newer than it. -/
def NotOvertaken (s : MirrorState) : Event → Prop
  | .applyNext task => ∀ t update rest, s.tasks task = some t → t.updates = update :: rest →
      (∀ stamp, (update.1, stamp) ∈ t.writes → stamp ≤ t.startBlock) ∧
        ∀ position, (update.1, position) ∈ t.logs → position ≤ t.point
  | _ => True

def step (decoders : Decoders) (s : MirrorState) (event : Event) :
    Step MirrorState Transition where
  output := { before := s, event, after := next decoders s event }
  next := some (next decoders s event)

/-! ## What one event does -/

section Inversion

variable (decoders : Decoders) (s : MirrorState)

theorem next_observe (task point : Nat) (chunk : List (Address × DexType))
    (results : List MulticallResult) :
    next decoders s (.observe task point chunk results) = s ∨
      ∃ t, s.tasks task = some t ∧
        next decoders s (.observe task point chunk results) =
          s.setTask task (some { t with
            point
            updates :=
              (appliedDecisions chunk (decideChunk decoders t.startBlock chunk results)).1
            toPrune :=
              (appliedDecisions chunk (decideChunk decoders t.startBlock chunk results)).2
            logs := [] }) := by
  cases hTask : s.tasks task with
  | none => exact Or.inl (by simp only [next, hTask])
  | some t => exact Or.inr ⟨t, rfl, by simp only [next, hTask]⟩

theorem next_applyNext (task : Nat) :
    next decoders s (.applyNext task) = s ∨
      ∃ t update rest, s.tasks task = some t ∧ t.updates = update :: rest ∧
        next decoders s (.applyNext task) =
          (s.setTask task (some { t with updates := rest })).write update.1
            (updateEntry s.pools update) := by
  cases hTask : s.tasks task with
  | none => exact Or.inl (by simp only [next, hTask])
  | some t =>
      cases hUpdates : t.updates with
      | nil => exact Or.inl (by simp only [next, hTask, hUpdates])
      | cons update rest =>
          exact Or.inr ⟨t, update, rest, rfl, hUpdates, by simp only [next, hTask, hUpdates]⟩

theorem next_pruneNext (task : Nat) :
    next decoders s (.pruneNext task) = s ∨
      ∃ t pool rest, s.tasks task = some t ∧
        next decoders s (.pruneNext task) =
          { s.setTask task (some { t with toPrune := rest }) with
            pools := removePool s.pools pool
            lastLog := Function.update s.lastLog pool 0 } := by
  cases hTask : s.tasks task with
  | none => exact Or.inl (by simp only [next, hTask])
  | some t =>
      simp only [next, hTask]
      split
      case h_1 pool rest _ _ => exact Or.inr ⟨t, pool, rest, rfl, rfl⟩
      case h_2 => exact Or.inl rfl

end Inversion

/-! ## The invariant -/

structure TaskInv (s : MirrorState) (t : SyncTask) : Prop where
  start_le : t.startBlock ≤ s.currentBlock
  updates_stamp : ∀ update ∈ t.updates, update.2.lastUpdatedBlock = t.startBlock
  stamps : ∀ pool e, s.pools pool = some e →
    e.lastUpdatedBlock ≤ t.startBlock ∨ (pool, e.lastUpdatedBlock) ∈ t.writes
  logs : t.updates = [] ∨
    ∀ pool, s.lastLog pool ≤ t.point ∨ (pool, s.lastLog pool) ∈ t.logs

structure Inv (s : MirrorState) : Prop where
  stamp_le : ∀ pool e, s.pools pool = some e → e.lastUpdatedBlock ≤ s.currentBlock
  lastLog_le : ∀ pool, s.lastLog pool ≤ s.applied
  task : ∀ k t, s.tasks k = some t → TaskInv s t

section Stamps

theorem mergeEntry_stamp (existing state : MirrorEntry) :
    (mergeEntry existing state).lastUpdatedBlock = state.lastUpdatedBlock := by
  unfold mergeEntry
  split <;> split <;> rfl

theorem updateEntry_stamp {pools : PoolTable} {update : Address × MirrorEntry} {e : MirrorEntry}
    (h : updateEntry pools update update.1 = some e) :
    e.lastUpdatedBlock = update.2.lastUpdatedBlock := by
  rw [updateEntry, Function.update_self] at h
  obtain rfl := Option.some.inj h
  split
  · rfl
  · exact mergeEntry_stamp _ _

theorem updateV2Reserves_stamp {pools : PoolTable} {block : Nat} {pool : Address} {r0 r1 : U256}
    {e : MirrorEntry} (h : updateV2Reserves pools block pool r0 r1 pool = some e) :
    e.lastUpdatedBlock = block := by
  rw [updateV2Reserves, Function.update_self] at h
  obtain ⟨_, _, rfl⟩ := Option.map_eq_some_iff.mp h
  rfl

theorem updateV3State_stamp {pools : PoolTable} {block : Nat} {pool : Address}
    {sqrtPrice : U256} {tick : Int} {liquidity : U256} {e : MirrorEntry}
    (h : updateV3State pools block pool sqrtPrice tick liquidity pool = some e) :
    e.lastUpdatedBlock = block := by
  rw [updateV3State, Function.update_self] at h
  obtain ⟨_, _, rfl⟩ := Option.map_eq_some_iff.mp h
  rfl

theorem updateEntry_other {pools : PoolTable} {update : Address × MirrorEntry} {p : Address}
    (h : p ≠ update.1) : updateEntry pools update p = pools p :=
  Function.update_of_ne h _ _

end Stamps

section Steps

variable {s : MirrorState} (hs : Inv s)
include hs

theorem Inv.setTask (task : Nat) {t : Option SyncTask} (ht : ∀ t', t = some t' → TaskInv s t') :
    Inv (s.setTask task t) where
  stamp_le := hs.stamp_le
  lastLog_le := hs.lastLog_le
  task k t' hk := by
    have hTask : TaskInv s t' := by
      by_cases hSame : k = task
      · subst hSame
        exact ht t' (by simpa [MirrorState.setTask] using hk)
      · exact hs.task k t' (by simpa [MirrorState.setTask, hSame] using hk)
    exact ⟨hTask.start_le, hTask.updates_stamp, hTask.stamps, hTask.logs⟩

/-- A write of one entry, stamped at most with the current block. -/
theorem Inv.write {pool : Address} {pools : PoolTable}
    (hOther : ∀ p, p ≠ pool → pools p = s.pools p)
    (hStamp : ∀ e, pools pool = some e → e.lastUpdatedBlock ≤ s.currentBlock) :
    Inv (s.write pool pools) where
  stamp_le p e he := by
    by_cases hSame : p = pool
    · subst hSame
      exact hStamp e he
    · exact hs.stamp_le p e ((hOther p hSame).symm.trans he)
  lastLog_le := hs.lastLog_le
  task k t hk := by
    obtain ⟨t, ht, rfl⟩ := Option.map_eq_some_iff.mp hk
    have hTask := hs.task k t ht
    constructor
    case start_le => exact hTask.start_le
    case updates_stamp => exact hTask.updates_stamp
    case logs => exact hTask.logs
    case stamps =>
        intro p e he
        by_cases hSame : p = pool
        · subst hSame
          right
          have hHere : pools p = some e := he
          simp [hHere]
        · rcases hTask.stamps p e ((hOther p hSame).symm.trans he) with hLe | hMem
          · exact Or.inl hLe
          · exact Or.inr (List.mem_append_right _ hMem)

theorem Inv.log {position : Nat} (hOrder : s.applied < position) {pool : Address}
    {pools : PoolTable} (hOther : ∀ p, p ≠ pool → pools p = s.pools p)
    (hStamp : ∀ e, pools pool = some e → e.lastUpdatedBlock ≤ s.currentBlock) :
    Inv (s.log position pool pools) := by
  unfold MirrorState.log
  cases s.pools pool with
  | none =>
      constructor
      case stamp_le => exact hs.stamp_le
      case lastLog_le => exact fun p => (hs.lastLog_le p).trans hOrder.le
      case task =>
          intro k t hk
          have hTask := hs.task k t hk
          exact ⟨hTask.start_le, hTask.updates_stamp, hTask.stamps, hTask.logs⟩
  | some _ =>
      have hWritten := hs.write hOther hStamp
      constructor
      case stamp_le => exact hWritten.stamp_le
      case lastLog_le =>
          intro p
          by_cases hSame : p = pool
          · subst hSame
            simp
          · simpa [hSame] using (hWritten.lastLog_le p).trans hOrder.le
      case task =>
          intro k t hk
          obtain ⟨t, ht, rfl⟩ := Option.map_eq_some_iff.mp hk
          have hTask := hWritten.task k t ht
          refine ⟨hTask.start_le, hTask.updates_stamp, hTask.stamps, ?_⟩
          rcases hTask.logs with hNone | hAll
          · exact Or.inl hNone
          · right
            intro p
            by_cases hSame : p = pool
            · subst hSame
              right
              simp
            · rcases hAll p with hLe | hMem
              · exact Or.inl (by simpa [hSame] using hLe)
              · exact Or.inr (by simp [hSame, hMem])

theorem Inv.v2Log {position : Nat} (hOrder : s.applied < position) (pool : Address)
    (r0 r1 : U256) :
    Inv (s.log position pool (updateV2Reserves s.pools s.currentBlock pool r0 r1)) := by
  apply hs.log hOrder
  · intro p hp
    exact Function.update_of_ne hp _ _
  · intro e he
    exact (updateV2Reserves_stamp he).le

theorem Inv.v3Log {position : Nat} (hOrder : s.applied < position) (pool : Address)
    (sqrtPrice : U256) (tick : Int) (liquidity : U256) :
    Inv (s.log position pool
      (updateV3State s.pools s.currentBlock pool sqrtPrice tick liquidity)) := by
  apply hs.log hOrder
  · intro p hp
    exact Function.update_of_ne hp _ _
  · intro e he
    exact (updateV3State_stamp he).le

theorem Inv.remove (pool : Address) :
    Inv { s with
      pools := removePool s.pools pool
      lastLog := Function.update s.lastLog pool 0 } := by
  have hKept : ∀ p e, removePool s.pools pool p = some e → s.pools p = some e := by
    intro p e he
    by_cases hSame : p = pool
    · subst hSame
      rw [removePool, Function.update_self] at he
      exact absurd he (by simp)
    · rwa [removePool, Function.update_of_ne hSame] at he
  constructor
  case stamp_le => exact fun p e he => hs.stamp_le p e (hKept p e he)
  case lastLog_le =>
      intro p
      by_cases hSame : p = pool
      · subst hSame
        simp
      · simpa [hSame] using hs.lastLog_le p
  case task =>
      intro k t hk
      have hTask := hs.task k t hk
      refine ⟨hTask.start_le, hTask.updates_stamp,
        fun p e he => hTask.stamps p e (hKept p e he), ?_⟩
      rcases hTask.logs with hNone | hAll
      · exact Or.inl hNone
      · right
        intro p
        by_cases hSame : p = pool
        · subst hSame
          left
          simp
        · simpa [hSame] using hAll p

theorem Inv.syncBlock {number : Nat} (hLater : s.currentBlock ≤ number) :
    Inv { s with currentBlock := number } where
  stamp_le pool e he := (hs.stamp_le pool e he).trans hLater
  lastLog_le := hs.lastLog_le
  task k t hk := by
    have hTask := hs.task k t hk
    exact ⟨hTask.start_le.trans hLater, hTask.updates_stamp, hTask.stamps, hTask.logs⟩

/-- A fresh sync has nothing to apply. -/
theorem Inv.start (decoders : Decoders) (task : Nat) : Inv (next decoders s (.start task)) := by
  apply hs.setTask task
  intro t ht
  obtain rfl := Option.some.inj ht
  exact ⟨le_rfl, by simp, fun pool e he => Or.inl (hs.stamp_le pool e he), Or.inl rfl⟩

/-- The reply shows every log applied so far, so none counts as newer than it. -/
theorem Inv.observe (decoders : Decoders) {task point : Nat} (hShows : s.applied ≤ point)
    (chunk : List (Address × DexType)) (results : List MulticallResult) :
    Inv (next decoders s (.observe task point chunk results)) := by
  rcases next_observe decoders s task point chunk results with hSame | ⟨t, hTask, hNext⟩
  · rw [hSame]
    exact hs
  · have hOld := hs.task task t hTask
    rw [hNext]
    apply hs.setTask task
    intro t' ht'
    obtain rfl := Option.some.inj ht'
    refine ⟨hOld.start_le, fun update hUpdate => (updates_blank hUpdate).1, hOld.stamps, ?_⟩
    exact Or.inr fun pool => Or.inl ((hs.lastLog_le pool).trans hShows)

/-- An applied entry carries the stamp of its sync's start. -/
theorem Inv.applyNext (decoders : Decoders) (task : Nat) :
    Inv (next decoders s (.applyNext task)) := by
  rcases next_applyNext decoders s task with hSame | ⟨t, update, rest, hTask, hUpdates, hNext⟩
  · rw [hSame]
    exact hs
  · have hOld := hs.task task t hTask
    have hStamp := hOld.updates_stamp
    rw [hUpdates, List.forall_mem_cons] at hStamp
    have hSet : Inv (s.setTask task (some { t with updates := rest })) := by
      apply hs.setTask task
      intro t' ht'
      obtain rfl := Option.some.inj ht'
      refine ⟨hOld.start_le, hStamp.2, hOld.stamps, ?_⟩
      rcases hOld.logs with hNone | hAll
      · exact absurd (hUpdates.symm.trans hNone) (by simp)
      · exact Or.inr hAll
    rw [hNext]
    apply hSet.write
    · intro p hp
      exact updateEntry_other hp
    · intro e he
      rw [updateEntry_stamp he, hStamp.1]
      exact hOld.start_le

theorem Inv.pruneNext (decoders : Decoders) (task : Nat) :
    Inv (next decoders s (.pruneNext task)) := by
  rcases next_pruneNext decoders s task with hSame | ⟨t, pool, rest, hTask, hNext⟩
  · rw [hSame]
    exact hs
  · have hOld := hs.task task t hTask
    have hSet : Inv (s.setTask task (some { t with toPrune := rest })) := by
      apply hs.setTask task
      intro t' ht'
      obtain rfl := Option.some.inj ht'
      exact ⟨hOld.start_le, hOld.updates_stamp, hOld.stamps, hOld.logs⟩
    rw [hNext]
    exact hSet.remove pool

/-- **The invariant** is kept by every event of an interleaving. -/
theorem Inv.next (decoders : Decoders) {event : Event} (hValid : Valid s event) :
    Inv (next decoders s event) := by
  cases event with
  | v2Log position pool r0 r1 => exact hs.v2Log hValid pool r0 r1
  | v3Log position pool sqrtPrice tick liquidity =>
      exact hs.v3Log hValid pool sqrtPrice tick liquidity
  | syncBlock number => exact hs.syncBlock (Nat.le_of_lt hValid)
  | start task => exact hs.start decoders task
  | observe task point chunk results => exact hs.observe decoders hValid.1 chunk results
  | applyNext task => exact hs.applyNext decoders task
  | pruneNext task => exact hs.pruneNext decoders task
  | finish task => exact hs.setTask task fun t ht => absurd ht (by simp)

/-! ## One step -/

/-- A log update stamps with the current block. -/
theorem log_stamps {position : Nat} {pool : Address} {pools : PoolTable}
    (hOther : ∀ p, p ≠ pool → pools p = s.pools p)
    (hStamp : ∀ e, pools pool = some e → e.lastUpdatedBlock = s.currentBlock)
    {p : Address} {e e' : MirrorEntry} (he : s.pools p = some e)
    (he' : (s.log position pool pools).pools p = some e') :
    e.lastUpdatedBlock ≤ e'.lastUpdatedBlock := by
  unfold MirrorState.log at he'
  split at he'
  · obtain rfl := Option.some.inj (he.symm.trans he')
    exact le_rfl
  · by_cases hSame : p = pool
    · subst hSame
      rw [hStamp e' he']
      exact hs.stamp_le p e he
    · obtain rfl := Option.some.inj (he.symm.trans ((hOther p hSame).symm.trans he'))
      exact le_rfl

theorem stampsKept (decoders : Decoders) {event : Event} (hOk : NotOvertaken s event) :
    StampsKept { before := s, event, after := next decoders s event } := by
  intro pool e e' he he'
  have hSame : ∀ {pools : PoolTable}, pools pool = s.pools pool → pools pool = some e' →
      e.lastUpdatedBlock ≤ e'.lastUpdatedBlock := by
    intro pools hEq hSome
    obtain rfl := Option.some.inj (he.symm.trans (hEq.symm.trans hSome))
    exact le_rfl
  cases event with
  | v2Log position p r0 r1 =>
      exact log_stamps hs (fun q hq => Function.update_of_ne hq _ _)
        (fun e hE => updateV2Reserves_stamp hE) he he'
  | v3Log position p sqrtPrice tick liquidity =>
      exact log_stamps hs (fun q hq => Function.update_of_ne hq _ _)
        (fun e hE => updateV3State_stamp hE) he he'
  | syncBlock number => exact hSame rfl he'
  | start task => exact hSame rfl he'
  | observe task point chunk results =>
      have he' : (next decoders s (.observe task point chunk results)).pools pool = some e' := he'
      rcases next_observe decoders s task point chunk results with hStay | ⟨t, _, hNext⟩
      · rw [hStay] at he'
        exact hSame rfl he'
      · rw [hNext] at he'
        exact hSame rfl he'
  | applyNext task =>
      have he' : (next decoders s (.applyNext task)).pools pool = some e' := he'
      rcases next_applyNext decoders s task with
        hStay | ⟨t, update, rest, hTask, hUpdates, hNext⟩
      · rw [hStay] at he'
        exact hSame rfl he'
      · rw [hNext] at he'
        have hAfter : updateEntry s.pools update pool = some e' := he'
        by_cases hHere : pool = update.1
        · subst hHere
          have hOld := hs.task task t hTask
          have hStamp := hOld.updates_stamp update (by simp [hUpdates])
          rw [updateEntry_stamp hAfter, hStamp]
          rcases hOld.stamps _ e he with hLe | hMem
          · exact hLe
          · exact (hOk t update rest hTask hUpdates).1 _ hMem
        · exact hSame (updateEntry_other hHere) hAfter
  | pruneNext task =>
      have he' : (next decoders s (.pruneNext task)).pools pool = some e' := he'
      rcases next_pruneNext decoders s task with hStay | ⟨t, p, rest, _, hNext⟩
      · rw [hStay] at he'
        exact hSame rfl he'
      · rw [hNext] at he'
        have hAfter : removePool s.pools p pool = some e' := he'
        by_cases hHere : pool = p
        · subst hHere
          rw [removePool, Function.update_self] at hAfter
          exact absurd hAfter (by simp)
        · exact hSame (Function.update_of_ne hHere _ _) hAfter
  | finish task => exact hSame rfl he'

/-- No observation that is applied is older than a log of its pool. -/
theorem logsKept (decoders : Decoders) {event : Event} (hOk : NotOvertaken s event) :
    LogsKept { before := s, event, after := next decoders s event } := by
  rintro task t update rest e rfl hTask hUpdates hOlder he
  exfalso
  have hTask : s.tasks task = some t := hTask
  have hOlder : t.point < s.lastLog update.1 := hOlder
  rcases (hs.task task t hTask).logs with hNone | hAll
  · exact absurd (hUpdates.symm.trans hNone) (by simp)
  · rcases hAll update.1 with hLe | hMem
    · omega
    · have hNewer := (hOk t update rest hTask hUpdates).2 _ hMem
      omega

end Steps

/-! ## Runs -/

theorem Inv.initial {pools : PoolTable} {currentBlock : Nat}
    (hFresh : ∀ pool e, pools pool = some e → e.lastUpdatedBlock ≤ currentBlock) :
    Inv (MirrorState.initial pools currentBlock) where
  stamp_le := hFresh
  lastLog_le _ := le_rfl
  task k t hk := absurd hk (by simp [MirrorState.initial])

/-- **Every run** in which no sync is overtaken keeps stamps and logs. -/
theorem run_kept (decoders : Decoders) (pools : PoolTable) (currentBlock : Nat)
    (hFresh : ∀ pool e, pools pool = some e → e.lastUpdatedBlock ≤ currentBlock)
    (events : List Event)
    (hRun : Allowed (step decoders) (fun s event => Valid s event ∧ NotOvertaken s event)
      (MirrorState.initial pools currentBlock) events) :
    ∀ tr ∈ outputs (step decoders) (MirrorState.initial pools currentBlock) events,
      StampsKept tr ∧ LogsKept tr := by
  refine outputs_forall Inv ?_ (Inv.initial hFresh) hRun
  intro s event hs hOk
  refine ⟨⟨stampsKept hs decoders hOk.2, logsKept hs decoders hOk.2⟩, ?_⟩
  intro s' hs'
  obtain rfl := Option.some.inj hs'
  exact hs.next decoders hOk.1

/-- One V2 pool, written in block 1. -/
def oldPools : PoolTable := fun pool =>
  if pool = 0x22 then some (blankState 1 .uniswapV2) else none

theorem oldPools_stamp (pool : Address) (e : MirrorEntry) (h : oldPools pool = some e) :
    e.lastUpdatedBlock ≤ 1 := by
  unfold oldPools at h
  split at h
  · obtain rfl := Option.some.inj h
    exact le_rfl
  · exact absurd h (by simp)

def observePool : Event := .observe 0 0 [(0x22, .uniswapV2)] [⟨true, reservesData⟩]

/-- A sync that ends before the next log. -/
def quietRun : List Event :=
  [.start 0, observePool, .applyNext 0, .finish 0, .syncBlock 2, .v2Log 1 0x22 7 3]

theorem quietRun_allowed :
    Allowed (step wordDecoders) (fun s event => Valid s event ∧ NotOvertaken s event)
      (MirrorState.initial oldPools 1) quietRun := by
  have hUpdates : ∀ t, (next wordDecoders (next wordDecoders (MirrorState.initial oldPools 1)
      (.start 0)) observePool).tasks 0 = some t → t.writes = [] ∧ t.logs = [] := by
    intro t ht
    obtain rfl := Option.some.inj ht
    exact ⟨rfl, rfl⟩
  refine ⟨⟨rfl, trivial⟩, fun s hs => ?_⟩
  obtain rfl := Option.some.inj hs
  refine ⟨⟨⟨le_rfl, fun t ht => ?_⟩, trivial⟩, fun s hs => ?_⟩
  · obtain rfl := Option.some.inj ht
    exact ⟨rfl, rfl⟩
  obtain rfl := Option.some.inj hs
  refine ⟨⟨trivial, fun t update rest ht _ => ?_⟩, fun s hs => ?_⟩
  · obtain ⟨hWrites, hLogs⟩ := hUpdates t ht
    rw [hWrites, hLogs]
    simp
  obtain rfl := Option.some.inj hs
  refine ⟨⟨trivial, trivial⟩, fun s hs => ?_⟩
  obtain rfl := Option.some.inj hs
  refine ⟨⟨?_, trivial⟩, fun s hs => ?_⟩
  · show MirrorState.currentBlock _ < 2
    decide
  obtain rfl := Option.some.inj hs
  refine ⟨⟨?_, trivial⟩, fun _ _ => trivial⟩
  show MirrorState.applied _ < 1
  decide

theorem run_kept_quiet :
    Allowed (step wordDecoders) (fun s event => Valid s event ∧ NotOvertaken s event)
      (MirrorState.initial oldPools 1) quietRun ∧
    ∀ tr ∈ outputs (step wordDecoders) (MirrorState.initial oldPools 1) quietRun,
      StampsKept tr ∧ LogsKept tr :=
  ⟨quietRun_allowed, run_kept wordDecoders oldPools 1 oldPools_stamp quietRun quietRun_allowed⟩

/-- The sync observes, the log is applied in the next block, then the sync is. -/
def overtakenRun : List Event :=
  [.start 0, observePool, .syncBlock 2, .v2Log 1 0x22 7000000000000000000 3000000000000000000,
    .applyNext 0]

/-- The state before the sync is applied. -/
def overtakenState : MirrorState :=
  (overtakenRun.take 4).foldl (next wordDecoders) (MirrorState.initial oldPools 1)

theorem overtakenState_pool : overtakenState.pools 0x22 =
    some { blankState 2 .uniswapV2 with
      reserves0 := 7000000000000000000, reserves1 := 3000000000000000000 } := by
  decide

theorem overtakenState_updates : (overtakenState.tasks 0).map SyncTask.updates =
    some [(0x22, { blankState 1 .uniswapV2 with reserves0 := 18446744073709551616 })] := by
  decide

theorem overtakenState_after : (next wordDecoders overtakenState (.applyNext 0)).pools 0x22 =
    some { blankState 1 .uniswapV2 with reserves0 := 18446744073709551616 } := by
  decide

/-- The sync turns the stamp back and writes over the reserves of the log. -/
theorem not_run_kept :
    Allowed (step wordDecoders) Valid (MirrorState.initial oldPools 1) overtakenRun ∧
      ∃ tr ∈ outputs (step wordDecoders) (MirrorState.initial oldPools 1) overtakenRun,
        ¬ StampsKept tr ∧ ¬ LogsKept tr := by
  constructor
  · refine ⟨rfl, fun s hs => ?_⟩
    obtain rfl := Option.some.inj hs
    refine ⟨⟨le_rfl, fun t ht => ?_⟩, fun s hs => ?_⟩
    · obtain rfl := Option.some.inj ht
      exact ⟨rfl, rfl⟩
    obtain rfl := Option.some.inj hs
    refine ⟨?_, fun s hs => ?_⟩
    · show MirrorState.currentBlock _ < 2
      decide
    obtain rfl := Option.some.inj hs
    refine ⟨?_, fun s hs => ?_⟩
    · show MirrorState.applied _ < 1
      decide
    obtain rfl := Option.some.inj hs
    exact ⟨trivial, fun _ _ => trivial⟩
  · refine ⟨⟨overtakenState, .applyNext 0, next wordDecoders overtakenState (.applyNext 0)⟩,
      List.mem_of_getElem? (i := 4) rfl, ?_, ?_⟩
    · intro hStamps
      have hLe := hStamps 0x22 _ _ overtakenState_pool overtakenState_after
      exact absurd hLe (by decide)
    · intro hLogs
      obtain ⟨update, hUpdate⟩ : ∃ update, (overtakenState.tasks 0).map SyncTask.updates =
          some [(0x22, update)] := ⟨_, overtakenState_updates⟩
      obtain ⟨t, ht, hUpdates⟩ := Option.map_eq_some_iff.mp hUpdate
      have hPoint : t.point = 0 := by
        have hZero : (overtakenState.tasks 0).map SyncTask.point = some 0 := by decide
        rw [ht] at hZero
        exact Option.some.inj hZero
      have hOlder : t.point < overtakenState.lastLog 0x22 := by
        rw [hPoint]
        decide
      obtain ⟨e', he', hSame⟩ := hLogs 0 t _ _ _ rfl ht hUpdates hOlder overtakenState_pool
      obtain rfl := Option.some.inj (overtakenState_after.symm.trans he')
      exact absurd hSame.reserves0 (by decide)

end SovereignShadow.Ports.MirrorFreshness
