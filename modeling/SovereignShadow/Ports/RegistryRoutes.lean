import SovereignShadow.Ports.GenuineCycles
import SovereignShadow.Ports.SearchBounds

/-!
# What the detector searches

The graph of `rebuild_graph` is a table of indices, and the search over it marks pools in
a bitmap.  Over the registry the same search is a statement on addresses: a path swaps at
admitted pools, each at most once, from the second token of the event to the first.

The registry as a graph of addresses and the stored tables are two tables of one graph, so
they have the same routes.

## Main results

* `matches_registry` — the stored tables stand for the registry.
* `route_registry_iff` — the routes over the registry, as conditions on their hops.
* `searched_iff` — an event searches exactly the registry paths of its directions, and none
  of its tasks panics.
-/

namespace SovereignShadow.Ports.RegistryRoutes

open SovereignShadow.Verified.Bitmap
open SovereignShadow.Verified.Checked
open SovereignShadow.Verified.Routes
open SovereignShadow.Ports.Models
open SovereignShadow.Ports.Mirror
open SovereignShadow.Ports.CycleSearch
open SovereignShadow.Ports.GraphBuilder
open SovereignShadow.Ports.GraphInvariant
open SovereignShadow.Ports.Detector
open SovereignShadow.Ports.GenuineCycles
open SovereignShadow.Ports.SearchBounds

/-! ## The registry as a graph -/

/-- The hop from `tokenIn` to `tokenOut` at a pool. -/
def poolHop (mirror : StateMirror) (pool : Address) (dexName : DexName)
    (tokenIn tokenOut : Address) : Hop where
  pool
  poolAddress := pool
  tokenIn
  tokenOut
  isStable := ((mirror.pools pool).map PoolState.isStable).getD false
  dexType := hopDexType dexName
  dexName
  zeroForOne := decide (tokenIn < tokenOut)

/-- The hop over an adjacency entry of the token `t`. -/
def entryHop (mirror : StateMirror) (t : Address) (entry : PoolEdge) : Hop :=
  poolHop mirror entry.poolAddress entry.dexName t entry.tokenB

/-- Tokens and the adjacency entries of the admitted pools, keyed by pool. -/
def registryGraph (included : List IncludedPool) (mirror : StateMirror) :
    Graph Address PoolEdge Address Hop where
  out t := some (included.flatMap (adjAt t))
  key entry := some entry.poolAddress
  follow t entry := some (entryHop mirror t entry, entry.tokenB)

/-- The hop swaps at an admitted pool, one of its tokens for the other. -/
def SwapsAt (included : List IncludedPool) (mirror : StateMirror) (hop : Hop) : Prop :=
  ∃ pool ∈ included,
    (hop.tokenIn = pool.t0 ∧ hop.tokenOut = pool.t1 ∨
      hop.tokenIn = pool.t1 ∧ hop.tokenOut = pool.t0) ∧
    hop = poolHop mirror pool.address pool.dexName hop.tokenIn hop.tokenOut

theorem mem_adjAt_iff {included : List IncludedPool} {t : Address} {edge : PoolEdge} :
    edge ∈ included.flatMap (adjAt t) ↔ ∃ pool ∈ included,
      pool.t0 = t ∧ edge = ⟨pool.address, pool.t1, pool.dexName⟩ ∨
        pool.t1 = t ∧ edge = ⟨pool.address, pool.t0, pool.dexName⟩ := by
  rw [List.mem_flatMap]
  apply exists_congr
  intro pool
  apply and_congr_right
  intro _
  unfold adjAt
  rw [List.mem_append]
  split <;> split <;> simp_all

theorem swapsAt_iff {included : List IncludedPool} {mirror : StateMirror} {hop : Hop} :
    SwapsAt included mirror hop ↔ ∃ edge ∈ included.flatMap (adjAt hop.tokenIn),
      hop = entryHop mirror hop.tokenIn edge := by
  constructor
  · rintro ⟨pool, hPool, hTokens, hHop⟩
    refine ⟨⟨pool.address, hop.tokenOut, pool.dexName⟩, ?_, hHop⟩
    rw [mem_adjAt_iff]
    refine ⟨pool, hPool, ?_⟩
    rcases hTokens with ⟨hIn, hOut⟩ | ⟨hIn, hOut⟩
    · exact Or.inl ⟨hIn.symm, by rw [hOut]⟩
    · exact Or.inr ⟨hIn.symm, by rw [hOut]⟩
  · rintro ⟨edge, hEdge, hHop⟩
    have hOut : hop.tokenOut = edge.tokenB := congrArg Hop.tokenOut hHop
    obtain ⟨pool, hPool, hSide⟩ := mem_adjAt_iff.mp hEdge
    refine ⟨pool, hPool, ?_⟩
    rcases hSide with ⟨hIn, rfl⟩ | ⟨hIn, rfl⟩
    · exact ⟨Or.inl ⟨hIn.symm, hOut⟩, by rw [hOut]; exact hHop⟩
    · exact ⟨Or.inr ⟨hIn.symm, hOut⟩, by rw [hOut]; exact hHop⟩

/-! ## The stored tables -/

/-- The indices of a slice read the slice. -/
theorem map_range' {α : Type} {xs : List α} {lo n : Nat}
    (h : ∀ i ∈ List.range' lo n, i < xs.length) :
    (List.range' lo n).map (fun i => xs[i]?) = ((xs.drop lo).take n).map some := by
  induction n generalizing lo with
  | zero => rfl
  | succ n ih =>
      have hLo : lo < xs.length := h lo (by simp)
      have hRest : ∀ i ∈ List.range' (lo + 1) n, i < xs.length := by
        intro i hi
        apply h
        rw [List.range'_succ]
        exact List.mem_cons_of_mem _ hi
      rw [List.range'_succ, List.drop_eq_getElem_cons hLo, List.take_succ_cons, List.map_cons,
        List.map_cons, ih hRest, List.getElem?_eq_getElem hLo]

/-- The indices of an edge stand for an adjacency entry. -/
structure ReadEdge (g : StaticGraph) (edge : StaticEdge) (entry : PoolEdge) : Prop where
  pool : g.pools[edge.poolIdx]? = some entry.poolAddress
  token : g.tokens[edge.targetTokenIdx]? = some entry.tokenB
  dexName : edge.dexName = entry.dexName

theorem ReadEdge.unique {g : StaticGraph} {edge : StaticEdge} {entry entry' : PoolEdge}
    (h : ReadEdge g edge entry) (h' : ReadEdge g edge entry') : entry = entry' := by
  obtain ⟨pool, token, dexName⟩ := entry
  obtain ⟨pool', token', dexName'⟩ := entry'
  have hPool : pool = pool' := Option.some.inj (h.pool.symm.trans h'.pool)
  have hToken : token = token' := Option.some.inj (h.token.symm.trans h'.token)
  have hDex : dexName = dexName' := h.dexName.symm.trans h'.dexName
  rw [hPool, hToken, hDex]

def ReadsAs (g : StaticGraph) (i : Nat) (entry : PoolEdge) : Prop :=
  ∃ edge, g.edges[i]? = some edge ∧ ReadEdge g edge entry

theorem flatMap_edgesAt (included : List IncludedPool) (t : Address) :
    included.flatMap (edgesAt t) = (included.flatMap (adjAt t)).map
      fun entry => (some entry.poolAddress, some entry.tokenB, entry.dexName) := by
  rw [List.map_flatMap]
  congr 1
  funext pool
  unfold adjAt edgesAt
  split <;> split <;> rfl

theorem makeHop_eq {g : StaticGraph} {mirror : StateMirror} {u : Nat} {t : Address}
    (hu : g.tokens[u]? = some t) {edge : StaticEdge} {entry : PoolEdge}
    (hRead : ReadEdge g edge entry) :
    makeHop g mirror u edge = some (entryHop mirror t entry) := by
  simp [makeHop, hRead.pool, hRead.token, hRead.dexName, hu, entryHop, poolHop]

section Built

variable {included : List IncludedPool} {g : StaticGraph} (hBuilt : Built included g)
include hBuilt

/-- The row of a token reads as its adjacency list. -/
theorem row_reads {u : Nat} {t : Address} (hu : g.tokens[u]? = some t) :
    ∃ row, g.edgeRange u = some row ∧
      List.Forall₂ (ReadsAs g) row (included.flatMap (adjAt t)) := by
  obtain ⟨lo, hi, hLo, hHi, -, hRow⟩ := hBuilt.rows u t hu
  obtain ⟨row, hRange, -, hIn⟩ := hBuilt.wellFormed.edgeRange (List.getElem?_eq_some_iff.mp hu).1
  have hRow' : row = List.range' lo (hi - lo) := by
    simp only [StaticGraph.edgeRange, hLo, hHi, Option.bind_eq_bind, Option.bind_some,
      Option.some.injEq] at hRange
    exact hRange.symm
  refine ⟨row, hRange, ?_⟩
  subst hRow'
  have hRead : (List.range' lo (hi - lo)).map (fun i => (g.edges[i]?).map (readEdge g)) =
      (included.flatMap (adjAt t)).map fun entry =>
        some (some entry.poolAddress, some entry.tokenB, entry.dexName) := by
    have hSlice := congrArg (List.map (Option.map (readEdge g))) (map_range' hIn)
    rw [flatMap_edgesAt] at hRow
    have hTriples := congrArg (List.map some) hRow
    rw [List.map_map, List.map_map] at hSlice hTriples
    exact hSlice.trans hTriples
  rw [← List.forall₂_eq_eq_eq, List.forall₂_map_left_iff, List.forall₂_map_right_iff] at hRead
  apply hRead.imp
  intro i entry hEntry
  obtain ⟨edge, hEdge, hParts⟩ := Option.map_eq_some_iff.mp hEntry
  simp only [readEdge, Prod.mk.injEq] at hParts
  exact ⟨edge, hEdge, hParts.1, hParts.2.1, hParts.2.2⟩

/-- **The stored tables** stand for the registry, below the size of the bitmap. -/
theorem matches_registry (hPools : g.pools.length ≤ 4096) (mirror : StateMirror) :
    Matches (poolGraph g mirror) (registryGraph included mirror)
      (fun u t => g.tokens[u]? = some t) (fun i pool => g.pools[i]? = some pool) where
  out {u t} hu := by
    obtain ⟨row, hRange, hReads⟩ := row_reads hBuilt hu
    refine ⟨row, _, hRange, rfl, hReads.imp ?_⟩
    rintro i entry ⟨edge, hEdge, hRead⟩
    have hLt := (List.getElem?_eq_some_iff.mp hRead.pool).1
    have hKey := @key_of_edge g mirror i edge hEdge (by omega)
    exact ⟨edge.poolIdx, entry.poolAddress, _, edge.targetTokenIdx, entry.tokenB, hKey, rfl,
      hRead.pool, follow_of_hop hEdge (makeHop_eq hu hRead), rfl, hRead.token⟩
  vertex {u t v s} hu hv := by
    constructor
    · rintro rfl
      exact Option.some.inj (hu.symm.trans hv)
    · rintro rfl
      exact (List.getElem?_inj (List.getElem?_eq_some_iff.mp hu).1 hBuilt.tokens_nodup).mp
        (hu.trans hv.symm)
  key {i pool j other} hi hj := by
    constructor
    · rintro rfl
      exact Option.some.inj (hi.symm.trans hj)
    · rintro rfl
      exact (List.getElem?_inj (List.getElem?_eq_some_iff.mp hi).1 hBuilt.pools_nodup).mp
        (hi.trans hj.symm)

end Built

/-! ## Paths over the registry -/

/-- A path from `source` to `target`, which it meets at its end only, that swaps at
different admitted pools. -/
structure RegistryPath (included : List IncludedPool) (mirror : StateMirror)
    (source target : Address) (hops : List Hop) : Prop where
  nonempty : hops ≠ []
  starts : ∀ hop ∈ hops.head?, hop.tokenIn = source
  chained : hops.IsChain fun hop next => hop.tokenOut = next.tokenIn
  ends : ∀ hop ∈ hops.getLast?, hop.tokenOut = target
  passes : ∀ hop ∈ hops.dropLast, hop.tokenOut ≠ target
  swaps : ∀ hop ∈ hops, SwapsAt included mirror hop
  pools : (hops.map Hop.poolAddress).Nodup

section Paths

variable {included : List IncludedPool} {mirror : StateMirror} {source target : Address}

theorem registryPath_single {hop : Hop} :
    RegistryPath included mirror source target [hop] ↔
      hop.tokenIn = source ∧ hop.tokenOut = target ∧ SwapsAt included mirror hop := by
  constructor
  · intro h
    exact ⟨h.starts hop rfl, h.ends hop rfl, h.swaps hop (List.mem_singleton_self hop)⟩
  · rintro ⟨hIn, hOut, hSwaps⟩
    constructor
    case nonempty => simp
    case starts => simpa using hIn
    case chained => exact .singleton hop
    case ends => simpa using hOut
    case passes => simp
    case swaps => simpa using hSwaps
    case pools => simp

theorem registryPath_cons {hop : Hop} {rest : List Hop} (hRest : rest ≠ []) :
    RegistryPath included mirror source target (hop :: rest) ↔
      hop.tokenIn = source ∧ hop.tokenOut ≠ target ∧ SwapsAt included mirror hop ∧
        RegistryPath included mirror hop.tokenOut target rest ∧
          ∀ next ∈ rest, next.poolAddress ≠ hop.poolAddress := by
  obtain ⟨next, later, rfl⟩ := List.exists_cons_of_ne_nil hRest
  constructor
  · intro h
    obtain ⟨hNew, hPools⟩ := List.nodup_cons.mp h.pools
    obtain ⟨hJoint, hChained⟩ := List.isChain_cons_cons.mp h.chained
    refine ⟨h.starts hop rfl, h.passes hop (by simp), h.swaps hop (by simp), ?_, ?_⟩
    · constructor
      case nonempty => simp
      case starts => simpa using hJoint.symm
      case chained => exact hChained
      case ends => simpa using h.ends
      case passes => exact fun hop' hMem => h.passes hop' (List.mem_cons_of_mem _ hMem)
      case swaps => exact fun hop' hMem => h.swaps hop' (List.mem_cons_of_mem _ hMem)
      case pools => exact hPools
    · intro other hOther hSame
      exact hNew (hSame ▸ List.mem_map_of_mem hOther)
  · rintro ⟨hIn, hOn, hSwaps, h, hNew⟩
    constructor
    case nonempty => simp
    case starts => simpa using hIn
    case chained => exact List.isChain_cons_cons.mpr ⟨(h.starts next rfl).symm, h.chained⟩
    case ends => simpa using h.ends
    case passes =>
        intro hop' hMem
        rw [List.dropLast_cons_cons, List.mem_cons] at hMem
        rcases hMem with rfl | hLater
        · exact hOn
        · exact h.passes hop' hLater
    case swaps => exact List.forall_mem_cons.mpr ⟨hSwaps, h.swaps⟩
    case pools =>
        rw [List.map_cons, List.nodup_cons]
        refine ⟨?_, h.pools⟩
        intro hMem
        obtain ⟨other, hOther, hSame⟩ := List.mem_map.mp hMem
        exact hNew other hOther hSame

/-- **The routes over the registry.** -/
theorem route_registry_iff {avoid : Finset Address} {hops : List Hop} :
    (∃ keys, Route (registryGraph included mirror) target avoid source hops keys) ↔
      RegistryPath included mirror source target hops ∧
        ∀ hop ∈ hops, hop.poolAddress ∉ avoid := by
  induction hops generalizing source avoid with
  | nil =>
      constructor
      · rintro ⟨keys, hRoute⟩
        cases hRoute
      · rintro ⟨h, -⟩
        exact absurd rfl h.nonempty
  | cons hop rest ih =>
      rw [route_iff]
      constructor
      · rintro ⟨entries, hOut, edge, hEdge, pool, label, token, hKey, hFree, hFollow, hEnd⟩
        obtain rfl := Option.some.inj hOut
        obtain rfl := Option.some.inj hKey
        obtain ⟨rfl, rfl⟩ := Prod.mk.inj (Option.some.inj hFollow)
        have hSwaps : SwapsAt included mirror
            (entryHop mirror source edge) :=
          swapsAt_iff.mpr ⟨edge, hEdge, rfl⟩
        rcases hEnd with ⟨hLast, hEq⟩ | ⟨hOn, tail, hTail, hEq⟩
        · obtain ⟨rfl, rfl⟩ := List.cons.inj hEq
          exact ⟨registryPath_single.mpr ⟨rfl, hLast, hSwaps⟩,
            by simpa [entryHop, poolHop] using hFree⟩
        · obtain ⟨rfl, rfl⟩ := List.cons.inj hEq
          obtain ⟨hPath, hFresh⟩ := ih.mp hTail
          simp only [Finset.mem_insert, not_or] at hFresh
          refine ⟨(registryPath_cons hPath.nonempty).mpr ⟨rfl, hOn, hSwaps, hPath, ?_⟩, ?_⟩
          · exact fun next hNext => (hFresh next hNext).1
          · exact List.forall_mem_cons.mpr ⟨hFree, fun next hNext => (hFresh next hNext).2⟩
      · rintro ⟨hPath, hFresh⟩
        have hFree := hFresh hop (by simp)
        obtain ⟨edge, hEdge, hHop⟩ := swapsAt_iff.mp (hPath.swaps hop (by simp))
        have hIn := hPath.starts hop rfl
        rw [hIn] at hEdge hHop
        refine ⟨_, rfl, edge, hEdge, edge.poolAddress, hop, edge.tokenB, rfl, ?_, ?_, ?_⟩
        · rw [hHop] at hFree
          exact hFree
        · rw [hHop]
          rfl
        · have hOut : edge.tokenB = hop.tokenOut := by rw [hHop]; rfl
          have hPool : edge.poolAddress = hop.poolAddress := by rw [hHop]; rfl
          rw [hOut, hPool]
          by_cases hRest : rest = []
          · subst hRest
            exact Or.inl ⟨hPath.ends hop rfl, rfl⟩
          · obtain ⟨-, hOn, -, hTail, hNew⟩ := (registryPath_cons hRest).mp hPath
            refine Or.inr ⟨hOn, rest, ih.mpr ⟨hTail, ?_⟩, rfl⟩
            intro next hNext
            rw [Finset.mem_insert, not_or]
            exact ⟨hNew next hNext, hFresh next (List.mem_cons_of_mem _ hNext)⟩

end Paths

/-! ## An event -/

/-- A task of the direction: its two tokens, and an edge out of the second one. -/
def TaskOf (g : StaticGraph) (direction : Address × Address) (task : SearchTask) : Prop :=
  g.tokens[task.start]? = some direction.1 ∧ g.tokens[task.current]? = some direction.2 ∧
    ∃ row i, g.edgeRange task.current = some row ∧ i ∈ row ∧ g.edges[i]? = some task.edge

theorem mem_spawnEdges {g : StaticGraph} {start current : Nat} {indices : List Nat}
    {task : SearchTask} (hIndices : ∀ i ∈ indices, i < g.edges.length) :
    task ∈ (spawnEdges g start current indices).tasks ↔
      task.start = start ∧ task.current = current ∧
        ∃ i ∈ indices, g.edges[i]? = some task.edge := by
  induction indices with
  | nil => simp [spawnEdges]
  | cons i rest ih =>
      rw [List.forall_mem_cons] at hIndices
      have hEdge := List.getElem?_eq_getElem hIndices.1
      simp only [spawnEdges, hEdge, List.mem_cons, ih hIndices.2, exists_eq_or_imp,
        Option.some.injEq]
      constructor
      · rintro (rfl | ⟨hStart, hCurrent, hRest⟩)
        · exact ⟨rfl, rfl, Or.inl rfl⟩
        · exact ⟨hStart, hCurrent, Or.inr hRest⟩
      · rintro ⟨rfl, rfl, hHere | hRest⟩
        · exact Or.inl (by rw [hHere])
        · exact Or.inr ⟨rfl, rfl, hRest⟩

section Event

variable {included : List IncludedPool} {g : StaticGraph} (hBuilt : Built included g)
include hBuilt

theorem mem_spawnDirection {direction : Address × Address} {task : SearchTask} :
    task ∈ (spawnDirection g direction).tasks ↔ TaskOf g direction task := by
  unfold TaskOf spawnDirection
  rw [← hBuilt.token_inverse, ← hBuilt.token_inverse]
  cases hStart : g.tokenToIdx direction.1 with
  | none => simp
  | some start =>
      cases hCurrent : g.tokenToIdx direction.2 with
      | none => simp
      | some current =>
          have hToken := (hBuilt.token_inverse _ _).mp hCurrent
          obtain ⟨row, hRow, -, hIndices⟩ :=
            hBuilt.wellFormed.edgeRange (List.getElem?_eq_some_iff.mp hToken).1
          simp only [hRow, mem_spawnEdges hIndices, Option.some.injEq]
          constructor
          · rintro ⟨rfl, rfl, i, hi, hEdge⟩
            exact ⟨rfl, rfl, row, i, hRow, hi, hEdge⟩
          · rintro ⟨rfl, rfl, row', i, hRow', hi, hEdge⟩
            obtain rfl := Option.some.inj (hRow.symm.trans hRow')
            exact ⟨rfl, rfl, i, hi, hEdge⟩

theorem mem_spawnAll {directions : List (Address × Address)} {task : SearchTask} :
    task ∈ (spawnAll g directions).tasks ↔ ∃ direction ∈ directions, TaskOf g direction task := by
  induction directions with
  | nil => simp [spawnAll]
  | cons direction rest ih =>
      have hHere := (spawnDirection_finished hBuilt.wellFormed
        (fun t i => (hBuilt.token_inverse t i).mp) direction).1
      simp only [spawnAll, hHere, if_true, List.mem_append, ih, mem_spawnDirection hBuilt,
        List.mem_cons, exists_eq_or_imp]

end Event

/-- A path that an event may search in a direction: a registry path from the second token
to the first of at most `maxPathLength` hops, or of one hop, that keeps clear of the trigger
pool after its first hop. -/
structure Searches (included : List IncludedPool) (det : ArbitrageDetector) (event : SwapEvent)
    (direction : Address × Address) (hops : List Hop) : Prop where
  path : RegistryPath included det.stateMirror direction.2 direction.1 hops
  trigger : ∀ hop ∈ hops.tail, hop.poolAddress ≠ event.swapInfo.router
  short : 2 ≤ hops.length → hops.length ≤ det.config.maxPathLength

/-- A path whose first hop does not reach the target yet. -/
theorem searches_cons {included : List IncludedPool} {det : ArbitrageDetector}
    {event : SwapEvent} {direction : Address × Address} {entry : PoolEdge} {tail : List Hop}
    (hSwaps : SwapsAt included det.stateMirror (entryHop det.stateMirror direction.2 entry))
    (hOn : entry.tokenB ≠ direction.1) :
    Searches included det event direction (entryHop det.stateMirror direction.2 entry :: tail) ↔
      tail.length ≤ det.config.maxPathLength - 1 ∧
        RegistryPath included det.stateMirror entry.tokenB direction.1 tail ∧
          ∀ hop ∈ tail, hop.poolAddress ∉
            ({entry.poolAddress, event.swapInfo.router} : Finset Address) := by
  constructor
  · intro h
    have hTail : tail ≠ [] := by
      rintro rfl
      exact hOn (registryPath_single.mp h.path).2.1
    obtain ⟨-, -, -, hPath, hNew⟩ := (registryPath_cons hTail).mp h.path
    have hLength := List.length_pos_iff.mpr hTail
    have hShort := h.short (by rw [List.length_cons]; omega)
    rw [List.length_cons] at hShort
    refine ⟨by omega, hPath, ?_⟩
    intro hop hHop
    rw [Finset.mem_insert, Finset.mem_singleton, not_or]
    exact ⟨hNew hop hHop, h.trigger hop hHop⟩
  · rintro ⟨hLength, hPath, hFresh⟩
    simp only [Finset.mem_insert, Finset.mem_singleton, not_or] at hFresh
    have hPos := List.length_pos_iff.mpr hPath.nonempty
    constructor
    case path =>
        rw [registryPath_cons hPath.nonempty]
        exact ⟨rfl, hOn, hSwaps, hPath, fun hop hHop => (hFresh hop hHop).1⟩
    case trigger => exact fun hop hHop => (hFresh hop hHop).2
    case short =>
        intro _
        rw [List.length_cons]
        omega

section Tasks

variable {included : List IncludedPool} {det : ArbitrageDetector}
  (hBuilt : Built included det.graph) (hPools : det.graph.pools.length ≤ 4096)
include hBuilt hPools

/-- The trigger pool in the bitmap, and as an address. -/
theorem triggerPools_eq (event : SwapEvent) :
    ∃ avoid, triggerPools det event = some avoid ∧
      SameKeys (fun i pool => det.graph.pools[i]? = some pool) avoid {event.swapInfo.router} := by
  unfold triggerPools
  cases hTrigger : det.graph.poolToIdx event.swapInfo.router with
  | none =>
      refine ⟨∅, rfl, ?_⟩
      intro i pool hPool
      simp only [Finset.notMem_empty, Finset.mem_singleton, false_iff]
      rintro rfl
      rw [(hBuilt.pool_inverse _ _).mpr hPool] at hTrigger
      exact absurd hTrigger (by simp)
  | some idx =>
      have hIdx := (hBuilt.pool_inverse _ _).mp hTrigger
      have hLt := (List.getElem?_eq_some_iff.mp hIdx).1
      refine ⟨{idx}, if_pos (by omega), ?_⟩
      intro i pool hPool
      rw [Finset.mem_singleton, Finset.mem_singleton]
      exact (matches_registry hBuilt hPools det.stateMirror).key hPool hIdx

/-- What a task of a direction finds: the searched paths that start with its edge. -/
theorem mem_taskWalks (event : SwapEvent) {direction : Address × Address} {task : SearchTask}
    (hTask : TaskOf det.graph direction task) :
    ∃ walks entry, taskWalks det event task = some walks ∧
      entry ∈ included.flatMap (adjAt direction.2) ∧ ReadEdge det.graph task.edge entry ∧
        ∀ hops, hops ∈ walks ↔ Searches included det event direction hops ∧
          hops.head? = some (entryHop det.stateMirror direction.2 entry) := by
  obtain ⟨hStart, hCurrent, row, i, hRow, hi, hEdge⟩ := hTask
  obtain ⟨row', hRow', hReads⟩ := row_reads hBuilt hCurrent
  obtain rfl := Option.some.inj (hRow.symm.trans hRow')
  obtain ⟨entry, hEntry, edge, hEdge', hRead⟩ := exists_of_forall₂_right hReads.flip hi
  obtain rfl := Option.some.inj (hEdge.symm.trans hEdge')
  obtain ⟨avoid, hAvoid, hKeys⟩ := triggerPools_eq hBuilt hPools event
  have hMatches := matches_registry hBuilt hPools det.stateMirror
  have hRange : task.edge.poolIdx / 64 < 64 := by
    have hLt := (List.getElem?_eq_some_iff.mp hRead.pool).1
    omega
  have hHop := @makeHop_eq det.graph det.stateMirror _ _ hCurrent _ _ hRead
  have hSwaps : SwapsAt included det.stateMirror (entryHop det.stateMirror direction.2 entry) :=
    swapsAt_iff.mpr ⟨entry, hEntry, rfl⟩
  by_cases hEnd : task.edge.targetTokenIdx = task.start
  · have hLast : entry.tokenB = direction.1 := (hMatches.vertex hRead.token hStart).mp hEnd
    refine ⟨[[entryHop det.stateMirror direction.2 entry]], entry, ?_, hEntry, hRead, ?_⟩
    · simp only [taskWalks, hAvoid, hHop, Option.bind_eq_bind, Option.bind_some, if_pos hRange,
        if_pos hEnd]
    · intro hops
      rw [List.mem_singleton]
      constructor
      · rintro rfl
        exact ⟨⟨registryPath_single.mpr ⟨rfl, hLast, hSwaps⟩, by simp, by simp⟩, rfl⟩
      · rintro ⟨hSearches, hHead⟩
        obtain ⟨rest, rfl⟩ := List.head?_eq_some_iff.mp hHead
        by_cases hRest : rest = []
        · rw [hRest]
        · exact absurd hLast ((registryPath_cons hRest).mp hSearches.path).2.1
  · have hOn : entry.tokenB ≠ direction.1 :=
      fun hEq => hEnd ((hMatches.vertex hRead.token hStart).mpr hEq)
    obtain ⟨found, hFound⟩ : ∃ found, routes (registryGraph included det.stateMirror) direction.1
        (det.config.maxPathLength - 1) {entry.poolAddress, event.swapInfo.router} entry.tokenB =
          some found := by
      apply exists_routes (fun _ => True) _ _ trivial
      intro t _
      exact ⟨_, rfl, fun entry _ => ⟨_, rfl, _, _, rfl, trivial⟩⟩
    have hRoutes := hMatches.routes_eq hStart (det.config.maxPathLength - 1)
      (hMatches.insert hKeys hRead.pool) hRead.token
    refine ⟨found.map (entryHop det.stateMirror direction.2 entry :: ·), entry, ?_, hEntry, hRead,
      ?_⟩
    · simp only [taskWalks, hAvoid, hHop, Option.bind_eq_bind, Option.bind_some, if_pos hRange,
        if_neg hEnd, hRoutes]
      rw [hFound]
      rfl
    · intro hops
      rw [List.mem_map]
      constructor
      · rintro ⟨tail, hTail, rfl⟩
        rw [mem_routes hFound, route_registry_iff] at hTail
        exact ⟨(searches_cons hSwaps hOn).mpr hTail, rfl⟩
      · rintro ⟨hSearches, hHead⟩
        obtain ⟨tail, rfl⟩ := List.head?_eq_some_iff.mp hHead
        refine ⟨tail, ?_, rfl⟩
        rw [mem_routes hFound, route_registry_iff]
        exact (searches_cons hSwaps hOn).mp hSearches

omit hPools in
/-- An edge that a route takes swaps at a pool of the registry. -/
theorem follow_spec {mirror : StateMirror} {u : Nat} {source : Address} {es : List Nat}
    {i k v : Nat} {hop : Hop} (hSource : det.graph.tokens[u]? = some source)
    (hOut : (poolGraph det.graph mirror).out u = some es) (hi : i ∈ es)
    (hKey : (poolGraph det.graph mirror).key i = some k)
    (hFollow : (poolGraph det.graph mirror).follow u i = some (hop, v)) :
    SwapsAt included mirror hop ∧ hop.tokenIn = source ∧
      det.graph.tokens[v]? = some hop.tokenOut ∧
        det.graph.pools[k]? = some hop.poolAddress := by
  obtain ⟨row, hRow, hReads⟩ := row_reads hBuilt hSource
  obtain rfl := Option.some.inj (hRow.symm.trans hOut)
  obtain ⟨entry, hEntry, edge, hEdge, hRead⟩ := exists_of_forall₂_right hReads.flip hi
  have hHop := @makeHop_eq det.graph mirror _ _ hSource _ _ hRead
  rw [follow_of_hop hEdge hHop] at hFollow
  obtain ⟨rfl, rfl⟩ := Prod.mk.inj (Option.some.inj hFollow)
  have hIdx : edge.poolIdx = k := by
    simp only [poolGraph, hEdge, Option.bind_eq_bind, Option.bind_some] at hKey
    split at hKey
    · exact Option.some.inj hKey
    · exact absurd hKey (by simp)
  exact ⟨swapsAt_iff.mpr ⟨entry, hEntry, rfl⟩, rfl, hRead.token, hIdx ▸ hRead.pool⟩

omit hPools in
/-- A route over the stored tables is a registry path outside the avoided pools, at any
number of pools. -/
theorem registryPath_of_route {mirror : StateMirror} {u target : Nat} {avoid : Finset Nat}
    {hops : List Hop} {keys : List Nat}
    (h : Route (poolGraph det.graph mirror) target avoid u hops keys) {source last : Address}
    (hSource : det.graph.tokens[u]? = some source)
    (hLast : det.graph.tokens[target]? = some last) :
    RegistryPath included mirror source last hops ∧
      ∀ hop ∈ hops, ∃ key ∉ avoid, det.graph.pools[key]? = some hop.poolAddress := by
  induction h generalizing source with
  | last hOut hMem hKey hFree hFollow =>
      obtain ⟨hSwaps, hIn, hTo, hPool⟩ := follow_spec hBuilt hSource hOut hMem hKey hFollow
      have hEnd := Option.some.inj (hTo.symm.trans hLast)
      refine ⟨registryPath_single.mpr ⟨hIn, hEnd, hSwaps⟩, ?_⟩
      intro hop hHop
      rw [List.mem_singleton.mp hHop]
      exact ⟨_, hFree, hPool⟩
  | step hOut hMem hKey hFree hFollow hOn hRest ih =>
      rename_i avoid _ _ _ k hop v rest _
      obtain ⟨hSwaps, hIn, hTo, hPool⟩ := follow_spec hBuilt hSource hOut hMem hKey hFollow
      obtain ⟨hPath, hKeys⟩ := ih hTo
      have hNot : hop.tokenOut ≠ last := by
        intro hSame
        rw [hSame, ← hLast] at hTo
        have hLt : v < det.graph.tokens.length := by
          rw [hLast] at hTo
          exact (List.getElem?_eq_some_iff.mp hTo).1
        exact hOn ((List.getElem?_inj hLt hBuilt.tokens_nodup).mp hTo)
      have hNew : ∀ next ∈ rest, next.poolAddress ≠ hop.poolAddress := by
        intro next hNext hSame
        obtain ⟨key, hAvoid, hAt⟩ := hKeys next hNext
        have hIdx : key = k := by
          apply (List.getElem?_inj (List.getElem?_eq_some_iff.mp hAt).1 hBuilt.pools_nodup).mp
          rw [hAt, hPool, hSame]
        exact hAvoid (Finset.mem_insert.mpr (Or.inl hIdx))
      refine ⟨(registryPath_cons hPath.nonempty).mpr ⟨hIn, hNot, hSwaps, hPath, hNew⟩, ?_⟩
      intro next hNext
      rcases List.mem_cons.mp hNext with rfl | hLater
      · exact ⟨_, hFree, hPool⟩
      · obtain ⟨key, hAvoid, hAt⟩ := hKeys next hLater
        exact ⟨key, fun hOld => hAvoid (Finset.mem_insert_of_mem hOld), hAt⟩

omit hPools in
/-- Where a task of a direction returns, at any number of pools, its paths are searched ones. -/
theorem searches_of_walk {event : SwapEvent} {direction : Address × Address} {task : SearchTask}
    (hTask : TaskOf det.graph direction task) {walks : List (List Hop)}
    (hWalks : taskWalks det event task = some walks) {hops : List Hop} (hMem : hops ∈ walks) :
    Searches included det event direction hops := by
  have hShort := (taskWalks_connects hWalks hMem).2
  obtain ⟨hStart, hCurrent, row, i, hRow, hi, hEdge⟩ := hTask
  obtain ⟨row', hRow', hReads⟩ := row_reads hBuilt hCurrent
  obtain rfl := Option.some.inj (hRow.symm.trans hRow')
  obtain ⟨entry, hEntry, edge, hEdge', hRead⟩ := exists_of_forall₂_right hReads.flip hi
  obtain rfl := Option.some.inj (hEdge.symm.trans hEdge')
  have hHop := @makeHop_eq det.graph det.stateMirror _ _ hCurrent _ _ hRead
  have hSwaps : SwapsAt included det.stateMirror (entryHop det.stateMirror direction.2 entry) :=
    swapsAt_iff.mpr ⟨entry, hEntry, rfl⟩
  obtain ⟨avoid, hAvoid, hWalks⟩ := Option.bind_eq_some_iff.mp hWalks
  simp only [hHop, Option.bind_eq_bind, Option.bind_some] at hWalks
  split at hWalks
  · split at hWalks
    · rename_i hEnd
      obtain rfl := Option.some.inj hWalks
      obtain rfl := List.mem_singleton.mp hMem
      have hTo := hRead.token
      rw [hEnd, hStart] at hTo
      exact ⟨registryPath_single.mpr ⟨rfl, (Option.some.inj hTo).symm, hSwaps⟩, by simp, hShort⟩
    · rename_i hOn
      obtain ⟨found, hFound, hWalks⟩ := Option.bind_eq_some_iff.mp hWalks
      obtain rfl := Option.some.inj hWalks
      obtain ⟨tail, hTail, rfl⟩ := List.mem_map.mp hMem
      obtain ⟨-, keys, hRoute⟩ := (mem_routes hFound).mp hTail
      obtain ⟨hPath, hKeys⟩ := registryPath_of_route hBuilt hRoute hRead.token hStart
      have hNot : entry.tokenB ≠ direction.1 := by
        intro hSame
        apply hOn
        apply (List.getElem?_inj (List.getElem?_eq_some_iff.mp hRead.token).1
          hBuilt.tokens_nodup).mp
        rw [hRead.token, hStart, hSame]
      have hClear : ∀ {pool : Address} {k : Nat}, det.graph.pools[k]? = some pool →
          k ∈ insert task.edge.poolIdx avoid → ∀ hop ∈ tail, hop.poolAddress ≠ pool := by
        intro pool k hk hIn hop hHop hSame
        obtain ⟨key, hOut, hAt⟩ := hKeys hop hHop
        have hIdx : key = k := by
          apply (List.getElem?_inj (List.getElem?_eq_some_iff.mp hAt).1 hBuilt.pools_nodup).mp
          rw [hAt, hk, hSame]
        exact hOut (hIdx ▸ hIn)
      refine ⟨?_, ?_, hShort⟩
      · rw [registryPath_cons hPath.nonempty]
        exact ⟨rfl, hNot, hSwaps, hPath, hClear hRead.pool (Finset.mem_insert_self _ _)⟩
      · unfold triggerPools at hAvoid
        cases hTrigger : det.graph.poolToIdx event.swapInfo.router with
        | none =>
            intro hop hHop hSame
            obtain ⟨key, -, hAt⟩ := hKeys hop hHop
            rw [hSame, ← hBuilt.pool_inverse, hTrigger] at hAt
            exact absurd hAt (by simp)
        | some idx =>
            simp only [hTrigger] at hAvoid
            split at hAvoid
            · obtain rfl := Option.some.inj hAvoid
              exact hClear ((hBuilt.pool_inverse _ _).mp hTrigger) (by simp)
            · exact absurd hAvoid (by simp)
  · exact absurd hWalks (by simp)

omit hPools in
/-- The first hop of a searched path has a task. -/
theorem exists_task {event : SwapEvent} {direction : Address × Address} {hops : List Hop}
    (h : Searches included det event direction hops) :
    ∃ task entry, TaskOf det.graph direction task ∧ ReadEdge det.graph task.edge entry ∧
      hops.head? = some (entryHop det.stateMirror direction.2 entry) := by
  obtain ⟨hop, rest, rfl⟩ := List.exists_cons_of_ne_nil h.path.nonempty
  have hIn : hop.tokenIn = direction.2 := h.path.starts hop rfl
  obtain ⟨pool, hPool, hSides, -⟩ := h.path.swaps hop (by simp)
  obtain ⟨entry, hEntry, hHop⟩ := swapsAt_iff.mp (h.path.swaps hop (by simp))
  rw [hIn] at hEntry hHop
  have hSource : direction.2 ∈ det.graph.tokens := by
    rw [hBuilt.mem_tokens, ← hIn]
    exact ⟨pool, hPool, hSides.imp And.left And.left⟩
  obtain ⟨last, hLast⟩ := List.getLast?_isSome.mpr h.path.nonempty |> Option.isSome_iff_exists.mp
  obtain ⟨lastPool, hLastPool, hLastSides, -⟩ := h.path.swaps last (List.mem_of_getLast? hLast)
  have hTarget : direction.1 ∈ det.graph.tokens := by
    rw [hBuilt.mem_tokens, ← h.path.ends last hLast]
    exact ⟨lastPool, hLastPool, hLastSides.symm.imp And.right And.right⟩
  obtain ⟨start, hStart⟩ := List.getElem?_of_mem hTarget
  obtain ⟨current, hCurrent⟩ := List.getElem?_of_mem hSource
  obtain ⟨row, hRow, hReads⟩ := row_reads hBuilt hCurrent
  obtain ⟨i, hi, edge, hEdge, hRead⟩ := exists_of_forall₂_right hReads hEntry
  exact ⟨⟨start, current, edge⟩, entry, ⟨hStart, hCurrent, row, i, hRow, hi, hEdge⟩, hRead,
    congrArg some hHop⟩

end Tasks

/-- The paths that the tasks of an event find. -/
def searchedPaths (det : ArbitrageDetector) (event : SwapEvent) : List (List Hop) :=
  (spawnedTasks det event).flatMap fun task => (findPaths det event task).getD []

/-- **What an event searches.**  After a rebuild that admits at most 4096 pools, no task of an
event panics, and their paths are the registry paths of the two directions. -/
theorem searched_iff {build : Build} {order : SetOrder} {tables : Tables}
    {included : List IncludedPool} {det : ArbitrageDetector}
    (hIncluded : includedPools tables = some included)
    (hStored : rebuildGraph build order tables = some det.graph)
    (hCount : included.length ≤ 4096) (event : SwapEvent)
    (hIdle : det.stateMirror.isCongested event.swapInfo.router 3 = false)
    (hSkew : skewChecked event det.stateMirror = true) :
    (∀ task ∈ spawnedTasks det event, (findPaths det event task).isSome) ∧
      ∀ hops, hops ∈ searchedPaths det event ↔
        ∃ direction ∈ searchDirections det event, Searches included det event direction hops := by
  have hBuilt : Built included det.graph := by
    have hEq := @rebuildGraph_eq order included tables hIncluded build
    rw [hStored] at hEq
    have hFits : Fits build (2 * included.length) := Or.inr (by omega)
    rw [if_pos hFits] at hEq
    rw [Option.some.inj hEq]
    exact graphOf_built (by omega) (included_nodup hIncluded)
  have hPools : det.graph.pools.length ≤ 4096 := by
    rw [hBuilt.pools_eq, List.length_map]
    exact hCount
  have hSpawned : ∀ task, task ∈ spawnedTasks det event ↔
      ∃ direction ∈ searchDirections det event, TaskOf det.graph direction task := by
    intro task
    simp only [spawnedTasks, hIdle, hSkew, Bool.false_eq_true, if_false, if_true]
    exact mem_spawnAll hBuilt
  constructor
  · intro task hTask
    obtain ⟨direction, -, hOf⟩ := (hSpawned task).mp hTask
    obtain ⟨walks, -, hWalks, -⟩ := mem_taskWalks hBuilt hPools event hOf
    rw [findPaths_eq, hWalks]
    rfl
  · intro hops
    rw [searchedPaths, List.mem_flatMap]
    constructor
    · rintro ⟨task, hTask, hHops⟩
      obtain ⟨direction, hDirection, hOf⟩ := (hSpawned task).mp hTask
      obtain ⟨walks, entry, hWalks, -, -, hMem⟩ := mem_taskWalks hBuilt hPools event hOf
      rw [findPaths_eq, hWalks] at hHops
      exact ⟨direction, hDirection, ((hMem hops).mp hHops).1⟩
    · rintro ⟨direction, hDirection, hSearches⟩
      obtain ⟨task, entry, hOf, hRead, hHead⟩ := exists_task hBuilt hSearches
      obtain ⟨walks, entry', hWalks, -, hRead', hMem⟩ := mem_taskWalks hBuilt hPools event hOf
      obtain rfl := hRead.unique hRead'
      refine ⟨task, (hSpawned task).mpr ⟨direction, hDirection, hOf⟩, ?_⟩
      rw [findPaths_eq, hWalks]
      exact (hMem hops).mpr ⟨hSearches, hHead⟩

/-- A swap at the pool `1` of two pools of `0xA` and `0xB`. -/
def twoPoolEvent : SwapEvent where
  sender := 0
  swapInfo :=
    { dex := .uniswapV2, router := 1, tokenIn := 0, tokenOut := 0, amountIn := 0
      amountOutMin := 0, toAddr := 0, fee := none }
  mempoolTx := none

noncomputable def twoPoolDetector : ArbitrageDetector where
  config := { minProfitWei := 1, maxPathLength := 4, chain := .base }
  stateMirror := { pools := fun _ => none, traderRegistry := fun _ => none }
  graph := graphOf anyOrder (newIncluded 2)
  poolRegistry _ := some (0xA, 0xB, .uniswapV2)

theorem searched_iff_twoPools :
    (∀ task ∈ spawnedTasks twoPoolDetector twoPoolEvent,
      (findPaths twoPoolDetector twoPoolEvent task).isSome) ∧
      ∀ hops, hops ∈ searchedPaths twoPoolDetector twoPoolEvent ↔
        ∃ direction ∈ searchDirections twoPoolDetector twoPoolEvent,
          Searches (newIncluded 2) twoPoolDetector twoPoolEvent direction hops := by
  have hIncluded := includedPools_newPools 2 (by norm_num)
  have hFits : Fits .release (2 * (newIncluded 2).length) := Or.inl rfl
  have hStored := @rebuildGraph_eq anyOrder _ _ hIncluded .release
  rw [if_pos hFits] at hStored
  exact searched_iff hIncluded hStored (by rw [newIncluded_length]; norm_num) twoPoolEvent
    (by decide) (by decide)

end SovereignShadow.Ports.RegistryRoutes
