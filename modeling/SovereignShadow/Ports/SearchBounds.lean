import SovereignShadow.Ports.ArbitrageDetector
import SovereignShadow.Ports.GraphInvariant

/-!
# Index bounds of the search

`visited_pools` has room for 4096 pools, and nothing caps the pools that the builder
admits.  On a graph of at most 4096 pools neither an event nor a search reads a table out
of range.  On a larger one both do: a search from a token of pool 4096 tests its bit, and
a task triggered by that pool sets it.

## Main results

* `exists_findCyclesDfs`, `findCyclesDfs_eq_none` — the search returns, or panics.
* `exists_findPaths`, `findPaths_eq_none` — so does a task of an event.
* `inRange_iff` — the bound.
-/

namespace SovereignShadow.Ports.SearchBounds

open SovereignShadow.Verified.Checked
open SovereignShadow.Verified.Bitmap
open SovereignShadow.Verified.Routes
open SovereignShadow.Ports.Models
open SovereignShadow.Ports.Mirror
open SovereignShadow.Ports.CycleSearch
open SovereignShadow.Ports.EdgeWalks
open SovereignShadow.Ports.GraphBuilder
open SovereignShadow.Ports.GraphInvariant
open SovereignShadow.Ports.Detector

/-! ## Index safety -/

/-- `find_cycles_dfs`, called with two tokens of the graph, returns. -/
def SearchInRange (g : StaticGraph) : Prop :=
  ∀ mirror current target s depth maxDepth,
    current < g.tokens.length → target < g.tokens.length →
      findCyclesDfs g mirror current target s depth maxDepth ≠ none

/-- `process_event` spawns a task for every edge, and every task finds its paths. -/
def EventInRange (det : ArbitrageDetector) (event : SwapEvent) : Prop :=
  (spawnAll det.graph (searchDirections det event)).finished = true ∧
    ∀ task ∈ spawnedTasks det event, findPaths det event task ≠ none

/-- No index is out of range on the graph `g`, whatever the tables then hold. -/
structure InRange (g : StaticGraph) : Prop where
  search : SearchInRange g
  event : ∀ det event, det.graph = g → EventInRange det event

/-! ## Up to 4096 pools -/

section Small

variable {g : StaticGraph} (hg : WellFormed g) (hPools : g.pools.length ≤ 4096)
include hg hPools

theorem exists_findCyclesDfs (mirror : StateMirror) {current : Nat} (target : Nat) (s : Search)
    (depth maxDepth : Nat) (hCurrent : current < g.tokens.length) :
    ∃ s', findCyclesDfs g mirror current target s depth maxDepth = some s' := by
  obtain ⟨avoid, hMarks⟩ := exists_marks s.visitedPools
  obtain ⟨found, hFound⟩ := exists_labelRoutes hg hPools mirror target
    (maxDepth + 1 - depth) avoid hCurrent
  rw [findCyclesDfs, dfs_eq g mirror target hMarks, poolGraph_eq, routes_mapLabel, hFound]
  exact ⟨_, rfl⟩

omit hg in
theorem exists_markPool (visited : VisitedPools) {pool : Nat} (hPool : pool < g.pools.length) :
    ∃ visited', mark visited pool = some visited' :=
  exists_mark visited (by omega)

/-- A task of two tokens and an edge of the graph finds its paths. -/
theorem exists_findPaths (hInverse : ∀ pool i, g.poolToIdx pool = some i →
      g.pools[i]? = some pool) {det : ArbitrageDetector} (hDet : det.graph = g)
    (event : SwapEvent) {task : SearchTask} (hCurrent : task.current < g.tokens.length)
    (hEdge : task.edge ∈ g.edges) : ∃ paths, findPaths det event task = some paths := by
  have hTrigger : ∃ visited, triggerVisited g event.swapInfo.router = some visited := by
    unfold triggerVisited
    cases hIdx : g.poolToIdx event.swapInfo.router with
    | none => exact ⟨_, rfl⟩
    | some i =>
        have hRange := (List.getElem?_eq_some_iff.mp (hInverse _ i hIdx)).1
        exact exists_markPool hPools _ hRange
  obtain ⟨visited, hVisited⟩ := hTrigger
  obtain ⟨hop, hHop⟩ := @WellFormed.makeHop g hg det.stateMirror _ hCurrent _ hEdge
  obtain ⟨marked, hMarked⟩ := exists_markPool hPools visited (hg.pool_lt _ hEdge)
  subst hDet
  simp only [findPaths, hVisited, hHop, hMarked, Option.bind_eq_bind, Option.bind_some]
  split
  · exact ⟨_, rfl⟩
  · obtain ⟨s, hs⟩ := exists_findCyclesDfs hg hPools det.stateMirror task.start
      { currentHops := [hop], visitedPools := marked, results := [] } 2
      det.config.maxPathLength (hg.target_lt _ hEdge)
    exact ⟨s.results, by simp [hs]⟩

end Small

/-! ## Spawning -/

section Spawn

variable {g : StaticGraph}

/-- The loop runs to its end, over edges of the graph. -/
theorem spawnEdges_finished {start current : Nat} {indices : List Nat}
    (hIndices : ∀ i ∈ indices, i < g.edges.length) :
    (spawnEdges g start current indices).finished = true ∧
      ∀ task ∈ (spawnEdges g start current indices).tasks,
        task.current = current ∧ task.edge ∈ g.edges := by
  induction indices with
  | nil => exact ⟨rfl, by simp [spawnEdges]⟩
  | cons i indices ih =>
      rw [List.forall_mem_cons] at hIndices
      have hRest := ih hIndices.2
      simp only [spawnEdges, List.getElem?_eq_getElem hIndices.1]
      refine ⟨hRest.1, fun task hTask => ?_⟩
      rcases List.mem_cons.mp hTask with rfl | hLater
      · exact ⟨rfl, List.getElem_mem hIndices.1⟩
      · exact hRest.2 task hLater

variable (hg : WellFormed g)
include hg

theorem spawnDirection_finished (hInverse : ∀ t i, g.tokenToIdx t = some i →
      g.tokens[i]? = some t) (direction : Address × Address) :
    (spawnDirection g direction).finished = true ∧
      ∀ task ∈ (spawnDirection g direction).tasks,
        task.current < g.tokens.length ∧ task.edge ∈ g.edges := by
  unfold spawnDirection
  cases g.tokenToIdx direction.1 with
  | none => exact ⟨rfl, by simp⟩
  | some start =>
      cases hCurrent : g.tokenToIdx direction.2 with
      | none => exact ⟨rfl, by simp⟩
      | some current =>
          have hRange := (List.getElem?_eq_some_iff.mp (hInverse _ _ hCurrent)).1
          obtain ⟨row, hRow, _, hIndices⟩ := hg.edgeRange hRange
          have hEdges := @spawnEdges_finished g start current row hIndices
          simp only [hRow]
          refine ⟨hEdges.1, fun task hTask => ?_⟩
          rw [(hEdges.2 task hTask).1]
          exact ⟨hRange, (hEdges.2 task hTask).2⟩

theorem spawnAll_finished (hInverse : ∀ t i, g.tokenToIdx t = some i →
      g.tokens[i]? = some t) (directions : List (Address × Address)) :
    (spawnAll g directions).finished = true ∧
      ∀ task ∈ (spawnAll g directions).tasks,
        task.current < g.tokens.length ∧ task.edge ∈ g.edges := by
  induction directions with
  | nil => exact ⟨rfl, by simp [spawnAll]⟩
  | cons direction directions ih =>
      have hHere := spawnDirection_finished hg hInverse direction
      simp only [spawnAll, hHere.1, if_true]
      refine ⟨ih.1, fun task hTask => ?_⟩
      rcases List.mem_append.mp hTask with hTask | hTask
      · exact hHere.2 task hTask
      · exact ih.2 task hTask

end Spawn

theorem inRange_of_built {included : List IncludedPool} {g : StaticGraph}
    (hBuilt : Built included g) (hCount : included.length ≤ 4096) : InRange g := by
  have hPools : g.pools.length ≤ 4096 := by
    rw [hBuilt.pools_eq, List.length_map]
    exact hCount
  constructor
  case search =>
      intro mirror current target s depth maxDepth hCurrent _ hNone
      obtain ⟨s', hs'⟩ := exists_findCyclesDfs hBuilt.wellFormed hPools mirror target s depth
        maxDepth hCurrent
      rw [hNone] at hs'
      exact absurd hs' (by simp)
  case event =>
      intro det event hDet
      have hSpawned := spawnAll_finished hBuilt.wellFormed
        (fun t i => (hBuilt.token_inverse t i).mp) (searchDirections det event)
      rw [← hDet] at hSpawned
      refine ⟨hSpawned.1, fun task hTask hNone => ?_⟩
      have hMem : task ∈ (spawnAll det.graph (searchDirections det event)).tasks := by
        unfold spawnedTasks at hTask
        split at hTask
        · exact absurd hTask (by simp)
        · split at hTask
          · exact hTask
          · exact absurd hTask (by simp)
      obtain ⟨hCurrent, hEdge⟩ := hSpawned.2 task hMem
      rw [hDet] at hCurrent hEdge
      obtain ⟨paths, hPaths⟩ := exists_findPaths hBuilt.wellFormed hPools
        (fun pool i => (hBuilt.pool_inverse pool i).mp) hDet event hCurrent hEdge
      rw [hNone] at hPaths
      exact absurd hPaths (by simp)

/-! ## Beyond 4096 pools -/

section Large

variable {g : StaticGraph}

theorem findCyclesDfs_eq_none {current i : Nat} {row : List Nat} {edge : StaticEdge}
    (hRow : g.edgeRange current = some row) (hi : i ∈ row) (hEdge : g.edges[i]? = some edge)
    (hPool : 4096 ≤ edge.poolIdx) (mirror : StateMirror) (target : Nat) (s : Search)
    {depth maxDepth : Nat} (hDepth : depth ≤ maxDepth) :
    findCyclesDfs g mirror current target s depth maxDepth = none := by
  obtain ⟨avoid, hMarks⟩ := exists_marks s.visitedPools
  obtain ⟨n, hLevels⟩ : ∃ n, maxDepth + 1 - depth = n + 1 := ⟨maxDepth - depth, by omega⟩
  rw [findCyclesDfs, hLevels, dfs_eq g mirror target hMarks, Option.map_eq_none_iff]
  apply Option.eq_none_iff_forall_not_mem.mpr
  intro found hFound
  obtain ⟨row', hOut, hFound⟩ := Option.bind_eq_some_iff.mp hFound
  obtain ⟨parts, hParts, _⟩ := Option.bind_eq_some_iff.mp hFound
  obtain rfl : row = row' := Option.some.inj (hRow.symm.trans hOut)
  -- The edge has no key, so its branch is a panic.
  obtain ⟨part, hPart⟩ := exists_part_of_mapM hParts hi
  obtain ⟨k, hKey, _⟩ := Option.bind_eq_some_iff.mp hPart
  have hBeyond : ¬ edge.poolIdx / 64 < 64 := by omega
  have hNoKey : (poolGraph g mirror).key i = none := by simp [poolGraph, hEdge, hBeyond]
  rw [hNoKey] at hKey
  exact absurd hKey (by simp)

theorem findPaths_eq_none {det : ArbitrageDetector} {event : SwapEvent} {i : Nat}
    (hRouter : det.graph.poolToIdx event.swapInfo.router = some i) (hPool : 4096 ≤ i)
    (task : SearchTask) : findPaths det event task = none := by
  have hTrigger : triggerVisited det.graph event.swapInfo.router = none := by
    rw [triggerVisited, hRouter]
    exact (mark_eq_none _).mpr (by omega)
  simp [findPaths, hTrigger]

variable {included : List IncludedPool} (hBuilt : Built included g) {pool : IncludedPool}
  {k : Nat} (hPool : included[k]? = some pool)
include hBuilt hPool

theorem pools_getElem? : g.pools[k]? = some pool.address := by
  rw [hBuilt.pools_eq, List.getElem?_map, hPool]
  rfl

/-- Either side of an admitted pool is a token with an edge over the pool. -/
theorem exists_edge {t : Address} (ht : t = pool.t0 ∨ t = pool.t1) :
    ∃ u row i edge, g.tokenToIdx t = some u ∧ g.edgeRange u = some row ∧ i ∈ row ∧
      g.edges[i]? = some edge ∧ edge.poolIdx = k := by
  have hMem : t ∈ g.tokens :=
    (hBuilt.mem_tokens t).mpr ⟨pool, List.mem_of_getElem? hPool, ht⟩
  obtain ⟨u, hu⟩ := List.getElem?_of_mem hMem
  obtain ⟨lo, hi, hLo, hHi, hOrder, hSlice⟩ := hBuilt.rows u t hu
  have hAt : ∃ other, (some pool.address, other, pool.dexName) ∈ edgesAt t pool := by
    rcases ht with rfl | rfl
    · exact ⟨some pool.t1, by simp [edgesAt]⟩
    · exact ⟨some pool.t0, by simp [edgesAt]⟩
  obtain ⟨other, hAt⟩ := hAt
  have hIn : (some pool.address, other, pool.dexName) ∈ included.flatMap (edgesAt t) :=
    List.mem_flatMap.mpr ⟨pool, List.mem_of_getElem? hPool, hAt⟩
  rw [← hSlice] at hIn
  obtain ⟨edge, hEdge, hRead⟩ := List.mem_map.mp hIn
  obtain ⟨j, hj⟩ := List.getElem?_of_mem hEdge
  rw [List.getElem?_take] at hj
  split at hj
  case isFalse => exact absurd hj (by simp)
  case isTrue hLt =>
      rw [List.getElem?_drop] at hj
      refine ⟨u, List.range' lo (hi - lo), lo + j, edge, (hBuilt.token_inverse t u).mpr hu,
        ?_, ?_, hj, ?_⟩
      · simp [StaticGraph.edgeRange, hLo, hHi]
      · rw [List.mem_range'_1]
        omega
      · have hIndex : g.pools[edge.poolIdx]? = some pool.address := congrArg Prod.fst hRead
        have hHere := pools_getElem? hBuilt hPool
        have hRange := (List.getElem?_eq_some_iff.mp hIndex).1
        exact (List.getElem?_inj hRange hBuilt.pools_nodup).mp (hIndex.trans hHere.symm)

theorem not_searchInRange (hBeyond : 4096 ≤ k) : ¬ SearchInRange g := by
  intro hSearch
  obtain ⟨u, row, i, edge, hu, hRow, hi, hEdge, hIdx⟩ :=
    exists_edge hBuilt hPool (Or.inl rfl)
  have hToken := (List.getElem?_eq_some_iff.mp ((hBuilt.token_inverse _ _).mp hu)).1
  apply hSearch ⟨fun _ => none, fun _ => none⟩ u u ⟨[], Vector.replicate 64 0#64, []⟩ 1 1
    hToken hToken
  exact findCyclesDfs_eq_none hRow hi hEdge (by omega) _ _ _ le_rfl

/-- The first edge of the row is a task. -/
theorem spawnDirection_ne_nil : (spawnDirection g (pool.t0, pool.t1)).tasks ≠ [] := by
  obtain ⟨start, _, _, _, hStart, _⟩ := exists_edge hBuilt hPool (Or.inl rfl)
  obtain ⟨current, row, i, _, hCurrent, hRow, hi, _⟩ := exists_edge hBuilt hPool (Or.inr rfl)
  have hToken := (List.getElem?_eq_some_iff.mp ((hBuilt.token_inverse _ _).mp hCurrent)).1
  obtain ⟨row', hRow', _, hIndices⟩ := hBuilt.wellFormed.edgeRange hToken
  obtain rfl : row = row' := Option.some.inj (hRow.symm.trans hRow')
  simp only [spawnDirection, hStart, hCurrent, hRow]
  cases row with
  | nil => exact absurd hi (by simp)
  | cons first rest =>
      have hFirst := hIndices first (List.mem_cons_self ..)
      simp [spawnEdges, List.getElem?_eq_getElem hFirst]

/-- An event of the pool itself, between its two tokens. -/
theorem not_eventInRange (hBeyond : 4096 ≤ k) {det : ArbitrageDetector}
    (hDet : det.graph = g) {event : SwapEvent} (hRouter : event.swapInfo.router = pool.address)
    (hIdle : det.stateMirror.isCongested event.swapInfo.router 3 = false)
    (hSkew : skewChecked event det.stateMirror = true)
    {rest : List (Address × Address)}
    (hDirections : searchDirections det event = (pool.t0, pool.t1) :: rest) :
    ¬ EventInRange det event := by
  rintro ⟨hFinished, hTasks⟩
  obtain ⟨task, later, hHere⟩ :=
    List.exists_cons_of_ne_nil (spawnDirection_ne_nil hBuilt hPool)
  have hSpawned : task ∈ spawnedTasks det event := by
    simp only [spawnedTasks, hIdle, hSkew, hDirections, spawnAll, hDet, if_true,
      Bool.false_eq_true, if_false]
    split
    · simp [hHere]
    · simp [hHere]
  apply hTasks task hSpawned
  have hIdx : det.graph.poolToIdx event.swapInfo.router = some k := by
    rw [hDet, hRouter, hBuilt.pool_inverse]
    exact pools_getElem? hBuilt hPool
  exact findPaths_eq_none hIdx hBeyond task

end Large

/-! ## The bound -/

/-- **The index bound.**  Beyond `2 ^ 31` pools the offsets of a release build wrap. -/
theorem inRange_iff {build : Build} {order : SetOrder} {tables : Tables}
    {included : List IncludedPool} {g : StaticGraph}
    (hIncluded : includedPools tables = some included)
    (hStored : rebuildGraph build order tables = some g) :
    (included.length ≤ 4096 → InRange g) ∧
      (InRange g → included.length ≤ 4096 ∨ build = .release ∧ 2 ^ 31 ≤ included.length) := by
  have hBuilt : included.length < 2 ^ 31 → Built included g := by
    intro hCount
    have hEq := @rebuildGraph_eq order included tables hIncluded build
    have hFits : Fits build (2 * included.length) := Or.inr (by omega)
    rw [if_pos hFits, hStored] at hEq
    obtain rfl := Option.some.inj hEq
    exact graphOf_built hCount (included_nodup hIncluded)
  constructor
  · intro hCount
    exact inRange_of_built (hBuilt (by omega)) hCount
  · intro hInRange
    by_contra hNot
    have hBeyond : 4096 < included.length := by omega
    have hCount : included.length < 2 ^ 31 := by
      by_contra hHuge
      have hDebug : ¬ Fits build (2 * included.length) := by
        rintro (hRelease | hLt)
        · exact hNot (Or.inr ⟨hRelease, by omega⟩)
        · omega
      have hEq := @rebuildGraph_eq order included tables hIncluded build
      rw [if_neg hDebug, hStored] at hEq
      exact absurd hEq (by simp)
    have hPool := List.getElem?_eq_getElem hBeyond
    exact not_searchInRange (hBuilt hCount) hPool le_rfl hInRange.search

/-- 4096 new pools are in range. -/
theorem inRange_newPools : ∃ g,
    rebuildGraph .release anyOrder (newPools 4096 (by norm_num)) = some g ∧ InRange g := by
  have hIncluded := includedPools_newPools 4096 (by norm_num)
  have hFits : Fits .release (2 * (newIncluded 4096).length) := Or.inl rfl
  have hStored := @rebuildGraph_eq anyOrder _ _ hIncluded .release
  rw [if_pos hFits] at hStored
  refine ⟨graphOf anyOrder (newIncluded 4096), hStored, ?_⟩
  exact (inRange_iff hIncluded hStored).1 (by rw [newIncluded_length])

/-- A detector on the tables from which its graph was built. -/
def detectorOn (tables : Tables) (g : StaticGraph) : ArbitrageDetector where
  config := { minProfitWei := 1, maxPathLength := 4, chain := .base }
  stateMirror :=
    { pools := fun pool => (tables.entries.lookup pool).map MirrorEntry.toPoolState
      traderRegistry := tables.traderRegistry }
  graph := g
  poolRegistry := tables.poolRegistry

/-- A swap through the last of 4097 pools. -/
def lastPoolEvent : SwapEvent where
  sender := 0x5
  swapInfo :=
    { dex := .uniswapV2, router := 4097, tokenIn := 0xA, tokenOut := 0xB, amountIn := 1
      amountOutMin := 0, toAddr := 0, fee := none }
  mempoolTx := none

/-- With one pool more the event and the search both panic. -/
theorem not_inRange_newPools : ∃ g,
    rebuildGraph .release anyOrder (newPools 4097 (by norm_num)) = some g ∧
      ¬ EventInRange (detectorOn (newPools 4097 (by norm_num)) g) lastPoolEvent ∧
        ¬ SearchInRange g := by
  have hIncluded := includedPools_newPools 4097 (by norm_num)
  have hFits : Fits .release (2 * (newIncluded 4097).length) := Or.inl rfl
  have hStored := @rebuildGraph_eq anyOrder _ _ hIncluded .release
  rw [if_pos hFits] at hStored
  have hBuilt : Built (newIncluded 4097) (graphOf anyOrder (newIncluded 4097)) :=
    graphOf_built (by rw [newIncluded_length]; norm_num) (included_nodup hIncluded)
  have hPool : (newIncluded 4097)[4096]? = some ⟨4097, 0xA, 0xB, .uniswapV2⟩ := by
    rw [newIncluded, List.getElem?_map, List.getElem?_range (by norm_num)]
    rfl
  refine ⟨graphOf anyOrder (newIncluded 4097), hStored, ?_, not_searchInRange hBuilt hPool le_rfl⟩
  exact not_eventInRange hBuilt hPool le_rfl rfl rfl (by decide) (by decide) rfl

end SovereignShadow.Ports.SearchBounds
