import SovereignShadow.Ports.CycleSearch

/-!
# What `find_cycles_dfs` appends

On a well-formed graph of at most 4096 pools no index of the search is out of range, so
the search always returns.  What it appends are the edge walks from its token to the
target that keep to unvisited pools, each once: a walk is the list of its edge indices,
and two walks through parallel edges are two walks.

## Main results

* `route_index_iff` — the routes of the index graph are the edge walks.
* `findCyclesDfs_walks` — soundness, completeness and restoration.
-/

namespace SovereignShadow.Ports.EdgeWalks

open SovereignShadow.Verified.Bitmap
open SovereignShadow.Verified.Routes
open SovereignShadow.Ports.Models
open SovereignShadow.Ports.Mirror
open SovereignShadow.Ports.CycleSearch

/-- A compressed adjacency table: row `u` is the slice `nodes[u] .. nodes[u + 1]`. -/
structure WellFormed (g : StaticGraph) : Prop where
  nodes_length : g.nodes.length = g.tokens.length + 1
  nodes_first : g.nodes[0]? = some 0
  nodes_mono : g.nodes.Pairwise (· ≤ ·)
  nodes_last : g.nodes[g.tokens.length]? = some g.edges.length
  pool_lt : ∀ edge ∈ g.edges, edge.poolIdx < g.pools.length
  target_lt : ∀ edge ∈ g.edges, edge.targetTokenIdx < g.tokens.length

/-! ## Edge walks -/

/-- The pool of an edge. -/
def poolAt (g : StaticGraph) (i : Nat) : Option Nat := (g.edges[i]?).map StaticEdge.poolIdx

/-- The edges lead from `u` to `v`, each out of the row of the token before it. -/
def Leads (g : StaticGraph) : Nat → Nat → List Nat → Prop
  | u, v, [] => u = v
  | u, v, i :: rest =>
      (∃ row, g.edgeRange u = some row ∧ i ∈ row) ∧
        ∃ edge, g.edges[i]? = some edge ∧ Leads g edge.targetTokenIdx v rest

/-- A walk of at least one edge over different pools outside `avoid`, that meets the
target at its end only. -/
structure Walk (g : StaticGraph) (avoid : Nat → Prop) (current target : Nat)
    (walk : List Nat) : Prop where
  nonempty : walk ≠ []
  leads : Leads g current target walk
  pools : (walk.map (poolAt g)).Nodup
  fresh : ∀ i ∈ walk, ∀ edge, g.edges[i]? = some edge → ¬ avoid edge.poolIdx
  ends : ∀ i ∈ walk.dropLast, ∀ edge, g.edges[i]? = some edge → edge.targetTokenIdx ≠ target

/-- The hops of a walk. -/
def walkHops (g : StaticGraph) (mirror : StateMirror) : Nat → List Nat → List Hop
  | _, [] => []
  | current, i :: rest =>
      match g.edges[i]? with
      | none => []
      | some edge =>
          (makeHop g mirror current edge).toList ++ walkHops g mirror edge.targetTokenIdx rest

/-! ## In range -/

section InRange

variable {g : StaticGraph} (hg : WellFormed g)
include hg

theorem WellFormed.edgeRange {u : Nat} (hu : u < g.tokens.length) :
    ∃ row, g.edgeRange u = some row ∧ row.Nodup ∧ ∀ i ∈ row, i < g.edges.length := by
  have hLength := hg.nodes_length
  have hLo : u < g.nodes.length := by omega
  have hHi : u + 1 < g.nodes.length := by omega
  have hLastIdx : g.tokens.length < g.nodes.length := by omega
  have hLast : g.nodes[g.tokens.length] = g.edges.length := by
    have hRead := hg.nodes_last
    rw [List.getElem?_eq_getElem hLastIdx] at hRead
    exact Option.some.inj hRead
  have hBound : g.nodes[u + 1] ≤ g.edges.length := by
    rw [← hLast]
    rcases Nat.lt_or_ge (u + 1) g.tokens.length with hLt | hGe
    · exact List.pairwise_iff_getElem.mp hg.nodes_mono _ _ hHi hLastIdx hLt
    · have hSame : u + 1 = g.tokens.length := by omega
      simp only [hSame]
      exact le_rfl
  refine ⟨List.range' g.nodes[u] (g.nodes[u + 1] - g.nodes[u]), ?_, List.nodup_range', ?_⟩
  · simp [StaticGraph.edgeRange, List.getElem?_eq_getElem hLo, List.getElem?_eq_getElem hHi]
  · intro i hi
    rw [List.mem_range'_1] at hi
    omega

theorem WellFormed.makeHop {mirror : StateMirror} {u : Nat} (hu : u < g.tokens.length)
    {edge : StaticEdge} (hEdge : edge ∈ g.edges) :
    ∃ hop, makeHop g mirror u edge = some hop := by
  have hPool := hg.pool_lt edge hEdge
  have hTarget := hg.target_lt edge hEdge
  simp [CycleSearch.makeHop, List.getElem?_eq_getElem hPool, List.getElem?_eq_getElem hu,
    List.getElem?_eq_getElem hTarget]

end InRange

/-! ## Index labels -/

/-- The pool graph with edge indices beside the hops. -/
def labelGraph (g : StaticGraph) (mirror : StateMirror) : Graph Nat Nat Nat (Nat × Hop) where
  out := (poolGraph g mirror).out
  key := (poolGraph g mirror).key
  follow current i := ((poolGraph g mirror).follow current i).map fun next =>
    ((i, next.1), next.2)

/-- The pool graph with edge indices in place of the hops. -/
def indexGraph (g : StaticGraph) (mirror : StateMirror) : Graph Nat Nat Nat Nat :=
  (labelGraph g mirror).mapLabel Prod.fst

theorem poolGraph_eq (g : StaticGraph) (mirror : StateMirror) :
    poolGraph g mirror = (labelGraph g mirror).mapLabel Prod.snd := by
  simp [labelGraph, Graph.mapLabel, Option.map_map, Function.comp_def]

theorem index_follow {g : StaticGraph} {mirror : StateMirror} {u i label v : Nat} :
    (indexGraph g mirror).follow u i = some (label, v) ↔
      label = i ∧ ∃ edge, g.edges[i]? = some edge ∧ edge.targetTokenIdx = v ∧
        ∃ hop, makeHop g mirror u edge = some hop := by
  have hFollow : (indexGraph g mirror).follow u i =
      ((poolGraph g mirror).follow u i).map fun next => (i, next.2) := by
    simp [indexGraph, labelGraph, Graph.mapLabel, Option.map_map, Function.comp_def]
  rw [hFollow]
  cases hEdge : g.edges[i]? with
  | none => simp [poolGraph, hEdge]
  | some edge =>
      cases hHop : makeHop g mirror u edge with
      | none => simp [poolGraph, hEdge, hHop]
      | some hop => simp [poolGraph, hEdge, hHop, eq_comm]

theorem index_key {g : StaticGraph} {mirror : StateMirror} (hg : WellFormed g)
    (hPools : g.pools.length ≤ 4096) {i : Nat} {edge : StaticEdge}
    (hEdge : g.edges[i]? = some edge) :
    (indexGraph g mirror).key i = some edge.poolIdx := by
  have hPool := hg.pool_lt edge (List.mem_of_getElem? hEdge)
  have hRange : edge.poolIdx / 64 < 64 := by omega
  exact @key_of_edge g mirror i edge hEdge hRange

/-- The pools of a walk stay different from a pool and from each other. -/
theorem walk_cons_iff {g : StaticGraph} {avoid : Finset Nat} {current target i : Nat}
    {rest : List Nat} {edge : StaticEdge} (hEdge : g.edges[i]? = some edge)
    (hRow : ∃ row, g.edgeRange current = some row ∧ i ∈ row) (hRest : rest ≠ []) :
    Walk g (· ∈ avoid) current target (i :: rest) ↔
      edge.poolIdx ∉ avoid ∧ edge.targetTokenIdx ≠ target ∧
        Walk g (· ∈ insert edge.poolIdx avoid) edge.targetTokenIdx target rest := by
  have hPoolAt : poolAt g i = some edge.poolIdx := by simp [poolAt, hEdge]
  constructor
  · intro h
    obtain ⟨_, edge', hEdge', hLeads⟩ := h.leads
    obtain rfl : edge = edge' := Option.some.inj (hEdge.symm.trans hEdge')
    have hNodup := h.pools
    rw [List.map_cons, List.nodup_cons, hPoolAt] at hNodup
    have hEnds := h.ends
    rw [List.dropLast_cons_of_ne_nil hRest] at hEnds
    have hFresh := h.fresh
    rw [List.forall_mem_cons] at hEnds hFresh
    refine ⟨hFresh.1 edge hEdge, hEnds.1 edge hEdge,
      { nonempty := hRest, leads := hLeads, pools := hNodup.2, fresh := ?_, ends := hEnds.2 }⟩
    intro j hj other hOther hIn
    rcases Finset.mem_insert.mp hIn with hSame | hAvoid
    · exact hNodup.1 (List.mem_map.mpr ⟨j, hj, by simp [poolAt, hOther, hSame]⟩)
    · exact hFresh.2 j hj other hOther hAvoid
  · rintro ⟨hFree, hOn, h⟩
    refine
      { nonempty := List.cons_ne_nil i rest
        leads := ⟨hRow, edge, hEdge, h.leads⟩
        pools := ?_, fresh := ?_, ends := ?_ }
    · rw [List.map_cons, List.nodup_cons, hPoolAt]
      refine ⟨fun hIn => ?_, h.pools⟩
      obtain ⟨j, hj, hPool⟩ := List.mem_map.mp hIn
      obtain ⟨other, hOther, hSame⟩ := Option.map_eq_some_iff.mp hPool
      exact h.fresh j hj other hOther (hSame ▸ Finset.mem_insert_self _ _)
    · rw [List.forall_mem_cons]
      refine ⟨fun other hOther => ?_, fun j hj other hOther hIn => ?_⟩
      · obtain rfl : edge = other := Option.some.inj (hEdge.symm.trans hOther)
        exact hFree
      · exact h.fresh j hj other hOther (Finset.mem_insert_of_mem hIn)
    · rw [List.dropLast_cons_of_ne_nil hRest, List.forall_mem_cons]
      refine ⟨fun other hOther => ?_, h.ends⟩
      obtain rfl : edge = other := Option.some.inj (hEdge.symm.trans hOther)
      exact hOn

theorem walk_single_iff {g : StaticGraph} {avoid : Finset Nat} {current target i : Nat}
    {edge : StaticEdge} (hEdge : g.edges[i]? = some edge)
    (hRow : ∃ row, g.edgeRange current = some row ∧ i ∈ row) :
    Walk g (· ∈ avoid) current target [i] ↔
      edge.poolIdx ∉ avoid ∧ edge.targetTokenIdx = target := by
  constructor
  · intro h
    obtain ⟨_, edge', hEdge', hLeads⟩ := h.leads
    obtain rfl : edge = edge' := Option.some.inj (hEdge.symm.trans hEdge')
    exact ⟨h.fresh i (List.mem_singleton_self i) edge hEdge, hLeads⟩
  · rintro ⟨hFree, hEnd⟩
    refine
      { nonempty := List.cons_ne_nil i []
        leads := ⟨hRow, edge, hEdge, hEnd⟩
        pools := List.nodup_singleton _, fresh := ?_, ends := by simp }
    intro j hj other hOther
    obtain rfl := List.mem_singleton.mp hj
    obtain rfl : edge = other := Option.some.inj (hEdge.symm.trans hOther)
    exact hFree

/-- **Routes of the index graph are edge walks.** -/
theorem route_index_iff {g : StaticGraph} (hg : WellFormed g) (hPools : g.pools.length ≤ 4096)
    {mirror : StateMirror} {target : Nat} {avoid : Finset Nat} {walk : List Nat} {current : Nat}
    (hCurrent : current < g.tokens.length) :
    (∃ keys, Route (indexGraph g mirror) target avoid current walk keys) ↔
      Walk g (· ∈ avoid) current target walk := by
  induction walk generalizing avoid current with
  | nil =>
      refine ⟨fun ⟨keys, hRoute⟩ => ?_, fun h => absurd rfl h.nonempty⟩
      cases hRoute
  | cons i rest ih =>
      rw [route_iff]
      constructor
      · rintro ⟨row, hRow, j, hj, k, label, v, hKey, hFree, hFollow, hCase⟩
        obtain ⟨rfl, edge, hEdge, rfl, hHop⟩ := index_follow.mp hFollow
        rw [index_key hg hPools hEdge] at hKey
        obtain rfl := Option.some.inj hKey
        rcases hCase with ⟨hEnd, hOnly⟩ | ⟨hOn, tail, hRoute, hSplit⟩
        · obtain ⟨rfl, rfl⟩ := List.cons.inj hOnly
          exact (walk_single_iff hEdge ⟨row, hRow, hj⟩).mpr ⟨hFree, hEnd⟩
        · obtain ⟨rfl, rfl⟩ := List.cons.inj hSplit
          have hNext := hg.target_lt edge (List.mem_of_getElem? hEdge)
          have hWalk := (ih hNext).mp hRoute
          exact (walk_cons_iff hEdge ⟨row, hRow, hj⟩ hWalk.nonempty).mpr ⟨hFree, hOn, hWalk⟩
      · intro h
        obtain ⟨⟨row, hRow, hi⟩, edge, hEdge, _⟩ := h.leads
        have hMem := List.mem_of_getElem? hEdge
        refine ⟨row, hRow, i, hi, edge.poolIdx, i, edge.targetTokenIdx,
          index_key hg hPools hEdge, ?_, ?_⟩
        · exact h.fresh i List.mem_cons_self edge hEdge
        · refine ⟨index_follow.mpr ⟨rfl, edge, hEdge, rfl, hg.makeHop hCurrent hMem⟩, ?_⟩
          by_cases hRest : rest = []
          · subst hRest
            exact Or.inl ⟨((walk_single_iff hEdge ⟨row, hRow, hi⟩).mp h).2, rfl⟩
          · obtain ⟨_, hOn, hWalk⟩ := (walk_cons_iff hEdge ⟨row, hRow, hi⟩ hRest).mp h
            exact Or.inr ⟨hOn, rest, (ih (hg.target_lt edge hMem)).mpr hWalk, rfl⟩

/-! ## The search -/

/-- The hops of a route are those of its walk. -/
theorem route_hops {g : StaticGraph} {mirror : StateMirror} {target current : Nat}
    {avoid : Finset Nat} {labels : List (Nat × Hop)} {keys : List Nat}
    (h : Route (labelGraph g mirror) target avoid current labels keys) :
    labels.map Prod.snd = walkHops g mirror current (labels.map Prod.fst) := by
  have hFollows : ∀ {v i label u}, (labelGraph g mirror).follow v i = some (label, u) →
      ∃ edge, g.edges[label.1]? = some edge ∧ edge.targetTokenIdx = u ∧
        makeHop g mirror v edge = some label.2 := by
    intro v i label u hFollow
    obtain ⟨⟨hop, u'⟩, hNext, hPair⟩ := Option.map_eq_some_iff.mp hFollow
    obtain ⟨rfl, rfl⟩ := Prod.mk.inj hPair
    obtain ⟨edge, hEdge, hNext⟩ := Option.bind_eq_some_iff.mp hNext
    obtain ⟨hop', hHop, hNext⟩ := Option.bind_eq_some_iff.mp hNext
    obtain ⟨rfl, rfl⟩ := Prod.mk.inj (Option.some.inj hNext)
    exact ⟨edge, hEdge, rfl, hHop⟩
  induction h with
  | last _ _ _ _ hFollow =>
      obtain ⟨edge, hEdge, _, hHop⟩ := hFollows hFollow
      simp [walkHops, hEdge, hHop]
  | step _ _ _ _ hFollow _ _ ih =>
      obtain ⟨edge, hEdge, rfl, hHop⟩ := hFollows hFollow
      simp [walkHops, hEdge, hHop, ih]

/-- No index is out of range. -/
theorem exists_labelRoutes {g : StaticGraph} (hg : WellFormed g)
    (hPools : g.pools.length ≤ 4096) (mirror : StateMirror) (target n : Nat)
    (avoid : Finset Nat) {current : Nat} (hCurrent : current < g.tokens.length) :
    ∃ found, routes (labelGraph g mirror) target n avoid current = some found := by
  refine exists_routes (· < g.tokens.length) ?_ n hCurrent
  intro u hu
  obtain ⟨row, hRow, _, hRange⟩ := hg.edgeRange hu
  refine ⟨row, hRow, fun i hi => ?_⟩
  have hEdge := List.getElem?_eq_getElem (hRange i hi)
  have hMem := List.getElem_mem (hRange i hi)
  obtain ⟨hop, hHop⟩ := @WellFormed.makeHop g hg mirror u hu _ hMem
  refine ⟨_, @index_key g mirror hg hPools i _ hEdge, (i, hop), _, ?_, hg.target_lt _ hMem⟩
  have hFollow := follow_of_hop hEdge hHop
  simp [labelGraph, hFollow]

/-- **Sound, complete, restored.** -/
theorem findCyclesDfs_walks (g : StaticGraph) (hg : WellFormed g)
    (hPools : g.pools.length ≤ 4096) (mirror : StateMirror) (current target : Nat)
    (hCurrent : current < g.tokens.length) (s : Search) (depth maxDepth : Nat)
    (hDepth : s.currentHops.length + 1 = depth) :
    ∃ walks : List (List Nat), walks.Nodup ∧
      (∀ walk, walk ∈ walks ↔
        Walk g (fun pool => test s.visitedPools pool = some true) current target walk ∧
          s.currentHops.length + walk.length ≤ maxDepth) ∧
      findCyclesDfs g mirror current target s depth maxDepth =
        some { s with results := s.results ++ walks.map fun walk =>
          s.currentHops ++ walkHops g mirror current walk } := by
  obtain ⟨avoid, hMarks⟩ := exists_marks s.visitedPools
  obtain ⟨found, hFound⟩ := exists_labelRoutes hg hPools mirror target
    (maxDepth + 1 - depth) avoid hCurrent
  have hWalks : routes (indexGraph g mirror) target (maxDepth + 1 - depth) avoid current =
      some (found.map (List.map Prod.fst)) := by
    rw [indexGraph, routes_mapLabel, hFound, Option.map_some]
  refine ⟨found.map (List.map Prod.fst), ?_, ?_, ?_⟩
  · refine routes_nodup ?_ ?_ hWalks
    · intro u row hRow
      obtain ⟨start, _, hRow⟩ := Option.bind_eq_some_iff.mp hRow
      obtain ⟨stop, _, hRow⟩ := Option.bind_eq_some_iff.mp hRow
      obtain rfl := Option.some.inj hRow
      exact List.nodup_range'
    · intro u i i' label v v' hFollow hFollow'
      rw [← (index_follow.mp hFollow).1, ← (index_follow.mp hFollow').1]
  · intro walk
    rw [mem_routes hWalks, route_index_iff hg hPools hCurrent]
    have hAvoid : (fun pool => test s.visitedPools pool = some true) = (· ∈ avoid) :=
      funext fun pool => propext (hMarks pool)
    rw [hAvoid, and_comm]
    have hLevels : walk.length ≤ maxDepth + 1 - depth ↔
        walk = [] ∨ s.currentHops.length + walk.length ≤ maxDepth := by
      rw [← List.length_eq_zero_iff]
      omega
    rw [hLevels]
    refine and_congr_right fun hWalk => ?_
    exact or_iff_right hWalk.nonempty
  · rw [findCyclesDfs, dfs_eq g mirror target hMarks, poolGraph_eq, routes_mapLabel, hFound]
    show some (s.push _) = some _
    unfold Search.push
    have hHops : (found.map (List.map Prod.snd)).map (s.currentHops ++ ·) =
        (found.map (List.map Prod.fst)).map fun walk =>
          s.currentHops ++ walkHops g mirror current walk := by
      rw [List.map_map, List.map_map]
      apply List.map_congr_left
      intro labels hMem
      obtain ⟨_, keys, hRoute⟩ := (mem_routes hFound).mp hMem
      show s.currentHops ++ labels.map Prod.snd = _
      rw [route_hops hRoute]
      rfl
    rw [hHops]

/-- Two pools of `A` and `B`. -/
def twoPools : StaticGraph where
  tokens := [0xA, 0xB]
  tokenToIdx token := if token = 0xA then some 0 else if token = 0xB then some 1 else none
  pools := [0x11, 0x22]
  poolToIdx pool := if pool = 0x11 then some 0 else if pool = 0x22 then some 1 else none
  nodes := [0, 2, 4]
  edges := [{ poolIdx := 0, targetTokenIdx := 1, dexName := .uniswapV2 },
    { poolIdx := 1, targetTokenIdx := 1, dexName := .sushiSwap },
    { poolIdx := 0, targetTokenIdx := 0, dexName := .uniswapV2 },
    { poolIdx := 1, targetTokenIdx := 0, dexName := .sushiSwap }]

theorem twoPools_wellFormed : WellFormed twoPools where
  nodes_length := rfl
  nodes_first := rfl
  nodes_mono := by decide
  nodes_last := rfl
  pool_lt := by decide
  target_lt := by decide

/-- The search for cycles of up to three hops through `A`, on an unmirrored graph. -/
theorem findCyclesDfs_twoPools :
    ∃ walks : List (List Nat), walks.Nodup ∧
      (∀ walk, walk ∈ walks ↔
        Walk twoPools (fun pool => test (Vector.replicate 64 0#64) pool = some true) 0 0 walk ∧
          0 + walk.length ≤ 3) ∧
      findCyclesDfs twoPools ⟨fun _ => none, fun _ => none⟩ 0 0
          ⟨[], Vector.replicate 64 0#64, []⟩ 1 3 =
        some ⟨[], Vector.replicate 64 0#64, [] ++ walks.map fun walk =>
          [] ++ walkHops twoPools ⟨fun _ => none, fun _ => none⟩ 0 walk⟩ :=
  findCyclesDfs_walks twoPools twoPools_wellFormed (by decide) ⟨fun _ => none, fun _ => none⟩
    0 0 (by decide) ⟨[], Vector.replicate 64 0#64, []⟩ 1 3 rfl

end SovereignShadow.Ports.EdgeWalks
