import SovereignShadow.Ports.StateMirror
import SovereignShadow.Verified.Bitmap
import SovereignShadow.Verified.Routes

/-!
# The cycle search

Port of `StaticGraph` and `find_cycles_dfs` of `arbitrage_detector.rs`: the graph as
index tables, and the backtracking search over it with its hop stack, its bitmap of
4096 pools and its results.  A `none` is an index panic.

The search carries three pieces of mutable state, but what it appends to the results
depends on none of the earlier ones: it is the list of routes from the current token to
the target over pools that the bitmap does not hold.

## Main results

* `dfs_eq` — the search appends the routes and restores the stack and the bitmap.
-/

namespace SovereignShadow.Ports.CycleSearch

open SovereignShadow.Verified
open SovereignShadow.Verified.Bitmap
open SovereignShadow.Verified.Routes
open SovereignShadow.Ports.Models
open SovereignShadow.Ports.Mirror

/-! ## The graph -/

structure StaticEdge where
  poolIdx : Nat
  targetTokenIdx : Nat
  dexName : DexName
  deriving DecidableEq, Repr

structure StaticGraph where
  tokens : List Address
  tokenToIdx : Address → Option Nat
  pools : List Address
  poolToIdx : Address → Option Nat
  nodes : List Nat
  edges : List StaticEdge

/-- `graph.nodes[t] .. graph.nodes[t + 1]`. -/
def StaticGraph.edgeRange (g : StaticGraph) (token : Nat) : Option (List Nat) := do
  let start ← g.nodes[token]?
  let stop ← g.nodes[token + 1]?
  some (List.range' start (stop - start))

/-- The `dex_type` of a hop. -/
def hopDexType : DexName → DexType
  | .aerodrome => .aerodrome
  | .uniswapV3 => .uniswapV3
  | _ => .uniswapV2

/-- The hop over `edge` from the token `current`. -/
def makeHop (g : StaticGraph) (mirror : StateMirror) (current : Nat) (edge : StaticEdge) :
    Option Hop := do
  let poolAddr ← g.pools[edge.poolIdx]?
  let tokenIn ← g.tokens[current]?
  let tokenOut ← g.tokens[edge.targetTokenIdx]?
  some
    { pool := poolAddr, poolAddress := poolAddr, tokenIn, tokenOut
      isStable := ((mirror.pools poolAddr).map PoolState.isStable).getD false
      dexType := hopDexType edge.dexName
      dexName := edge.dexName
      zeroForOne := decide (tokenIn < tokenOut) }

/-! ## The search -/

/-- `visited_pools : [u64; 64]`; word `idx >> 6`, bit `idx & 63`. -/
abbrev VisitedPools := Words 64

/-- The mutable arguments of `find_cycles_dfs`. -/
structure Search where
  currentHops : List Hop
  visitedPools : VisitedPools
  results : List (List Hop)

/-- Takes the stack as a result, or goes on from the end of `edge`. -/
def descend (target : Nat) (recurse : Nat → Search → Option Search) (edge : StaticEdge)
    (s : Search) : Option Search :=
  if edge.targetTokenIdx = target ∧ s.currentHops.length ≥ 1 then
    some { s with results := s.results ++ [s.currentHops] }
  else recurse edge.targetTokenIdx s

/-- The body of the loop over the edges of `current`. -/
def dfsEdge (g : StaticGraph) (mirror : StateMirror) (target : Nat)
    (recurse : Nat → Search → Option Search) (current : Nat) (s : Search) (i : Nat) :
    Option Search := do
  let edge ← g.edges[i]?
  let visited ← test s.visitedPools edge.poolIdx
  if visited then some s
  else do
    let hop ← makeHop g mirror current edge
    let marked ← mark s.visitedPools edge.poolIdx
    let s ← descend target recurse edge
      { s with currentHops := s.currentHops ++ [hop], visitedPools := marked }
    let unmarked ← unmark s.visitedPools edge.poolIdx
    some { s with currentHops := s.currentHops.dropLast, visitedPools := unmarked }

/-- `find_cycles_dfs` with `max_depth + 1 - depth` levels left. -/
def dfs (g : StaticGraph) (mirror : StateMirror) (target : Nat) :
    Nat → Nat → Search → Option Search
  | 0, _, s => some s
  | levels + 1, current, s => do
      let indices ← g.edgeRange current
      indices.foldlM (dfsEdge g mirror target (dfs g mirror target levels) current) s

def findCyclesDfs (g : StaticGraph) (mirror : StateMirror) (current target : Nat) (s : Search)
    (depth maxDepth : Nat) : Option Search :=
  dfs g mirror target (maxDepth + 1 - depth) current s

/-! ## What it lists -/

/-- The graph by its partial reads.  An edge is its index, its key the index of its
pool; a pool beyond the bitmap has no key. -/
def poolGraph (g : StaticGraph) (mirror : StateMirror) : Graph Nat Nat Nat Hop where
  out := g.edgeRange
  key i := do
    let edge ← g.edges[i]?
    if edge.poolIdx / 64 < 64 then some edge.poolIdx else none
  follow current i := do
    let edge ← g.edges[i]?
    let hop ← makeHop g mirror current edge
    some (hop, edge.targetTokenIdx)

section Reads

variable {g : StaticGraph} {mirror : StateMirror} {i current : Nat} {edge : StaticEdge}

theorem key_of_edge (hEdge : g.edges[i]? = some edge) (hRange : edge.poolIdx / 64 < 64) :
    (poolGraph g mirror).key i = some edge.poolIdx := by
  simp [poolGraph, hEdge, hRange]

theorem follow_of_hop (hEdge : g.edges[i]? = some edge) {hop : Hop}
    (hHop : makeHop g mirror current edge = some hop) :
    (poolGraph g mirror).follow current i = some (hop, edge.targetTokenIdx) := by
  simp [poolGraph, hEdge, hHop]

end Reads

/-- The state after the search has listed `found` below the stack of `s`. -/
def Search.push (s : Search) (found : List (List Hop)) : Search :=
  { s with results := s.results ++ found.map (s.currentHops ++ ·) }

theorem push_nil (s : Search) : s.push [] = s := by simp [Search.push]

theorem push_push (s : Search) (found found' : List (List Hop)) :
    (s.push found).push found' = s.push (found ++ found') := by
  simp [Search.push, List.append_assoc]

/-- One edge lists its branch, whatever the recursive call lists below it. -/
theorem dfsEdge_eq {g : StaticGraph} {mirror : StateMirror} {target current : Nat}
    {recurse : Nat → Search → Option Search}
    {go : Finset Nat → Nat → Option (List (List Hop))}
    (hRecurse : ∀ (s : Search) avoid v, Marks s.visitedPools avoid →
      recurse v s = (go avoid v).map s.push)
    {s : Search} {avoid : Finset Nat} (hMarks : Marks s.visitedPools avoid) (i : Nat) :
    dfsEdge g mirror target recurse current s i =
      (branch (poolGraph g mirror) target go avoid current i).map s.push := by
  cases hEdge : g.edges[i]? with
  | none => simp [dfsEdge, branch, poolGraph, hEdge]
  | some edge =>
      by_cases hRange : edge.poolIdx / 64 < 64
      · have hKey := @key_of_edge g mirror i edge hEdge hRange
        have hTest := hMarks.test hRange
        by_cases hVisited : edge.poolIdx ∈ avoid
        · rw [branch_avoided hKey hVisited]
          simp [dfsEdge, hEdge, hTest, hVisited, push_nil]
        · rw [decide_eq_false hVisited] at hTest
          obtain ⟨marked, hMark⟩ := exists_mark s.visitedPools hRange
          have hUnmark := unmark_mark hTest hMark
          cases hHop : makeHop g mirror current edge with
          | none => simp [dfsEdge, branch, poolGraph, hEdge, hTest, hRange, hVisited, hHop]
          | some hop =>
              have hFollow := follow_of_hop hEdge hHop
              by_cases hEnd : edge.targetTokenIdx = target
              · rw [hEnd] at hFollow
                rw [branch_last hKey hVisited hFollow]
                simp [dfsEdge, descend, hEdge, hTest, hHop, hMark, hEnd, hUnmark, Search.push]
              · rw [branch_on hKey hVisited hFollow hEnd]
                simp only [dfsEdge, descend, hEdge, hTest, hHop, hMark, hEnd, false_and,
                  if_false, Option.bind_eq_bind, Option.bind_some, Bool.false_eq_true]
                rw [hRecurse _ _ _ (hMarks.mark hMark)]
                cases go (insert edge.poolIdx avoid) edge.targetTokenIdx with
                | none => rfl
                | some rest => simp [Search.push, hUnmark, Function.comp_def]
      · have hTest := (test_eq_none s.visitedPools).mpr hRange
        simp [dfsEdge, branch, poolGraph, hEdge, hTest, hRange]

/-- **The search lists the routes** and leaves the stack and the bitmap as they were. -/
theorem dfs_eq (g : StaticGraph) (mirror : StateMirror) (target : Nat) {levels current : Nat}
    {s : Search} {avoid : Finset Nat} (hMarks : Marks s.visitedPools avoid) :
    dfs g mirror target levels current s =
      (routes (poolGraph g mirror) target levels avoid current).map s.push := by
  induction levels generalizing current s avoid with
  | zero =>
      show some s = some (s.push [])
      rw [push_nil]
  | succ levels ih =>
      have hBelow : ∀ (t : Search) avoid v, Marks t.visitedPools avoid →
          dfs g mirror target levels v t =
            (routes (poolGraph g mirror) target levels avoid v).map t.push :=
        fun t avoid v hThere => ih hThere
      have hStep : ∀ (t : Search) i, Marks t.visitedPools avoid →
          dfsEdge g mirror target (dfs g mirror target levels) current t i =
            (branch (poolGraph g mirror) target (routes (poolGraph g mirror) target levels)
              avoid current i).map t.push :=
        fun t i hHere => dfsEdge_eq hBelow hHere i
      cases hOut : g.edgeRange current with
      | none => simp [dfs, routes, poolGraph, hOut]
      | some indices =>
          have hLoop := foldlM_eq_mapM (fun t : Search => Marks t.visitedPools avoid) hStep
            (fun _ _ hHere => hHere) push_nil push_push indices hMarks
          have hOut' : (poolGraph g mirror).out current = some indices := hOut
          simp only [dfs, routes, hOut, hOut', Option.bind_eq_bind, Option.bind_some]
          rw [hLoop]
          generalize indices.mapM (branch (poolGraph g mirror) target
            (routes (poolGraph g mirror) target levels) avoid current) = found
          cases found with
          | none => rfl
          | some parts => rfl

end SovereignShadow.Ports.CycleSearch
