import SovereignShadow.Ports.ArbitrageDetector

/-!
# What the detector sends

The search of a task runs from the second token of its direction to the first one, and
the trigger pool, which would close the walk, is only marked as visited, never put on
the path.  So a path found is a walk between the two tokens of the swap, and a cycle
only where the two are one, as in a router call whose path comes back to its first token.
The first edge is taken as a path by itself where it ends at the first token.

## Main results

* `findPaths_eq` — a task finds the walks of its direction, in search order.
* `taskWalk_iff` — these are the walks of the graph.
* `genuine_iff` — when the opportunity of a walk is a cycle.
* `sent_genuine` — when everything an event sends is.
-/

namespace SovereignShadow.Ports.GenuineCycles

open SovereignShadow.Verified.Bitmap
open SovereignShadow.Verified.Routes
open SovereignShadow.Ports.Models
open SovereignShadow.Ports.Mirror
open SovereignShadow.Ports.MathEngine
open SovereignShadow.Ports.CycleSearch
open SovereignShadow.Ports.Detector

/-- A cycle of at least two and at most `maxPathLength` hops over different pools, that
starts and ends with the input token. -/
structure Genuine (maxPathLength : Nat) (opp : Opportunity) : Prop where
  two_le : 2 ≤ opp.path.hops.length
  chained : opp.path.hops.IsChain fun hop next => hop.tokenOut = next.tokenIn
  pools : (opp.path.hops.map Hop.poolAddress).Nodup
  le_max : opp.path.hops.length ≤ maxPathLength
  closed : ∃ first last, opp.path.hops.head? = some first ∧
    opp.path.hops.getLast? = some last ∧ last.tokenOut = first.tokenIn ∧
      first.tokenIn = opp.inputToken

/-! ## Walks -/

section Walks

variable (det : ArbitrageDetector) (event : SwapEvent) (task : SearchTask)

/-- The trigger pool, where the graph and the bitmap have it. -/
def triggerPools : Option (Finset Nat) :=
  match det.graph.poolToIdx event.swapInfo.router with
  | none => some ∅
  | some triggerIdx => if triggerIdx / 64 < 64 then some {triggerIdx} else none

/-- The walks of a task, in search order: its edge, then any route to the first token
over pools other than the trigger and the edge's own.  It fails where a read on the way
is out of range. -/
def taskWalks : Option (List (List Hop)) := do
  let avoid ← triggerPools det event
  let hop ← makeHop det.graph det.stateMirror task.current task.edge
  if task.edge.poolIdx / 64 < 64 then
    if task.edge.targetTokenIdx = task.start then some [[hop]]
    else do
      let found ← routes (poolGraph det.graph det.stateMirror) task.start
        (det.config.maxPathLength - 1) (insert task.edge.poolIdx avoid) task.edge.targetTokenIdx
      some (found.map (hop :: ·))
  else none

/-- A walk of the graph for the task, by its hops and the indices of its pools: the edge
of the task and, where that does not end at the first token, a route there over pools other
than the trigger and the edge's own. -/
inductive TaskWalk : List Hop → List Nat → Prop
  | edge {hop} (hHop : makeHop det.graph det.stateMirror task.current task.edge = some hop)
      (hEnd : task.edge.targetTokenIdx = task.start) : TaskWalk [hop] [task.edge.poolIdx]
  | route {avoid hop hops keys} (hAvoid : triggerPools det event = some avoid)
      (hHop : makeHop det.graph det.stateMirror task.current task.edge = some hop)
      (hOn : task.edge.targetTokenIdx ≠ task.start)
      (hShort : hops.length ≤ det.config.maxPathLength - 1)
      (hRoute : Route (poolGraph det.graph det.stateMirror) task.start
        (insert task.edge.poolIdx avoid) task.edge.targetTokenIdx hops keys) :
      TaskWalk (hop :: hops) (task.edge.poolIdx :: keys)

end Walks

theorem triggerVisited_marks (det : ArbitrageDetector) (event : SwapEvent) :
    triggerVisited det.graph event.swapInfo.router = none ∧ triggerPools det event = none ∨
      ∃ visited avoid, triggerVisited det.graph event.swapInfo.router = some visited ∧
        triggerPools det event = some avoid ∧ Marks visited avoid := by
  unfold triggerVisited triggerPools
  cases det.graph.poolToIdx event.swapInfo.router with
  | none => exact Or.inr ⟨_, ∅, rfl, rfl, marks_zero⟩
  | some triggerIdx =>
      by_cases hRange : triggerIdx / 64 < 64
      · obtain ⟨visited, hMark⟩ := exists_mark (Vector.replicate 64 0#64) hRange
        have hMarks := Marks.mark marks_zero hMark
        rw [Finset.insert_empty] at hMarks
        exact Or.inr ⟨visited, {triggerIdx}, hMark, if_pos hRange, hMarks⟩
      · exact Or.inl ⟨(mark_eq_none _).mpr hRange, if_neg hRange⟩

/-- **A task finds its walks.** -/
theorem findPaths_eq (det : ArbitrageDetector) (event : SwapEvent) (task : SearchTask) :
    findPaths det event task = taskWalks det event task := by
  unfold findPaths taskWalks
  rcases triggerVisited_marks det event with
    ⟨hVisited, hAvoid⟩ | ⟨visited, avoid, hVisited, hAvoid, hMarks⟩
  · rw [hVisited, hAvoid]
    rfl
  · rw [hVisited, hAvoid]
    cases hHop : makeHop det.graph det.stateMirror task.current task.edge with
    | none => rfl
    | some hop =>
        by_cases hRange : task.edge.poolIdx / 64 < 64
        · obtain ⟨marked, hMark⟩ := exists_mark visited hRange
          simp only [hMark, if_pos hRange, Option.bind_eq_bind, Option.bind_some]
          by_cases hEnd : task.edge.targetTokenIdx = task.start
          · rw [if_pos hEnd, if_pos hEnd]
          · rw [if_neg hEnd, if_neg hEnd, findCyclesDfs, dfs_eq _ _ _ (hMarks.mark hMark)]
            have hLevels : det.config.maxPathLength + 1 - 2 =
                det.config.maxPathLength - 1 := by omega
            rw [hLevels]
            generalize routes (poolGraph det.graph det.stateMirror) task.start
              (det.config.maxPathLength - 1) (insert task.edge.poolIdx avoid)
              task.edge.targetTokenIdx = found
            cases found with
            | none => rfl
            | some found => simp [Search.push]
        · simp [(mark_eq_none visited).mpr hRange, hRange]

/-- **The walks found** are those of the graph. -/
theorem taskWalk_iff {det : ArbitrageDetector} {event : SwapEvent} {task : SearchTask}
    {walks : List (List Hop)} (h : taskWalks det event task = some walks) {hops : List Hop} :
    hops ∈ walks ↔ ∃ keys, TaskWalk det event task hops keys := by
  obtain ⟨avoid, hAvoid, h⟩ := Option.bind_eq_some_iff.mp h
  obtain ⟨hop, hHop, h⟩ := Option.bind_eq_some_iff.mp h
  by_cases hRange : task.edge.poolIdx / 64 < 64
  · rw [if_pos hRange] at h
    by_cases hEnd : task.edge.targetTokenIdx = task.start
    · rw [if_pos hEnd] at h
      obtain rfl := Option.some.inj h
      rw [List.mem_singleton]
      constructor
      · rintro rfl
        exact ⟨_, .edge hHop hEnd⟩
      · rintro ⟨keys, hWalk⟩
        cases hWalk with
        | edge hHop' _ => rw [Option.some.inj (hHop.symm.trans hHop')]
        | route _ _ hOn => exact absurd hEnd hOn
    · rw [if_neg hEnd] at h
      obtain ⟨found, hFound, h⟩ := Option.bind_eq_some_iff.mp h
      obtain rfl := Option.some.inj h
      rw [List.mem_map]
      constructor
      · rintro ⟨rest, hRest, rfl⟩
        obtain ⟨hShort, keys, hRoute⟩ := (mem_routes hFound).mp hRest
        exact ⟨_, .route hAvoid hHop hEnd hShort hRoute⟩
      · rintro ⟨keys, hWalk⟩
        cases hWalk with
        | edge _ hEnd' => exact absurd hEnd' hEnd
        | route hAvoid' hHop' _ hShort hRoute =>
            obtain rfl := Option.some.inj (hAvoid.symm.trans hAvoid')
            obtain rfl := Option.some.inj (hHop.symm.trans hHop')
            exact ⟨_, (mem_routes hFound).mpr ⟨hShort, _, hRoute⟩, rfl⟩
  · rw [if_neg hRange] at h
    exact absurd h (by simp)

/-! ## The ends of a walk -/

theorem makeHop_tokens {g : StaticGraph} {mirror : StateMirror} {current : Nat}
    {edge : StaticEdge} {hop : Hop} (h : makeHop g mirror current edge = some hop) :
    g.tokens[current]? = some hop.tokenIn ∧
      g.tokens[edge.targetTokenIdx]? = some hop.tokenOut := by
  unfold makeHop at h
  obtain ⟨pool, _, h⟩ := Option.bind_eq_some_iff.mp h
  obtain ⟨tokenIn, hIn, h⟩ := Option.bind_eq_some_iff.mp h
  obtain ⟨tokenOut, hOut, h⟩ := Option.bind_eq_some_iff.mp h
  obtain rfl := Option.some.inj h
  exact ⟨hIn, hOut⟩

theorem makeHop_pool {g : StaticGraph} {mirror : StateMirror} {current : Nat}
    {edge : StaticEdge} {hop : Hop} (h : makeHop g mirror current edge = some hop) :
    g.pools[edge.poolIdx]? = some hop.poolAddress := by
  unfold makeHop at h
  obtain ⟨pool, hPool, h⟩ := Option.bind_eq_some_iff.mp h
  obtain ⟨tokenIn, _, h⟩ := Option.bind_eq_some_iff.mp h
  obtain ⟨tokenOut, _, h⟩ := Option.bind_eq_some_iff.mp h
  obtain rfl := Option.some.inj h
  exact hPool

/-- A chain of hops from the token `u` to the token `v` of the graph. -/
structure Connects (g : StaticGraph) (u v : Nat) (hops : List Hop) : Prop where
  chained : hops.IsChain fun hop next => hop.tokenOut = next.tokenIn
  ends : ∃ first last, hops.head? = some first ∧ hops.getLast? = some last ∧
    g.tokens[u]? = some first.tokenIn ∧ g.tokens[v]? = some last.tokenOut

theorem Connects.single {g : StaticGraph} {u v : Nat} {hop : Hop}
    (hIn : g.tokens[u]? = some hop.tokenIn) (hOut : g.tokens[v]? = some hop.tokenOut) :
    Connects g u v [hop] where
  chained := .singleton hop
  ends := ⟨hop, hop, rfl, rfl, hIn, hOut⟩

theorem Connects.cons {g : StaticGraph} {t u v : Nat} {hop : Hop} {hops : List Hop}
    (hIn : g.tokens[t]? = some hop.tokenIn) (hOut : g.tokens[u]? = some hop.tokenOut)
    (h : Connects g u v hops) : Connects g t v (hop :: hops) := by
  obtain ⟨hChained, first, last, hFirst, hLast, hFrom, hTo⟩ := h
  cases hops with
  | nil => exact absurd hFirst (by simp)
  | cons next rest =>
      obtain rfl := Option.some.inj hFirst
      have hJoin : hop.tokenOut = next.tokenIn := Option.some.inj (hOut.symm.trans hFrom)
      refine ⟨.cons_cons hJoin hChained, hop, last, rfl, ?_, hIn, hTo⟩
      rw [List.getLast?_cons_cons]
      exact hLast

/-- An edge followed: its tokens, and its pool by the key. -/
theorem follow_reads {g : StaticGraph} {mirror : StateMirror} {v u i k : Nat} {hop : Hop}
    (hKey : (poolGraph g mirror).key i = some k)
    (hFollow : (poolGraph g mirror).follow v i = some (hop, u)) :
    g.tokens[v]? = some hop.tokenIn ∧ g.tokens[u]? = some hop.tokenOut ∧
      g.pools[k]? = some hop.poolAddress := by
  obtain ⟨edge, hEdge, hFollow⟩ := Option.bind_eq_some_iff.mp hFollow
  obtain ⟨hop', hHop, hFollow⟩ := Option.bind_eq_some_iff.mp hFollow
  obtain ⟨rfl, rfl⟩ := Prod.mk.inj (Option.some.inj hFollow)
  have hIdx : edge.poolIdx = k := by
    simp only [poolGraph, hEdge, Option.bind_eq_bind, Option.bind_some] at hKey
    split at hKey
    · exact Option.some.inj hKey
    · exact absurd hKey (by simp)
  rw [← hIdx]
  exact ⟨(makeHop_tokens hHop).1, (makeHop_tokens hHop).2, makeHop_pool hHop⟩

theorem connects_of_route {g : StaticGraph} {mirror : StateMirror} {start current : Nat}
    {avoid : Finset Nat} {hops : List Hop} {keys : List Nat}
    (h : Route (poolGraph g mirror) start avoid current hops keys) :
    Connects g current start hops := by
  induction h with
  | last _ _ hKey _ hFollow =>
      obtain ⟨hIn, hOut, -⟩ := follow_reads hKey hFollow
      exact .single hIn hOut
  | step _ _ hKey _ hFollow _ _ ih =>
      obtain ⟨hIn, hOut, -⟩ := follow_reads hKey hFollow
      exact .cons hIn hOut ih

/-- The pools of a route are those at its keys. -/
theorem pools_of_route {g : StaticGraph} {mirror : StateMirror} {start current : Nat}
    {avoid : Finset Nat} {hops : List Hop} {keys : List Nat}
    (h : Route (poolGraph g mirror) start avoid current hops keys) :
    hops.map (fun hop => some hop.poolAddress) = keys.map (g.pools[·]?) := by
  induction h with
  | last _ _ hKey _ hFollow => simp [(follow_reads hKey hFollow).2.2]
  | step _ _ hKey _ hFollow _ _ ih => simp [(follow_reads hKey hFollow).2.2, ih]

section TaskWalks

variable {det : ArbitrageDetector} {event : SwapEvent} {task : SearchTask} {hops : List Hop}
  {keys : List Nat}

theorem TaskWalk.connects (h : TaskWalk det event task hops keys) :
    Connects det.graph task.current task.start hops := by
  cases h with
  | edge hHop hEnd =>
      obtain ⟨hIn, hOut⟩ := makeHop_tokens hHop
      rw [hEnd] at hOut
      exact .single hIn hOut
  | route _ hHop _ _ hRoute =>
      obtain ⟨hIn, hOut⟩ := makeHop_tokens hHop
      exact .cons hIn hOut (connects_of_route hRoute)

/-- Only the edge by itself is a walk of one hop. -/
theorem TaskWalk.two_le_iff (h : TaskWalk det event task hops keys) :
    2 ≤ hops.length ↔ task.edge.targetTokenIdx ≠ task.start := by
  cases h with
  | edge _ hEnd => simp [hEnd]
  | route _ _ hOn _ hRoute =>
      obtain ⟨first, _, hFirst, _⟩ := (connects_of_route hRoute).ends
      obtain ⟨rest, rfl⟩ := List.head?_eq_some_iff.mp hFirst
      simp [hOn]

/-- Beyond a single hop it keeps to the maximal length. -/
theorem TaskWalk.short (h : TaskWalk det event task hops keys) (hTwo : 2 ≤ hops.length) :
    hops.length ≤ det.config.maxPathLength := by
  cases h with
  | edge => exact absurd hTwo (by simp)
  | route _ _ _ hShort _ =>
      rw [List.length_cons] at hTwo ⊢
      omega

/-- Its indices differ, and its pools are those the graph lists there. -/
theorem TaskWalk.pools (h : TaskWalk det event task hops keys) :
    keys.Nodup ∧ hops.map (fun hop => some hop.poolAddress) = keys.map (det.graph.pools[·]?) := by
  cases h with
  | edge hHop _ => simp [makeHop_pool hHop]
  | route _ hHop _ _ hRoute =>
      obtain ⟨hNodup, hFree⟩ := hRoute.fresh
      refine ⟨List.nodup_cons.mpr ⟨fun hAgain => ?_, hNodup⟩, ?_⟩
      · exact hFree _ hAgain (Finset.mem_insert_self _ _)
      · rw [List.map_cons, List.map_cons, makeHop_pool hHop, pools_of_route hRoute]

theorem taskWalks_connects {walks : List (List Hop)} (h : taskWalks det event task = some walks)
    (hMem : hops ∈ walks) :
    Connects det.graph task.current task.start hops ∧
      (2 ≤ hops.length → hops.length ≤ det.config.maxPathLength) := by
  obtain ⟨keys, hWalk⟩ := (taskWalk_iff h).mp hMem
  exact ⟨hWalk.connects, hWalk.short⟩

end TaskWalks

/-! ## When a walk is a cycle -/

/-- The search of the task comes back to the token it starts from, and its edge leaves it. -/
structure Closes (g : StaticGraph) (task : SearchTask) : Prop where
  same : g.tokens[task.current]? = g.tokens[task.start]?
  leaves : task.edge.targetTokenIdx ≠ task.start

/-- No address stands at two of the indices. -/
def ListedOnce (g : StaticGraph) (keys : List Nat) : Prop :=
  ∀ i ∈ keys, ∀ j ∈ keys, g.pools[i]? = g.pools[j]? → i = j

section Cycles

variable {det : ArbitrageDetector} {event : SwapEvent} {task : SearchTask} {hops : List Hop}
  {keys : List Nat}

theorem TaskWalk.pools_nodup_iff (h : TaskWalk det event task hops keys) :
    (hops.map Hop.poolAddress).Nodup ↔ ListedOnce det.graph keys := by
  obtain ⟨hKeys, hPools⟩ := h.pools
  have hSome : (hops.map fun hop => some hop.poolAddress) =
      (hops.map Hop.poolAddress).map some := by rw [List.map_map]; rfl
  rw [← List.nodup_map_iff (Option.some_injective _), ← hSome, hPools,
    List.nodup_map_iff_inj_on hKeys]
  rfl

/-- A graph that lists no pool twice. -/
theorem TaskWalk.listedOnce (h : TaskWalk det event task hops keys)
    (hNodup : det.graph.pools.Nodup) : ListedOnce det.graph keys := by
  intro i hi j _ hSame
  have hMem : det.graph.pools[i]? ∈ hops.map fun hop => some hop.poolAddress := by
    rw [h.pools.2]
    exact List.mem_map_of_mem hi
  obtain ⟨hop, -, hPool⟩ := List.mem_map.mp hMem
  exact (List.getElem?_inj (List.getElem?_eq_some_iff.mp hPool.symm).1 hNodup).mp hSame

/-- **When the opportunity of a walk is a cycle.** -/
theorem genuine_iff {opp : Opportunity} (hWalk : TaskWalk det event task opp.path.hops keys)
    {first : Hop} (hFirst : opp.path.hops.head? = some first)
    (hInput : opp.inputToken = first.tokenIn) :
    Genuine det.config.maxPathLength opp ↔
      Closes det.graph task ∧ ListedOnce det.graph keys := by
  obtain ⟨hChained, first', last, hFirst', hLast, hFrom, hTo⟩ := hWalk.connects
  obtain rfl : first = first' := Option.some.inj (hFirst.symm.trans hFirst')
  rw [← hWalk.pools_nodup_iff]
  constructor
  · intro h
    obtain ⟨head, tail, hHead, hTail, hClosed, _⟩ := h.closed
    obtain rfl : first = head := Option.some.inj (hFirst.symm.trans hHead)
    obtain rfl : last = tail := Option.some.inj (hLast.symm.trans hTail)
    exact ⟨⟨by rw [hFrom, hTo, hClosed], hWalk.two_le_iff.mp h.two_le⟩, h.pools⟩
  · rintro ⟨⟨hSame, hLeaves⟩, hPools⟩
    have hTwo := hWalk.two_le_iff.mpr hLeaves
    have hClosed : last.tokenOut = first.tokenIn := by
      rw [hFrom, hTo] at hSame
      exact (Option.some.inj hSame).symm
    exact
      { two_le := hTwo
        chained := hChained
        pools := hPools
        le_max := hWalk.short hTwo
        closed := ⟨first, last, hFirst, hLast, hClosed, hInput.symm⟩ }

end Cycles

/-! ## Pricing -/

section Pricing

variable (det : ArbitrageDetector) (event : SwapEvent)

/-- The states that price a walk, after the pending swap. -/
def walkStates (hops : List Hop) : List PoolState :=
  fetchStates det.stateMirror (projectReserveImpactV2 event det.stateMirror) hops

/-- All its pools are mirrored. -/
def Mirrored (hops : List Hop) : Prop :=
  ∀ hop ∈ hops, (det.stateMirror.getPoolData hop.poolAddress).isSome

end Pricing

theorem fetchStates_length {mirror : StateMirror} {impacts : List (Address × U256 × U256)}
    {hops : List Hop} : (fetchStates mirror impacts hops).length = hops.length ↔
      ∀ hop ∈ hops, (mirror.getPoolData hop.poolAddress).isSome := by
  induction hops with
  | nil => simp [fetchStates]
  | cons hop rest ih =>
      rw [List.forall_mem_cons, fetchStates]
      cases hState : mirror.getPoolData hop.poolAddress with
      | none => simp
      | some state => simp [ih]

section Evaluation

variable {env : Environment} {det : ArbitrageDetector} {event : SwapEvent} {hops : List Hop}

/-- What a walk sends when it is priced. -/
theorem mem_evaluatePath {opp : Opportunity} {sent : List Opportunity}
    (h : evaluatePath env det event hops = some sent) (hMem : opp ∈ sent) :
    Mirrored det hops ∧ opp.path.hops = hops ∧
      ∃ first, hops.head? = some first ∧ opp.inputToken = first.tokenIn := by
  unfold evaluatePath at h
  by_cases hAll : (fetchStates det.stateMirror (projectReserveImpactV2 event det.stateMirror)
      hops).length = hops.length
  · rw [if_neg (not_not.mpr hAll)] at h
    obtain ⟨first, hFirst, h⟩ := Option.bind_eq_some_iff.mp h
    obtain ⟨⟨input, profit⟩, hSize, h⟩ := Option.bind_eq_some_iff.mp h
    dsimp only at h
    by_cases hFloor : det.config.minProfitWei < profit
    · rw [if_pos hFloor] at h
      obtain rfl := Option.some.inj h
      obtain rfl := List.mem_singleton.mp hMem
      exact ⟨fetchStates_length.mp hAll, rfl, first, hFirst, rfl⟩
    · rw [if_neg hFloor] at h
      obtain rfl := Option.some.inj h
      exact absurd hMem (by simp)
  · rw [if_pos hAll] at h
    obtain rfl := Option.some.inj h
    exact absurd hMem (by simp)

end Evaluation

/-- A loop sends what its paths send, up to the first that panics. -/
theorem mem_sendPaths {evaluate : List Hop → Option (List Opportunity)}
    {paths : List (List Hop)} {opp : Opportunity} :
    opp ∈ sendPaths evaluate paths ↔ ∃ before hops after, paths = before ++ hops :: after ∧
      (∀ earlier ∈ before, (evaluate earlier).isSome) ∧
        ∃ sent, evaluate hops = some sent ∧ opp ∈ sent := by
  induction paths with
  | nil => simp [sendPaths]
  | cons path rest ih =>
      unfold sendPaths
      constructor
      · intro h
        cases hHere : evaluate path with
        | none => simp [hHere] at h
        | some sent =>
            simp only [hHere, List.mem_append] at h
            rcases h with hSent | hLater
            · exact ⟨[], path, rest, rfl, by simp, sent, hHere, hSent⟩
            · obtain ⟨before, hops, after, rfl, hBefore, hSends⟩ := ih.mp hLater
              refine ⟨path :: before, hops, after, rfl, ?_, hSends⟩
              rw [List.forall_mem_cons]
              exact ⟨by rw [hHere]; rfl, hBefore⟩
      · rintro ⟨before, hops, after, hSplit, hBefore, sent, hHops, hSent⟩
        cases before with
        | nil =>
            obtain ⟨rfl, rfl⟩ := List.cons.inj hSplit
            rw [hHops]
            exact List.mem_append_left _ hSent
        | cons head before =>
            obtain ⟨rfl, rfl⟩ := List.cons.inj hSplit
            rw [List.forall_mem_cons] at hBefore
            obtain ⟨here, hHere⟩ := Option.isSome_iff_exists.mp hBefore.1
            rw [hHere]
            exact List.mem_append_right _
              (ih.mpr ⟨before, hops, after, rfl, hBefore.2, sent, hHops, hSent⟩)

/-! ## What is sent -/

/-- What a task sends comes from the walks it finds over mirrored pools. -/
theorem walk_of_sent {env : Environment} {det : ArbitrageDetector} {event : SwapEvent}
    {task : SearchTask} {opp : Opportunity} (h : opp ∈ runTask env det event task) :
    ∃ walks, taskWalks det event task = some walks ∧ opp.path.hops ∈ walks ∧
      Mirrored det opp.path.hops ∧
        ∃ first, opp.path.hops.head? = some first ∧ opp.inputToken = first.tokenIn := by
  unfold runTask at h
  rw [findPaths_eq] at h
  cases hWalks : taskWalks det event task with
  | none => simp [hWalks] at h
  | some walks =>
      rw [hWalks] at h
      obtain ⟨before, hops, after, rfl, -, sent, hSent, hMem⟩ := mem_sendPaths.mp h
      obtain ⟨hMirrored, hHops, hFirst⟩ := mem_evaluatePath hSent hMem
      rw [hHops]
      exact ⟨_, rfl, by simp, hMirrored, hFirst⟩

/-- Every walk that a task of the event finds over mirrored pools is of a search that comes
back to its token, and meets no address under two indices.  A search that a read out of
range ends finds nothing. -/
def Closed (det : ArbitrageDetector) (event : SwapEvent) : Prop :=
  ∀ task ∈ spawnedTasks det event, (taskWalks det event task).isSome → ∀ hops keys,
    TaskWalk det event task hops keys → Mirrored det hops →
      Closes det.graph task ∧ ListedOnce det.graph keys

/-- What a task sends, by its walk. -/
theorem genuine_of_sent_iff {env : Environment} {det : ArbitrageDetector} {event : SwapEvent}
    {task : SearchTask} {opp : Opportunity} (hSent : opp ∈ runTask env det event task) :
    (taskWalks det event task).isSome ∧ Mirrored det opp.path.hops ∧
      ∃ keys, TaskWalk det event task opp.path.hops keys ∧
        (Genuine det.config.maxPathLength opp ↔
          Closes det.graph task ∧ ListedOnce det.graph keys) := by
  obtain ⟨walks, hWalks, hMem, hMirrored, first, hFirst, hInput⟩ := walk_of_sent hSent
  obtain ⟨keys, hWalk⟩ := (taskWalk_iff hWalks).mp hMem
  exact ⟨by rw [hWalks]; rfl, hMirrored, keys, hWalk, genuine_iff hWalk hFirst hInput⟩

/-- **What the detector sends** is a genuine cycle each time where the searches of the event
close; and of whatever a task sends, closing is what decides. -/
theorem sent_genuine (env : Environment) (det : ArbitrageDetector) (event : SwapEvent) :
    (Closed det event →
      ∀ opp ∈ processEvent env det event, Genuine det.config.maxPathLength opp) ∧
    ∀ task ∈ spawnedTasks det event, ∀ opp ∈ runTask env det event task,
      ∃ keys, TaskWalk det event task opp.path.hops keys ∧
        (Genuine det.config.maxPathLength opp ↔
          Closes det.graph task ∧ ListedOnce det.graph keys) := by
  constructor
  · intro hClosed opp hMem
    obtain ⟨task, hTask, hSent⟩ := List.mem_flatMap.mp hMem
    obtain ⟨hFound, hMirrored, keys, hWalk, hIff⟩ := genuine_of_sent_iff hSent
    exact hIff.mpr (hClosed task hTask hFound opp.path.hops keys hWalk hMirrored)
  · intro task _ opp hSent
    obtain ⟨-, -, keys, hWalk, hIff⟩ := genuine_of_sent_iff hSent
    exact ⟨keys, hWalk, hIff⟩

/-! ## A pool of two tokens -/

/-- One pool of `A` and `B`. -/
def sampleGraph : StaticGraph where
  tokens := [0xA, 0xB]
  tokenToIdx token := if token = 0xA then some 0 else if token = 0xB then some 1 else none
  pools := [0x11]
  poolToIdx pool := if pool = 0x11 then some 0 else none
  nodes := [0, 1, 2]
  edges := [{ poolIdx := 0, targetTokenIdx := 1, dexName := .uniswapV2 },
    { poolIdx := 0, targetTokenIdx := 0, dexName := .uniswapV2 }]

/-- 3000 units of `A` with 18 decimals against 10 million of `B` with 6. -/
def sampleDetector : ArbitrageDetector where
  config := { minProfitWei := 1, maxPathLength := 4, chain := .base }
  stateMirror :=
    { pools := fun pool => if pool = 0x11 then
        some { reserves0 := 3000000000000000000000, reserves1 := 10000000000000
               dexType := .uniswapV2, isStable := false } else none
      traderRegistry := fun _ => none }
  graph := sampleGraph
  poolRegistry pool := if pool = 0x11 then some (0xA, 0xB, .uniswapV2) else none

/-- A log of the pool. -/
def sampleEvent : SwapEvent where
  sender := 0x5
  swapInfo :=
    { dex := .uniswapV2, router := 0x11, tokenIn := 0, tokenOut := 0, amountIn := 0
      amountOutMin := 0, toAddr := 0, fee := none }
  mempoolTx := none

def sampleEnvironment : Environment where
  stableOutput _ _ _ := none
  newtonInput _ _ _ := none
  cyclesFound _ := 1

/-- A swap of `B` for `A` through the trigger pool itself is sent as a cycle. -/
theorem not_sent_genuine :
    ¬ ∀ opp ∈ processEvent sampleEnvironment sampleDetector sampleEvent,
      Genuine sampleDetector.config.maxPathLength opp := by
  have hSent : (processEvent sampleEnvironment sampleDetector sampleEvent).map
      (fun opp => opp.path.hops.length) = [1] := by decide +kernel
  intro hAll
  obtain ⟨opp, hMem, hLength⟩ : ∃ opp ∈ processEvent sampleEnvironment sampleDetector sampleEvent,
      opp.path.hops.length = 1 := by
    rw [← List.mem_map, hSent]
    exact List.mem_singleton_self 1
  have hTwo := (hAll opp hMem).two_le
  omega

/-! ## Two pools and a circular call -/

/-- Two pools of `A` and `B`, at different prices. -/
def circularDetector : ArbitrageDetector where
  config := { minProfitWei := 1, maxPathLength := 4, chain := .base }
  stateMirror :=
    { pools := fun pool =>
        if pool = 0x11 then
          some { reserves0 := 1000000000000000000000, reserves1 := 1000000000000000000000
                 dexType := .uniswapV2, isStable := false }
        else if pool = 0x22 then
          some { reserves0 := 1000000000000000000000, reserves1 := 3000000000000000000000
                 dexType := .uniswapV2, isStable := false }
        else none
      traderRegistry := fun _ => none }
  graph :=
    { sampleGraph with
      pools := [0x11, 0x22]
      poolToIdx := fun pool => if pool = 0x11 then some 0 else if pool = 0x22 then some 1 else none
      nodes := [0, 2, 4]
      edges := [{ poolIdx := 0, targetTokenIdx := 1, dexName := .uniswapV2 },
        { poolIdx := 1, targetTokenIdx := 1, dexName := .uniswapV2 },
        { poolIdx := 0, targetTokenIdx := 0, dexName := .uniswapV2 },
        { poolIdx := 1, targetTokenIdx := 0, dexName := .uniswapV2 }] }
  poolRegistry _ := none

/-- A router call whose path starts and ends with `A`. -/
def circularEvent : SwapEvent where
  sender := 0x5
  swapInfo :=
    { dex := .uniswapV2, router := 0x99, tokenIn := 0xA, tokenOut := 0xA, amountIn := 0
      amountOutMin := 0, toAddr := 0, fee := none }
  mempoolTx := none

theorem sent_genuine_circular :
    ∃ opp ∈ processEvent sampleEnvironment circularDetector circularEvent, Genuine 4 opp := by
  have hClosed : Closed circularDetector circularEvent := by
    intro task hTask _ hops keys hWalk _
    have hTasks : ∀ task ∈ spawnedTasks circularDetector circularEvent,
        circularDetector.graph.tokens[task.current]? = circularDetector.graph.tokens[task.start]? ∧
          task.edge.targetTokenIdx ≠ task.start := by decide
    exact ⟨⟨(hTasks task hTask).1, (hTasks task hTask).2⟩, hWalk.listedOnce (by decide)⟩
  have hSent : (processEvent sampleEnvironment circularDetector circularEvent).length = 2 := by
    decide +kernel
  exact ⟨_, List.getElem_mem (by rw [hSent]; norm_num : 0 < _),
    (sent_genuine sampleEnvironment circularDetector circularEvent).1 hClosed _
      (List.getElem_mem (by rw [hSent]; norm_num : 0 < _))⟩

end SovereignShadow.Ports.GenuineCycles
