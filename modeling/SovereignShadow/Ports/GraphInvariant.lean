import SovereignShadow.Ports.EdgeWalks
import SovereignShadow.Ports.GraphBuilder
import SovereignShadow.Verified.CompressedRows

/-!
# What the graph builder stores

The graph of `rebuild_graph` lists every admitted pool and every token of one once, its
two index maps are the inverses of these lists, and row `u` of the edge table holds, for
each admitted pool, one edge for each of its two sides that is token `u`.

This is so as long as the `u32` offsets hold: a graph has twice as many edges as pools,
so from `2 ^ 31` pools on the running offset overflows.  A debug build panics there; a
release build wraps and stores a broken table.

## Main results

* `scanPools_eq` — the first pass collects the admitted pools.
* `rebuildGraph_eq` — what the second pass stores.
* `rebuildGraph_built` — the invariant.
-/

namespace SovereignShadow.Ports.GraphInvariant

open SovereignShadow.Verified.Checked
open SovereignShadow.Verified.CompressedRows
open SovereignShadow.Ports.Models
open SovereignShadow.Ports.Mirror
open SovereignShadow.Ports.CycleSearch
open SovereignShadow.Ports.EdgeWalks
open SovereignShadow.Ports.GraphBuilder

/-! ## The invariant -/

/-- The pools that the filter admits, in iteration order. -/
def includedPools (tables : Tables) : Option (List IncludedPool) :=
  (tables.entries.mapM (visitEntry tables)).map List.reduceOption

/-- An edge by what its indices stand for. -/
def readEdge (g : StaticGraph) (edge : StaticEdge) : Option Address × Option Address × DexName :=
  (g.pools[edge.poolIdx]?, g.tokens[edge.targetTokenIdx]?, edge.dexName)

/-- The edges that a pool has at the token `t`: one for each side that is `t`. -/
def edgesAt (t : Address) (pool : IncludedPool) :
    List (Option Address × Option Address × DexName) :=
  (if pool.t0 = t then [(some pool.address, some pool.t1, pool.dexName)] else []) ++
    (if pool.t1 = t then [(some pool.address, some pool.t0, pool.dexName)] else [])

/-- The graph of the admitted pools. -/
structure Built (included : List IncludedPool) (g : StaticGraph) : Prop where
  tokens_nodup : g.tokens.Nodup
  pools_nodup : g.pools.Nodup
  token_inverse : ∀ t i, g.tokenToIdx t = some i ↔ g.tokens[i]? = some t
  pool_inverse : ∀ pool i, g.poolToIdx pool = some i ↔ g.pools[i]? = some pool
  mem_tokens : ∀ t, t ∈ g.tokens ↔ ∃ pool ∈ included, t = pool.t0 ∨ t = pool.t1
  pools_eq : g.pools = included.map IncludedPool.address
  wellFormed : WellFormed g
  rows : ∀ u t, g.tokens[u]? = some t → ∃ lo hi, g.nodes[u]? = some lo ∧
    g.nodes[u + 1]? = some hi ∧ lo ≤ hi ∧
      ((g.edges.drop lo).take (hi - lo)).map (readEdge g) = included.flatMap (edgesAt t)

/-! ## The first pass -/

theorem scan_eq (tables : Tables) (entries : List (Address × MirrorEntry)) (lists : Lists) :
    entries.foldlM (scanEntry tables) lists =
      (entries.mapM (visitEntry tables)).map fun found =>
        found.reduceOption.foldl Lists.add lists := by
  induction entries generalizing lists with
  | nil => rfl
  | cons entry entries ih =>
      rw [List.foldlM_cons, List.mapM_cons]
      cases hVisit : visitEntry tables entry with
      | none => simp [scanEntry, hVisit]
      | some found =>
          cases found with
          | none =>
              simp only [scanEntry, hVisit, Option.bind_eq_bind, Option.bind_some, ih]
              cases entries.mapM (visitEntry tables) with
              | none => rfl
              | some rest => rfl
          | some pool =>
              simp only [scanEntry, hVisit, Option.bind_eq_bind, Option.bind_some, ih]
              cases entries.mapM (visitEntry tables) with
              | none => rfl
              | some rest => rfl

/-- **The first pass** adds the admitted pools. -/
theorem scanPools_eq (tables : Tables) :
    scanPools tables =
      (includedPools tables).map fun included => included.foldl Lists.add Lists.empty := by
  rw [scanPools, scan_eq, includedPools, Option.map_map]
  rfl

theorem foldl_add_poolList (pools : List IncludedPool) (lists : Lists) :
    (pools.foldl Lists.add lists).poolList =
      lists.poolList ++ pools.map IncludedPool.address := by
  induction pools generalizing lists with
  | nil => simp
  | cons pool pools ih => simp [ih, Lists.add]

theorem mem_foldl_add (pools : List IncludedPool) (lists : Lists) (t : Address) :
    t ∈ (pools.foldl Lists.add lists).tokensSet ↔
      t ∈ lists.tokensSet ∨ ∃ pool ∈ pools, t = pool.t0 ∨ t = pool.t1 := by
  induction pools generalizing lists with
  | nil => simp
  | cons pool pools ih =>
      rw [List.foldl_cons, ih]
      simp only [Lists.add, Finset.mem_insert, List.mem_cons, exists_eq_or_imp]
      constructor
      · rintro ((h1 | h0 | hOld) | hRest)
        · exact Or.inr (Or.inl (Or.inr h1))
        · exact Or.inr (Or.inl (Or.inl h0))
        · exact Or.inl hOld
        · exact Or.inr (Or.inr hRest)
      · rintro (hOld | (h0 | h1) | hRest)
        · exact Or.inl (Or.inr (Or.inr hOld))
        · exact Or.inl (Or.inr (Or.inl h0))
        · exact Or.inl (Or.inl h1)
        · exact Or.inr hRest

/-- The adjacency entries that a pool has at the token `t`. -/
def adjAt (t : Address) (pool : IncludedPool) : List PoolEdge :=
  (if pool.t0 = t then [⟨pool.address, pool.t1, pool.dexName⟩] else []) ++
    (if pool.t1 = t then [⟨pool.address, pool.t0, pool.dexName⟩] else [])

theorem pushAdj_eq (adj : Address → List PoolEdge) (token t : Address) (edge : PoolEdge) :
    pushAdj adj token edge t = adj t ++ if token = t then [edge] else [] := by
  unfold pushAdj
  by_cases h : t = token
  · rw [if_pos h, if_pos h.symm]
  · rw [if_neg h, if_neg (Ne.symm h), List.append_nil]

theorem foldl_add_adj (pools : List IncludedPool) (lists : Lists) (t : Address) :
    (pools.foldl Lists.add lists).adj t = lists.adj t ++ pools.flatMap (adjAt t) := by
  induction pools generalizing lists with
  | nil => simp
  | cons pool pools ih =>
      have hAdd : (lists.add pool).adj t = lists.adj t ++ adjAt t pool := by
        show pushAdj (pushAdj lists.adj pool.t0 _) pool.t1 _ t = _
        rw [pushAdj_eq, pushAdj_eq, List.append_assoc]
        rfl
      rw [List.foldl_cons, ih, List.flatMap_cons, hAdd, List.append_assoc]

theorem visitEntry_address {tables : Tables} {entry : Address × MirrorEntry}
    {pool : IncludedPool} (h : visitEntry tables entry = some (some pool)) :
    pool.address = entry.1 := by
  unfold visitEntry at h
  split at h
  · exact absurd h (by simp)
  · obtain ⟨liquidity, _, h⟩ := Option.bind_eq_some_iff.mp h
    dsimp only at h
    split at h
    · exact absurd h (by simp)
    · obtain rfl := Option.some.inj (Option.some.inj h)
      rfl

/-- The admitted pools are entries of the mirror, so each is listed once. -/
theorem included_nodup {tables : Tables} {included : List IncludedPool}
    (h : includedPools tables = some included) :
    (included.map IncludedPool.address).Nodup := by
  have hSublist : ∀ (entries : List (Address × MirrorEntry)) found,
      entries.mapM (visitEntry tables) = some found →
        (found.reduceOption.map IncludedPool.address).Sublist (entries.map Prod.fst) := by
    intro entries
    induction entries with
    | nil =>
        intro found hFound
        obtain rfl := Option.some.inj hFound
        exact List.Sublist.refl _
    | cons entry entries ih =>
        intro found hFound
        rw [List.mapM_cons] at hFound
        obtain ⟨here, hHere, hFound⟩ := Option.bind_eq_some_iff.mp hFound
        obtain ⟨rest, hRest, hFound⟩ := Option.bind_eq_some_iff.mp hFound
        obtain rfl := Option.some.inj hFound
        cases here with
        | none => exact (ih rest hRest).cons _
        | some pool =>
            rw [List.reduceOption_cons_of_some, List.map_cons, visitEntry_address hHere]
            exact (ih rest hRest).cons_cons _
  obtain ⟨found, hFound, rfl⟩ := Option.map_eq_some_iff.mp h
  exact tables.nodup.sublist (hSublist tables.entries found hFound)

/-! ## Index maps -/

/-- The filling loop of `indexMap`. -/
def fill (map : Address → Option Nat) (entries : List (Address × Nat)) : Address → Option Nat :=
  entries.foldl (fun map entry => Function.update map entry.1 (some (asU32 entry.2))) map

theorem fill_of_not_mem {keys : List Address} {t : Address} (ht : t ∉ keys) (k : Nat)
    (map : Address → Option Nat) : fill map (keys.zipIdx k) t = map t := by
  induction keys generalizing k map with
  | nil => rfl
  | cons key keys ih =>
      rw [List.mem_cons, not_or] at ht
      show fill (Function.update map key (some (asU32 k))) (keys.zipIdx (k + 1)) t = map t
      rw [ih ht.2, Function.update_of_ne ht.1]

theorem fill_of_getElem {keys : List Address} (hNodup : keys.Nodup) {i : Nat} {t : Address}
    (ht : keys[i]? = some t) (k : Nat) (map : Address → Option Nat) :
    fill map (keys.zipIdx k) t = some (asU32 (k + i)) := by
  induction keys generalizing i k map with
  | nil => exact absurd ht (by simp)
  | cons key keys ih =>
      rw [List.nodup_cons] at hNodup
      show fill (Function.update map key (some (asU32 k))) (keys.zipIdx (k + 1)) t = _
      cases i with
      | zero =>
          obtain rfl := Option.some.inj ht
          rw [fill_of_not_mem hNodup.1, Function.update_self, Nat.add_zero]
      | succ i =>
          rw [ih hNodup.2 ht, Nat.add_right_comm, Nat.add_assoc]

theorem asU32_of_lt {n : Nat} (h : n < 2 ^ 32) : asU32 n = n := Nat.mod_eq_of_lt h

/-- **An index map is the inverse of its list**, which `u32` can index. -/
theorem indexMap_eq_some {keys : List Address} (hNodup : keys.Nodup)
    (hLength : keys.length ≤ 2 ^ 32) {t : Address} {i : Nat} :
    indexMap keys t = some i ↔ keys[i]? = some t := by
  have hRead : ∀ {j}, keys[j]? = some t → indexMap keys t = some j := by
    intro j hj
    have hRange := (List.getElem?_eq_some_iff.mp hj).1
    show fill (fun _ => none) (keys.zipIdx 0) t = some j
    rw [fill_of_getElem hNodup hj, Nat.zero_add, asU32_of_lt (by omega)]
  constructor
  · intro h
    by_cases ht : t ∈ keys
    · obtain ⟨j, hj⟩ := List.getElem?_of_mem ht
      obtain rfl : j = i := Option.some.inj ((hRead hj).symm.trans h)
      exact hj
    · have hNone : indexMap keys t = none := fill_of_not_mem ht 0 _
      rw [hNone] at h
      exact absurd h (by simp)
  · exact hRead

/-! ## The second pass -/

/-- The offset after `n` edges has not overflowed. -/
def Fits (build : Build) (n : Nat) : Prop := build = .release ∨ n < 2 ^ 32

instance (build : Build) (n : Nat) : Decidable (Fits build n) :=
  inferInstanceAs (Decidable (_ ∨ _))

theorem Fits.mono {build : Build} {m n : Nat} (h : Fits build n) (hmn : m ≤ n) :
    Fits build m := by
  rcases h with hRelease | hLt
  · exact Or.inl hRelease
  · exact Or.inr (by omega)

theorem incU32_asU32 {build : Build} {n : Nat} (h : Fits build n) :
    incU32 build (asU32 n) = if Fits build (n + 1) then some (asU32 (n + 1)) else none := by
  unfold incU32 asU32
  cases build with
  | release =>
      have hGo : Fits .release (n + 1) := Or.inl rfl
      rw [if_pos hGo]
      by_cases hLt : n % 2 ^ 32 + 1 < 2 ^ 32
      · rw [if_pos hLt]
        congr 1
        omega
      · rw [if_neg hLt]
        show some ((n % 2 ^ 32 + 1) % 2 ^ 32) = _
        congr 1
        omega
  | debug =>
      have hLt : n < 2 ^ 32 := by
        rcases h with hRelease | hLt
        · exact absurd hRelease (by decide)
        · exact hLt
      rw [Nat.mod_eq_of_lt hLt]
      by_cases hNext : n + 1 < 2 ^ 32
      · have hGo : Fits .debug (n + 1) := Or.inr hNext
        rw [if_pos hNext, if_pos hGo, Nat.mod_eq_of_lt hNext]
      · have hStop : ¬ Fits .debug (n + 1) := by
          rintro (hRelease | hLt')
          · exact absurd hRelease (by decide)
          · exact hNext hLt'
        rw [if_neg hNext, if_neg hStop]

section LayOut

variable {build : Build} {poolToIdx tokenToIdx : Address → Option Nat}

/-- The edge of an adjacency entry whose keys are known. -/
def resolve (poolToIdx tokenToIdx : Address → Option Nat) (edge : PoolEdge) : StaticEdge where
  poolIdx := (poolToIdx edge.poolAddress).getD 0
  targetTokenIdx := (tokenToIdx edge.tokenB).getD 0
  dexName := edge.dexName

/-- Both lookups of the entry succeed. -/
def Known (poolToIdx tokenToIdx : Address → Option Nat) (edge : PoolEdge) : Prop :=
  (∃ i, poolToIdx edge.poolAddress = some i) ∧ ∃ i, tokenToIdx edge.tokenB = some i

theorem pushEdges_eq {edges : List PoolEdge}
    (hKnown : ∀ edge ∈ edges, Known poolToIdx tokenToIdx edge) {rows : Rows}
    (hOffset : rows.currentOffset = asU32 rows.edges.length)
    (hFits : Fits build rows.edges.length) :
    edges.foldlM (pushEdge build poolToIdx tokenToIdx) rows =
      if Fits build (rows.edges.length + edges.length) then
        some { nodes := rows.nodes
               edges := rows.edges ++ edges.map (resolve poolToIdx tokenToIdx)
               currentOffset := asU32 (rows.edges.length + edges.length) }
      else none := by
  induction edges generalizing rows with
  | nil => simp [hFits, ← hOffset]
  | cons edge edges ih =>
      rw [List.forall_mem_cons] at hKnown
      obtain ⟨⟨⟨i, hi⟩, j, hj⟩, hRest⟩ := hKnown
      rw [List.foldlM_cons]
      by_cases hNext : Fits build (rows.edges.length + 1)
      · have hInc : incU32 build rows.currentOffset = some (asU32 (rows.edges.length + 1)) := by
          rw [hOffset, incU32_asU32 hFits, if_pos hNext]
        simp only [pushEdge, hi, hj, hInc, Option.bind_eq_bind, Option.bind_some]
        rw [ih hRest (by simp) (by simpa using hNext)]
        simp [resolve, hi, hj, Nat.add_assoc, Nat.add_comm 1]
      · have hInc : incU32 build rows.currentOffset = none := by
          rw [hOffset, incU32_asU32 hFits, if_neg hNext]
        have hStop : ¬ Fits build (rows.edges.length + (edge :: edges).length) :=
          fun h => hNext (h.mono (by simp))
        rw [if_neg hStop]
        simp [pushEdge, hi, hj, hInc]

/-- **The second pass** lays out compressed rows, their starts cut to `u32`. -/
theorem pushRows_eq {adj : Address → List PoolEdge} {tokens : List Address}
    (hKnown : ∀ t ∈ tokens, ∀ edge ∈ adj t, Known poolToIdx tokenToIdx edge) {rows : Rows}
    (hOffset : rows.currentOffset = asU32 rows.edges.length)
    (hFits : Fits build rows.edges.length) :
    (tokens.foldlM (pushRow build poolToIdx tokenToIdx adj) rows).map
        (fun done => (done.nodes ++ [done.currentOffset], done.edges)) =
      let table := tokens.map fun t => (adj t).map (resolve poolToIdx tokenToIdx)
      if Fits build (rows.edges.length + table.flatten.length) then
        some (rows.nodes ++ (starts table rows.edges.length).map asU32,
          rows.edges ++ table.flatten)
      else none := by
  induction tokens generalizing rows with
  | nil => simp [hFits, starts, hOffset]
  | cons t tokens ih =>
      rw [List.forall_mem_cons] at hKnown
      rw [List.foldlM_cons, pushRow, pushEdges_eq hKnown.1 (by simpa using hOffset)
        (by simpa using hFits)]
      by_cases hHere : Fits build (rows.edges.length + (adj t).length)
      · rw [if_pos hHere]
        show Option.map _ (tokens.foldlM _ _) = _
        rw [ih hKnown.2 (by simp) (by simpa using hHere)]
        simp [starts, Nat.add_assoc, hOffset]
      · rw [if_neg hHere]
        have hStop : ¬ Fits build (rows.edges.length +
            ((t :: tokens).map fun t =>
              (adj t).map (resolve poolToIdx tokenToIdx)).flatten.length) := by
          intro h
          apply hHere
          apply h.mono
          simp
        simp only [if_neg hStop]
        rfl

end LayOut

/-! ## The graph of the admitted pools -/

/-- `tokens`. -/
def tokenList (order : SetOrder) (included : List IncludedPool) : List Address :=
  order.list (included.foldl Lists.add Lists.empty).tokensSet

/-- The rows of the edge table. -/
def table (order : SetOrder) (included : List IncludedPool) : List (List StaticEdge) :=
  (tokenList order included).map fun t => (included.flatMap (adjAt t)).map
    (resolve (indexMap (included.map IncludedPool.address))
      (indexMap (tokenList order included)))

def graphOf (order : SetOrder) (included : List IncludedPool) : StaticGraph where
  tokens := tokenList order included
  tokenToIdx := indexMap (tokenList order included)
  pools := included.map IncludedPool.address
  poolToIdx := indexMap (included.map IncludedPool.address)
  nodes := (starts (table order included) 0).map asU32
  edges := (table order included).flatten

section Graph

variable {order : SetOrder} {included : List IncludedPool}

theorem mem_tokenList {t : Address} :
    t ∈ tokenList order included ↔ ∃ pool ∈ included, t = pool.t0 ∨ t = pool.t1 := by
  rw [tokenList, order.mem_list, mem_foldl_add]
  simp [Lists.empty]

theorem tokenList_nodup : (tokenList order included).Nodup := order.nodup _

theorem tokenList_length_le : (tokenList order included).length ≤ 2 * included.length := by
  have hSub : tokenList order included ⊆ included.flatMap fun pool => [pool.t0, pool.t1] := by
    intro t ht
    obtain ⟨pool, hPool, hSide⟩ := mem_tokenList.mp ht
    exact List.mem_flatMap.mpr ⟨pool, hPool, by simpa using hSide⟩
  have hLength := (tokenList_nodup.subperm hSub).length_le
  simp only [List.length_flatMap, List.length_cons, List.length_nil, List.map_const',
    List.sum_replicate, smul_eq_mul] at hLength
  omega

theorem sum_sides {tokens : List Address} (hNodup : tokens.Nodup) {a : Address}
    (ha : a ∈ tokens) : (tokens.map fun t => if a = t then 1 else 0).sum = 1 := by
  rw [← List.sum_toFinset _ hNodup, Finset.sum_ite_eq, if_pos (List.mem_toFinset.mpr ha)]

/-- Each admitted pool adds two edges. -/
theorem sum_adj {tokens : List Address} (hNodup : tokens.Nodup) (pools : List IncludedPool)
    (hMem : ∀ pool ∈ pools, pool.t0 ∈ tokens ∧ pool.t1 ∈ tokens) :
    (tokens.map fun t => (pools.flatMap (adjAt t)).length).sum = 2 * pools.length := by
  induction pools with
  | nil => simp
  | cons pool pools ih =>
      rw [List.forall_mem_cons] at hMem
      have hHere : ∀ t, (adjAt t pool).length =
          (if pool.t0 = t then 1 else 0) + if pool.t1 = t then 1 else 0 := by
        intro t
        unfold adjAt
        split <;> split <;> rfl
      simp only [List.flatMap_cons, List.length_append, List.sum_map_add, hHere, ih hMem.2,
        sum_sides hNodup hMem.1.1, sum_sides hNodup hMem.1.2, List.length_cons]
      omega

theorem table_length : (table order included).flatten.length = 2 * included.length := by
  rw [← sum_adj (@tokenList_nodup order included) included]
  · simp [table, List.length_flatten, Function.comp_def]
  · intro pool hPool
    exact ⟨mem_tokenList.mpr ⟨pool, hPool, Or.inl rfl⟩,
      mem_tokenList.mpr ⟨pool, hPool, Or.inr rfl⟩⟩

/-- The keys of an adjacency entry are an admitted pool and a token of it. -/
theorem mem_adjAt {t : Address} {edge : PoolEdge}
    (order : SetOrder) (h : edge ∈ included.flatMap (adjAt t)) :
    edge.poolAddress ∈ included.map IncludedPool.address ∧
      edge.tokenB ∈ tokenList order included := by
  obtain ⟨pool, hPool, hEdge⟩ := List.mem_flatMap.mp h
  rcases List.mem_append.mp hEdge with hEdge | hEdge
  · obtain rfl : edge = ⟨pool.address, pool.t1, pool.dexName⟩ := by
      split at hEdge
      · exact List.mem_singleton.mp hEdge
      · exact absurd hEdge (by simp)
    exact ⟨List.mem_map_of_mem hPool, mem_tokenList.mpr ⟨pool, hPool, Or.inr rfl⟩⟩
  · obtain rfl : edge = ⟨pool.address, pool.t0, pool.dexName⟩ := by
      split at hEdge
      · exact List.mem_singleton.mp hEdge
      · exact absurd hEdge (by simp)
    exact ⟨List.mem_map_of_mem hPool, mem_tokenList.mpr ⟨pool, hPool, Or.inl rfl⟩⟩

theorem exists_indexMap {keys : List Address} (hNodup : keys.Nodup) {t : Address}
    (ht : t ∈ keys) : ∃ i, indexMap keys t = some i := by
  obtain ⟨i, hi⟩ := List.getElem?_of_mem ht
  exact ⟨_, fill_of_getElem hNodup hi 0 _⟩

/-- **`rebuild_graph`** stores the graph of the admitted pools, unless a debug build stops
at the offset `2 ^ 32`. -/
theorem rebuildGraph_eq {tables : Tables} (h : includedPools tables = some included)
    (build : Build) :
    rebuildGraph build order tables =
      if Fits build (2 * included.length) then some (graphOf order included) else none := by
  have hPools : (included.foldl Lists.add Lists.empty).poolList =
      included.map IncludedPool.address := by
    rw [foldl_add_poolList]
    rfl
  have hAdj : (included.foldl Lists.add Lists.empty).adj = fun t => included.flatMap (adjAt t) := by
    funext t
    rw [foldl_add_adj]
    rfl
  have hKnown : ∀ t ∈ tokenList order included, ∀ edge ∈ included.flatMap (adjAt t),
      Known (indexMap (included.map IncludedPool.address))
        (indexMap (tokenList order included)) edge := by
    intro t _ edge hEdge
    obtain ⟨hPool, hToken⟩ := mem_adjAt order hEdge
    exact ⟨exists_indexMap (included_nodup h) hPool, exists_indexMap tokenList_nodup hToken⟩
  have hZero : Fits build 0 := Or.inr (by norm_num)
  have hRows := @pushRows_eq build _ _ _ _ hKnown ⟨[], [], 0⟩ rfl hZero
  have hTokens : order.list (included.foldl Lists.add Lists.empty).tokensSet =
      tokenList order included := rfl
  rw [rebuildGraph, scanPools_eq, h]
  show layOut build order (included.foldl Lists.add Lists.empty) = _
  simp only [layOut, hPools, hAdj, hTokens, Option.bind_eq_bind]
  have hCount : ([] : List StaticEdge).length + (table order included).flatten.length =
      2 * included.length := by
    rw [table_length, List.length_nil, Nat.zero_add]
  rw [show ((tokenList order included).map fun t => (included.flatMap (adjAt t)).map
    (resolve (indexMap (included.map IncludedPool.address))
      (indexMap (tokenList order included)))) = table order included from rfl] at hRows
  simp only [hCount] at hRows
  by_cases hFits : Fits build (2 * included.length)
  · rw [if_pos hFits] at hRows ⊢
    obtain ⟨done, hDone, hEq⟩ := Option.map_eq_some_iff.mp hRows
    rw [Prod.mk.injEq] at hEq
    rw [hDone, Option.bind_some, hEq.1, hEq.2]
    rfl
  · rw [if_neg hFits] at hRows ⊢
    rw [Option.map_eq_none_iff.mp hRows]
    rfl

theorem mem_edges {edge : StaticEdge} (h : edge ∈ (graphOf order included).edges) :
    ∃ t, edge ∈ (included.flatMap (adjAt t)).map
      (resolve (graphOf order included).poolToIdx (graphOf order included).tokenToIdx) := by
  obtain ⟨row, hRow, hEdge⟩ := List.mem_flatten.mp h
  obtain ⟨t, _, rfl⟩ := List.mem_map.mp hRow
  exact ⟨t, hEdge⟩

section Small

variable (hCount : included.length < 2 ^ 31)
include hCount

theorem tokenToIdx_iff {t : Address} {i : Nat} :
    (graphOf order included).tokenToIdx t = some i ↔
      (graphOf order included).tokens[i]? = some t := by
  have hTokens := @tokenList_length_le order included
  exact indexMap_eq_some tokenList_nodup (by omega)

/-- Below `2 ^ 31` pools no start is cut. -/
theorem nodes_eq : (graphOf order included).nodes = starts (table order included) 0 := by
  show List.map asU32 _ = _
  rw [List.map_congr_left (g := id), List.map_id]
  intro k hk
  have hBound := mem_starts_le hk
  rw [table_length] at hBound
  exact asU32_of_lt (by omega)

variable (hPools : (included.map IncludedPool.address).Nodup)
include hPools

theorem poolToIdx_iff {pool : Address} {i : Nat} :
    (graphOf order included).poolToIdx pool = some i ↔
      (graphOf order included).pools[i]? = some pool := by
  apply indexMap_eq_some hPools
  rw [List.length_map]
  omega

/-- The indices of an edge stand for the keys of its adjacency entry. -/
theorem resolve_spec {t : Address} {edge : PoolEdge}
    (h : edge ∈ included.flatMap (adjAt t)) :
    let stored := resolve (graphOf order included).poolToIdx
      (graphOf order included).tokenToIdx edge
    (graphOf order included).pools[stored.poolIdx]? = some edge.poolAddress ∧
      (graphOf order included).tokens[stored.targetTokenIdx]? = some edge.tokenB := by
  obtain ⟨hPool, hToken⟩ := mem_adjAt order h
  obtain ⟨i, hi⟩ := exists_indexMap hPools hPool
  obtain ⟨j, hj⟩ := exists_indexMap tokenList_nodup hToken
  have hi' : (graphOf order included).poolToIdx edge.poolAddress = some i := hi
  have hj' : (graphOf order included).tokenToIdx edge.tokenB = some j := hj
  simp only [resolve, hi', hj', Option.getD_some]
  exact ⟨(poolToIdx_iff hCount hPools).mp hi', (tokenToIdx_iff hCount).mp hj'⟩

theorem graphOf_wellFormed : WellFormed (graphOf order included) := by
  have hNodes := @nodes_eq order included hCount
  have hLength : (table order included).length = (graphOf order included).tokens.length :=
    List.length_map _
  constructor
  case nodes_length => rw [hNodes, starts_length, hLength]
  case nodes_first => rw [hNodes, starts_first]
  case nodes_mono =>
      rw [hNodes]
      exact starts_mono _ _
  case nodes_last =>
      rw [hNodes, ← hLength, starts_last, Nat.zero_add]
      rfl
  case pool_lt =>
      intro edge hEdge
      obtain ⟨t, hAt⟩ := mem_edges hEdge
      obtain ⟨entry, hEntry, rfl⟩ := List.mem_map.mp hAt
      exact (List.getElem?_eq_some_iff.mp (resolve_spec hCount hPools hEntry).1).1
  case target_lt =>
      intro edge hEdge
      obtain ⟨t, hAt⟩ := mem_edges hEdge
      obtain ⟨entry, hEntry, rfl⟩ := List.mem_map.mp hAt
      exact (List.getElem?_eq_some_iff.mp (resolve_spec hCount hPools hEntry).2).1

/-- The edges of a row, read back, are those of the pools of its token. -/
theorem readEdge_row (t : Address) :
    ((included.flatMap (adjAt t)).map (resolve (graphOf order included).poolToIdx
      (graphOf order included).tokenToIdx)).map (readEdge (graphOf order included)) =
        included.flatMap (edgesAt t) := by
  have hRead : ∀ entry ∈ included.flatMap (adjAt t),
      readEdge (graphOf order included) (resolve (graphOf order included).poolToIdx
        (graphOf order included).tokenToIdx entry) =
          (some entry.poolAddress, some entry.tokenB, entry.dexName) := by
    intro entry hEntry
    obtain ⟨hPool, hToken⟩ := @resolve_spec order included hCount hPools _ _ hEntry
    simp only [readEdge, hPool, hToken]
    rfl
  rw [List.map_map]
  show List.map (fun entry => readEdge _ (resolve _ _ entry)) _ = _
  rw [List.map_congr_left hRead, List.map_flatMap]
  congr 1
  funext pool
  unfold adjAt edgesAt
  split <;> split <;> rfl

theorem graphOf_built : Built included (graphOf order included) := by
  constructor
  case tokens_nodup => exact tokenList_nodup
  case pools_nodup => exact hPools
  case token_inverse => exact fun t i => tokenToIdx_iff hCount
  case pool_inverse => exact fun pool i => poolToIdx_iff hCount hPools
  case mem_tokens => exact fun t => mem_tokenList
  case pools_eq => rfl
  case wellFormed => exact graphOf_wellFormed hCount hPools
  case rows =>
      intro u t ht
      have hRow : (table order included)[u]? = some ((included.flatMap (adjAt t)).map
          (resolve (graphOf order included).poolToIdx (graphOf order included).tokenToIdx)) := by
        show (List.map _ (tokenList order included))[u]? = _
        rw [List.getElem?_map, show (tokenList order included)[u]? = some t from ht]
        rfl
      obtain ⟨lo, hLo, hHi, hSlice⟩ := slice_starts hRow 0
      rw [Nat.zero_add] at hLo hHi
      rw [← nodes_eq hCount] at hLo hHi
      refine ⟨lo, _, hLo, hHi, Nat.le_add_right _ _, ?_⟩
      rw [Nat.add_sub_cancel_left]
      show List.map _ (((table order included).flatten.drop lo).take _) = _
      rw [hSlice, readEdge_row hCount hPools]

end Small

/-- From `2 ^ 31` pools on the sentinel is cut. -/
theorem not_graphOf_wellFormed (hCount : 2 ^ 31 ≤ included.length) :
    ¬ WellFormed (graphOf order included) := by
  intro hg
  have hMem : (graphOf order included).edges.length ∈ (graphOf order included).nodes :=
    List.mem_of_getElem? hg.nodes_last
  obtain ⟨k, _, hk⟩ := List.mem_map.mp hMem
  have hCut : asU32 k < 2 ^ 32 := Nat.mod_lt k (by norm_num)
  rw [hk] at hCut
  have hEdges : (graphOf order included).edges.length = 2 * included.length := table_length
  omega

end Graph

/-- **The invariant of `rebuild_graph`.**  A reserve beyond `u128` ends it, and so does
the offset `2 ^ 32` in a debug build: no lookup fails. -/
theorem rebuildGraph_built (build : Build) (order : SetOrder) (tables : Tables) :
    (rebuildGraph build order tables = none ↔
      ∀ included, includedPools tables = some included →
        build = .debug ∧ 2 ^ 31 ≤ included.length) ∧
    ∀ g, rebuildGraph build order tables = some g →
      ∃ included, includedPools tables = some included ∧
        (included.length < 2 ^ 31 → Built included g) := by
  cases hIncluded : includedPools tables with
  | none =>
      have hNone : rebuildGraph build order tables = none := by
        rw [rebuildGraph, scanPools_eq, hIncluded]
        rfl
      rw [hNone]
      simp
  | some included =>
      have hEq := @rebuildGraph_eq order included tables hIncluded build
      have hFits : Fits build (2 * included.length) ↔
          ¬ (build = .debug ∧ 2 ^ 31 ≤ included.length) := by
        unfold Fits
        cases build with
        | release => simp
        | debug =>
            simp only [reduceCtorEq, false_or, true_and, not_le]
            omega
      constructor
      · rw [hEq, if_congr hFits rfl rfl]
        simp
      · intro g hg
        rw [hEq] at hg
        split at hg
        · obtain rfl := Option.some.inj hg
          exact ⟨included, rfl, fun hCount => graphOf_built hCount (included_nodup hIncluded)⟩
        · exact absurd hg (by simp)

/-! ## Pools of two tokens -/

noncomputable def anyOrder : SetOrder where
  list := Finset.toList
  nodup := Finset.nodup_toList
  mem_list _ _ := Finset.mem_toList

/-- A pool that was just registered. -/
def newEntry : MirrorEntry where
  reserves0 := 0
  reserves1 := 0
  dexType := .uniswapV2
  isStable := false
  liquidity := 0
  sqrtPriceX96 := 0
  tick := 0
  lastUpdatedBlock := 0

/-- The new pools `1` to `n` of the tokens `0xA` and `0xB`. -/
def newPools (n : Nat) (hn : n < 2 ^ 160) : Tables where
  entries := (List.range n).map fun i => (BitVec.ofNat 160 (i + 1), newEntry)
  nodup := by
    rw [List.map_map]
    apply List.nodup_range.map_on
    intro i hi j hj hEq
    rw [List.mem_range] at hi hj
    have hNat := congrArg BitVec.toNat hEq
    simp only [Function.comp_apply, BitVec.toNat_ofNat] at hNat
    omega
  poolRegistry _ := some (0xA, 0xB, .uniswapV2)
  poolActivity _ := none
  alphaGracePeriod _ := none
  traderRegistry _ := none

/-- What the filter admits of them: all. -/
def newIncluded (n : Nat) : List IncludedPool :=
  (List.range n).map fun i => ⟨BitVec.ofNat 160 (i + 1), 0xA, 0xB, .uniswapV2⟩

@[simp] theorem newIncluded_length (n : Nat) : (newIncluded n).length = n := by
  rw [newIncluded, List.length_map, List.length_range]

theorem includedPools_newPools (n : Nat) (hn : n < 2 ^ 160) :
    includedPools (newPools n hn) = some (newIncluded n) := by
  have hVisit : ∀ pool, visitEntry (newPools n hn) (pool, newEntry) =
      some (some ⟨pool, 0xA, 0xB, .uniswapV2⟩) := by
    intro pool
    have hLiq : liqUsd 0xA 0xB newEntry.toPoolState = some 0 := by decide
    simp only [visitEntry, newPools, hLiq, Option.bind_eq_bind, Option.bind_some]
    simp [newEntry]
  have hAll : ∀ is : List Nat,
      (is.map fun i => (BitVec.ofNat 160 (i + 1), newEntry)).mapM (visitEntry (newPools n hn)) =
        some (is.map fun i => some ⟨BitVec.ofNat 160 (i + 1), 0xA, 0xB, .uniswapV2⟩) := by
    intro is
    induction is with
    | nil => rfl
    | cons i is ih => simp [List.mapM_cons, hVisit, ih]
  have hFound : (newPools n hn).entries.mapM (visitEntry (newPools n hn)) = _ :=
    hAll (List.range n)
  rw [includedPools, hFound, Option.map_some, List.reduceOption, List.filterMap_map]
  exact congrArg some (congrFun List.filterMap_eq_map' (List.range n))

/-- A release build stores a broken graph of `2 ^ 31` pools. -/
theorem not_built_newPools :
    ∃ g, rebuildGraph .release anyOrder (newPools (2 ^ 31) (by norm_num)) = some g ∧
      ¬ ∃ included, Built included g := by
  have hFits : Fits .release (2 * (newIncluded (2 ^ 31)).length) := Or.inl rfl
  have hStored : rebuildGraph .release anyOrder (newPools (2 ^ 31) (by norm_num)) =
      some (graphOf anyOrder (newIncluded (2 ^ 31))) := by
    rw [rebuildGraph_eq (includedPools_newPools (2 ^ 31) (by norm_num)), if_pos hFits]
  refine ⟨graphOf anyOrder (newIncluded (2 ^ 31)), hStored, ?_⟩
  rintro ⟨included, hBuilt⟩
  apply not_graphOf_wellFormed _ hBuilt.wellFormed
  rw [newIncluded_length]

end SovereignShadow.Ports.GraphInvariant
