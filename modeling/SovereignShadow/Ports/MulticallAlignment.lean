import SovereignShadow.Ports.MirrorSync

/-!
# Alignment of multicall results

The loop that builds the calls pushes one for every pool that is not V3, the loop that
reads the results takes none for a MaverickV2 pool.  So the decisions on the pools up to
the first MaverickV2 pool are made from the results of their own calls, and every pool of
another type behind one is decided from results of calls to the pools before it.

## Main results

* `aligned_of_maverickLast` — no decision looks at a foreign result.
* `not_aligned` — a MaverickV2 pool shifts what stands behind it.
* `aligned_iff` — both.
-/

namespace SovereignShadow.Ports.MulticallAlignment

open SovereignShadow.Ports.Models
open SovereignShadow.Ports.Constants
open SovereignShadow.Ports.MirrorSync

/-! ## Alignment -/

/-- The decisions made for one pool. -/
def decisionsFor (pool : Address) (decisions : List (Address × Decision)) : List Decision :=
  (decisions.filter (·.1 = pool)).map Prod.snd

/-- The replies have the same result for every call whose target is `pool`. -/
def AgreeOn (chunk : List (Address × DexType)) (pool : Address)
    (results results' : List MulticallResult) : Prop :=
  ∀ (i : Nat) (call : Call3), (buildCalls chunk)[i]? = some call → call.target = pool →
    results[i]? = results'[i]?

/-- What is decided for a pool is a function of the results of the calls to it. -/
def Aligned (decoders : Decoders) (currentBlock : Nat) (chunk : List (Address × DexType)) :
    Prop :=
  ∀ results results', results.length = (buildCalls chunk).length →
    results'.length = (buildCalls chunk).length →
      ∀ pool, AgreeOn chunk pool results results' →
        decisionsFor pool (decideChunk decoders currentBlock chunk results) =
          decisionsFor pool (decideChunk decoders currentBlock chunk results')

/-- Behind a MaverickV2 pool there are only MaverickV2 pools. -/
def MaverickLast (chunk : List (Address × DexType)) : Prop :=
  chunk.Pairwise fun pool later => pool.2 = .maverickV2 → later.2 = .maverickV2

instance (chunk : List (Address × DexType)) : Decidable (MaverickLast chunk) :=
  inferInstanceAs (Decidable (List.Pairwise _ _))

/-! ## The two loops -/

variable {decoders : Decoders} {currentBlock : Nat}

theorem target_of_mem_poolCalls {pool : Address × DexType} {call : Call3}
    (h : call ∈ poolCalls pool) : call.target = pool.1 := by
  rcases List.mem_cons.mp h with rfl | hSecond
  · rfl
  · split at hSecond
    · rw [List.mem_singleton.mp hSecond]
    · exact absurd hSecond (by simp)

/-- The loops agree on every type but MaverickV2. -/
theorem resultsTaken_eq {pool : Address × DexType} (h : pool.2 ≠ .maverickV2) :
    resultsTaken pool.2 = (poolCalls pool).length := by
  obtain ⟨pool, dexType⟩ := pool
  cases dexType with
  | maverickV2 => exact absurd rfl h
  | uniswapV2 => rfl
  | uniswapV3 => rfl
  | aerodrome => rfl

theorem resultsTaken_le (pool : Address × DexType) :
    resultsTaken pool.2 ≤ (poolCalls pool).length := by
  obtain ⟨pool, dexType⟩ := pool
  cases dexType <;> simp [resultsTaken, poolCalls]

theorem buildCalls_cons (pool : Address × DexType) (rest : List (Address × DexType)) :
    buildCalls (pool :: rest) = poolCalls pool ++ buildCalls rest := List.flatMap_cons

theorem decisionsFor_append (pool : Address) (here later : List (Address × Decision)) :
    decisionsFor pool (here ++ later) = decisionsFor pool here ++ decisionsFor pool later := by
  simp [decisionsFor]

/-- The decisions of a pool that is not among the decided ones. -/
theorem decisionsFor_eq_nil {pool : Address} {decisions : List (Address × Decision)}
    (h : ∀ d ∈ decisions, d.1 ≠ pool) : decisionsFor pool decisions = [] := by
  rw [decisionsFor, List.map_eq_nil_iff, List.filter_eq_nil_iff]
  intro d hd
  simpa using h d hd

theorem mem_decideChunk {chunk : List (Address × DexType)} {results : List MulticallResult}
    {d : Address × Decision} (h : d ∈ decideChunk decoders currentBlock chunk results) :
    d.1 ∈ chunk.map Prod.fst := by
  induction chunk generalizing results with
  | nil => exact absurd h (by simp [decideChunk])
  | cons pool rest ih =>
      rw [List.map_cons, List.mem_cons]
      rcases List.mem_append.mp h with hHere | hLater
      · rw [Option.mem_toList] at hHere
        obtain ⟨_, _, rfl⟩ := Option.map_eq_some_iff.mp hHere
        exact Or.inl rfl
      · exact Or.inr (ih hLater)

/-- A decision looks at the results that it takes. -/
theorem decidePool_congr {pool : Address × DexType} {results results' : List MulticallResult}
    (h : ∀ i < resultsTaken pool.2, results[i]? = results'[i]?) :
    decidePool decoders currentBlock pool results =
      decidePool decoders currentBlock pool results' := by
  obtain ⟨pool, dexType⟩ := pool
  cases dexType with
  | maverickV2 => rfl
  | uniswapV2 => simp only [decidePool, h 0 Nat.one_pos]
  | aerodrome => simp only [decidePool, h 0 Nat.one_pos]
  | uniswapV3 => simp only [decidePool, h 0 Nat.two_pos, h 1 Nat.one_lt_two]

theorem decideChunk_maverick {chunk : List (Address × DexType)}
    (h : ∀ pool ∈ chunk, pool.2 = .maverickV2) (results : List MulticallResult) :
    decideChunk decoders currentBlock chunk results = [] := by
  induction chunk generalizing results with
  | nil => rfl
  | cons pool rest ih =>
      rw [List.forall_mem_cons] at h
      rw [decideChunk, ih h.2, List.append_nil, decidePool, h.1]
      rfl

/-! ## Aligned chunks -/

theorem decisionsFor_congr {chunk : List (Address × DexType)} (hLast : MaverickLast chunk)
    {pool : Address} {results results' : List MulticallResult}
    (hAgree : AgreeOn chunk pool results results') :
    decisionsFor pool (decideChunk decoders currentBlock chunk results) =
      decisionsFor pool (decideChunk decoders currentBlock chunk results') := by
  induction chunk generalizing results results' with
  | nil => rfl
  | cons first rest ih =>
      obtain ⟨hFirst, hRest⟩ := List.pairwise_cons.mp hLast
      by_cases hMaverick : first.2 = .maverickV2
      · have hAll : ∀ p ∈ first :: rest, p.2 = .maverickV2 := by
          rw [List.forall_mem_cons]
          exact ⟨hMaverick, fun p hp => hFirst p hp hMaverick⟩
        rw [decideChunk_maverick hAll, decideChunk_maverick hAll]
      · have hTaken := resultsTaken_eq hMaverick
        have hLater : AgreeOn rest pool (results.drop (resultsTaken first.2))
            (results'.drop (resultsTaken first.2)) := by
          intro i call hCall hTarget
          rw [List.getElem?_drop, List.getElem?_drop]
          apply hAgree _ call _ hTarget
          rw [buildCalls_cons, hTaken, List.getElem?_append_right (Nat.le_add_right _ _),
            Nat.add_sub_cancel_left]
          exact hCall
        rw [decideChunk, decideChunk, decisionsFor_append, decisionsFor_append, ih hRest hLater]
        congr 1
        by_cases hOwn : first.1 = pool
        · congr 3
          apply decidePool_congr
          intro i hi
          rw [hTaken] at hi
          apply hAgree i (poolCalls first)[i]
          · rw [buildCalls_cons, List.getElem?_append_left hi, List.getElem?_eq_getElem hi]
          · rw [target_of_mem_poolCalls (List.getElem_mem hi), hOwn]
        · have hNone : ∀ found : Option Decision,
              decisionsFor pool (found.map (first.1, ·)).toList = [] := by
            intro found
            apply decisionsFor_eq_nil
            intro d hd
            rw [Option.mem_toList] at hd
            obtain ⟨_, _, rfl⟩ := Option.map_eq_some_iff.mp hd
            exact hOwn
          rw [hNone, hNone]

theorem aligned_of_maverickLast {chunk : List (Address × DexType)} (hLast : MaverickLast chunk) :
    Aligned decoders currentBlock chunk :=
  fun _ _ _ _ _ hAgree => decisionsFor_congr hLast hAgree

/-! ## Shifted chunks -/

/-- Each decoder accepts something. -/
structure Readable (decoders : Decoders) : Prop where
  getReserves : ∃ data reserves, decoders.getReserves data = some reserves
  slot0 : ∃ data slot0, decoders.slot0 data = some slot0
  liquidity : ∃ data liquidity, decoders.liquidity data = some liquidity

/-- How many results are taken up to the end of `pre`. -/
def takenBy (pre : List (Address × DexType)) : Nat :=
  (pre.map fun pool => resultsTaken pool.2).sum

theorem decideChunk_append (pre post : List (Address × DexType))
    (results : List MulticallResult) :
    decideChunk decoders currentBlock (pre ++ post) results =
      decideChunk decoders currentBlock pre results ++
        decideChunk decoders currentBlock post (results.drop (takenBy pre)) := by
  induction pre generalizing results with
  | nil => rfl
  | cons pool pre ih =>
      rw [List.cons_append, decideChunk, ih, List.drop_drop, decideChunk, List.append_assoc]
      rfl

theorem takenBy_le (pre : List (Address × DexType)) : takenBy pre ≤ (buildCalls pre).length := by
  induction pre with
  | nil => exact le_rfl
  | cons pool pre ih =>
      have hHere := resultsTaken_le pool
      rw [takenBy, List.map_cons, List.sum_cons, ← takenBy, buildCalls_cons, List.length_append]
      omega

/-- A MaverickV2 pool leaves its result to the pools behind it. -/
theorem takenBy_lt {pre : List (Address × DexType)} (h : ∃ pool ∈ pre, pool.2 = .maverickV2) :
    takenBy pre < (buildCalls pre).length := by
  obtain ⟨pool, hPool, hMaverick⟩ := h
  obtain ⟨before, after, rfl⟩ := List.append_of_mem hPool
  have hBefore := takenBy_le before
  have hAfter := takenBy_le after
  have hHere : resultsTaken pool.2 = 0 := by
    rw [hMaverick]
    rfl
  have hCalls : (poolCalls pool).length = 1 := by simp [poolCalls, hMaverick]
  have hSum : takenBy (before ++ pool :: after) = takenBy before + takenBy after := by
    simp [takenBy, hHere]
  have hLength : (buildCalls (before ++ pool :: after)).length =
      (buildCalls before).length + (1 + (buildCalls after).length) := by
    simp only [buildCalls, List.flatMap_append, List.flatMap_cons, List.length_append, hCalls]
  omega

/-- Only the entry of a pool decides on it. -/
theorem decisionsFor_entry {pre post : List (Address × DexType)} {pool : Address × DexType}
    (hNodup : ((pre ++ pool :: post).map Prod.fst).Nodup) (results : List MulticallResult) :
    decisionsFor pool.1 (decideChunk decoders currentBlock (pre ++ pool :: post) results) =
      (decidePool decoders currentBlock pool (results.drop (takenBy pre))).toList := by
  rw [List.map_append, List.map_cons] at hNodup
  obtain ⟨_, hTail, hApart⟩ := List.nodup_append.mp hNodup
  have hPre : decisionsFor pool.1 (decideChunk decoders currentBlock pre results) = [] := by
    apply decisionsFor_eq_nil
    intro d hd hEq
    exact hApart d.1 (mem_decideChunk hd) pool.1 (List.mem_cons_self ..) hEq
  have hPost : ∀ rest, decisionsFor pool.1 (decideChunk decoders currentBlock post rest) = [] := by
    intro rest
    apply decisionsFor_eq_nil
    intro d hd hEq
    exact (List.nodup_cons.mp hTail).1 (hEq ▸ mem_decideChunk hd)
  rw [decideChunk_append, decisionsFor_append, decideChunk, decisionsFor_append, hPre, hPost,
    List.nil_append, List.append_nil]
  cases decidePool decoders currentBlock pool (results.drop (takenBy pre)) with
  | none => rfl
  | some decision => simp [decisionsFor]

/-- A pool with a first result that succeeds is decided on; one whose first result fails
is not. -/
theorem exists_decidePool (hReadable : Readable decoders) {pool : Address × DexType}
    (h : pool.2 ≠ .maverickV2) :
    ∃ first second : MulticallResult,
      (∀ results, results[0]? = some first → (resultsTaken pool.2 = 2 → results[1]? = some second) →
        decidePool decoders currentBlock pool results ≠ none) ∧
      ∀ results, results[0]? = some ⟨false, []⟩ →
        decidePool decoders currentBlock pool results = none := by
  obtain ⟨address, dexType⟩ := pool
  obtain ⟨data, ⟨reserve0, reserve1⟩, hReserves⟩ := hReadable.getReserves
  have hV2 : ∀ dexType, decideReserves decoders currentBlock (address, dexType) ⟨true, data⟩ ≠
      none := by
    intro dexType
    simp only [decideReserves, hReserves, if_true]
    split <;> simp
  cases dexType with
  | maverickV2 => exact absurd rfl h
  | uniswapV2 =>
      refine ⟨⟨true, data⟩, ⟨true, data⟩, fun results hFirst _ => ?_, fun results hFirst => ?_⟩
      · simpa [decidePool, hFirst] using hV2 .uniswapV2
      · simp [decidePool, hFirst, decideReserves]
  | aerodrome =>
      refine ⟨⟨true, data⟩, ⟨true, data⟩, fun results hFirst _ => ?_, fun results hFirst => ?_⟩
      · simpa [decidePool, hFirst] using hV2 .aerodrome
      · simp [decidePool, hFirst, decideReserves]
  | uniswapV3 =>
      obtain ⟨data0, ⟨sqrtPriceX96, tick⟩, hSlot0⟩ := hReadable.slot0
      obtain ⟨data1, liquidity, hLiquidity⟩ := hReadable.liquidity
      refine ⟨⟨true, data0⟩, ⟨true, data1⟩, fun results hFirst hSecond => ?_,
        fun results hFirst => ?_⟩
      · simp [decidePool, hFirst, hSecond rfl, decideV3, hSlot0, hLiquidity]
      · cases hSecond : results[1]? with
        | none => simp [decidePool, hFirst, hSecond]
        | some second => simp [decidePool, hFirst, hSecond, decideV3]

/-- A pool behind a MaverickV2 pool is decided on from a foreign result. -/
theorem not_aligned (hReadable : Readable decoders) {pre post : List (Address × DexType)}
    {pool : Address × DexType} (hNodup : ((pre ++ pool :: post).map Prod.fst).Nodup)
    (hMaverick : ∃ earlier ∈ pre, earlier.2 = .maverickV2) (hPool : pool.2 ≠ .maverickV2) :
    ¬ Aligned decoders currentBlock (pre ++ pool :: post) := by
  intro hAligned
  have hTaken := takenBy_lt hMaverick
  have hCalls : (buildCalls (pre ++ pool :: post)).length =
      (buildCalls pre).length + (resultsTaken pool.2 + (buildCalls post).length) := by
    rw [resultsTaken_eq hPool]
    simp only [buildCalls, List.flatMap_append, List.flatMap_cons, List.length_append]
  obtain ⟨first, second, hDecided, hUndecided⟩ :=
    @exists_decidePool _ currentBlock hReadable _ hPool
  -- The two replies differ in the first result that the loop takes for the pool.
  obtain ⟨n, hn⟩ : ∃ n, n = (buildCalls (pre ++ pool :: post)).length := ⟨_, rfl⟩
  have hDrop : ∀ res, ((List.replicate n second).set (takenBy pre) res).drop (takenBy pre) =
      res :: List.replicate (n - (takenBy pre + 1)) second := by
    intro res
    have hRange : takenBy pre < ((List.replicate n second).set (takenBy pre) res).length := by
      rw [List.length_set, List.length_replicate]
      omega
    rw [List.drop_eq_getElem_cons hRange, List.getElem_set_self, List.drop_set_of_lt (by omega),
      List.drop_replicate]
  have hAgree : AgreeOn (pre ++ pool :: post) pool.1
      ((List.replicate n second).set (takenBy pre) first)
      ((List.replicate n second).set (takenBy pre) ⟨false, []⟩) := by
    intro i call hCall hTarget
    have hOther : takenBy pre ≠ i := by
      rintro rfl
      rw [buildCalls, List.flatMap_append, ← buildCalls, List.getElem?_append_left hTaken] at hCall
      obtain ⟨earlier, hEarlier, hMem⟩ := List.mem_flatMap.mp (List.mem_of_getElem? hCall)
      rw [List.map_append, List.map_cons] at hNodup
      apply (List.nodup_append.mp hNodup).2.2 earlier.1 (List.mem_map_of_mem hEarlier) pool.1
        (List.mem_cons_self ..)
      rw [← target_of_mem_poolCalls hMem, hTarget]
    rw [List.getElem?_set_ne hOther, List.getElem?_set_ne hOther]
  have hSame := hAligned _ _ (by rw [List.length_set, List.length_replicate, hn])
    (by rw [List.length_set, List.length_replicate, hn]) pool.1 hAgree
  rw [decisionsFor_entry hNodup, decisionsFor_entry hNodup, hDrop, hDrop,
    hUndecided (⟨false, []⟩ :: List.replicate (n - (takenBy pre + 1)) second) rfl] at hSame
  apply hDecided (first :: List.replicate (n - (takenBy pre + 1)) second) rfl
  · intro hTwo
    rw [List.getElem?_cons_succ, List.getElem?_replicate, if_pos (by omega)]
  · exact Option.toList_eq_nil_iff.mp hSame

/-- **Alignment.**  Only pools of another type behind a MaverickV2 pool are decided on
from foreign results. -/
theorem aligned_iff (decoders : Decoders) (currentBlock : Nat)
    (chunk : List (Address × DexType)) :
    (MaverickLast chunk → Aligned decoders currentBlock chunk) ∧
      (Readable decoders → (chunk.map Prod.fst).Nodup → Aligned decoders currentBlock chunk →
        MaverickLast chunk) := by
  refine ⟨aligned_of_maverickLast, fun hReadable hNodup hAligned => ?_⟩
  apply List.pairwise_iff_getElem.mpr
  intro i j hi hj hij hMaverick
  by_contra hOther
  have hSplit : chunk = chunk.take j ++ chunk[j] :: chunk.drop (j + 1) := by
    rw [← List.drop_eq_getElem_cons hj, List.take_append_drop]
  have hEarlier : ∃ earlier ∈ chunk.take j, earlier.2 = .maverickV2 :=
    ⟨chunk[i], List.mem_take_iff_getElem.mpr ⟨i, by omega, rfl⟩, hMaverick⟩
  rw [hSplit] at hNodup hAligned
  exact not_aligned hReadable hNodup hEarlier hOther hAligned

/-! ## A shifted chunk -/

/-- A MaverickV2 pool before a V2 pool. -/
def shiftedChunk : List (Address × DexType) := [(0x11, .maverickV2), (0x22, .uniswapV2)]

/-- The reserves of `0x22` are those that `0x11` returned. -/
theorem not_aligned_shiftedChunk : ¬ Aligned wordDecoders 1 shiftedChunk := by
  intro hAligned
  have hAgree : AgreeOn shiftedChunk 0x22 [⟨true, reservesData⟩, ⟨false, []⟩]
      [⟨false, []⟩, ⟨false, []⟩] := by
    intro i call hCall hTarget
    match i with
    | 0 =>
        obtain rfl := Option.some.inj hCall
        exact absurd hTarget (by decide)
    | i + 1 => rfl
  have hSame := hAligned [⟨true, reservesData⟩, ⟨false, []⟩] [⟨false, []⟩, ⟨false, []⟩] rfl rfl
    0x22 hAgree
  exact absurd hSame (by decide)

end SovereignShadow.Ports.MulticallAlignment
