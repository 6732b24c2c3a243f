import SovereignShadow.Verified.Checked

/-!
# The provider pool

Port of `WsProviderPool` of `lib.rs`.  `next` takes at most one turn for each provider: a
turn moves the shared counter, and the counter's remainder is the index it looks at.  The
first provider whose cooldown has expired is counted and returned; after a turn for every
index the pool falls back on index zero.

The counter and the timestamps are words, the clock reading is an argument, and calls do not
overlap.

## Main results

* `exists_turn` — consecutive counters meet every index.
* `scan_some`, `scan_none` — what the turns find, and what their failure says.
* `next_expired`, `next_blocked` — the provider returned in both cases.
* `markUnhealthy_blocks` — a marked provider is passed over while another one is ready.
* `next_rotates_iff` — when the provider returned is ready or the least blocked one.
-/

namespace SovereignShadow.Ports.ProviderPool

open SovereignShadow.Verified.Checked

/-- `WsProviderPool`; `nextCounter` is the field `next`. -/
structure WsProviderPool (P : Type) (len : ℕ) where
  providers : Vector P len
  nextCounter : UInt64
  health : Vector UInt64 len
  usageStats : Vector UInt64 len
  /-- A vector holds at most `isize::MAX` bytes. -/
  len_lt : len < 2 ^ 63

namespace WsProviderPool

variable {P : Type} {len : ℕ}

def new (providers : Vector P len) (hLen : len < 2 ^ 63) : WsProviderPool P len where
  providers := providers
  nextCounter := 0
  health := .replicate len 0
  usageStats := .replicate len 0
  len_lt := hLen

/-- The cooldown of provider `i` has expired. -/
def Expired (pool : WsProviderPool P len) (now : UInt64) (i : Fin len) : Prop :=
  pool.health[i] ≤ now

instance (pool : WsProviderPool P len) (now : UInt64) (i : Fin len) :
    Decidable (pool.Expired now i) :=
  inferInstanceAs (Decidable (pool.health[i] ≤ now))

/-- `next.fetch_add(1)`. -/
def advance (pool : WsProviderPool P len) : WsProviderPool P len :=
  { pool with nextCounter := pool.nextCounter + 1 }

/-- `usage_stats[idx].fetch_add(1)`. -/
def countUse (pool : WsProviderPool P len) (idx : Fin len) : WsProviderPool P len :=
  { pool with usageStats := pool.usageStats.set idx (pool.usageStats[idx] + 1) }

/-- The turns of the loop in `next`. -/
def scan (hLen : 0 < len) (now : UInt64) :
    ℕ → WsProviderPool P len → WsProviderPool P len × Option (Fin len)
  | 0, pool => (pool, none)
  | turns + 1, pool =>
      let idx : Fin len := ⟨pool.nextCounter.toNat % len, Nat.mod_lt _ hLen⟩
      if pool.Expired now idx then (pool.advance.countUse idx, some idx)
      else scan hLen now turns pool.advance

/-- `next` at clock `now`, in seconds. -/
def next (pool : WsProviderPool P len) (now : UInt64) :
    Outcome (WsProviderPool P len × Fin len × P) :=
  if hLen : 0 < len then
    match scan hLen now len pool with
    | (pool, some idx) => .value (pool, idx, pool.providers[idx])
    | (pool, none) => .value (pool, ⟨0, hLen⟩, pool.providers[0])
  else .panic

def getHead (pool : WsProviderPool P len) (index : UInt64) : Outcome (Fin len × P) :=
  if hLen : 0 < len then
    let target : Fin len := ⟨index.toNat % len, Nat.mod_lt _ hLen⟩
    .value (target, pool.providers[target])
  else .panic

/-- `mark_unhealthy` at clock `now`. -/
def markUnhealthy (build : Build) (pool : WsProviderPool P len) (now : UInt64)
    (providerIdx : ℕ) (durationSecs : UInt64) : Outcome (WsProviderPool P len) := do
  let resumeAt ← uadd build now.toNat (max durationSecs 120).toNat
  if hIdx : providerIdx < len then
    .value { pool with health := pool.health.set providerIdx (.ofNat resumeAt) }
  else .panic

/-! ## The turns -/

/-- Consecutive counters meet every index. -/
theorem exists_turn (counter : ℕ) {j : ℕ} (hj : j < len) :
    ∃ k < len, (counter + k) % len = j := by
  have hLen : 0 < len := Nat.zero_lt_of_lt hj
  have hRest : counter % len < len := Nat.mod_lt _ hLen
  refine ⟨(j + (len - counter % len)) % len, Nat.mod_lt _ hLen, ?_⟩
  have hSplit : counter + (j + (len - counter % len)) = j + len * (counter / len + 1) := by
    have hDiv := Nat.div_add_mod counter len
    rw [Nat.mul_add_one]
    omega
  rw [Nat.add_mod_mod, hSplit, Nat.add_mul_mod_self_left, Nat.mod_eq_of_lt hj]

section Scan

variable {hLen : 0 < len} {now : UInt64}

@[simp] theorem expired_advance (pool : WsProviderPool P len) (i : Fin len) :
    pool.advance.Expired now i ↔ pool.Expired now i := Iff.rfl

/-- The turns move the counter and count a use, nothing else. -/
theorem scan_frame (hLen : 0 < len) (now : UInt64) (turns : ℕ) (pool : WsProviderPool P len) :
    (scan hLen now turns pool).1.providers = pool.providers ∧
      (scan hLen now turns pool).1.health = pool.health := by
  induction turns generalizing pool with
  | zero => exact ⟨rfl, rfl⟩
  | succ turns ih =>
      rw [scan]
      split
      · exact ⟨rfl, rfl⟩
      · exact ih pool.advance

/-- A turn ends the loop at a provider that is ready. -/
theorem scan_some {turns : ℕ} {pool : WsProviderPool P len} {idx : Fin len}
    (hScan : (scan hLen now turns pool).2 = some idx) : pool.Expired now idx := by
  induction turns generalizing pool with
  | zero => cases hScan
  | succ turns ih =>
      rw [scan] at hScan
      split at hScan
      case isTrue hReady =>
        obtain rfl := Option.some.inj hScan
        exact hReady
      case isFalse => exact (expired_advance pool idx).mp (ih hScan)

/-- Turns without a result have seen a blocked provider each, as long as the counter does
not wrap. -/
theorem scan_none {turns : ℕ} {pool : WsProviderPool P len}
    (hScan : (scan hLen now turns pool).2 = none)
    (hCounter : pool.nextCounter.toNat + turns ≤ 2 ^ 64) {k : ℕ} (hk : k < turns) :
    ¬ pool.Expired now ⟨(pool.nextCounter.toNat + k) % len, Nat.mod_lt _ hLen⟩ := by
  induction turns generalizing pool k with
  | zero => exact absurd hk (Nat.not_lt_zero k)
  | succ turns ih =>
      rw [scan] at hScan
      split at hScan
      case isTrue => cases hScan
      case isFalse hBlocked =>
        cases k with
        | zero => exact hBlocked
        | succ k =>
            have hLater : k < turns := Nat.lt_of_succ_lt_succ hk
            have hMoved : pool.advance.nextCounter.toNat = pool.nextCounter.toNat + 1 := by
              change (pool.nextCounter + 1).toNat = _
              rw [UInt64.toNat_add, UInt64.toNat_one, Nat.mod_eq_of_lt (by omega)]
            have hTurn := ih hScan (by omega) hLater
            rw [expired_advance] at hTurn
            simpa only [hMoved, Nat.add_assoc, Nat.add_comm 1 k] using hTurn

end Scan

/-! ## The provider returned -/

/-- `next` returns provider `idx`. -/
def Picks (pool : WsProviderPool P len) (now : UInt64) (idx : Fin len) : Prop :=
  ∃ pool', pool.next now = .value (pool', idx, pool.providers[idx])

theorem picks_of_scan (pool : WsProviderPool P len) (now : UInt64) (hLen : 0 < len) :
    pool.Picks now (((scan hLen now len pool).2).getD ⟨0, hLen⟩) := by
  obtain ⟨hProviders, -⟩ := scan_frame hLen now len pool
  unfold Picks next
  rw [dif_pos hLen]
  cases hScan : scan hLen now len pool with
  | mk pool' found =>
      rw [hScan] at hProviders
      cases found with
      | none => exact ⟨pool', by simp [← hProviders]⟩
      | some idx => exact ⟨pool', by simp [← hProviders]⟩

theorem Picks.unique {pool : WsProviderPool P len} {now : UInt64} {i j : Fin len}
    (hi : pool.Picks now i) (hj : pool.Picks now j) : i = j := by
  obtain ⟨pool₁, h₁⟩ := hi
  obtain ⟨pool₂, h₂⟩ := hj
  rw [h₁] at h₂
  have hPair := Outcome.value.inj h₂
  exact congrArg (fun result => result.2.1) hPair

variable {pool : WsProviderPool P len} {now : UInt64}

/-- A pool with a ready provider returns a ready provider. -/
theorem next_expired (hCounter : pool.nextCounter.toNat < 2 ^ 63) {i : Fin len}
    (hReady : pool.Expired now i) {idx : Fin len} (hPicks : pool.Picks now idx) :
    pool.Expired now idx := by
  have hLen : 0 < len := Nat.zero_lt_of_lt i.isLt
  cases hScan : (scan hLen now len pool).2 with
  | some found =>
      have hFound := picks_of_scan pool now hLen
      rw [hScan, Option.getD_some] at hFound
      rw [hPicks.unique hFound]
      exact scan_some hScan
  | none =>
      have hLenLt := pool.len_lt
      obtain ⟨k, hk, hIndex⟩ := exists_turn pool.nextCounter.toNat i.isLt
      have hBlocked := scan_none hScan (by omega) hk
      simp only [hIndex] at hBlocked
      exact absurd hReady hBlocked

/-- A pool without one returns index zero. -/
theorem next_blocked (hBlocked : ∀ i, ¬ pool.Expired now i) {idx : Fin len}
    (hPicks : pool.Picks now idx) : (idx : ℕ) = 0 := by
  have hLen : 0 < len := Nat.zero_lt_of_lt idx.isLt
  have hFound := picks_of_scan pool now hLen
  cases hScan : (scan hLen now len pool).2 with
  | some found => exact absurd (scan_some hScan) (hBlocked found)
  | none =>
      rw [hScan, Option.getD_none] at hFound
      rw [hPicks.unique hFound]

/-- A provider marked at clock `now` is passed over until the cooldown ends, while another
one is ready. -/
theorem markUnhealthy_blocks {build : Build} {now later duration : UInt64} {marked : Fin len}
    {pool pool' : WsProviderPool P len}
    (hMark : pool.markUnhealthy build now marked duration = .value pool')
    (hClock : now.toNat + (max duration 120).toNat < M)
    (hCounter : pool.nextCounter.toNat < 2 ^ 63)
    (hLater : later.toNat < now.toNat + (max duration 120).toNat)
    {i : Fin len} (hReady : pool'.Expired later i) : ¬ pool'.Picks later marked := by
  rw [markUnhealthy, uadd_of_lt build hClock, Outcome.value_bind, dif_pos marked.isLt] at hMark
  obtain rfl := Outcome.value.inj hMark
  intro hPicks
  have hExpired : Expired _ later marked := next_expired (by exact hCounter) hReady hPicks
  unfold Expired at hExpired
  simp only [Fin.getElem_fin, Vector.getElem_set_self] at hExpired
  rw [UInt64.le_iff_toNat_le, UInt64.toNat_ofNat_of_lt' hClock] at hExpired
  omega

/-! ## Rotation -/

/-- Provider `idx` is ready if one is, and otherwise one whose cooldown ends first. -/
structure Rotates (pool : WsProviderPool P len) (now : UInt64) (idx : Fin len) : Prop where
  ready : (∃ i, pool.Expired now i) → pool.Expired now idx
  leastBlocked : (∀ i, ¬ pool.Expired now i) →
    ∀ i : Fin len, pool.health[idx] ≤ pool.health[i]

/-- **Rotation.**  `next` returns a ready provider, or else the least blocked one, if and
only if one is ready or none ends its cooldown before provider zero. -/
theorem next_rotates_iff (pool : WsProviderPool P len) (now : UInt64) (hLen : 0 < len)
    (hCounter : pool.nextCounter.toNat < 2 ^ 63) :
    (∃ idx, pool.Picks now idx ∧ pool.Rotates now idx) ↔
      (∃ i, pool.Expired now i) ∨ ∀ i : Fin len, pool.health[0] ≤ pool.health[i] := by
  have hFound := picks_of_scan pool now hLen
  constructor
  · rintro ⟨idx, hPicks, hRotates⟩
    by_cases hReady : ∃ i, pool.Expired now i
    · exact .inl hReady
    · right
      have hBlocked : ∀ i, ¬ pool.Expired now i := not_exists.mp hReady
      have hZero := next_blocked hBlocked hPicks
      intro i
      have hLeast := hRotates.leastBlocked hBlocked i
      simpa only [Fin.getElem_fin, hZero] using hLeast
  · intro hCondition
    refine ⟨_, hFound, ?_, ?_⟩
    · rintro ⟨i, hReady⟩
      exact next_expired hCounter hReady hFound
    · intro hBlocked i
      rcases hCondition with ⟨j, hReady⟩ | hFirst
      · exact absurd hReady (hBlocked j)
      · have hZero := next_blocked hBlocked hFound
        simpa only [Fin.getElem_fin, hZero] using hFirst i

/-- Two blocked providers, of which the second one is free first. -/
def blockedPair : WsProviderPool Unit 2 where
  providers := #v[(), ()]
  nextCounter := 0
  health := #v[200, 150]
  usageStats := #v[0, 0]
  len_lt := by norm_num

theorem next_rotates_iff_example :
    0 < 2 ∧ blockedPair.nextCounter.toNat < 2 ^ 63 ∧
      ∃ idx, blockedPair.Picks 150 idx ∧ blockedPair.Rotates 150 idx := by
  have hCounter : blockedPair.nextCounter.toNat < 2 ^ 63 := by decide
  refine ⟨by decide, hCounter, ?_⟩
  exact (next_rotates_iff blockedPair 150 (by decide) hCounter).mpr (.inl ⟨1, by decide⟩)

/-- Both are blocked at clock 100, and `next` returns the one blocked longer. -/
theorem not_next_rotates : blockedPair.nextCounter.toNat < 2 ^ 63 ∧
    blockedPair.Picks 100 0 ∧ ¬ ∃ idx, blockedPair.Picks 100 idx ∧ blockedPair.Rotates 100 idx := by
  have hPicks : blockedPair.Picks 100 0 := picks_of_scan _ _ (by decide)
  refine ⟨by decide, hPicks, ?_⟩
  rintro ⟨idx, hIdx, hRotates⟩
  obtain rfl := hIdx.unique hPicks
  have hLeast := hRotates.leastBlocked (by decide) 1
  exact absurd hLeast (by decide)

end WsProviderPool

end SovereignShadow.Ports.ProviderPool
