import SovereignShadow.Ports.OptimalInput
import SovereignShadow.Verified.WideBracket

/-!
# The sizing search of any objective

`find_optimal_input` on any range that its arithmetic admits and any objective at all: it
never leaves the range, its brackets stay in order, and what it returns is a value of the
objective.  `within` is the objective that panics outside the range; a search of it that
returns has not been there.

On an objective with one peak the bracket keeps the peak, and ends so narrow that its middle
is near.

## Main results

* `Visits.tracked` — what holds of every bracket that the loop visits.
* `search_in_range` — the search of any objective.
* `search_finds_peak` — the search of an objective with one peak.
-/

namespace SovereignShadow.Ports.SearchRange

open SovereignShadow.Verified
open SovereignShadow.Verified.WideBracket (Tracked Peaked)
open SovereignShadow.Ports.Models
open SovereignShadow.Ports.MathEngine
open SovereignShadow.Ports.OptimalInput

/-! ## Runs of the loop -/

/-- The locals before the loop. -/
def searchStart (f : U256 → Option I256) (minIn maxIn : U256) : Option Search := do
  let c := maxIn - phiPart minIn maxIn
  let d := minIn + phiPart minIn maxIn
  let fC ← f c
  let fD ← f d
  some { a := minIn, b := maxIn, c, d, fC, fD }

/-- The end of `find_optimal_input`. -/
def searchEnd (f : U256 → Option I256) (s : Search) : Option (U256 × U256) := do
  let optimalInput := (s.a + s.b) / 2
  let maxProfit ← f optimalInput
  if maxProfit.sle 0 then some (0, 0) else some (optimalInput, maxProfit)

theorem findOptimalInput_eq (minIn maxIn : U256) (f : U256 → Option I256) :
    findOptimalInput minIn maxIn f =
      (searchStart f minIn maxIn).bind fun s => (searchLoop f 40 s).bind (searchEnd f) := by
  simp only [findOptimalInput, searchStart, Option.bind_eq_bind, Option.bind_assoc,
    Option.bind_some]
  rfl

/-- The locals before iteration `n`, and those after the last iteration. -/
inductive Visits (f : U256 → Option I256) (minIn maxIn : U256) : ℕ → Search → Prop
  | start {s : Search} (h : searchStart f minIn maxIn = some s) : Visits f minIn maxIn 0 s
  | next {n : ℕ} {s s' : Search} (h : Visits f minIn maxIn n s) (hn : n < 40)
      (hWide : ¬ s.b - s.a < tolerance) (hStep : searchStep f s = some s') :
      Visits f minIn maxIn (n + 1) s'

/-! ## Objectives that answer more often -/

/-- `f'` answers whenever `f` does, and alike. -/
def Extends (f f' : U256 → Option I256) : Prop := ∀ x v, f x = some v → f' x = some v

section Extends

variable {f f' : U256 → Option I256} (h : Extends f f')
include h

theorem searchStart_extends {minIn maxIn : U256} {s : Search}
    (hs : searchStart f minIn maxIn = some s) : searchStart f' minIn maxIn = some s := by
  obtain ⟨fC, hC, hs⟩ := Option.bind_eq_some_iff.mp hs
  obtain ⟨fD, hD, hs⟩ := Option.bind_eq_some_iff.mp hs
  apply Option.bind_eq_some_iff.mpr
  exact ⟨fC, h _ _ hC, Option.bind_eq_some_iff.mpr ⟨fD, h _ _ hD, hs⟩⟩

theorem searchStep_extends {s s' : Search} (hs : searchStep f s = some s') :
    searchStep f' s = some s' := by
  unfold searchStep at hs ⊢
  by_cases hLeft : s.fD.slt s.fC = true
  · rw [if_pos hLeft] at hs ⊢
    obtain ⟨fC, hC, hs⟩ := Option.bind_eq_some_iff.mp hs
    exact Option.bind_eq_some_iff.mpr ⟨fC, h _ _ hC, hs⟩
  · rw [if_neg hLeft] at hs ⊢
    obtain ⟨fD, hD, hs⟩ := Option.bind_eq_some_iff.mp hs
    exact Option.bind_eq_some_iff.mpr ⟨fD, h _ _ hD, hs⟩

theorem searchLoop_extends (n : ℕ) {s s' : Search} (hs : searchLoop f n s = some s') :
    searchLoop f' n s = some s' := by
  induction n generalizing s with
  | zero => exact hs
  | succ n ih =>
      rw [searchLoop] at hs ⊢
      by_cases hNarrow : s.b - s.a < tolerance
      · rw [if_pos hNarrow] at hs ⊢
        exact hs
      · rw [if_neg hNarrow] at hs ⊢
        obtain ⟨next, hStep, hs⟩ := Option.bind_eq_some_iff.mp hs
        exact Option.bind_eq_some_iff.mpr ⟨next, searchStep_extends h hStep, ih hs⟩

theorem searchEnd_extends {s : Search} {r : U256 × U256} (hr : searchEnd f s = some r) :
    searchEnd f' s = some r := by
  obtain ⟨v, hv, hr⟩ := Option.bind_eq_some_iff.mp hr
  exact Option.bind_eq_some_iff.mpr ⟨v, h _ _ hv, hr⟩

/-- A search that returns returns the same of an objective that answers more often. -/
theorem findOptimalInput_extends {minIn maxIn : U256} {r : U256 × U256}
    (hr : findOptimalInput minIn maxIn f = some r) :
    findOptimalInput minIn maxIn f' = some r := by
  rw [findOptimalInput_eq] at hr ⊢
  obtain ⟨s, hStart, hr⟩ := Option.bind_eq_some_iff.mp hr
  obtain ⟨s', hLoop, hr⟩ := Option.bind_eq_some_iff.mp hr
  rw [searchStart_extends h hStart, Option.bind_some, searchLoop_extends h 40 hLoop,
    Option.bind_some, searchEnd_extends h hr]

end Extends

/-! ## The range -/

/-- The middle of a bracket. -/
theorem middle_toNat {a b : U256} (ha : a.toNat < 2 ^ 255) (hb : b.toNat < 2 ^ 255) :
    ((a + b) / 2).toNat = (a.toNat + b.toNat) / 2 := by
  have hTwo : (2 : U256).toNat = 2 := rfl
  rw [BitVec.toNat_udiv, BitVec.toNat_add_of_lt (by omega), hTwo]

section Range

variable {f : U256 → Option I256} {g : ℕ → ℤ} {minIn maxIn : U256}
  (hf : ComputesOn f g minIn.toNat maxIn.toNat) (hOrder : minIn.toNat ≤ maxIn.toNat)
  (hRoom : (maxIn.toNat - minIn.toNat) * GoldenSection.phiNum < 2 ^ 256)
include hf hOrder hRoom

theorem searchStart_agrees : ∃ s, searchStart f minIn maxIn = some s ∧
    Agrees s (GoldenSection.start g minIn.toNat maxIn.toNat) := by
  have hPart := (phiPart_exact hOrder hRoom).2
  have hCut := GoldenSection.cut_le (maxIn.toNat - minIn.toNat)
  have hWord := maxIn.isLt
  have hc : (maxIn - phiPart minIn maxIn).toNat =
      maxIn.toNat - GoldenSection.cut (maxIn.toNat - minIn.toNat) := by
    rw [BitVec.toNat_sub_of_le (BitVec.le_def.mpr (by omega)), hPart]
  have hd : (minIn + phiPart minIn maxIn).toNat =
      minIn.toNat + GoldenSection.cut (maxIn.toNat - minIn.toNat) := by
    rw [BitVec.toNat_add_of_lt (by omega), hPart]
  obtain ⟨vC, hC, hValueC⟩ := hf (maxIn - phiPart minIn maxIn) (by omega) (by omega)
  obtain ⟨vD, hD, hValueD⟩ := hf (minIn + phiPart minIn maxIn) (by omega) (by omega)
  refine ⟨⟨minIn, maxIn, maxIn - phiPart minIn maxIn, minIn + phiPart minIn maxIn, vC, vD⟩,
    ?_, rfl, rfl, hc, hd, ?_, ?_⟩
  · apply Option.bind_eq_some_iff.mpr
    exact ⟨vC, hC, Option.bind_eq_some_iff.mpr ⟨vD, hD, rfl⟩⟩
  · rw [hValueC, hc]
    rfl
  · rw [hValueD, hd]
    rfl

/-- An iteration of a bracket that the search can be at. -/
theorem searchStep_tracked {k : ℕ} {s : Search} {t : GoldenSection.Bracket} (h : Agrees s t)
    (hTracked : Tracked g minIn.toNat maxIn.toNat k t) (hk : k < 40)
    (hWide : ¬ s.b - s.a < tolerance) :
    ∃ s', searchStep f s = some s' ∧ Agrees s' (GoldenSection.step g t) ∧
      Tracked g minIn.toNat maxIn.toNat (k + 1) (GoldenSection.step g t) := by
  have hab := hTracked.ordered.ab
  have hLow := hTracked.low
  have hHigh := hTracked.high
  rw [h.exit_iff hab] at hWide
  have hLong : t.a + 10 ^ 11 ≤ t.b := by omega
  have hApart := hTracked.probes_apart hk.le hLong
  have hFits : (t.b - t.a) * GoldenSection.phiNum < 2 ^ 256 :=
    (Nat.mul_le_mul_right _ (by omega)).trans_lt hRoom
  obtain ⟨s', hStep, hAgrees⟩ := searchStep_within hf hLow hHigh hTracked.ordered.ac hApart.le
    hTracked.ordered.db hFits h
  exact ⟨s', hStep, hAgrees, hTracked.step (by omega) hLong⟩

/-- **Every bracket that the loop visits.** -/
theorem Visits.tracked {n : ℕ} {s : Search} (h : Visits f minIn maxIn n s) :
    ∃ t, Agrees s t ∧ Tracked g minIn.toNat maxIn.toNat n t := by
  induction h with
  | start hStart =>
      obtain ⟨s', hStart', hAgrees⟩ := searchStart_agrees hf hOrder hRoom
      rw [hStart] at hStart'
      obtain rfl := Option.some.inj hStart'
      exact ⟨_, hAgrees, Tracked.start g hOrder⟩
  | next _ hn hWide hStep ih =>
      obtain ⟨t, hAgrees, hTracked⟩ := ih
      obtain ⟨s', hStep', hNext⟩ := searchStep_tracked hf hOrder hRoom hAgrees hTracked hn hWide
      rw [hStep] at hStep'
      obtain rfl := Option.some.inj hStep'
      exact ⟨_, hNext⟩

/-- The loop ends, after forty iterations or below the tolerance. -/
theorem searchLoop_returns (n : ℕ) {k : ℕ} {s : Search} (hk : k + n = 40)
    (h : Visits f minIn maxIn k s) :
    ∃ m s', searchLoop f n s = some s' ∧ Visits f minIn maxIn m s' ∧
      (m = 40 ∨ s'.b - s'.a < tolerance) := by
  induction n generalizing k s with
  | zero => exact ⟨k, s, rfl, h, Or.inl hk⟩
  | succ n ih =>
      by_cases hNarrow : s.b - s.a < tolerance
      · exact ⟨k, s, by rw [searchLoop, if_pos hNarrow], h, Or.inr hNarrow⟩
      · obtain ⟨t, hAgrees, hTracked⟩ := h.tracked hf hOrder hRoom
        obtain ⟨next, hStep, _⟩ :=
          searchStep_tracked hf hOrder hRoom hAgrees hTracked (by omega) hNarrow
        obtain ⟨m, s', hRest, hEnd⟩ := ih (by omega) (.next h (by omega) hNarrow hStep)
        refine ⟨m, s', ?_, hEnd⟩
        rw [searchLoop, if_neg hNarrow]
        exact Option.bind_eq_some_iff.mpr ⟨next, hStep, hRest⟩

/-- **The search returns** what the middle of its last bracket is worth. -/
theorem findOptimalInput_returns (hMax : maxIn.toNat < 2 ^ 255) :
    ∃ m s v, Visits f minIn maxIn m s ∧ (m = 40 ∨ s.b - s.a < tolerance) ∧
      f ((s.a + s.b) / 2) = some v ∧
      findOptimalInput minIn maxIn f =
        some (if v.sle 0 then (0, 0) else ((s.a + s.b) / 2, v)) := by
  obtain ⟨s₀, hStart, _⟩ := searchStart_agrees hf hOrder hRoom
  obtain ⟨m, s, hLoop, hVisits, hEnd⟩ :=
    searchLoop_returns hf hOrder hRoom 40 (Nat.zero_add 40) (.start hStart)
  obtain ⟨t, hAgrees, hTracked⟩ := hVisits.tracked hf hOrder hRoom
  have ha := hAgrees.a
  have hb := hAgrees.b
  have hLow := hTracked.low
  have hHigh := hTracked.high
  have hab := hTracked.ordered.ab
  have hMiddle := middle_toNat (a := s.a) (b := s.b) (by omega) (by omega)
  obtain ⟨v, hv, _⟩ := hf ((s.a + s.b) / 2) (by omega) (by omega)
  refine ⟨m, s, v, hVisits, hEnd, hv, ?_⟩
  rw [findOptimalInput_eq, hStart, Option.bind_some, hLoop, Option.bind_some, searchEnd,
    Option.bind_eq_bind, hv, Option.bind_some]
  split
  · rfl
  · rfl

end Range

/-! ## Any objective -/

/-- The objective `f`, with a panic outside the range. -/
def within (f : U256 → I256) (minIn maxIn : U256) : U256 → Option I256 := fun x =>
  if minIn ≤ x ∧ x ≤ maxIn then some (f x) else none

/-- The values of `f`, over the integers. -/
def valueOf (f : U256 → I256) (n : ℕ) : ℤ := (f (BitVec.ofNat 256 n)).toInt

theorem valueOf_toNat (f : U256 → I256) (x : U256) : valueOf f x.toNat = (f x).toInt := by
  rw [valueOf, BitVec.ofNat_toNat, BitVec.setWidth_eq]

/-- The locals are in range and in order; no subtraction `b - a` or `b - cut` wraps, nor does
the product with `PHI_NUM`. -/
structure InOrder (minIn maxIn : U256) (s : Search) : Prop where
  min_le : minIn ≤ s.a
  le_max : s.b ≤ maxIn
  ab : s.a ≤ s.b
  ac : s.a ≤ s.c
  ad : s.a ≤ s.d
  cb : s.c ≤ s.b
  db : s.d ≤ s.b
  product : ((s.b - s.a) * phiNum).toNat = (s.b.toNat - s.a.toNat) * phiNum.toNat
  cut : (phiPart s.a s.b).toNat ≤ s.b.toNat - s.a.toNat

section Any

variable (f : U256 → I256) {minIn maxIn : U256}

theorem within_computes :
    ComputesOn (within f minIn maxIn) (valueOf f) minIn.toNat maxIn.toNat := by
  intro x hLow hHigh
  exact ⟨f x, if_pos ⟨BitVec.le_def.mpr hLow, BitVec.le_def.mpr hHigh⟩, (valueOf_toNat f x).symm⟩

theorem total_computes :
    ComputesOn (fun x => some (f x)) (valueOf f) minIn.toNat maxIn.toNat :=
  fun x _ _ => ⟨f x, rfl, (valueOf_toNat f x).symm⟩

theorem within_eq_some {x : U256} {v : I256} (h : within f minIn maxIn x = some v) :
    (minIn ≤ x ∧ x ≤ maxIn) ∧ v = f x := by
  unfold within at h
  split at h
  · exact ⟨‹_›, (Option.some.inj h).symm⟩
  · exact absurd h (by simp)

theorem within_extends : Extends (within f minIn maxIn) fun x => some (f x) := by
  intro x v h
  rw [(within_eq_some f h).2]

theorem inOrder_of_tracked {g : ℕ → ℤ} {k : ℕ} {s : Search} {t : GoldenSection.Bracket}
    (hRoom : (maxIn.toNat - minIn.toNat) * GoldenSection.phiNum < 2 ^ 256) (h : Agrees s t)
    (hTracked : Tracked g minIn.toNat maxIn.toNat k t) : InOrder minIn maxIn s := by
  have hOrdered := hTracked.ordered
  have hLow := hTracked.low
  have hHigh := hTracked.high
  have hab : s.a.toNat ≤ s.b.toNat := by
    rw [h.a, h.b]
    exact hOrdered.ab
  have hSpan : s.b.toNat - s.a.toNat ≤ maxIn.toNat - minIn.toNat := by
    rw [h.a, h.b]
    omega
  have hExact := phiPart_exact hab ((Nat.mul_le_mul_right _ hSpan).trans_lt hRoom)
  refine ⟨?_, ?_, hab, ?_, ?_, ?_, ?_, hExact.1, ?_⟩
  · rw [BitVec.le_def, h.a]
    exact hLow
  · rw [BitVec.le_def, h.b]
    exact hHigh
  · rw [BitVec.le_def, h.a, h.c]
    exact hOrdered.ac
  · rw [BitVec.le_def, h.a, h.d]
    exact hOrdered.ad
  · rw [BitVec.le_def, h.c, h.b]
    exact hOrdered.cb
  · rw [BitVec.le_def, h.d, h.b]
    exact hOrdered.db
  · rw [hExact.2]
    exact GoldenSection.cut_le _

/-- **The search of any objective** stays in range and in order, and returns a positive value
of the objective, or nothing. -/
theorem search_in_range (hOrder : minIn ≤ maxIn) (hMax : maxIn.toNat < 2 ^ 255)
    (hRoom : (maxIn.toNat - minIn.toNat) * phiNum.toNat < 2 ^ 256) :
    (∀ n s, Visits (within f minIn maxIn) minIn maxIn n s → InOrder minIn maxIn s) ∧
      ∃ r, findOptimalInput minIn maxIn (within f minIn maxIn) = some r ∧
        findOptimalInput minIn maxIn (fun x => some (f x)) = some r ∧
        (r = (0, 0) ∨
          ∃ x, r = (x, f x) ∧ minIn ≤ x ∧ x ≤ maxIn ∧ (0 : I256).slt (f x) = true) := by
  have hf := @within_computes f minIn maxIn
  refine ⟨fun n s h => ?_, ?_⟩
  · obtain ⟨t, hAgrees, hTracked⟩ := h.tracked hf hOrder hRoom
    exact inOrder_of_tracked hRoom hAgrees hTracked
  · obtain ⟨_, s, v, _, _, hv, hResult⟩ := findOptimalInput_returns hf hOrder hRoom hMax
    refine ⟨_, hResult, findOptimalInput_extends (within_extends f) hResult, ?_⟩
    obtain ⟨hIn, rfl⟩ := within_eq_some f hv
    by_cases hLoss : (f ((s.a + s.b) / 2)).sle 0 = true
    · exact Or.inl (if_pos hLoss)
    · refine Or.inr ⟨_, if_neg hLoss, hIn.1, hIn.2, ?_⟩
      rw [BitVec.slt_iff_toInt_lt]
      rw [BitVec.sle_iff_toInt_le] at hLoss
      exact not_le.mp hLoss

theorem search_in_range_id :
    (∀ n s, Visits (within id 5 (10 ^ 12)) 5 (10 ^ 12) n s → InOrder 5 (10 ^ 12) s) ∧
      ∃ r, findOptimalInput 5 (10 ^ 12) (within id 5 (10 ^ 12)) = some r ∧
        findOptimalInput 5 (10 ^ 12) (fun x => some (id x)) = some r ∧
        (r = (0, 0) ∨
          ∃ x, r = (x, id x) ∧ 5 ≤ x ∧ x ≤ 10 ^ 12 ∧ (0 : I256).slt (id x) = true) :=
  search_in_range id (by decide) (by decide) (by decide)

/-! ## An objective with one peak -/

variable {m : U256} (hm : minIn ≤ m ∧ m ≤ maxIn)
  (hRises : ∀ x y, minIn ≤ x → x < y → y ≤ m → (f x).slt (f y) = true)
  (hFalls : ∀ x y, m ≤ x → x < y → y ≤ maxIn → (f y).slt (f x) = true)

include hm hRises hFalls in
theorem valueOf_peaked : Peaked (valueOf f) minIn.toNat m.toNat maxIn.toNat := by
  have hLt : ∀ n : ℕ, n ≤ maxIn.toNat → (BitVec.ofNat 256 n).toNat = n := by
    intro n hn
    rw [BitVec.toNat_ofNat, Nat.mod_eq_of_lt (hn.trans_lt maxIn.isLt)]
  have hmHigh : m.toNat ≤ maxIn.toNat := hm.2
  refine ⟨hm.1, hm.2, fun x hx y hy hxy => ?_, fun x hx y hy hxy => ?_⟩
  · have hxEq := hLt x (hx.2.trans hmHigh)
    have hyEq := hLt y (hy.2.trans hmHigh)
    apply BitVec.slt_iff_toInt_lt.mp
    apply hRises
    · rw [BitVec.le_def, hxEq]
      exact hx.1
    · rw [BitVec.lt_def, hxEq, hyEq]
      exact hxy
    · rw [BitVec.le_def, hyEq]
      exact hy.2
  · have hxEq := hLt x hx.2
    have hyEq := hLt y hy.2
    apply BitVec.slt_iff_toInt_lt.mp
    apply hFalls
    · rw [BitVec.le_def, hxEq]
      exact hx.1
    · rw [BitVec.lt_def, hxEq, hyEq]
      exact hxy
    · rw [BitVec.le_def, hyEq]
      exact hy.2

/-- **Every bracket holds the peak.** -/
theorem Visits.peak {F : U256 → Option I256} {g : ℕ → ℤ}
    (hF : ComputesOn F g minIn.toNat maxIn.toNat) (hOrder : minIn.toNat ≤ maxIn.toNat)
    (hRoom : (maxIn.toNat - minIn.toNat) * GoldenSection.phiNum < 2 ^ 256)
    (hPeak : Peaked g minIn.toNat m.toNat maxIn.toNat) {n : ℕ} {s : Search}
    (h : Visits F minIn maxIn n s) : s.a ≤ m ∧ m ≤ s.b := by
  induction h with
  | start hStart =>
      obtain ⟨s', hStart', hAgrees⟩ := searchStart_agrees hF hOrder hRoom
      rw [hStart] at hStart'
      obtain rfl := Option.some.inj hStart'
      rw [BitVec.le_def, BitVec.le_def, hAgrees.a, hAgrees.b]
      exact ⟨hPeak.low, hPeak.high⟩
  | @next k s s' hBefore hk hWide hStep ih =>
      obtain ⟨t, hAgrees, hTracked⟩ := hBefore.tracked hF hOrder hRoom
      obtain ⟨next, hStep', hNext, _⟩ :=
        searchStep_tracked hF hOrder hRoom hAgrees hTracked hk hWide
      rw [hStep] at hStep'
      obtain rfl := Option.some.inj hStep'
      rw [hAgrees.exit_iff hTracked.ordered.ab] at hWide
      have hab := hTracked.ordered.ab
      have hApart := hTracked.probes_apart hk.le (by omega)
      rw [BitVec.le_def, BitVec.le_def, hAgrees.a, hAgrees.b] at ih
      rw [BitVec.le_def, BitVec.le_def, hNext.a, hNext.b]
      exact hPeak.step hTracked.low hTracked.high hTracked.ordered.ac hApart
        hTracked.ordered.db hTracked.fc_eq hTracked.fd_eq ih

include hRises hFalls in
/-- **The search finds the peak.** -/
theorem search_finds_peak (hm : minIn ≤ m ∧ m ≤ maxIn) (hMax : maxIn.toNat < 2 ^ 255)
    (hRoom : (maxIn.toNat - minIn.toNat) * phiNum.toNat < 2 ^ 256) :
    (∀ n s, Visits (fun x => some (f x)) minIn maxIn n s → s.a ≤ m ∧ m ≤ s.b) ∧
      ∃ x profit, findOptimalInput minIn maxIn (fun x => some (f x)) = some (x, profit) ∧
        (0 < profit →
          |(x.toNat : ℤ) - m.toNat| ≤
            max (10 ^ 11) (((maxIn.toNat - minIn.toNat) / 10 ^ 8 : ℕ) : ℤ)) := by
  have hF := @total_computes f minIn maxIn
  have hOrder : minIn.toNat ≤ maxIn.toNat := le_trans hm.1 hm.2
  have hPeak := valueOf_peaked f hm hRises hFalls
  refine ⟨fun _ _ h => Visits.peak hF hOrder hRoom hPeak h, ?_⟩
  obtain ⟨n, s, v, hVisits, hEnd, hv, hResult⟩ := findOptimalInput_returns hF hOrder hRoom hMax
  by_cases hLoss : v.sle 0 = true
  · refine ⟨0, 0, by rw [hResult, if_pos hLoss], fun hPos => ?_⟩
    exact absurd hPos (BitVec.lt_irrefl 0)
  · refine ⟨_, v, by rw [hResult, if_neg hLoss], fun _ => ?_⟩
    obtain ⟨t, hAgrees, hTracked⟩ := hVisits.tracked hF hOrder hRoom
    have hIn := Visits.peak hF hOrder hRoom hPeak hVisits
    have hab := hTracked.ordered.ab
    have hHigh := hTracked.high
    rw [BitVec.le_def, BitVec.le_def, hAgrees.a, hAgrees.b] at hIn
    have ha := hAgrees.a
    have hb := hAgrees.b
    have hNarrow : t.b - t.a < 10 ^ 11 ∨
        200000000 * (t.b - t.a) ≤ maxIn.toNat - minIn.toNat := by
      rcases hEnd with rfl | hExit
      · exact hTracked.narrow
      · exact Or.inl ((hAgrees.exit_iff hab).mp hExit)
    have hNear : |(((s.a + s.b) / 2).toNat : ℤ) - m.toNat| ≤ t.b - t.a := by
      rw [middle_toNat (by omega) (by omega), ha, hb, abs_le]
      omega
    refine hNear.trans ?_
    rcases hNarrow with hTolerance | hShare
    · apply le_max_of_le_left
      omega
    · apply le_max_of_le_right
      omega

end Any

/-- An objective that rises by one to `10^12` and falls by one behind it. -/
def tent (x : U256) : I256 := if x ≤ 1000000000000 then x else 2000000000000 - x

theorem tent_low {x : U256} (hx : x ≤ 1000000000000) : (tent x).toInt = x.toNat := by
  have hPeak : (1000000000000 : U256).toNat = 1000000000000 := rfl
  rw [tent, if_pos hx]
  rw [BitVec.le_def, hPeak] at hx
  exact BitVec.toInt_eq_toNat_of_lt (by omega)

theorem tent_high {x : U256} (hx : 1000000000000 ≤ x) (hx' : x ≤ 2000000000000) :
    (tent x).toInt = 2000000000000 - x.toNat := by
  have hPeak : (1000000000000 : U256).toNat = 1000000000000 := rfl
  have hEnd : (2000000000000 : U256).toNat = 2000000000000 := rfl
  by_cases hAt : x ≤ 1000000000000
  · rw [tent_low hAt, BitVec.le_antisymm hAt hx, hPeak]
    norm_num
  · have hSub := BitVec.toNat_sub_of_le hx'
    rw [BitVec.le_def, hEnd] at hx'
    rw [tent, if_neg hAt, BitVec.toInt_eq_toNat_of_lt (by omega), hSub, hEnd]
    omega

theorem tent_rises (x y : U256) (hxy : x < y) (hy : y ≤ 1000000000000) :
    (tent x).slt (tent y) = true := by
  have hx : x ≤ 1000000000000 := BitVec.le_trans (BitVec.le_of_lt hxy) hy
  rw [BitVec.slt_iff_toInt_lt, tent_low hx, tent_low hy]
  exact_mod_cast hxy

theorem tent_falls (x y : U256) (hx : 1000000000000 ≤ x) (hxy : x < y)
    (hy : y ≤ 2000000000000) : (tent y).slt (tent x) = true := by
  have hBefore := BitVec.le_of_lt hxy
  rw [BitVec.slt_iff_toInt_lt, tent_high hx (BitVec.le_trans hBefore hy),
    tent_high (BitVec.le_trans hx hBefore) hy]
  rw [BitVec.lt_def] at hxy
  omega

theorem search_finds_peak_tent :
    (∀ n s, Visits (fun x => some (tent x)) 0 2000000000000 n s →
        s.a ≤ 1000000000000 ∧ 1000000000000 ≤ s.b) ∧
      ∃ x profit, findOptimalInput 0 2000000000000 (fun x => some (tent x)) = some (x, profit) ∧
        (0 < profit →
          |(x.toNat : ℤ) - (1000000000000 : U256).toNat| ≤
            max (10 ^ 11)
              ((((2000000000000 : U256).toNat - (0 : U256).toNat) / 10 ^ 8 : ℕ) : ℤ)) :=
  search_finds_peak tent (fun x y _ => tent_rises x y) tent_falls (by decide) (by decide)
    (by decide)

end SovereignShadow.Ports.SearchRange
