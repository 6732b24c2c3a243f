import SovereignShadow.Verified.GoldenSection

/-!
# Golden-section brackets of any width

The search of `GoldenSection`, started on a bracket of any width `w`.  The truncated ratio
costs a share of the width at every cut and the rounding costs a unit, so after `k` steps a
reused probe has drifted by at most `(k + 1) * (w + 10 ^ 15)` parts in `10 ^ 15`.  Forty
steps keep more than `w / 10 ^ 9` of the width, so that drift never brings the probes out
of order, whichever side the objective drops.

Of a function that rises to a peak and falls behind it, the search never drops the peak.

## Main results

* `proportioned_step` — the proportions of a bracket, through one step.
* `Peaked.step` — one step keeps the peak.
-/

namespace SovereignShadow.Verified.WideBracket

open SovereignShadow.Verified.GoldenSection

/-- Bracket and probes are in order. -/
structure Ordered (s : Bracket) : Prop where
  ac : s.a ≤ s.c
  ad : s.a ≤ s.d
  cb : s.c ≤ s.b
  db : s.d ≤ s.b

theorem Ordered.ab {s : Bracket} (h : Ordered s) : s.a ≤ s.b := h.ac.trans h.cb

/-- The drift allowed after `k` steps from a bracket of width `w`, in parts of `phiDen`. -/
def slack (w k : ℕ) : ℤ := (k + 1) * (w + 1000000000000000)

theorem slack_succ (w k : ℕ) : slack w (k + 1) = slack w k + (w + 1000000000000000) := by
  unfold slack
  push_cast
  ring

/-- A bracket after `k` steps from one of width `w`: one probe is fresh, the other has
drifted, and the width shrank by about the golden ratio at every step. -/
structure Proportioned (w k : ℕ) (s : Bracket) : Prop where
  ac : s.a ≤ s.c
  cd : s.c ≤ s.d
  db : s.d ≤ s.b
  kept : 6 ^ k * w ≤ 10 ^ k * (s.b - s.a)
  shrunk : 10000 ^ k * (s.b - s.a) ≤ 6182 ^ k * w
  drifts :
    |drift (s.c - s.a) (s.b - s.a)| ≤ phiDen ∧
        |drift (s.b - s.d) (s.b - s.a)| ≤ slack w k ∨
      |drift (s.b - s.d) (s.b - s.a)| ≤ phiDen ∧
        |drift (s.c - s.a) (s.b - s.a)| ≤ slack w k

namespace Proportioned

variable {w k : ℕ} {s : Bracket}

theorem ordered (h : Proportioned w k s) : Ordered s :=
  ⟨h.ac, h.ac.trans h.cd, h.cd.trans h.db, h.db⟩

/-- Forty steps keep more than `w / 10 ^ 9`. -/
theorem width_ge (h : Proportioned w k s) (hk : k ≤ 40) : w ≤ 10 ^ 9 * (s.b - s.a) := by
  have hAll : ∀ n ≤ 40, 10 ^ n ≤ 10 ^ 9 * 6 ^ n := by decide
  have hPow : 10 ^ k ≤ 10 ^ 9 * 6 ^ k := hAll k hk
  have hScaled : 6 ^ k * w ≤ 6 ^ k * (10 ^ 9 * (s.b - s.a)) := by
    calc 6 ^ k * w ≤ 10 ^ k * (s.b - s.a) := h.kept
      _ ≤ 10 ^ 9 * 6 ^ k * (s.b - s.a) := Nat.mul_le_mul_right _ hPow
      _ = 6 ^ k * (10 ^ 9 * (s.b - s.a)) := by ring
  exact Nat.le_of_mul_le_mul_left hScaled (by positivity)

theorem width_le (h : Proportioned w k s) : s.b - s.a ≤ w := by
  have hScaled : 10000 ^ k * (s.b - s.a) ≤ 10000 ^ k * w :=
    h.shrunk.trans (Nat.mul_le_mul_right _ (Nat.pow_le_pow_left (by norm_num) k))
  exact Nat.le_of_mul_le_mul_left hScaled (by positivity)

/-- The parts of a bracket that is not too narrow, in ten-thousandths. -/
theorem parts (h : Proportioned w k s) (hk : k ≤ 40) (hWide : s.a + 10 ^ 11 ≤ s.b) :
    3818 * (s.b - s.a : ℤ) ≤ 10000 * (s.c - s.a) ∧
      10000 * (s.c - s.a : ℤ) ≤ 3822 * (s.b - s.a) ∧
      3818 * (s.b - s.a : ℤ) ≤ 10000 * (s.b - s.d) ∧
      10000 * (s.b - s.d : ℤ) ≤ 3822 * (s.b - s.a) := by
  have hWidth := h.width_ge hk
  have hSlack : slack w k ≤ 41 * (w + 1000000000000000) := by
    unfold slack
    exact mul_le_mul_of_nonneg_right (by omega) (by positivity)
  have hDrifts := h.drifts
  unfold drift phiDen at hDrifts
  simp only [abs_le] at hDrifts
  omega

end Proportioned

/-! ## One step -/

/-- The piece between the probes, in the bracket that loses the side `y`. -/
theorem drift_middle {x y width w e : ℤ} (hPos : 0 ≤ width) (hWidth : width ≤ w)
    (h : |drift x width| ≤ phiDen ∧ |drift y width| ≤ e ∨
      |drift y width| ≤ phiDen ∧ |drift x width| ≤ e) :
    |drift (width - y - x) (width - y)| ≤ e + (w + 1000000000000000) := by
  unfold drift phiDen at h
  unfold drift
  simp only [abs_le] at h ⊢
  omega

/-- A fresh probe at the cut of a bracket of width `u`. -/
theorem drift_fresh (u : ℕ) : |drift (u - cut u : ℤ) u| ≤ phiDen := by
  have hCut := drift_cut u
  exact abs_le.mpr ⟨by unfold phiDen at hCut ⊢; omega, hCut.2⟩

/-- Either side of a bracket is cut off by a step. -/
theorem Proportioned.width_step {w k : ℕ} {s : Bracket} (h : Proportioned w k s) (width : ℕ)
    (hKept : 6 * (s.b - s.a) ≤ 10 * width)
    (hShrunk : 10000 * width ≤ 6182 * (s.b - s.a)) :
    6 ^ (k + 1) * w ≤ 10 ^ (k + 1) * width ∧
      10000 ^ (k + 1) * width ≤ 6182 ^ (k + 1) * w := by
  constructor
  · calc 6 ^ (k + 1) * w = 6 * (6 ^ k * w) := by ring
      _ ≤ 6 * (10 ^ k * (s.b - s.a)) := Nat.mul_le_mul_left _ h.kept
      _ = 10 ^ k * (6 * (s.b - s.a)) := by ring
      _ ≤ 10 ^ k * (10 * width) := Nat.mul_le_mul_left _ hKept
      _ = 10 ^ (k + 1) * width := by ring
  · calc 10000 ^ (k + 1) * width = 10000 ^ k * (10000 * width) := by ring
      _ ≤ 10000 ^ k * (6182 * (s.b - s.a)) := Nat.mul_le_mul_left _ hShrunk
      _ = 6182 * (10000 ^ k * (s.b - s.a)) := by ring
      _ ≤ 6182 * (6182 ^ k * w) := Nat.mul_le_mul_left _ h.shrunk
      _ = 6182 ^ (k + 1) * w := by ring

section Step

variable {w k : ℕ} {s : Bracket} (h : Proportioned w k s) (hk : k ≤ 39)
  (hWide : s.a + 10 ^ 11 ≤ s.b)
include h hk hWide

/-- Going left: the old left probe is the new right one. -/
theorem Proportioned.left {c : ℕ} (hc : c = s.d - cut (s.d - s.a)) {fc fd : ℤ} :
    Proportioned w (k + 1) ⟨s.a, s.d, c, s.c, fc, fd⟩ := by
  have hParts := h.parts (by omega) hWide
  have hac := h.ac
  have hcd := h.cd
  have hdb := h.db
  have hCut := drift_fresh (s.d - s.a)
  have hCutLe := cut_le (s.d - s.a)
  have hWidth : (s.b - s.a : ℤ) ≤ w := by
    have := h.width_le
    omega
  have hFresh : |drift (c - s.a) (s.d - s.a)| ≤ phiDen := by
    have hEq : (c - s.a : ℤ) = (s.d - s.a : ℕ) - cut (s.d - s.a) := by omega
    have hSpan : (s.d - s.a : ℤ) = (s.d - s.a : ℕ) := by omega
    rw [hEq, hSpan]
    exact hCut
  have hReused : |drift (s.d - s.c) (s.d - s.a)| ≤ slack w (k + 1) := by
    have hEq : (s.d - s.c : ℤ) = (s.b - s.a) - (s.b - s.d) - (s.c - s.a) := by ring
    have hSpan : (s.d - s.a : ℤ) = (s.b - s.a) - (s.b - s.d) := by ring
    rw [hEq, hSpan, slack_succ]
    exact drift_middle (by omega) hWidth h.drifts
  have hNext := h.width_step (s.d - s.a) (by omega) (by omega)
  refine ⟨?_, ?_, hcd, hNext.1, hNext.2, Or.inl ⟨hFresh, hReused⟩⟩
  · dsimp only
    omega
  · dsimp only
    unfold drift phiDen at hFresh
    simp only [abs_le] at hFresh
    omega

/-- Going right: the old right probe is the new left one. -/
theorem Proportioned.right {d : ℕ} (hd : d = s.c + cut (s.b - s.c)) {fc fd : ℤ} :
    Proportioned w (k + 1) ⟨s.c, s.b, s.d, d, fc, fd⟩ := by
  have hParts := h.parts (by omega) hWide
  have hac := h.ac
  have hcd := h.cd
  have hdb := h.db
  have hCut := drift_fresh (s.b - s.c)
  have hCutLe := cut_le (s.b - s.c)
  have hWidth : (s.b - s.a : ℤ) ≤ w := by
    have := h.width_le
    omega
  have hFresh : |drift (s.b - d) (s.b - s.c)| ≤ phiDen := by
    have hEq : (s.b - d : ℤ) = (s.b - s.c : ℕ) - cut (s.b - s.c) := by omega
    have hSpan : (s.b - s.c : ℤ) = (s.b - s.c : ℕ) := by omega
    rw [hEq, hSpan]
    exact hCut
  have hReused : |drift (s.d - s.c) (s.b - s.c)| ≤ slack w (k + 1) := by
    have hEq : (s.d - s.c : ℤ) = (s.b - s.a) - (s.c - s.a) - (s.b - s.d) := by ring
    have hSpan : (s.b - s.c : ℤ) = (s.b - s.a) - (s.c - s.a) := by ring
    rw [hEq, hSpan, slack_succ]
    exact drift_middle (by omega) hWidth h.drifts.symm
  have hNext := h.width_step (s.b - s.c) (by omega) (by omega)
  refine ⟨hcd, ?_, ?_, hNext.1, hNext.2, Or.inr ⟨hFresh, hReused⟩⟩
  · dsimp only
    unfold drift phiDen at hFresh
    simp only [abs_le] at hFresh
    omega
  · dsimp only
    omega

/-- **A step keeps the proportions**, whichever side it drops. -/
theorem proportioned_step (g : ℕ → ℤ) : Proportioned w (k + 1) (step g s) := by
  unfold step
  split
  · exact h.left hk hWide rfl
  · exact h.right hk hWide rfl

end Step

theorem start_ordered (g : ℕ → ℤ) {lo hi : ℕ} (h : lo ≤ hi) : Ordered (start g lo hi) := by
  have hCut := cut_le (hi - lo)
  constructor
  all_goals
    dsimp only [start]
    omega

theorem start_proportioned (g : ℕ → ℤ) {lo hi : ℕ} (hWide : lo + 10 ^ 11 ≤ hi) :
    Proportioned (hi - lo) 0 (start g lo hi) := by
  have hCut := drift_fresh (hi - lo)
  have hCutLe := cut_le (hi - lo)
  have hSpan : (hi - lo : ℤ) = (hi - lo : ℕ) := by omega
  have hFirst : |drift ((hi - cut (hi - lo) : ℕ) - lo) (hi - lo)| ≤ phiDen := by
    have hEq : ((hi - cut (hi - lo) : ℕ) - lo : ℤ) = (hi - lo : ℕ) - cut (hi - lo) := by omega
    rw [hEq, hSpan]
    exact hCut
  have hSecond : |drift (hi - (lo + cut (hi - lo) : ℕ)) (hi - lo)| ≤ phiDen := by
    have hEq : (hi - (lo + cut (hi - lo) : ℕ) : ℤ) = (hi - lo : ℕ) - cut (hi - lo) := by omega
    rw [hEq, hSpan]
    exact hCut
  have hSlack : (phiDen : ℤ) ≤ slack (hi - lo) 0 := by
    unfold phiDen slack
    push_cast
    omega
  refine ⟨?_, ?_, ?_, ?_, ?_, Or.inl ⟨hFirst, hSecond.trans hSlack⟩⟩
  · dsimp only [start]
    omega
  · dsimp only [start]
    unfold drift phiDen at hFirst
    simp only [abs_le] at hFirst
    omega
  · dsimp only [start]
    omega
  · exact le_rfl
  · exact le_rfl

/-! ## A peak -/

/-- `g` rises strictly from `lo` to `m` and falls strictly from there to `hi`. -/
structure Peaked (g : ℕ → ℤ) (lo m hi : ℕ) : Prop where
  low : lo ≤ m
  high : m ≤ hi
  rises : StrictMonoOn g (Set.Icc lo m)
  falls : StrictAntiOn g (Set.Icc m hi)

/-- **A step keeps the peak**: the side it drops is the one where `g` only rises to the
probes, or only falls from them. -/
theorem Peaked.step {g : ℕ → ℤ} {lo m hi : ℕ} {s : Bracket} (h : Peaked g lo m hi)
    (hLow : lo ≤ s.a) (hHigh : s.b ≤ hi) (hac : s.a ≤ s.c) (hcd : s.c < s.d) (hdb : s.d ≤ s.b)
    (hfc : s.fc = g s.c) (hfd : s.fd = g s.d) (hm : s.a ≤ m ∧ m ≤ s.b) :
    (step g s).a ≤ m ∧ m ≤ (step g s).b := by
  unfold GoldenSection.step
  split
  · rename_i hLeft
    refine ⟨hm.1, ?_⟩
    by_contra hNot
    have hBeyond : s.d < m := not_le.mp hNot
    have hRise : g s.c < g s.d :=
      h.rises ⟨by omega, by omega⟩ ⟨by omega, by omega⟩ hcd
    omega
  · rename_i hRight
    refine ⟨?_, hm.2⟩
    by_contra hNot
    have hBefore : m < s.c := not_le.mp hNot
    have hFall : g s.d < g s.c :=
      h.falls ⟨by omega, by omega⟩ ⟨by omega, by omega⟩ hcd
    omega

/-! ## Searches -/

/-- A bracket that a search from `lo` to `hi` can be at after `k` steps. -/
structure Tracked (g : ℕ → ℤ) (lo hi k : ℕ) (s : Bracket) : Prop where
  low : lo ≤ s.a
  high : s.b ≤ hi
  ordered : Ordered s
  proportioned : s.a + 10 ^ 11 ≤ s.b → Proportioned (hi - lo) k s
  fc_eq : s.fc = g s.c
  fd_eq : s.fd = g s.d

namespace Tracked

variable {g : ℕ → ℤ} {lo hi k : ℕ} {s : Bracket}

theorem start (g : ℕ → ℤ) {lo hi : ℕ} (h : lo ≤ hi) : Tracked g lo hi 0 (start g lo hi) :=
  ⟨le_rfl, le_rfl, start_ordered g h, fun hWide => start_proportioned g hWide, rfl, rfl⟩

theorem step (h : Tracked g lo hi k s) (hk : k ≤ 39) (hWide : s.a + 10 ^ 11 ≤ s.b) :
    Tracked g lo hi (k + 1) (step g s) := by
  have hNext := proportioned_step (h.proportioned hWide) hk hWide g
  have hOrdered := h.ordered
  have hLow := h.low
  have hHigh := h.high
  have hac := hOrdered.ac
  have hdb := hOrdered.db
  refine ⟨?_, ?_, hNext.ordered, fun _ => hNext, ?_, ?_⟩
  all_goals unfold GoldenSection.step; split
  · exact hLow
  · exact hLow.trans hac
  · exact hdb.trans hHigh
  · exact hHigh
  · rfl
  · exact h.fd_eq
  · exact h.fc_eq
  · rfl

/-- A wide enough bracket has its probes apart. -/
theorem probes_apart (h : Tracked g lo hi k s) (hk : k ≤ 40) (hWide : s.a + 10 ^ 11 ≤ s.b) :
    s.c < s.d := by
  have hParts := (h.proportioned hWide).parts hk hWide
  omega

/-- After forty steps the bracket is below the tolerance, or a hundred-millionth of what it
was. -/
theorem narrow (h : Tracked g lo hi 40 s) : s.b - s.a < 10 ^ 11 ∨
    200000000 * (s.b - s.a) ≤ hi - lo := by
  by_cases hWide : s.a + 10 ^ 11 ≤ s.b
  · right
    have hShrunk := (h.proportioned hWide).shrunk
    have hScaled : 6182 ^ 40 * (200000000 * (s.b - s.a)) ≤ 6182 ^ 40 * (hi - lo) := by
      calc 6182 ^ 40 * (200000000 * (s.b - s.a))
          = (6182 ^ 40 * 200000000) * (s.b - s.a) := by ring
        _ ≤ 10000 ^ 40 * (s.b - s.a) := Nat.mul_le_mul_right _ (by norm_num)
        _ ≤ 6182 ^ 40 * (hi - lo) := hShrunk
    exact Nat.le_of_mul_le_mul_left hScaled (by norm_num)
  · left
    have hOrder := h.ordered.ab
    omega

end Tracked

end SovereignShadow.Verified.WideBracket
