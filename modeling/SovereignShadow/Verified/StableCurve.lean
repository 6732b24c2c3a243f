import Mathlib

/-!
# The stable curve

The curve `x^3 * y + y^3 * x = k` of a stable pool.  Its level grows with a coordinate at the
rate `growth`, and the price of one coordinate in the other is a quotient of two such rates.
Their difference is a cube, so the price is a monotone function of the ratio of
the coordinates, although its derivative has a double root where they are equal.

## Main results

* `growth_cross` — the price falls in the coordinate that is paid in, by cross-multiplication.
* `newton_overshoots` — a Newton step on rounded values that is scaled up falls below the root.
* `growth_le_growth_iff` — the price is at most one when the coordinate paid in is the larger.
* `settled_bracket` — where a refinement stops, the level is met within a few units of `y`.
-/

namespace SovereignShadow.Verified.StableCurve

section Definitions

variable {R : Type*} [CommSemiring R]

def level (x y : R) : R := x ^ 3 * y + y ^ 3 * x

/-- The derivative of the level in its first coordinate. -/
def growth (x y : R) : R := 3 * x ^ 2 * y + y ^ 3

end Definitions

@[push_cast] theorem cast_growth (x y : ℕ) : ((growth x y : ℕ) : ℤ) = growth (x : ℤ) y := by
  unfold growth
  push_cast
  rfl

section Ring

variable {R : Type*} [CommRing R]

theorem growth_sub_growth (x y : R) : growth y x - growth x y = (x - y) ^ 3 := by
  unfold growth
  ring

/-- Twice the difference of the cross products is a difference of two cubes. -/
theorem two_mul_cross (x x' y : R) :
    2 * (growth x y * growth y x' - growth x' y * growth y x) =
      ((x + y) * (x' - y)) ^ 3 - ((x' + y) * (x - y)) ^ 3 := by
  unfold growth
  ring

variable [LinearOrder R] [IsStrictOrderedRing R]

theorem growth_le_growth_iff {x y : R} : growth x y ≤ growth y x ↔ y ≤ x := by
  have hOdd : Odd 3 := by decide
  rw [← sub_nonneg, growth_sub_growth, hOdd.pow_nonneg_iff, sub_nonneg]

/-- **The price falls** in the first coordinate. -/
theorem growth_cross {x x' y : R} (hy : 0 ≤ y) (h : x ≤ x') :
    growth x' y * growth y x ≤ growth x y * growth y x' := by
  have hOdd : Odd 3 := by decide
  have hFactor : (x' + y) * (x - y) ≤ (x + y) * (x' - y) := by
    have hGap : (x + y) * (x' - y) - (x' + y) * (x - y) = 2 * (y * (x' - x)) := by ring
    have hNonneg : 0 ≤ y * (x' - x) := mul_nonneg hy (sub_nonneg.mpr h)
    rw [← sub_nonneg, hGap]
    exact mul_nonneg zero_le_two hNonneg
  have hCubes := hOdd.pow_le_pow.mpr hFactor
  rw [← sub_nonneg, ← two_mul_cross] at hCubes
  exact sub_nonneg.mp (nonneg_of_mul_nonneg_right hCubes zero_lt_two)

end Ring

/-! ## Whole coordinates -/

theorem growth_pos {x y : ℕ} (hy : 0 < y) : 0 < growth x y :=
  Nat.add_pos_right _ (Nat.pow_pos hy)

theorem nat_growth_le_growth {x y : ℕ} (h : y ≤ x) : growth x y ≤ growth y x := by
  have hInt : growth (x : ℤ) y ≤ growth (y : ℤ) x := growth_le_growth_iff.mpr (Nat.cast_le.mpr h)
  rw [← cast_growth, ← cast_growth] at hInt
  exact Nat.cast_le.mp hInt

theorem nat_growth_cross {x x' : ℕ} (y : ℕ) (h : x ≤ x') :
    growth x' y * growth y x ≤ growth x y * growth y x' := by
  have hInt := growth_cross (Int.natCast_nonneg y) (Nat.cast_le.mpr h : (x : ℤ) ≤ x')
  rw [← cast_growth, ← cast_growth, ← cast_growth, ← cast_growth] at hInt
  exact_mod_cast hInt

theorem level_comm (x y : ℕ) : level x y = level y x := Nat.add_comm _ _

theorem level_mono {x x' : ℕ} (y : ℕ) (h : x ≤ x') : level x y ≤ level x' y := by
  unfold level
  exact Nat.add_le_add (Nat.mul_le_mul_right _ (Nat.pow_le_pow_left h 3))
    (Nat.mul_le_mul_left _ h)

/-! ## Newton steps on rounded values

The curve as a function `c * y + y^3 * n` of one coordinate, in units of `s`, rounded down. -/

section Newton

variable (s c n : ℕ)

/-- The level in units. -/
def unitLevel (y : ℕ) : ℕ := c * y / s + y ^ 3 * n / s

/-- Its derivative in units. -/
def unitGrowth (y : ℕ) : ℕ := c / s + 3 * y ^ 2 * n / s

variable {s c n}

/-- Going down by `d` lowers the level by at least `d` times its growth at `0`, with the square
taken at the upper end. -/
theorem chord_le {y z d : ℕ} (hSplit : z + d = y) :
    c * z + z ^ 3 * n + d * (c + y ^ 2 * n) ≤ c * y + y ^ 3 * n := by
  have hCube : z ^ 3 + d * y ^ 2 ≤ y ^ 3 := by
    calc z ^ 3 + d * y ^ 2 = z ^ 2 * z + y ^ 2 * d := by ring
      _ ≤ y ^ 2 * z + y ^ 2 * d :=
          Nat.add_le_add_right (Nat.mul_le_mul_right z (Nat.pow_le_pow_left (by omega) 2)) _
      _ = y ^ 3 := by rw [← Nat.mul_add, hSplit, ← Nat.pow_succ]
  calc c * z + z ^ 3 * n + d * (c + y ^ 2 * n)
      = c * (z + d) + (z ^ 3 + d * y ^ 2) * n := by ring
    _ ≤ c * y + y ^ 3 * n := by
        rw [hSplit]
        exact Nat.add_le_add_left (Nat.mul_le_mul_right n hCube) _

/-- A derivative counted in units is at most three times the slope of the chord. -/
theorem unitGrowth_le (y : ℕ) : s * unitGrowth s c n y ≤ 3 * (c + y ^ 2 * n) := by
  have hIn := Nat.mul_div_le c s
  have hOut := Nat.mul_div_le (3 * y ^ 2 * n) s
  calc s * unitGrowth s c n y = s * (c / s) + s * (3 * y ^ 2 * n / s) := by
        rw [unitGrowth, Nat.mul_add]
    _ ≤ c + 3 * y ^ 2 * n := Nat.add_le_add hIn hOut
    _ ≤ 3 * c + 3 * y ^ 2 * n := by omega
    _ = 3 * (c + y ^ 2 * n) := by ring

/-- Counting in units drops less than two of them. -/
theorem lt_unitLevel (hs : 0 < s) (y : ℕ) :
    c * y + y ^ 3 * n < s * (unitLevel s c n y + 2) := by
  have hIn := Nat.lt_mul_div_succ (c * y) hs
  have hOut := Nat.lt_mul_div_succ (y ^ 3 * n) hs
  calc c * y + y ^ 3 * n < s * (c * y / s + 1) + s * (y ^ 3 * n / s + 1) :=
        Nat.add_lt_add hIn hOut
    _ = s * (unitLevel s c n y + 2) := by rw [unitLevel]; ring

theorem unitLevel_le (y : ℕ) : s * unitLevel s c n y ≤ c * y + y ^ 3 * n := by
  rw [unitLevel, Nat.mul_add]
  exact Nat.add_le_add (Nat.mul_div_le _ _) (Nat.mul_div_le _ _)

/-- Where the level stays above `k` units, the chord drops by less than what was counted above
them, and two units. -/
theorem chord_lt {y z d k : ℕ} (hs : 0 < s) (hSplit : z + d = y) (hAbove : k ≤ unitLevel s c n y)
    (hStays : s * k ≤ c * z + z ^ 3 * n) :
    d * (c + y ^ 2 * n) < s * (unitLevel s c n y - k + 2) := by
  have hChord := @chord_le c n y z d hSplit
  have hUpper := @lt_unitLevel s c n hs y
  have hUnits : s * (unitLevel s c n y + 2) = s * k + s * (unitLevel s c n y - k + 2) := by
    rw [← Nat.mul_add]
    congr 1
    omega
  omega

/-- **Overshoot.**  A step whose numerator is scaled by the unit once too often goes so far
below that the level falls short, not only as it is counted. -/
theorem newton_overshoots (hs : 18 ≤ s) {y z k : ℕ} (hAbove : k ≤ unitLevel s c n y)
    (hSplit : z + (unitLevel s c n y - k) * s / unitGrowth s c n y = y) (hMoves : z < y) :
    c * z + z ^ 3 * n < s * k := by
  by_contra hNot
  have hStays : s * k ≤ c * z + z ^ 3 * n := not_lt.mp hNot
  have hGrowth := @unitGrowth_le s c n y
  have hDrop := chord_lt (by omega) hSplit hAbove hStays
  generalize hf : unitLevel s c n y - k = f at hSplit hDrop
  generalize unitGrowth s c n y = g at hSplit hGrowth hDrop
  generalize hd : f * s / g = d at hSplit hDrop
  have hdPos : 0 < d := by omega
  have hfPos : 0 < f := by
    apply Nat.pos_of_ne_zero
    intro hZero
    rw [hZero, Nat.zero_mul, Nat.zero_div] at hd
    omega
  have hgPos : 0 < g := by
    apply Nat.pos_of_ne_zero
    intro hZero
    rw [hZero, Nat.div_zero] at hd
    omega
  -- the step is at least half of `f * s / g`
  have hSteep : d * g < 3 * (f + 2) := by
    apply @Nat.lt_of_mul_lt_mul_left s
    calc s * (d * g) = d * (s * g) := by ring
      _ ≤ d * (3 * (c + y ^ 2 * n)) := Nat.mul_le_mul_left d hGrowth
      _ = 3 * (d * (c + y ^ 2 * n)) := by ring
      _ < 3 * (s * (f + 2)) := (Nat.mul_lt_mul_left (by norm_num)).mpr hDrop
      _ = s * (3 * (f + 2)) := by ring
  have hFar : f * s < 2 * (d * g) := by
    have hFloor := Nat.lt_mul_div_succ (f * s) hgPos
    rw [hd] at hFloor
    calc f * s < g * (d + 1) := hFloor
      _ ≤ g * (2 * d) := Nat.mul_le_mul_left g (by omega)
      _ = 2 * (d * g) := by ring
  have hScaled : f * 18 ≤ f * s := Nat.mul_le_mul_left f hs
  omega

end Newton

/-! ## Refinement

Both terms of the level over one division, and a turn that moves `y` by the missing units over
the growth.  It goes at most half way down and at most to twice the value. -/

section Refinement

variable (s c n : ℕ)

/-- The level in units, the terms rounded together. -/
def wholeLevel (y : ℕ) : ℕ := (c * y + y ^ 3 * n) / s

/-- Its derivative in units. -/
def wholeGrowth (y : ℕ) : ℕ := (c + 3 * y ^ 2 * n) / s

/-- The level is off by less than its growth. -/
def Settled (k y : ℕ) : Prop :=
  wholeLevel s c n y < k + max (wholeGrowth s c n y) 1 ∧
    k < wholeLevel s c n y + max (wholeGrowth s c n y) 1

instance (k y : ℕ) : Decidable (Settled s c n k y) := inferInstanceAs (Decidable (_ ∧ _))

/-- One turn; `none` where it moves nothing. -/
def refineTurn (k y : ℕ) : Option ℕ :=
  if k < wholeLevel s c n y then
    let diff := (wholeLevel s c n y - k) / max (wholeGrowth s c n y) 1
    if diff = 0 then none else some (y - min diff (y / 2))
  else
    let diff := (k - wholeLevel s c n y) / max (wholeGrowth s c n y) 1
    if diff = 0 then none else some (y + min diff y)

/-- So many turns, or until one moves nothing. -/
def refined (k : ℕ) : ℕ → ℕ → ℕ
  | 0, y => y
  | turns + 1, y =>
      match refineTurn s c n k y with
      | none => y
      | some z => refined k turns z

variable {s c n}

/-- A turn goes up only from below the level, and never past twice the value. -/
theorem refineTurn_le {k y z : ℕ} (h : refineTurn s c n k y = some z) :
    z ≤ y ∨ wholeLevel s c n y ≤ k ∧ z ≤ 2 * y := by
  unfold refineTurn at h
  by_cases hAbove : k < wholeLevel s c n y
  · simp only [if_pos hAbove, Option.ite_none_left_eq_some, Option.some.injEq] at h
    exact Or.inl (h.2 ▸ Nat.sub_le _ _)
  · simp only [if_neg hAbove, Option.ite_none_left_eq_some, Option.some.injEq] at h
    have hMin : min ((k - wholeLevel s c n y) / max (wholeGrowth s c n y) 1) y ≤ y :=
      min_le_right _ _
    exact Or.inr ⟨not_lt.mp hAbove, by omega⟩

theorem wholeLevel_mono {y z : ℕ} (h : z ≤ y) : wholeLevel s c n z ≤ wholeLevel s c n y :=
  Nat.div_le_div_right (Nat.add_le_add (Nat.mul_le_mul_left c h)
    (Nat.mul_le_mul_right n (Nat.pow_le_pow_left h 3)))

/-- One step up the curve gains the growth. -/
theorem wholeLevel_add_le (y : ℕ) :
    wholeLevel s c n y + wholeGrowth s c n y ≤ wholeLevel s c n (y + 1) := by
  unfold wholeLevel wholeGrowth
  apply Nat.div_add_div_le_add_div.trans
  apply Nat.div_le_div_right
  calc c * y + y ^ 3 * n + (c + 3 * y ^ 2 * n)
      ≤ c * y + y ^ 3 * n + (c + 3 * y ^ 2 * n) + (3 * y + 1) * n := Nat.le_add_right _ _
    _ = c * (y + 1) + (y + 1) ^ 3 * n := by ring

/-- Three steps down the curve lose it. -/
theorem wholeLevel_lt (hs : 0 < s) {k y z : ℕ} (hStep : z + 3 ≤ y)
    (hNear : wholeLevel s c n y < k + wholeGrowth s c n y) : wholeLevel s c n z < k := by
  have hChord := @chord_le c n y z (y - z) (by omega)
  have hSteep : c + 3 * y ^ 2 * n ≤ (y - z) * (c + y ^ 2 * n) := by
    calc c + 3 * y ^ 2 * n ≤ 3 * c + 3 * y ^ 2 * n := by omega
      _ = 3 * (c + y ^ 2 * n) := by ring
      _ ≤ (y - z) * (c + y ^ 2 * n) := Nat.mul_le_mul_right _ (by omega)
  have hFloor := Nat.lt_mul_div_succ (c * y + y ^ 3 * n) hs
  have hGrowth := Nat.mul_div_le (c + 3 * y ^ 2 * n) s
  have hUnits : s * (wholeLevel s c n y + 1) ≤ s * k + s * wholeGrowth s c n y := by
    rw [← Nat.mul_add]
    exact Nat.mul_le_mul_left s hNear
  unfold wholeLevel wholeGrowth at hUnits
  rw [wholeLevel, Nat.div_lt_iff_lt_mul hs, Nat.mul_comm k s]
  omega

/-- **Where a refinement stops**, the level is met between three units below `y` and one
above. -/
theorem settled_bracket (hs : 0 < s) {k y : ℕ} (h : Settled s c n k y) :
    wholeLevel s c n (y - 3) ≤ k ∧ k ≤ wholeLevel s c n (y + 1) := by
  obtain ⟨hAbove, hBelow⟩ := h
  constructor
  · by_cases hOne : wholeLevel s c n y ≤ k
    · exact (wholeLevel_mono (Nat.sub_le y 3)).trans hOne
    · by_cases hSmall : y < 3
      · rw [show y - 3 = 0 by omega, wholeLevel]
        simp
      · have hStep : y - 3 + 3 ≤ y := by omega
        have hNear : wholeLevel s c n y < k + wholeGrowth s c n y := by omega
        exact (wholeLevel_lt hs hStep hNear).le
  · have hUp := @wholeLevel_add_le s c n y
    omega

/-- A coordinate whose level is little above that of `(x, y)` is little above `y`. -/
theorem coordinate_lt {x x' y y' d : ℕ} (hx : 0 < x) (hLe : x ≤ x')
    (h : level x' y' < level x y + d ^ 3) : y' < y + d := by
  by_contra hNot
  have hFar : y + d ≤ y' := not_lt.mp hNot
  have hCube : y ^ 3 + d ^ 3 ≤ (y + d) ^ 3 := by
    calc y ^ 3 + d ^ 3 ≤ y ^ 3 + d ^ 3 + 3 * y * d * (y + d) := Nat.le_add_right _ _
      _ = (y + d) ^ 3 := by ring
  apply absurd h
  rw [not_lt]
  calc level x y + d ^ 3 ≤ x ^ 3 * y + (y ^ 3 + d ^ 3) * x := by
        have hRoom : d ^ 3 ≤ d ^ 3 * x := Nat.le_mul_of_pos_right _ hx
        unfold level
        rw [Nat.add_mul]
        omega
    _ ≤ x' ^ 3 * y' + y' ^ 3 * x' :=
        Nat.add_le_add (Nat.mul_le_mul (Nat.pow_le_pow_left hLe 3) (by omega))
          (Nat.mul_le_mul (hCube.trans (Nat.pow_le_pow_left hFar 3)) hLe)
    _ = level x' y' := rfl

end Refinement

end SovereignShadow.Verified.StableCurve
