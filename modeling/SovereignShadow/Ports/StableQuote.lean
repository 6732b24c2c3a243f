import SovereignShadow.Ports.ShadowBot
import SovereignShadow.Ports.StablePrice
import SovereignShadow.Verified.CallTrace

/-!
# The stable quote on chain

`_getAerodromeStableAmountOut` takes two Newton steps on `x^3 * y + y^3 * x = k` in wrapping
words.  The level and its derivative are both counted in units of `10^18`, and the quotient of
the two is scaled by `10^18` once more, so a first step that moves at all falls far below the
root, out of the pool or at least below the level.  The second step takes the difference for an
enormous number and only goes further.  So a quote is payable when the first step rounds to
nothing, and the quote is zero.

## Main results

* `le_quoteOut` — what the first step takes is never given back.
* `aerodromeStep_eq_self` — a turn whose products fit, and after which they fit, moves nothing.
* `stableQuote_payable_iff` — when the pool can pay the quote.
-/

namespace SovereignShadow.Ports.StableQuote

open SovereignShadow.Verified.StableCurve
open SovereignShadow.Verified.Callback
open SovereignShadow.Ports.Models
open SovereignShadow.Ports.Chain
open SovereignShadow.Ports.ShadowBot
open SovereignShadow.Ports.StablePrice (MulFits)

/-! ## The products of a quote -/

/-- The difference that a turn divides, `f_y`. -/
def turnLevel (xNew x3 k y : U256) : U256 := x3 * y / wad + y * y * y * xNew / wad - k

/-- `f_prime`. -/
def turnGrowth (xNew x3 y : U256) : U256 := x3 / wad + 3 * (y * y) * xNew / wad

/-- What a turn subtracts. -/
def turnMove (xNew x3 k y : U256) : U256 := turnLevel xNew x3 k y * wad / turnGrowth xNew x3 y

theorem aerodromeStep_eq (xNew x3 k y : U256) :
    aerodromeStep xNew x3 k y = y - turnMove xNew x3 k y := rfl

/-- The products of one turn of the loop. -/
structure TurnFits (xNew x3 k y : U256) : Prop where
  square : MulFits y y
  inTerm : MulFits x3 y
  cube : MulFits (y * y) y
  outTerm : MulFits (y * y * y) xNew
  triple : MulFits 3 (y * y)
  growth : MulFits (3 * (y * y)) xNew
  scaled : MulFits (turnLevel xNew x3 k y) wad

/-- `k`. -/
def quoteLevel (x y : U256) : U256 := (x * x * x * y + y * y * y * x) / wad

/-- `x_new`. -/
def quoteInput (x amtIn : U256) : U256 := x + amtIn * 9998 / 10000

/-- `x3`. -/
def quoteCube (x amtIn : U256) : U256 :=
  quoteInput x amtIn * quoteInput x amtIn * quoteInput x amtIn

/-- The products of a quote, up to its first turn: those of the reserves and the input. -/
structure ProductsFit (x y amtIn : U256) : Prop where
  squareIn : MulFits x x
  cubeIn : MulFits (x * x) x
  levelIn : MulFits (x * x * x) y
  squareOut : MulFits y y
  cubeOut : MulFits (y * y) y
  levelOut : MulFits (y * y * y) x
  fee : MulFits amtIn 9998
  squareNew : MulFits (quoteInput x amtIn) (quoteInput x amtIn)
  cubeNew : MulFits (quoteInput x amtIn * quoteInput x amtIn) (quoteInput x amtIn)
  first : TurnFits (quoteInput x amtIn) (quoteCube x amtIn) (quoteLevel x y) y

/-- The products of its second turn, on what the first has left. -/
def SecondTurnFits (x y amtIn : U256) : Prop :=
  TurnFits (quoteInput x amtIn) (quoteCube x amtIn) (quoteLevel x y)
    (aerodromeStep (quoteInput x amtIn) (quoteCube x amtIn) (quoteLevel x y) y)

/-! ## One turn -/

theorem wad_toNat : wad.toNat = 10 ^ 18 := by decide

theorem three_toNat : (3 : U256).toNat = 3 := by decide

/-- What is counted in units is far below the largest word. -/
theorem units_lt (a : U256) : a.toNat / 10 ^ 18 < 2 ^ 197 := by
  have hWord := a.isLt
  omega

section Turn

variable {xNew x3 k y : U256} (h : TurnFits xNew x3 k y)
include h

theorem TurnFits.square_toNat : (y * y).toNat = y.toNat ^ 2 := by
  rw [h.square.toNat, Nat.pow_two]

theorem TurnFits.cube_toNat : (y * y * y).toNat = y.toNat ^ 3 := by
  rw [h.cube.toNat, h.square_toNat, Nat.pow_succ y.toNat 2]

/-- The unsubtracted level. -/
theorem TurnFits.unitLevel_toNat : (x3 * y / wad + y * y * y * xNew / wad).toNat =
    unitLevel (10 ^ 18) x3.toNat xNew.toNat y.toNat := by
  have hIn := units_lt (x3 * y)
  have hOut := units_lt (y * y * y * xNew)
  rw [h.inTerm.toNat] at hIn
  rw [h.outTerm.toNat, h.cube_toNat] at hOut
  have hInTerm : (x3 * y / wad).toNat = x3.toNat * y.toNat / 10 ^ 18 := by
    rw [BitVec.toNat_udiv, h.inTerm.toNat, wad_toNat]
  have hOutTerm : (y * y * y * xNew / wad).toNat = y.toNat ^ 3 * xNew.toNat / 10 ^ 18 := by
    rw [BitVec.toNat_udiv, h.outTerm.toNat, h.cube_toNat, wad_toNat]
  rw [BitVec.toNat_add_of_lt, hInTerm, hOutTerm, unitLevel]
  rw [hInTerm, hOutTerm]
  omega

theorem TurnFits.growth_toNat : (turnGrowth xNew x3 y).toNat =
    unitGrowth (10 ^ 18) x3.toNat xNew.toNat y.toNat := by
  have hIn := units_lt x3
  have hOut := units_lt (3 * (y * y) * xNew)
  have hTriple : (3 * (y * y)).toNat = 3 * y.toNat ^ 2 := by
    rw [h.triple.toNat, three_toNat, h.square_toNat]
  rw [h.growth.toNat, hTriple] at hOut
  have hInTerm : (x3 / wad).toNat = x3.toNat / 10 ^ 18 := by
    rw [BitVec.toNat_udiv, wad_toNat]
  have hOutTerm : (3 * (y * y) * xNew / wad).toNat =
      3 * y.toNat ^ 2 * xNew.toNat / 10 ^ 18 := by
    rw [BitVec.toNat_udiv, h.growth.toNat, hTriple, wad_toNat]
  rw [turnGrowth, BitVec.toNat_add_of_lt, hInTerm, hOutTerm, unitGrowth]
  rw [hInTerm, hOutTerm]
  omega

variable (hk : k.toNat < 2 ^ 197)
include hk

/-- **No shortfall.**  A level below `k` would wrap, and then its product with the unit
overflows. -/
theorem TurnFits.level_le : k.toNat ≤ unitLevel (10 ^ 18) x3.toNat xNew.toNat y.toNat := by
  by_contra hNot
  have hShort : unitLevel (10 ^ 18) x3.toNat xNew.toNat y.toNat < k.toNat := not_le.mp hNot
  have hLevel := h.unitLevel_toNat
  have hScaled := h.scaled
  rw [MulFits, turnLevel, BitVec.toNat_sub, hLevel, wad_toNat] at hScaled
  rw [Nat.mod_eq_of_lt (by omega)] at hScaled
  omega

theorem TurnFits.turnLevel_toNat : (turnLevel xNew x3 k y).toNat =
    unitLevel (10 ^ 18) x3.toNat xNew.toNat y.toNat - k.toNat := by
  have hLevel := h.level_le hk
  rw [turnLevel, BitVec.toNat_sub_of_le, h.unitLevel_toNat]
  rw [BitVec.le_def, h.unitLevel_toNat]
  exact hLevel

theorem TurnFits.move_toNat :
    (turnMove xNew x3 k y).toNat =
      (unitLevel (10 ^ 18) x3.toNat xNew.toNat y.toNat - k.toNat) * 10 ^ 18 /
        unitGrowth (10 ^ 18) x3.toNat xNew.toNat y.toNat := by
  rw [turnMove, BitVec.toNat_udiv, h.scaled.toNat, h.turnLevel_toNat hk, wad_toNat, h.growth_toNat]

omit hk in
/-- A factor of a square that fits has half the bits. -/
theorem TurnFits.lt_half : y.toNat < 2 ^ 128 := by
  by_contra hNot
  have hLarge : 2 ^ 128 ≤ y.toNat := not_lt.mp hNot
  have hSquare : 2 ^ 128 * 2 ^ 128 ≤ y.toNat * y.toNat := Nat.mul_le_mul hLarge hLarge
  have hFits := h.square
  unfold MulFits at hFits
  omega

omit hk in
/-- With a derivative of one unit the whole level is small. -/
theorem TurnFits.unitLevel_le
    (hOne : unitGrowth (10 ^ 18) x3.toNat xNew.toNat y.toNat = 1) :
    unitLevel (10 ^ 18) x3.toNat xNew.toNat y.toNat * 10 ^ 18 ≤ 3 * 10 ^ 18 * 2 ^ 128 := by
  have hHalf := h.lt_half
  unfold unitGrowth at hOne
  have hIn : x3.toNat ≤ 2 * 10 ^ 18 := by omega
  have hOut : y.toNat ^ 2 * xNew.toNat ≤ 10 ^ 18 := by
    rw [Nat.mul_assoc 3] at hOne
    omega
  have hTerms : x3.toNat * y.toNat + y.toNat ^ 3 * xNew.toNat ≤ 3 * 10 ^ 18 * 2 ^ 128 := by
    calc x3.toNat * y.toNat + y.toNat ^ 3 * xNew.toNat
        = (x3.toNat + y.toNat ^ 2 * xNew.toNat) * y.toNat := by ring
      _ ≤ 3 * 10 ^ 18 * 2 ^ 128 := Nat.mul_le_mul (by omega) hHalf.le
  unfold unitLevel
  calc (x3.toNat * y.toNat / 10 ^ 18 + y.toNat ^ 3 * xNew.toNat / 10 ^ 18) * 10 ^ 18
      = x3.toNat * y.toNat / 10 ^ 18 * 10 ^ 18 +
          y.toNat ^ 3 * xNew.toNat / 10 ^ 18 * 10 ^ 18 := Nat.add_mul _ _ _
    _ ≤ x3.toNat * y.toNat + y.toNat ^ 3 * xNew.toNat :=
        Nat.add_le_add (Nat.div_mul_le_self _ _) (Nat.div_mul_le_self _ _)
    _ ≤ 3 * 10 ^ 18 * 2 ^ 128 := hTerms

/-- No turn subtracts more than half of the words. -/
theorem TurnFits.move_le : (turnMove xNew x3 k y).toNat ≤ 2 ^ 255 := by
  have hScaled := h.scaled
  rw [MulFits, h.turnLevel_toNat hk, wad_toNat] at hScaled
  rw [h.move_toNat hk]
  by_cases hOne : unitGrowth (10 ^ 18) x3.toNat xNew.toNat y.toNat = 1
  · have hSmall := h.unitLevel_le hOne
    have hLess := Nat.mul_le_mul_right (10 ^ 18)
      (Nat.sub_le (unitLevel (10 ^ 18) x3.toNat xNew.toNat y.toNat) k.toNat)
    rw [hOne, Nat.div_one]
    exact (hLess.trans hSmall).trans (by norm_num)
  · by_cases hZero : unitGrowth (10 ^ 18) x3.toNat xNew.toNat y.toNat = 0
    · rw [hZero, Nat.div_zero]
      exact Nat.zero_le _
    · have hTwo : 2 ≤ unitGrowth (10 ^ 18) x3.toNat xNew.toNat y.toNat := by omega
      apply (Nat.div_le_div_left hTwo (by norm_num)).trans
      omega

/-- **A turn that moves overflows.**  If the products of a turn fit, and those of a turn on its
outcome, then it left `y_curr` where it was. -/
theorem aerodromeStep_eq_self (hNext : TurnFits xNew x3 k (aerodromeStep xNew x3 k y)) :
    aerodromeStep xNew x3 k y = y := by
  have hMove := h.move_toNat hk
  have hHalf := hNext.lt_half
  have hBelow := h.move_le hk
  rw [aerodromeStep_eq] at hHalf hNext ⊢
  generalize turnMove xNew x3 k y = move at *
  by_cases hLe : move ≤ y
  · have hStep : (y - move).toNat = y.toNat - move.toNat := BitVec.toNat_sub_of_le hLe
    have hLeNat : move.toNat ≤ y.toNat := BitVec.le_def.mp hLe
    by_cases hStill : move.toNat = 0
    · apply BitVec.eq_of_toNat_eq
      rw [hStep, hStill, Nat.sub_zero]
    · -- the step is inside the pool, and the level falls short of `k`
      have hSplit := Nat.sub_add_cancel hLeNat
      nth_rewrite 2 [hMove] at hSplit
      have hShort := newton_overshoots (by norm_num) (h.level_le hk) hSplit (by omega)
      have hAbove := hNext.level_le hk
      rw [hStep] at hAbove
      have hCounted := Nat.mul_le_mul_left (10 ^ 18) hAbove
      have hLevel := @unitLevel_le (10 ^ 18) x3.toNat xNew.toNat
        (y.toNat - move.toNat)
      omega
  · -- the step wraps, and the square of the next value overflows
    have hLt : y.toNat < move.toNat := not_le.mp fun hLeNat => hLe (BitVec.le_def.mpr hLeNat)
    have hWord := move.isLt
    rw [BitVec.toNat_sub, Nat.mod_eq_of_lt (by omega)] at hHalf
    omega

end Turn

/-! ## The quote -/

theorem quoteLevel_lt (x y : U256) : (quoteLevel x y).toNat < 2 ^ 197 := by
  rw [quoteLevel, BitVec.toNat_udiv, wad_toNat]
  exact units_lt _

/-- `x_new` does not wrap. -/
theorem quoteInput_toNat {x y amtIn : U256} (h : ProductsFit x y amtIn) :
    (quoteInput x amtIn).toNat = x.toNat + amtIn.toNat * 9998 / 10000 := by
  have hRate : (9998 : U256).toNat = 9998 := by decide
  have hBase : (10000 : U256).toNat = 10000 := by decide
  have hFee := h.fee
  have hHalf : x.toNat < 2 ^ 128 := by
    by_contra hNot
    have hLarge : 2 ^ 128 ≤ x.toNat := not_lt.mp hNot
    have hSquare : 2 ^ 128 * 2 ^ 128 ≤ x.toNat * x.toNat := Nat.mul_le_mul hLarge hLarge
    have hFits := h.squareIn
    unfold MulFits at hFits
    omega
  have hShare : (amtIn * 9998 / 10000).toNat = amtIn.toNat * 9998 / 10000 := by
    rw [BitVec.toNat_udiv, hFee.toNat, hRate, hBase]
  rw [MulFits, hRate] at hFee
  rw [quoteInput, BitVec.toNat_add_of_lt, hShare]
  rw [hShare]
  omega

theorem quoteCube_toNat {x y amtIn : U256} (h : ProductsFit x y amtIn) :
    (quoteCube x amtIn).toNat = (quoteInput x amtIn).toNat ^ 3 := by
  rw [quoteCube, h.cubeNew.toNat, h.squareNew.toNat]
  ring

/-- `k`: the sum may wrap. -/
theorem quoteLevel_toNat {x y amtIn : U256} (h : ProductsFit x y amtIn) :
    (quoteLevel x y).toNat = level x.toNat y.toNat % 2 ^ 256 / 10 ^ 18 := by
  have hIn : (x * x * x * y).toNat = x.toNat ^ 3 * y.toNat := by
    rw [h.levelIn.toNat, h.cubeIn.toNat, h.squareIn.toNat]
    ring
  have hOut : (y * y * y * x).toNat = y.toNat ^ 3 * x.toNat := by
    rw [h.levelOut.toNat, h.cubeOut.toNat, h.squareOut.toNat]
    ring
  rw [quoteLevel, BitVec.toNat_udiv, wad_toNat, BitVec.toNat_add, hIn, hOut, level]

/-- The two turns of the loop. -/
def quoteOut (x y amtIn : U256) : U256 :=
  let xNew := quoteInput x amtIn
  let x3 := quoteCube x amtIn
  let k := quoteLevel x y
  y - aerodromeStep xNew x3 k (aerodromeStep xNew x3 k y)

/-- What the first turn subtracts. -/
def firstMove (x y amtIn : U256) : U256 :=
  turnMove (quoteInput x amtIn) (quoteCube x amtIn) (quoteLevel x y) y

/-- What the second turn subtracts. -/
def secondMove (x y amtIn : U256) : U256 :=
  turnMove (quoteInput x amtIn) (quoteCube x amtIn) (quoteLevel x y) (y - firstMove x y amtIn)

/-- The two moves add up in the quote. -/
theorem quoteOut_eq (x y amtIn : U256) :
    quoteOut x y amtIn = firstMove x y amtIn + secondMove x y amtIn := by
  show y - (y - firstMove x y amtIn - secondMove x y amtIn) = _
  rw [sub_sub, sub_sub_cancel]

/-- A first turn that moves nothing leaves the second one nothing to do. -/
theorem quoteOut_eq_zero {x y amtIn : U256} (h : firstMove x y amtIn = 0) :
    quoteOut x y amtIn = 0 := by
  have hStill : aerodromeStep (quoteInput x amtIn) (quoteCube x amtIn) (quoteLevel x y) y = y := by
    rw [aerodromeStep_eq, ← firstMove, h]
    exact sub_zero y
  simp only [quoteOut, hStill, BitVec.sub_self]
  rfl

/-- From `2 * 10^18` on the cube alone makes the derivative two. -/
theorem two_le_turnGrowth {xNew x3 y : U256} (h : 2 * 10 ^ 18 ≤ x3.toNat) :
    2 ≤ (turnGrowth xNew x3 y).toNat := by
  have hUnits : ∀ a : U256, (a / wad).toNat = a.toNat / 10 ^ 18 := fun a => by
    rw [BitVec.toNat_udiv, wad_toNat]
  have hIn := units_lt x3
  have hOut := units_lt (3 * (y * y) * xNew)
  rw [turnGrowth, BitVec.toNat_add_of_lt, hUnits, hUnits]
  · omega
  · rw [hUnits, hUnits]
    omega

theorem turnMove_lt {xNew x3 k y : U256} (h : 2 * 10 ^ 18 ≤ x3.toNat) :
    (turnMove xNew x3 k y).toNat < 2 ^ 255 := by
  have hWord := (turnLevel xNew x3 k y * wad).isLt
  have hGrowth := @two_le_turnGrowth xNew x3 y h
  rw [turnMove, BitVec.toNat_udiv]
  refine (Nat.div_le_div_left hGrowth (by norm_num)).trans_lt ?_
  omega

/-- **Nothing is given back** of the first move. -/
theorem le_quoteOut {x y amtIn : U256} (h : 2 * 10 ^ 18 ≤ (quoteCube x amtIn).toNat) :
    (firstMove x y amtIn).toNat ≤ (quoteOut x y amtIn).toNat := by
  have hFirst : (firstMove x y amtIn).toNat < 2 ^ 255 := turnMove_lt h
  have hSecond : (secondMove x y amtIn).toNat < 2 ^ 255 := turnMove_lt h
  rw [quoteOut_eq, BitVec.toNat_add_of_lt (by omega)]
  exact Nat.le_add_right _ _

/-! ## When a quote is payable -/

/-- The output is below the reserve, and paying it for the input less the fee keeps the curve at
its level. -/
def Payable (x y amtIn out : ℕ) : Prop :=
  out < y ∧ level x y ≤ level (x + amtIn * 9998 / 10000) (y - out)

/-- The first turn rounds to nothing: what the input adds to the level, in units of `10^18` and
times `10^18` again, is less than the derivative in units (or the derivative counts none). -/
def Still (x y amtIn : ℕ) : Prop :=
  unitGrowth (10 ^ 18) ((x + amtIn * 9998 / 10000) ^ 3) (x + amtIn * 9998 / 10000) y = 0 ∨
    (unitLevel (10 ^ 18) ((x + amtIn * 9998 / 10000) ^ 3) (x + amtIn * 9998 / 10000) y -
        level x y % 2 ^ 256 / 10 ^ 18) * 10 ^ 18 <
      unitGrowth (10 ^ 18) ((x + amtIn * 9998 / 10000) ^ 3) (x + amtIn * 9998 / 10000) y

instance (x y amtIn : ℕ) : Decidable (Still x y amtIn) :=
  inferInstanceAs (Decidable (_ ∨ _))

section Payment

variable {x y amtIn : U256} (h : ProductsFit x y amtIn)
include h

theorem firstMove_toNat : (firstMove x y amtIn).toNat =
    (unitLevel (10 ^ 18) ((x.toNat + amtIn.toNat * 9998 / 10000) ^ 3)
          (x.toNat + amtIn.toNat * 9998 / 10000) y.toNat -
        level x.toNat y.toNat % 2 ^ 256 / 10 ^ 18) * 10 ^ 18 /
      unitGrowth (10 ^ 18) ((x.toNat + amtIn.toNat * 9998 / 10000) ^ 3)
        (x.toNat + amtIn.toNat * 9998 / 10000) y.toNat := by
  rw [firstMove, h.first.move_toNat (quoteLevel_lt x y), quoteCube_toNat h, quoteInput_toNat h,
    quoteLevel_toNat h]

theorem still_iff : Still x.toNat y.toNat amtIn.toNat ↔ firstMove x y amtIn = 0 := by
  have hZero : (0 : U256).toNat = 0 := rfl
  rw [← BitVec.toNat_inj, firstMove_toNat h, hZero, Nat.div_eq_zero_iff, Still]

theorem payable_of_still (hReserve : 0 < y.toNat) (hStill : Still x.toNat y.toNat amtIn.toNat) :
    Payable x.toNat y.toNat amtIn.toNat (quoteOut x y amtIn).toNat := by
  have hZero : (0 : U256).toNat = 0 := rfl
  rw [quoteOut_eq_zero ((still_iff h).mp hStill), hZero]
  exact ⟨hReserve, level_mono _ (Nat.le_add_right _ _)⟩

/-- **A first turn that moves is not payable.**  It ends outside the pool, or below the level. -/
theorem still_of_payable (hWide : 2 * 10 ^ 18 ≤ (x.toNat + amtIn.toNat * 9998 / 10000) ^ 3)
    (hPayable : Payable x.toNat y.toNat amtIn.toNat (quoteOut x y amtIn).toNat) :
    Still x.toNat y.toNat amtIn.toNat := by
  obtain ⟨hLess, hKept⟩ := hPayable
  have hCube : 2 * 10 ^ 18 ≤ (quoteCube x amtIn).toNat := by
    rw [quoteCube_toNat h, quoteInput_toNat h]
    exact hWide
  have hTaken := @le_quoteOut x y amtIn hCube
  by_contra hMoves
  rw [still_iff h, ← BitVec.toNat_inj] at hMoves
  have hPos : 0 < (firstMove x y amtIn).toNat := Nat.pos_of_ne_zero hMoves
  have hAbove := h.first.level_le (quoteLevel_lt x y)
  rw [quoteCube_toNat h, quoteInput_toNat h, quoteLevel_toNat h] at hAbove
  have hSplit : y.toNat - (firstMove x y amtIn).toNat + (firstMove x y amtIn).toNat = y.toNat :=
    Nat.sub_add_cancel (hTaken.trans hLess.le)
  nth_rewrite 2 [firstMove_toNat h] at hSplit
  have hShort := newton_overshoots (by norm_num) hAbove hSplit (by omega)
  have hLevel : 10 ^ 18 * (level x.toNat y.toNat % 2 ^ 256 / 10 ^ 18) ≤ level x.toNat y.toNat :=
    (Nat.mul_div_le _ _).trans (Nat.mod_le _ _)
  have hFalls : level (x.toNat + amtIn.toNat * 9998 / 10000) (y.toNat - (quoteOut x y amtIn).toNat)
      ≤ level (x.toNat + amtIn.toNat * 9998 / 10000)
          (y.toNat - (firstMove x y amtIn).toNat) := by
    rw [level_comm, level_comm _ (y.toNat - (firstMove x y amtIn).toNat)]
    exact level_mono _ (Nat.sub_le_sub_left hTaken _)
  exact absurd (hKept.trans hFalls) (not_le.mpr (hShort.trans_le hLevel))

/-- Where the products of the second turn fit as well, the first one was still. -/
theorem still_of_fits (hSecond : SecondTurnFits x y amtIn) :
    Still x.toNat y.toNat amtIn.toNat := by
  have hSelf := aerodromeStep_eq_self h.first (quoteLevel_lt x y) hSecond
  rw [aerodromeStep_eq, ← firstMove, sub_eq_self] at hSelf
  exact (still_iff h).mpr hSelf

end Payment

/-- `x` and `y`, from the reply to `getReserves()`. -/
def quoteReserves (reply : Reply) (zfo : ℕ) : U256 × U256 :=
  if zfo ≠ 0 then (reply.word0, reply.word1) else (reply.word1, reply.word0)

section Result

variable {W : Type} {answer : Query → W → Reply × W} {pool : Address} {amtIn out : U256}
  {zfo : ℕ} {w w' : W}

/-- What the code returns, if the pool answers. -/
theorem quote_eq_of_result
    (hResult : result answer (getAerodromeStableAmountOut pool amtIn zfo) w = some (out, w')) :
    let reserves := quoteReserves (answer (.getter pool .getReserves) w).1 zfo
    out = quoteOut reserves.1 reserves.2 amtIn := by
  unfold getAerodromeStableAmountOut getReserves at hResult
  rw [result_bind, result_bind, result_query, Option.bind_some, result_bind,
    result_require] at hResult
  split at hResult
  · rw [Option.bind_some, result_pure, Option.bind_some] at hResult
    have hOut := congrArg Prod.fst (Option.some.inj hResult)
    rw [← show _ = out from hOut]
    unfold quoteReserves
    split
    · rfl
    · rfl
  · cases hResult

/-- **When the quote is payable.**  The pool answers with a positive reserve of the output, and
the products of the reserves and the input fit.  If the first turn of the loop rounds to nothing
the quote is payable; for an input reserve of more than dust it is payable only then; and it
does so where the products of the second turn fit as well. -/
theorem stableQuote_payable_iff
    (hResult : result answer (getAerodromeStableAmountOut pool amtIn zfo) w = some (out, w')) :
    let reserves := quoteReserves (answer (.getter pool .getReserves) w).1 zfo
    let x := reserves.1.toNat
    let y := reserves.2.toNat
    0 < y → ProductsFit reserves.1 reserves.2 amtIn →
      (Still x y amtIn.toNat → Payable x y amtIn.toNat out.toNat) ∧
        (2 * 10 ^ 18 ≤ (x + amtIn.toNat * 9998 / 10000) ^ 3 →
          (Payable x y amtIn.toNat out.toNat ↔ Still x y amtIn.toNat)) ∧
        (SecondTurnFits reserves.1 reserves.2 amtIn → Still x y amtIn.toNat) := by
  intro reserves x y hReserve hFit
  rw [quote_eq_of_result hResult]
  exact ⟨payable_of_still hFit hReserve,
    fun hWide => ⟨still_of_payable hFit hWide, payable_of_still hFit hReserve⟩,
    still_of_fits hFit⟩

end Result

/-- A pool that holds these reserves. -/
def holding (r0 r1 : U256) : Query → Unit → Reply × Unit :=
  fun _ w => (⟨true, 96, r0, r1⟩, w)

/-- The products of a quote for ten units, with 100 ether of that token in the pool and one
unit of the other: `f_y` and `f_prime` are positive, and the step rounds to zero. -/
theorem lopsided_fits : ProductsFit 100000000000000000000 1 10 where
  squareIn := by decide
  cubeIn := by decide
  levelIn := by decide
  squareOut := by decide
  cubeOut := by decide
  levelOut := by decide
  fee := by decide
  squareNew := by decide
  cubeNew := by decide
  first := ⟨by decide, by decide, by decide, by decide, by decide, by decide, by decide⟩

theorem stableQuote_payable_example :
    Payable (100000000000000000000 : U256).toNat (1 : U256).toNat (10 : U256).toNat
      (0 : U256).toNat :=
  (@stableQuote_payable_iff Unit (holding 100000000000000000000 1) 7 10 0 1 () ()
    (by decide +kernel) (by decide) lopsided_fits).1 (by decide)

/-- The products of a quote for a thousand, in a pool of a million and a million at six
decimals. -/
theorem sixDecimals_fits : ProductsFit 1000000000000 1000000000000 1000000000 where
  squareIn := by decide
  cubeIn := by decide
  levelIn := by decide
  squareOut := by decide
  cubeOut := by decide
  levelOut := by decide
  fee := by decide
  squareNew := by decide
  cubeNew := by decide
  first := ⟨by decide, by decide, by decide, by decide, by decide, by decide, by decide⟩

/-- **The quote of a balanced pool.**  The first step leaves the pool, and the quote is far
beyond the reserve. -/
theorem not_stableQuote_payable :
    ¬ ∀ (answer : Query → Unit → Reply × Unit) (pool : Address) (amtIn out : U256) (zfo : ℕ),
      result answer (getAerodromeStableAmountOut pool amtIn zfo) () = some (out, ()) →
      let reserves := quoteReserves (answer (.getter pool .getReserves) ()).1 zfo
      0 < reserves.1.toNat → 0 < reserves.2.toNat → 0 < amtIn.toNat →
        ProductsFit reserves.1 reserves.2 amtIn →
        Payable reserves.1.toNat reserves.2.toNat amtIn.toNat out.toNat := by
  intro hAll
  have hPayable := hAll (holding 1000000000000 1000000000000) 7 1000000000
    27687836225713831193540562118 1 (by decide +kernel) (by decide) (by decide) (by decide)
    sixDecimals_fits
  exact absurd hPayable.1 (by decide)

end SovereignShadow.Ports.StableQuote
