import SovereignShadow.Ports.StablePrice

/-!
# Projected reserves

`project_reserve_impact` reads the output of a pending V2 `swap` call and works out the input
that the pair must have been paid, with a division that rounds down.  A pair accepts no less
than the exact input, so the projected reserves are ones that it can reach exactly when the
division leaves no remainder; nothing ever wraps.

## Main results

* `projection_fits` — no step wraps for reserves of a pair.
* `projected_accepted_iff` — when the pair would accept the projected swap.
* `not_projected_accepted` — a swap of one unit that it would not.
-/

namespace SovereignShadow.Ports.ProjectedReserves

open SovereignShadow.Verified.Bytes
open SovereignShadow.Verified.ConstantProduct
open SovereignShadow.Ports.Models
open SovereignShadow.Ports.Mirror
open SovereignShadow.Ports.MathEngine
open SovereignShadow.Ports.OptimalInput (saturatingSub_toNat toNat_pos_iff mul_lt_pow)
open SovereignShadow.Ports.StablePrice (Reserve)

/-- A projected swap, in its direction. -/
structure PendingSwap where
  reserveIn : U256
  reserveOut : U256
  amountOut : U256
  newIn : U256
  newOut : U256

/-- The swap of a call with these output amounts that leaves these reserves. -/
def pendingSwap (ps : PoolState) (amt0Out amt1Out : U256) (reserves : U256 × U256) :
    PendingSwap :=
  if 0 < amt0Out then
    { reserveIn := ps.reserves1, reserveOut := ps.reserves0, amountOut := amt0Out,
      newIn := reserves.2, newOut := reserves.1 }
  else
    { reserveIn := ps.reserves0, reserveOut := ps.reserves1, amountOut := amt1Out,
      newIn := reserves.1, newOut := reserves.2 }

namespace PendingSwap

variable (swap : PendingSwap)

/-- `in`. -/
def impliedInput : ℕ := swap.newIn.toNat - swap.reserveIn.toNat

/-- `out`. -/
def impliedOutput : ℕ := swap.reserveOut.toNat - swap.newOut.toNat

/-- The pair's fee-adjusted check. -/
def Accepted : Prop :=
  Accepts 997 1000 swap.reserveIn.toNat swap.reserveOut.toNat swap.impliedInput
    swap.impliedOutput

/-- No product of the projection wraps, and no sum. -/
structure Fits : Prop where
  product : swap.reserveIn.toNat * swap.amountOut.toNat < 2 ^ 256
  scaled : (swap.reserveIn * swap.amountOut).toNat * 1000 < 2 ^ 256
  divisor : swap.newOut.toNat * 997 < 2 ^ 256
  total : swap.reserveIn.toNat +
    (projectedInput swap.reserveIn swap.amountOut swap.newOut).toNat < 2 ^ 256

/-- The reserves come out of the projection. -/
structure Projected : Prop where
  reserveIn : Reserve swap.reserveIn
  reserveOut : Reserve swap.reserveOut
  newOut : swap.newOut = saturatingSub swap.reserveOut swap.amountOut
  newOut_ne : swap.newOut ≠ 0
  newIn : swap.newIn =
    swap.reserveIn + projectedInput swap.reserveIn swap.amountOut swap.newOut

variable {swap} (h : swap.Projected)
include h

/-- What is left is what was not paid out. -/
theorem Projected.newOut_toNat :
    swap.newOut.toNat = swap.reserveOut.toNat - swap.amountOut.toNat := by
  rw [h.newOut, saturatingSub_toNat]

theorem Projected.amountOut_lt : swap.amountOut.toNat < swap.reserveOut.toNat := by
  have hLeft : 0 < swap.newOut.toNat := toNat_pos_iff.mpr h.newOut_ne
  rw [h.newOut_toNat] at hLeft
  omega

theorem Projected.product_lt :
    swap.reserveIn.toNat * swap.amountOut.toNat < 2 ^ (112 + 112) :=
  mul_lt_pow h.reserveIn.2 (h.amountOut_lt.trans h.reserveOut.2)

theorem Projected.divisor_lt : swap.newOut.toNat * 997 < 2 ^ (112 + 10) := by
  apply mul_lt_pow _ (by norm_num)
  rw [h.newOut_toNat]
  exact (Nat.sub_le _ _).trans_lt h.reserveOut.2

theorem Projected.numerator_toNat : (swap.reserveIn * swap.amountOut * 1000).toNat =
    swap.reserveIn.toNat * swap.amountOut.toNat * 1000 := by
  have hScale : (1000 : U256).toNat = 1000 := by decide
  have hProduct := h.product_lt
  have hInner : (swap.reserveIn * swap.amountOut).toNat =
      swap.reserveIn.toNat * swap.amountOut.toNat :=
    BitVec.toNat_mul_of_lt (by omega)
  rw [BitVec.toNat_mul_of_lt, hInner, hScale]
  rw [hInner, hScale]
  omega

/-- The implied input is the exact one, rounded down. -/
theorem Projected.projectedInput_toNat :
    (projectedInput swap.reserveIn swap.amountOut swap.newOut).toNat =
      swap.reserveIn.toNat * swap.amountOut.toNat * 1000 /
        ((swap.reserveOut.toNat - swap.amountOut.toNat) * 997) := by
  have hScale : (997 : U256).toNat = 997 := by decide
  have hDivisor := h.divisor_lt
  rw [projectedInput, BitVec.toNat_udiv, h.numerator_toNat, BitVec.toNat_mul_of_lt, hScale,
    h.newOut_toNat]
  rw [hScale]
  omega

theorem Projected.total_lt : swap.reserveIn.toNat +
    (projectedInput swap.reserveIn swap.amountOut swap.newOut).toNat < 2 ^ 256 := by
  have hReserve := h.reserveIn.2
  have hProduct := h.product_lt
  have hQuotient := Nat.div_le_self (swap.reserveIn.toNat * swap.amountOut.toNat * 1000)
    ((swap.reserveOut.toNat - swap.amountOut.toNat) * 997)
  rw [h.projectedInput_toNat]
  omega

/-- **Nothing wraps.** -/
theorem Projected.fits : swap.Fits where
  product := by
    have hProduct := h.product_lt
    omega
  scaled := by
    have hProduct := h.product_lt
    rw [BitVec.toNat_mul_of_lt (by omega)]
    omega
  divisor := by
    have hDivisor := h.divisor_lt
    omega
  total := h.total_lt

theorem Projected.impliedInput_eq : swap.impliedInput =
    swap.reserveIn.toNat * swap.amountOut.toNat * 1000 /
      ((swap.reserveOut.toNat - swap.amountOut.toNat) * 997) := by
  rw [impliedInput, h.newIn, BitVec.toNat_add_of_lt h.total_lt, Nat.add_sub_cancel_left,
    h.projectedInput_toNat]

theorem Projected.impliedOutput_eq : swap.impliedOutput = swap.amountOut.toNat := by
  rw [impliedOutput, h.newOut_toNat, Nat.sub_sub_self h.amountOut_lt.le]

theorem Projected.accepted_iff : swap.Accepted ↔
    (swap.reserveOut.toNat - swap.amountOut.toNat) * 997 ∣
      swap.reserveIn.toNat * swap.amountOut.toNat * 1000 := by
  rw [Accepted, h.impliedInput_eq, h.impliedOutput_eq]
  exact accepts_floor_iff h.amountOut_lt.le

end PendingSwap

/-! ## The projection -/

/-- What one call inserts. -/
theorem projectReserveImpact_mem {tx : MempoolTx} {mirror : StateMirror} {ps : PoolState}
    {target : Address} {reserves : U256 × U256} (hTarget : tx.toAddr = some target)
    (hPool : mirror.pools target = some ps)
    (hInsert : (target, reserves) ∈ projectReserveImpact tx mirror) :
    projectSwap ps (wordAt tx.data 4) (wordAt tx.data 36) = some reserves := by
  unfold projectReserveImpact at hInsert
  split at hInsert
  · simp at hInsert
  · simp only [hTarget, hPool] at hInsert
    split at hInsert
    · cases hSwap : projectSwap ps (wordAt tx.data 4) (wordAt tx.data 36) with
      | none => simp [hSwap] at hInsert
      | some projected =>
          simp only [hSwap, List.mem_singleton, Prod.mk.injEq, true_and] at hInsert
          rw [hInsert]
    · simp at hInsert

theorem pendingSwap_projected {ps : PoolState} {amt0Out amt1Out : U256}
    {reserves : U256 × U256} (h0 : Reserve ps.reserves0) (h1 : Reserve ps.reserves1)
    (hSwap : projectSwap ps amt0Out amt1Out = some reserves) :
    (pendingSwap ps amt0Out amt1Out reserves).Projected := by
  unfold projectSwap at hSwap
  unfold pendingSwap
  dsimp only at hSwap
  split at hSwap
  · rename_i hFirst
    rw [if_pos hFirst]
    split at hSwap
    · rename_i hLeft
      cases hSwap
      exact ⟨h1, h0, rfl, hLeft, rfl⟩
    · cases hSwap
  · rename_i hFirst
    rw [if_neg hFirst]
    split at hSwap
    · split at hSwap
      · rename_i hLeft
        cases hSwap
        exact ⟨h0, h1, rfl, hLeft, rfl⟩
      · cases hSwap
    · cases hSwap

/-- **Reachable projections.**  Whenever a call inserts reserves, no step has wrapped, and the
pair accepts the implied swap exactly when the division by what the pair keeps, less the fee,
leaves no remainder.  Of two outputs only the first is projected. -/
theorem projected_accepted_iff {tx : MempoolTx} {mirror : StateMirror} {ps : PoolState}
    {target : Address} {reserves : U256 × U256} (hTarget : tx.toAddr = some target)
    (hPool : mirror.pools target = some ps) (h0 : Reserve ps.reserves0)
    (h1 : Reserve ps.reserves1)
    (hInsert : (target, reserves) ∈ projectReserveImpact tx mirror) :
    let swap := pendingSwap ps (wordAt tx.data 4) (wordAt tx.data 36) reserves
    (swap.Accepted ∧ swap.Fits) ↔
      (swap.reserveOut.toNat - swap.amountOut.toNat) * 997 ∣
        swap.reserveIn.toNat * swap.amountOut.toNat * 1000 := by
  intro swap
  have hProjected : swap.Projected :=
    pendingSwap_projected h0 h1 (projectReserveImpact_mem hTarget hPool hInsert)
  rw [and_iff_left hProjected.fits]
  exact hProjected.accepted_iff

/-- A call of `swap(out, 0, ..)`. -/
def swapCall (target : Address) (out : ℕ) : MempoolTx where
  data := [0x02, 0x2c, 0x0d, 0x9f] ++ encodeBE 32 out ++ encodeBE 32 0 ++ encodeBE 32 0
  hash := 0
  toAddr := some target

/-- One pool. -/
def onePool (target : Address) (reserves0 reserves1 : U256) : StateMirror where
  pools := fun a =>
    if a = target then
      some { reserves0, reserves1, dexType := .uniswapV2, isStable := false }
    else none
  traderRegistry := fun _ => none

/-- Half of one reserve for `997000 * 1000 / 997` of the other: the division is exact. -/
theorem projected_accepted_example :
    let swap := pendingSwap ⟨2, 997000, .uniswapV2, false⟩ (wordAt (swapCall 7 1).data 4)
      (wordAt (swapCall 7 1).data 36) (1, 1997000)
    (swap.Accepted ∧ swap.Fits) ↔
      (swap.reserveOut.toNat - swap.amountOut.toNat) * 997 ∣
        swap.reserveIn.toNat * swap.amountOut.toNat * 1000 :=
  @projected_accepted_iff (swapCall 7 1) (onePool 7 2 997000)
    ⟨2, 997000, .uniswapV2, false⟩ 7 (1, 1997000) rfl rfl ⟨by decide, by decide⟩
    ⟨by decide, by decide⟩ (by decide +kernel)

/-- **A swap of one unit** from a pool of 1000 and 1000 is projected with an input of one, and
the pair wants two. -/
theorem not_projected_accepted :
    ¬ ∀ (tx : MempoolTx) (mirror : StateMirror) (ps : PoolState) (target : Address)
      (reserves : U256 × U256), tx.toAddr = some target → mirror.pools target = some ps →
      Reserve ps.reserves0 → Reserve ps.reserves1 →
      Xor (wordAt tx.data 4 ≠ 0) (wordAt tx.data 36 ≠ 0) →
      (target, reserves) ∈ projectReserveImpact tx mirror →
      let swap := pendingSwap ps (wordAt tx.data 4) (wordAt tx.data 36) reserves
      swap.Accepted ∧ swap.Fits := by
  intro hAll
  have hOut : wordAt (swapCall 7 1).data 4 = 1 := by decide +kernel
  have hNone : wordAt (swapCall 7 1).data 36 = 0 := by decide +kernel
  have hReserve : Reserve 1000 := ⟨by decide, by decide⟩
  have hSwap := hAll (swapCall 7 1) (onePool 7 1000 1000) ⟨1000, 1000, .uniswapV2, false⟩ 7
    (999, 1001) rfl rfl hReserve hReserve
    (.inl ⟨by rw [hOut]; decide, by rw [hNone]; exact not_not.mpr rfl⟩) (by decide +kernel)
  rw [hOut, hNone] at hSwap
  have hShort : ¬ (pendingSwap ⟨1000, 1000, .uniswapV2, false⟩ 1 0 (999, 1001)).Accepted := by
    unfold PendingSwap.Accepted Accepts
    decide
  exact hShort hSwap.1

end SovereignShadow.Ports.ProjectedReserves
