import SovereignShadow.Ports.ExecutorContract
import SovereignShadow.Ports.OptimalInput
import SovereignShadow.Verified.CallTrace

/-!
# The V2 quote on chain

The `UniswapV2` case of `receiveFlashLoan` computes its output in 256 bits, and with
reserves and input below `2 ^ 112` that is the quote of the engine.  It asks the pair for
it through the free memory pointer, which the callback overwrote in part when it stored
the loan amount: only a loan amount whose low 32 bits are zero leaves the pointer, and
any other puts the call data where no gas reaches.

## Main results

* `quotient_toNat` — the 256-bit arithmetic is exact.
* `callbackPointer_lt_iff` — which loan amounts leave the pointer.
* `executes_quote_iff` — when the quoted output is requested.
-/

namespace SovereignShadow.Ports.V2Execution

open SovereignShadow.Verified.Callback
open SovereignShadow.Verified.Callback.Prog
open SovereignShadow.Verified.ConstantProduct
open SovereignShadow.Ports.Models
open SovereignShadow.Ports.Mirror
open SovereignShadow.Ports.MathEngine
open SovereignShadow.Ports.OptimalInput
open SovereignShadow.Ports.Evm
open SovereignShadow.Ports.Chain
open SovereignShadow.Ports.ExecutorContract

/-! ## The pointer -/

/-- The arguments of the callback lie in memory. -/
def Decoded (loans : List (Address × U256)) (data : UserData) : Prop :=
  decodedEnd loans.length (loadWord data.memory data.pointer).toNat < 2 ^ 64

/-- A pointer that was payable stays so under a loan amount whose low 32 bits are zero. -/
theorem callbackPointer_lt_iff {loans : List (Address × U256)} {data : UserData}
    (hDecoded : Decoded loans data) :
    callbackPointer loans data < 2 ^ 64 ↔ (firstAmount loans).toNat % 2 ^ 32 = 0 := by
  unfold Decoded at hDecoded
  unfold callbackPointer freePointer
  have hKept : decodedEnd loans.length (loadWord data.memory data.pointer).toNat % 2 ^ 224 =
      decodedEnd loans.length (loadWord data.memory data.pointer).toNat :=
    Nat.mod_eq_of_lt (hDecoded.trans (by norm_num))
  rw [hKept]
  constructor
  · intro h
    omega
  · intro h
    rw [h]
    omega

/-! ## The output -/

/-- The output of the `UniswapV2` case. -/
def amountOut (reserveIn reserveOut amountIn : U256) : U256 :=
  amountIn * 997 * reserveOut / (reserveIn * 1000 + amountIn * 997)

section Output

variable {reserveIn reserveOut amountIn : U256} (hIn : reserveIn.toNat < 2 ^ 112)
  (hOut : reserveOut.toNat < 2 ^ 112) (hAmount : amountIn.toNat < 2 ^ 112)
include hIn hOut hAmount

theorem quotient_toNat : (amountOut reserveIn reserveOut amountIn).toNat =
    quote 997 1000 reserveIn.toNat reserveOut.toNat amountIn.toNat := by
  have hKeepEq : (997 : U256).toNat = 997 := by decide
  have hUnitEq : (1000 : U256).toNat = 1000 := by decide
  have hKeep : (997 : U256).toNat < 2 ^ 10 := by rw [hKeepEq]; norm_num
  have hUnit : (1000 : U256).toNat < 2 ^ 10 := by rw [hUnitEq]; norm_num
  have hFee := toNat_mul_exact hAmount hKeep (by decide)
  have hBase := toNat_mul_exact hIn hUnit (by decide)
  have hFeeLt : (amountIn * 997).toNat < 2 ^ (112 + 10) := hFee ▸ mul_lt_pow hAmount hKeep
  have hBaseLt : (reserveIn * 1000).toNat < 2 ^ (112 + 10) := hBase ▸ mul_lt_pow hIn hUnit
  rw [amountOut, BitVec.toNat_udiv, toNat_mul_exact hFeeLt hOut (by decide),
    toNat_add_exact hBaseLt hFeeLt (by decide), hFee, hBase, hKeepEq, hUnitEq, quote]

/-- **Equal quotes.** -/
theorem amountOut_eq_getV2Output {state : PoolState} {zeroForOne : Bool}
    (hPair : reservesFor state zeroForOne = (reserveIn, reserveOut))
    (hInPos : 0 < reserveIn.toNat) (hOutPos : 0 < reserveOut.toNat) :
    amountOut reserveIn reserveOut amountIn = getV2Output amountIn state zeroForOne := by
  have hFee : amountIn.toNat * 997 < 2 ^ (112 + 10) := mul_lt_pow hAmount (by norm_num)
  have hFits : amountIn.toNat * 997 * reserveOut.toNat < 2 ^ 512 :=
    mul_lt_pow_le hFee hOut (by decide)
  apply BitVec.eq_of_toNat_eq
  rw [quotient_toNat hIn hOut hAmount,
    getV2Output_eq_quote hPair hInPos hOutPos hFits]

end Output

/-! ## The case -/

/-- A pair that answers `getReserves` and takes every `swap`. -/
def pairAnswer (r0 r1 : U256) : Query → World → Reply × World
  | .getter _ .getReserves, w => (⟨true, 96, r0, r1⟩, w)
  | .swap _ _, w => (⟨true, 0, 0, 0⟩, w)
  | _, w => (.failed, w)

/-- The direction byte. -/
def directionByte (zeroForOne : Bool) : Nat := if zeroForOne then 1 else 0

/-- The output on its side, zero on the other. -/
def requestOf (zeroForOne : Bool) (out recipient : U256) : PoolCall :=
  if zeroForOne then .swapV2 0 out recipient else .swapV2 out 0 recipient

section Case

variable {r0 r1 : U256} (pool recipient amountIn : U256) (zeroForOne : Bool) {ptr : Nat}
  (w : World) (hLiquid : r0 * r1 ≠ 0)
include hLiquid

/-- Through a pointer that can be paid for, the pair is asked for the output. -/
theorem exec_swapV2 (hPtr : ptr < 2 ^ 64) :
    exec (pairAnswer r0 r1) (swapV2 pool recipient (directionByte zeroForOne) amountIn ptr) w =
      ([.getter (toAddress pool) .getReserves,
          .swap (toAddress pool) (requestOf zeroForOne
            (amountOut (if zeroForOne then r0 else r1) (if zeroForOne then r1 else r0) amountIn)
            recipient)],
        some (amountOut (if zeroForOne then r0 else r1) (if zeroForOne then r1 else r0)
          amountIn, w)) := by
  have hReserves : exec (pairAnswer r0 r1)
      (query (.getter (toAddress pool) .getReserves) : Script Reply) w =
        ([.getter (toAddress pool) .getReserves], some (⟨true, 96, r0, r1⟩, w)) :=
    exec_query rfl
  unfold swapV2
  rw [exec_bind hReserves, exec_bind (exec_require rfl w), exec_bind (exec_require hLiquid w)]
  cases zeroForOne with
  | true =>
      rw [touch, exec_bind (exec_require hPtr w)]
      rfl
  | false =>
      rw [touch, exec_bind (exec_require hPtr w)]
      rfl

/-- Through any other the call reverts before it asks. -/
theorem exec_swapV2_stuck (hPtr : ¬ ptr < 2 ^ 64) :
    exec (pairAnswer r0 r1) (swapV2 pool recipient (directionByte zeroForOne) amountIn ptr) w =
      ([.getter (toAddress pool) .getReserves], none) := by
  have hReserves : exec (pairAnswer r0 r1)
      (query (.getter (toAddress pool) .getReserves) : Script Reply) w =
        ([.getter (toAddress pool) .getReserves], some (⟨true, 96, r0, r1⟩, w)) :=
    exec_query rfl
  unfold swapV2
  rw [exec_bind hReserves, exec_bind (exec_require rfl w), exec_bind (exec_require hLiquid w),
    touch, exec_bind_none (exec_require_not hPtr w)]
  rfl

end Case

/-- Two positive reserves of a pair have a product that does not wrap to zero. -/
theorem mul_ne_zero_of_pos {r0 r1 : U256} (h0 : 0 < r0.toNat ∧ r0.toNat < 2 ^ 112)
    (h1 : 0 < r1.toNat ∧ r1.toNat < 2 ^ 112) : r0 * r1 ≠ 0 := by
  intro hZero
  have hProduct : (r0 * r1).toNat = r0.toNat * r1.toNat := toNat_mul_exact h0.2 h1.2 (by decide)
  have hPos := Nat.mul_pos h0.1 h1.1
  rw [hZero] at hProduct
  rw [← hProduct] at hPos
  exact absurd hPos (by decide)

/-- **When the quoted output is requested.**  The case asks the pair for exactly what the
engine quotes, on the output side, where the loan amount is a multiple of `2 ^ 32`; with
any other loan amount it reverts and asks for nothing. -/
theorem executes_quote_iff (r0 r1 amountIn : U256) (h0 : 0 < r0.toNat ∧ r0.toNat < 2 ^ 112)
    (h1 : 0 < r1.toNat ∧ r1.toNat < 2 ^ 112)
    (hAmount : 0 < amountIn.toNat ∧ amountIn.toNat < 2 ^ 112) (zeroForOne : Bool)
    (state : PoolState) (hState : state.reserves0 = r0 ∧ state.reserves1 = r1)
    (pool recipient : U256) (loans : List (Address × U256)) (data : UserData)
    (hDecoded : Decoded loans data) (w : World) :
    (exec (pairAnswer r0 r1) (swapV2 pool recipient (directionByte zeroForOne) amountIn
          (callbackPointer loans data)) w =
        ([.getter (toAddress pool) .getReserves,
            .swap (toAddress pool)
              (requestOf zeroForOne (getV2Output amountIn state zeroForOne) recipient)],
          some (getV2Output amountIn state zeroForOne, w)) ↔
      (firstAmount loans).toNat % 2 ^ 32 = 0) ∧
    ((firstAmount loans).toNat % 2 ^ 32 ≠ 0 →
      exec (pairAnswer r0 r1) (swapV2 pool recipient (directionByte zeroForOne) amountIn
          (callbackPointer loans data)) w =
        ([.getter (toAddress pool) .getReserves], none)) := by
  obtain ⟨rfl, rfl⟩ := hState
  have hLiquid := mul_ne_zero_of_pos h0 h1
  have hQuote : amountOut (if zeroForOne then state.reserves0 else state.reserves1)
      (if zeroForOne then state.reserves1 else state.reserves0) amountIn =
        getV2Output amountIn state zeroForOne := by
    cases zeroForOne with
    | true => exact amountOut_eq_getV2Output h0.2 h1.2 hAmount.2 rfl h0.1 h1.1
    | false => exact amountOut_eq_getV2Output h1.2 h0.2 hAmount.2 rfl h1.1 h0.1
  have hStuck : (firstAmount loans).toNat % 2 ^ 32 ≠ 0 →
      exec (pairAnswer state.reserves0 state.reserves1) (swapV2 pool recipient
          (directionByte zeroForOne) amountIn (callbackPointer loans data)) w =
        ([.getter (toAddress pool) .getReserves], none) := by
    intro hLow
    exact exec_swapV2_stuck pool recipient amountIn zeroForOne w hLiquid
      fun h => hLow ((callbackPointer_lt_iff hDecoded).mp h)
  refine ⟨⟨?_, ?_⟩, hStuck⟩
  · intro hRequest
    by_contra hLow
    rw [hStuck hLow] at hRequest
    simp at hRequest
  · intro hLow
    rw [exec_swapV2 pool recipient amountIn zeroForOne w hLiquid
      ((callbackPointer_lt_iff hDecoded).mpr hLow), hQuote]

/-- No user data. -/
def emptyData : UserData := ⟨fun _ => 0, 0x80⟩

/-- A loan of `2 ^ 40` leaves the pointer. -/
theorem executes_quote_example :
    exec (pairAnswer 1000 2000) (swapV2 7 9 (directionByte true) 100
        (callbackPointer [(3, 2 ^ 40)] emptyData)) ⟨fun _ _ => 0, 0⟩ =
      ([.getter (toAddress 7) .getReserves,
          .swap (toAddress 7) (requestOf true
            (getV2Output 100 ⟨1000, 2000, .uniswapV2, false⟩ true) 9)],
        some (getV2Output 100 ⟨1000, 2000, .uniswapV2, false⟩ true, ⟨fun _ _ => 0, 0⟩)) :=
  (executes_quote_iff 1000 2000 100 (by decide) (by decide) (by decide) true
    ⟨1000, 2000, .uniswapV2, false⟩ ⟨rfl, rfl⟩ 7 9 [(3, 2 ^ 40)] emptyData
    (by unfold Decoded; decide) ⟨fun _ _ => 0, 0⟩).1.mpr (by decide)

/-- A loan of one ether, swapped in the first hop, does not: the pair is never asked. -/
theorem one_ether_not_requested :
    exec (pairAnswer 1000 2000) (swapV2 7 9 (directionByte true) 1000000000000000000
        (callbackPointer [(3, 1000000000000000000)] emptyData)) ⟨fun _ _ => 0, 0⟩ =
      ([.getter (toAddress 7) .getReserves], none) :=
  exec_swapV2_stuck 7 9 1000000000000000000 true ⟨fun _ _ => 0, 0⟩ (by decide)
    (by decide)

end SovereignShadow.Ports.V2Execution
