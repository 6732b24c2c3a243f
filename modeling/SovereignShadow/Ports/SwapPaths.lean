import SovereignShadow.Ports.ShadowBot
import SovereignShadow.Verified.CallTrace

/-!
# The swaps of the two paths

`ShadowBot` swaps on a pool in Yul, in `_executeV2`, `_executeV3` and their memory twins,
and has the same two swaps in Solidity, `_swapV2` and `_swapV3`.  The module runs both on
a pool whose tokens move exactly and compares the `swap` calls that they make.

The V2 paths measure the input in different ways and come to the same amount, but the Yul
path also asks for it on the other side: `if zfo { .. } { .. }` runs its second block in
either case.  The V3 paths differ in the sign of the amount.

## Main results

* `executeV2_swaps`, `swapV2_swaps`, `executeV3_swaps`, `swapV3_swaps` — the calls made.
* `swaps_iff` — where they agree.
-/

namespace SovereignShadow.Ports.SwapPaths

open SovereignShadow.Verified.Callback
open SovereignShadow.Verified.Callback.Prog
open SovereignShadow.Ports.Models
open SovereignShadow.Ports.Evm
open SovereignShadow.Ports.Chain
open SovereignShadow.Ports.ShadowBot (executeV2 executeV3 getTokenIn getReserves getV2AmountOut
  poolToken safeTransfer)

/-! ## The plain helpers -/

/-- `*`, `+` and `/` of checked arithmetic. -/
def checkedMul (a b : U256) : Script U256 := do
  require (a.toNat * b.toNat < 2 ^ 256)
  return a * b

def checkedAdd (a b : U256) : Script U256 := do
  require (a.toNat + b.toNat < 2 ^ 256)
  return a + b

def checkedDiv (a b : U256) : Script U256 := do
  require (b ≠ 0)
  return a / b

/-- A high-level `getReserves()` call: the decoder wants two `uint112` words. -/
def pairReserves (pool : Address) : Script (U256 × U256) := do
  let reply ← query (.getter pool .getReserves)
  require (reply.success ∧ 96 ≤ reply.returndatasize ∧ reply.word0.toNat < 2 ^ 112 ∧
    reply.word1.toNat < 2 ^ 112)
  return (reply.word0, reply.word1)

/-- `_swapV2`. -/
def swapV2 (self pool : Address) (zeroForOne : Bool) : Script Unit := do
  let (r0, r1) ← pairReserves pool
  let tokenIn ← poolToken pool (if zeroForOne then .token0 else .token1)
  let amountIn ← staticBalanceOf tokenIn self
  safeTransfer tokenIn pool amountIn
  let amountInWithFee ← checkedMul amountIn 997
  if zeroForOne then do
    let numerator ← checkedMul amountInWithFee r1
    let scaled ← checkedMul r0 1000
    let denominator ← checkedAdd scaled amountInWithFee
    let amountOut ← checkedDiv numerator denominator
    callOrRevert (.swap pool (.swapV2 0 amountOut (addressWord self)))
  else do
    let numerator ← checkedMul amountInWithFee r0
    let scaled ← checkedMul r1 1000
    let denominator ← checkedAdd scaled amountInWithFee
    let amountOut ← checkedDiv numerator denominator
    callOrRevert (.swap pool (.swapV2 amountOut 0 (addressWord self)))

/-- `MIN_SQRT_RATIO` and `MAX_SQRT_RATIO`. -/
def minSqrtRatio : U256 := 4295128739

def maxSqrtRatio : U256 := 1461446703485210103287273052203988822378723970342

/-- `_swapV3`; the cast to `int256` keeps the word. -/
def swapV3 (self pool : Address) (zeroForOne : Bool) : Script Unit := do
  let tokenIn ← poolToken pool (if zeroForOne then .token0 else .token1)
  let amountIn ← staticBalanceOf tokenIn self
  let reply ← query <| .swap pool <| .swapV3 (addressWord self) (if zeroForOne then 1 else 0)
    amountIn (if zeroForOne then minSqrtRatio + 1 else maxSqrtRatio - 1) []
  require (reply.success ∧ 64 ≤ reply.returndatasize)

/-- `_executeV2_Mem` and `_executeV3_Mem`, the same code under another name. -/
def executeV2Mem (self pool : Address) (zfo : Nat) : Script Unit := executeV2 self pool zfo

def executeV3Mem (self pool : Address) (zfo : Nat) : Script Unit := executeV3 self pool zfo

/-! ## A pool of exact tokens -/

/-- A pool and the ledger of tokens that move exactly, before a swap by `self`. -/
structure PoolWorld where
  self : Address
  pool : Address
  token0 : Address
  token1 : Address
  ledger : Ledger
  ne : self ≠ pool

/-- A V2 pair: its reserves are what it holds. -/
structure PairWorld extends PoolWorld where
  reserve0 : U256
  reserve1 : U256
  reserve0_pos : 0 < reserve0.toNat
  reserve1_pos : 0 < reserve1.toNat
  reserve0_lt : reserve0.toNat < 2 ^ 112
  reserve1_lt : reserve1.toNat < 2 ^ 112
  reserve0_eq : ledger token0 pool = reserve0
  reserve1_eq : ledger token1 pool = reserve1

namespace PoolWorld

variable (s : PoolWorld)

def tokenIn (zeroForOne : Bool) : Address := if zeroForOne then s.token0 else s.token1

/-- The balance that is swapped. -/
def balance (zeroForOne : Bool) : U256 := s.ledger (s.tokenIn zeroForOne) s.self

/-- The chain around the pool, with what it answers to `getReserves()`. -/
def answer (reserves : U256 × U256) : Query → World → Reply × World
  | .balanceOf token holder, w => (.ofWord (w.ledger token holder), w)
  | .getter target getter, w =>
      if target = s.pool then
        match getter with
        | .token0 => (.ofWord (addressWord s.token0), w)
        | .token1 => (.ofWord (addressWord s.token1), w)
        | .getReserves => (⟨true, 96, reserves.1, reserves.2⟩, w)
      else (.failed, w)
  | .transfer token dst value, w =>
      match w.ledger.transfer token s.self dst value with
      | some ledger => (.ofWord 1, { w with ledger })
      | none => (.failed, w)
  | .swap target _, w => if target = s.pool then (⟨true, 64, 0, 0⟩, w) else (.failed, w)
  | _, w => (.failed, w)

end PoolWorld

/-- The `swap` calls among the queries. -/
def swapCalls (queries : List Query) : List (Address × PoolCall) :=
  queries.filterMap fun
    | .swap pool call => some (pool, call)
    | _ => none

/-- The `swap` calls that a script makes on a V3 pool. -/
def PoolWorld.swaps (s : PoolWorld) (script : Script Unit) : List (Address × PoolCall) :=
  swapCalls (exec (s.answer (0, 0)) script ⟨s.ledger, 0⟩).1

/-- The `swap` calls that a script makes on a V2 pair. -/
def PairWorld.swaps (s : PairWorld) (script : Script Unit) : List (Address × PoolCall) :=
  swapCalls (exec (s.answer (s.reserve0, s.reserve1)) script ⟨s.ledger, 0⟩).1

/-! ## One call -/

section Calls

variable (s : PoolWorld) (reserves : U256 × U256) (w : World)

theorem answer_getter (getter : Getter) :
    s.answer reserves (.getter s.pool getter) w =
      (match getter with
        | .token0 => .ofWord (addressWord s.token0)
        | .token1 => .ofWord (addressWord s.token1)
        | .getReserves => ⟨true, 96, reserves.1, reserves.2⟩, w) := by
  cases getter <;> simp [PoolWorld.answer]

/-- The getter of the input token. -/
theorem answer_tokenIn (zeroForOne : Bool) :
    s.answer reserves (.getter s.pool (if zeroForOne then .token0 else .token1)) w =
      (.ofWord (addressWord (s.tokenIn zeroForOne)), w) := by
  cases zeroForOne with
  | true => exact answer_getter s reserves w .token0
  | false => exact answer_getter s reserves w .token1

theorem exec_getTokenIn (zfo : Nat) :
    exec (s.answer reserves) (getTokenIn s.pool zfo) w =
      ([.getter s.pool (if zfo ≠ 0 then .token0 else .token1)],
        some (s.tokenIn (decide (zfo ≠ 0)), w)) := by
  have hAnswer := answer_tokenIn s reserves w (decide (zfo ≠ 0))
  simp only [decide_eq_true_eq] at hAnswer
  rw [← toAddress_addressWord (s.tokenIn (decide (zfo ≠ 0)))]
  exact exec_checked hAnswer (fun reply => reply.success = true)
    (fun reply => toAddress reply.word0) rfl

theorem exec_poolToken (zeroForOne : Bool) :
    exec (s.answer reserves) (poolToken s.pool (if zeroForOne then .token0 else .token1)) w =
      ([.getter s.pool (if zeroForOne then .token0 else .token1)],
        some (s.tokenIn zeroForOne, w)) := by
  have hClean : (addressWord (s.tokenIn zeroForOne)).toNat < 2 ^ 160 := by
    rw [addressWord, BitVec.toNat_setWidth]
    exact (Nat.mod_le _ _).trans_lt (s.tokenIn zeroForOne).isLt
  rw [← toAddress_addressWord (s.tokenIn zeroForOne)]
  exact exec_checked (answer_tokenIn s reserves w zeroForOne)
    (fun reply => reply.success ∧ 32 ≤ reply.returndatasize ∧ reply.word0.toNat < 2 ^ 160)
    (fun reply => toAddress reply.word0) ⟨rfl, le_rfl, hClean⟩

theorem exec_balanceOf {token holder : Address} {balance : U256}
    (h : w.ledger token holder = balance) :
    exec (s.answer reserves) (staticBalanceOf token holder) w =
      ([.balanceOf token holder], some (balance, w)) := by
  subst h
  exact exec_checked (show s.answer reserves (.balanceOf token holder) w = _ from rfl)
    (fun reply => reply.success = true) Reply.word0 rfl

theorem exec_getReserves :
    exec (s.answer reserves) (getReserves s.pool) w =
      ([.getter s.pool .getReserves], some (reserves, w)) :=
  exec_checked (answer_getter s reserves w .getReserves) (fun reply => reply.success = true)
    (fun reply => (reply.word0, reply.word1)) rfl

theorem exec_pairReserves (h0 : reserves.1.toNat < 2 ^ 112) (h1 : reserves.2.toNat < 2 ^ 112) :
    exec (s.answer reserves) (pairReserves s.pool) w =
      ([.getter s.pool .getReserves], some (reserves, w)) :=
  exec_checked (answer_getter s reserves w .getReserves)
    (fun reply => reply.success ∧ 96 ≤ reply.returndatasize ∧ reply.word0.toNat < 2 ^ 112 ∧
      reply.word1.toNat < 2 ^ 112)
    (fun reply => (reply.word0, reply.word1)) ⟨rfl, le_rfl, h0, h1⟩

theorem exec_swap (call : PoolCall) :
    exec (s.answer reserves) (callOrRevert (.swap s.pool call)) w =
      ([.swap s.pool call], some ((), w)) := by
  have hAnswer : s.answer reserves (.swap s.pool call) w = (⟨true, 64, 0, 0⟩, w) := by
    simp [PoolWorld.answer]
  exact exec_guarded hAnswer (fun reply => reply.success = true) rfl

variable {w} {token dst : Address} {value : U256} {ledger : Ledger}
  (h : w.ledger.transfer token s.self dst value = some ledger)
include h

theorem answer_transfer :
    s.answer reserves (.transfer token dst value) w = (.ofWord 1, { w with ledger }) := by
  simp [PoolWorld.answer, h]

theorem exec_transfer :
    exec (s.answer reserves) (callOrRevert (.transfer token dst value)) w =
      ([.transfer token dst value], some ((), { w with ledger })) :=
  exec_guarded (answer_transfer s reserves h) (fun reply => reply.success = true) rfl

theorem exec_safeTransfer :
    exec (s.answer reserves) (safeTransfer token dst value) w =
      ([.transfer token dst value], some ((), { w with ledger })) :=
  exec_guarded (answer_transfer s reserves h) Reply.accepted ⟨rfl, fun _ => by decide⟩

end Calls

/-! ## The V3 paths -/

theorem ne_zero_of_pos {value : U256} (h : 0 < value.toNat) : value ≠ 0 := by
  intro hZero
  rw [hZero] at h
  exact absurd h (by decide)

theorem executeV3_swaps (s : PoolWorld) (zfo : Nat)
    (hBalance : 0 < (s.balance (decide (zfo ≠ 0))).toNat) :
    s.swaps (executeV3 s.self s.pool zfo) =
      [(s.pool, .swapV3 (addressWord s.self) (BitVec.ofNat 256 zfo)
        (0 - s.balance (decide (zfo ≠ 0)))
        (if zfo = 0 then 1461446703485210103287273052203988822378723970341 else 4295128740)
        [])] := by
  have hRead : s.ledger (s.tokenIn (decide (zfo ≠ 0))) s.self = s.balance (decide (zfo ≠ 0)) := rfl
  have hNonzero := ne_zero_of_pos hBalance
  unfold PoolWorld.swaps executeV3
  rw [exec_bind_fst (exec_getTokenIn s (0, 0) _ zfo),
    exec_bind_fst (exec_balanceOf s (0, 0) _ hRead),
    exec_bind_fst (exec_require hNonzero _), exec_swap]
  rfl

theorem swapV3_swaps (s : PoolWorld) (zeroForOne : Bool) :
    s.swaps (swapV3 s.self s.pool zeroForOne) =
      [(s.pool, .swapV3 (addressWord s.self) (if zeroForOne then 1 else 0)
        (s.balance zeroForOne)
        (if zeroForOne then minSqrtRatio + 1 else maxSqrtRatio - 1) [])] := by
  have hAnswer : ∀ call w, s.answer (0, 0) (.swap s.pool call) w = (⟨true, 64, 0, 0⟩, w) := by
    intro call w
    simp [PoolWorld.answer]
  have hRead : s.ledger (s.tokenIn zeroForOne) s.self = s.balance zeroForOne := rfl
  unfold PoolWorld.swaps swapV3
  rw [exec_bind_fst (exec_poolToken s (0, 0) _ zeroForOne),
    exec_bind_fst (exec_balanceOf s (0, 0) _ hRead),
    exec_guarded (hAnswer _ _) (fun reply => reply.success ∧ 64 ≤ reply.returndatasize)
      ⟨rfl, le_rfl⟩]
  rfl

/-! ## The V2 paths -/

namespace PairWorld

variable (s : PairWorld) (zeroForOne : Bool)

def resIn : U256 := if zeroForOne then s.reserve0 else s.reserve1

def resOut : U256 := if zeroForOne then s.reserve1 else s.reserve0

/-- The output for the whole balance, after the fee. -/
def amountOut : U256 :=
  s.balance zeroForOne * 997 * s.resOut zeroForOne /
    (s.resIn zeroForOne * 1000 + s.balance zeroForOne * 997)

theorem resIn_lt : (s.resIn zeroForOne).toNat < 2 ^ 112 := by
  cases zeroForOne with
  | true => exact s.reserve0_lt
  | false => exact s.reserve1_lt

theorem resIn_pos : 0 < (s.resIn zeroForOne).toNat := by
  cases zeroForOne with
  | true => exact s.reserve0_pos
  | false => exact s.reserve1_pos

theorem resOut_lt : (s.resOut zeroForOne).toNat < 2 ^ 112 := by
  cases zeroForOne with
  | true => exact s.reserve1_lt
  | false => exact s.reserve0_lt

theorem ledger_resIn : s.ledger (s.tokenIn zeroForOne) s.pool = s.resIn zeroForOne := by
  cases zeroForOne with
  | true => exact s.reserve0_eq
  | false => exact s.reserve1_eq

theorem scaled_toNat : (s.resIn zeroForOne * 1000).toNat = (s.resIn zeroForOne).toNat * 1000 := by
  have hIn := s.resIn_lt zeroForOne
  exact BitVec.toNat_mul_of_lt (by
    show (s.resIn zeroForOne).toNat * 1000 < _
    omega)

variable {zeroForOne} (hBalance : (s.balance zeroForOne).toNat < 2 ^ 112)
include hBalance

/-- The transfer to the pair goes through, and the pair then holds the input on top of its
reserve. -/
theorem exists_transfer : ∃ ledger : Ledger,
    s.ledger.transfer (s.tokenIn zeroForOne) s.self s.pool (s.balance zeroForOne) = some ledger ∧
      ledger (s.tokenIn zeroForOne) s.pool - s.resIn zeroForOne = s.balance zeroForOne := by
  have hIn := s.resIn_lt zeroForOne
  have hHeld := s.ledger_resIn zeroForOne
  obtain ⟨ledger, hTransfer⟩ := Ledger.exists_transfer
    (show (s.balance zeroForOne).toNat ≤ (s.ledger (s.tokenIn zeroForOne) s.self).toNat from le_rfl)
    (show (s.ledger (s.tokenIn zeroForOne) s.pool).toNat + (s.balance zeroForOne).toNat < 2 ^ 256 by
      rw [hHeld]
      omega)
  refine ⟨ledger, hTransfer, ?_⟩
  have hSpec := Ledger.transfer_spec hTransfer (s.tokenIn zeroForOne) s.pool
  rw [if_neg (fun h => s.ne h.2.symm), if_pos ⟨rfl, rfl⟩, hHeld, Nat.add_zero] at hSpec
  have hSum : ledger (s.tokenIn zeroForOne) s.pool = s.balance zeroForOne + s.resIn zeroForOne := by
    apply BitVec.eq_of_toNat_eq
    rw [hSpec, BitVec.toNat_add_of_lt (by omega), Nat.add_comm]
  rw [hSum, BitVec.add_sub_cancel]

theorem fee_toNat : (s.balance zeroForOne * 997).toNat = (s.balance zeroForOne).toNat * 997 :=
  BitVec.toNat_mul_of_lt (by
    show (s.balance zeroForOne).toNat * 997 < _
    omega)

theorem numerator_lt :
    (s.balance zeroForOne * 997).toNat * (s.resOut zeroForOne).toNat < 2 ^ 256 := by
  have hOut := s.resOut_lt zeroForOne
  rw [s.fee_toNat hBalance]
  calc (s.balance zeroForOne).toNat * 997 * (s.resOut zeroForOne).toNat
      < 2 ^ 122 * 2 ^ 112 := Nat.mul_lt_mul'' (by omega) hOut
    _ ≤ 2 ^ 256 := by norm_num

theorem numerator_toNat : (s.balance zeroForOne * 997 * s.resOut zeroForOne).toNat =
    (s.balance zeroForOne).toNat * 997 * (s.resOut zeroForOne).toNat := by
  rw [BitVec.toNat_mul_of_lt (s.numerator_lt hBalance), s.fee_toNat hBalance]

theorem denominator_toNat : (s.resIn zeroForOne * 1000 + s.balance zeroForOne * 997).toNat =
    (s.resIn zeroForOne).toNat * 1000 + (s.balance zeroForOne).toNat * 997 := by
  have hIn := s.resIn_lt zeroForOne
  have hFee := s.fee_toNat hBalance
  have hScaled := s.scaled_toNat zeroForOne
  rw [BitVec.toNat_add_of_lt (by omega), hFee, hScaled]

/-- The output rounds to zero where the input buys less than one unit. -/
theorem amountOut_eq_zero : s.amountOut zeroForOne = 0 ↔
    997 * (s.balance zeroForOne).toNat * (s.resOut zeroForOne).toNat <
      1000 * (s.resIn zeroForOne).toNat + 997 * (s.balance zeroForOne).toNat := by
  have hPos := s.resIn_pos zeroForOne
  rw [← BitVec.toNat_inj, amountOut, BitVec.toNat_udiv, s.numerator_toNat hBalance,
    s.denominator_toNat hBalance]
  show _ / _ = 0 ↔ _
  rw [Nat.div_eq_zero_iff]
  have hComm : (s.balance zeroForOne).toNat * 997 = 997 * (s.balance zeroForOne).toNat :=
    Nat.mul_comm _ _
  rw [hComm]
  omega

/-- `_getV2AmountOut` after the transfer measures the whole balance. -/
theorem exec_getV2AmountOut (w : World) {zfo : Nat} (hDir : zeroForOne = decide (zfo ≠ 0))
    (hHeld : w.ledger (s.tokenIn zeroForOne) s.pool - s.resIn zeroForOne = s.balance zeroForOne) :
    ∃ queries, exec (s.answer (s.reserve0, s.reserve1)) (getV2AmountOut s.pool zfo) w =
      (queries, some (s.amountOut zeroForOne, w)) ∧ swapCalls queries = [] := by
  subst hDir
  have hIn : (if zfo ≠ 0 then s.reserve0 else s.reserve1) = s.resIn (decide (zfo ≠ 0)) := by
    simp [resIn]
  have hOut : (if zfo ≠ 0 then s.reserve1 else s.reserve0) = s.resOut (decide (zfo ≠ 0)) := by
    simp [resOut]
  unfold getV2AmountOut
  rw [exec_bind (exec_getReserves s.toPoolWorld _ w)]
  simp only [hIn, hOut]
  rw [exec_bind (exec_getTokenIn s.toPoolWorld _ w zfo),
    exec_bind (exec_balanceOf s.toPoolWorld _ w rfl), hHeld]
  exact ⟨_, rfl, rfl⟩

end PairWorld

theorem swapCalls_append (queries queries' : List Query) :
    swapCalls (queries ++ queries') = swapCalls queries ++ swapCalls queries' :=
  List.filterMap_append

theorem executeV2_swaps (s : PairWorld) (zfo : Nat)
    (hPos : 0 < (s.balance (decide (zfo ≠ 0))).toNat)
    (hBalance : (s.balance (decide (zfo ≠ 0))).toNat < 2 ^ 112) :
    s.swaps (executeV2 s.self s.pool zfo) =
      [(s.pool, .swapV2 (s.amountOut (decide (zfo ≠ 0)))
        (if zfo ≠ 0 then s.amountOut (decide (zfo ≠ 0)) else 0) (addressWord s.self))] := by
  have hRead : s.ledger (s.tokenIn (decide (zfo ≠ 0))) s.self = s.balance (decide (zfo ≠ 0)) := rfl
  have hNonzero := ne_zero_of_pos hPos
  obtain ⟨ledger, hTransfer, hHeld⟩ := s.exists_transfer hBalance
  obtain ⟨queries, hExec, hNone⟩ :=
    s.exec_getV2AmountOut hBalance ⟨ledger, 0⟩ rfl hHeld
  unfold PairWorld.swaps executeV2
  rw [exec_bind_fst (exec_getTokenIn s.toPoolWorld _ _ zfo),
    exec_bind_fst (exec_balanceOf s.toPoolWorld _ _ hRead),
    exec_bind_fst (exec_require hNonzero _),
    exec_bind_fst (exec_transfer s.toPoolWorld _ (w := ⟨s.ledger, 0⟩) hTransfer),
    exec_bind_fst hExec, ShadowBot.swapV2, exec_swap s.toPoolWorld]
  simp only [swapCalls_append, hNone]
  rfl

section Checked

variable {s : PoolWorld} {reserves : U256 × U256} {a b : U256}

theorem exec_checkedMul (h : a.toNat * b.toNat < 2 ^ 256) (w : World) :
    exec (s.answer reserves) (checkedMul a b) w = ([], some (a * b, w)) := by
  rw [checkedMul, exec_bind (exec_require h w)]
  rfl

theorem exec_checkedAdd (h : a.toNat + b.toNat < 2 ^ 256) (w : World) :
    exec (s.answer reserves) (checkedAdd a b) w = ([], some (a + b, w)) := by
  rw [checkedAdd, exec_bind (exec_require h w)]
  rfl

theorem exec_checkedDiv (h : b ≠ 0) (w : World) :
    exec (s.answer reserves) (checkedDiv a b) w = ([], some (a / b, w)) := by
  rw [checkedDiv, exec_bind (exec_require h w)]
  rfl

end Checked

/-- The checked amount of `_swapV2`, in either branch. -/
theorem exec_checkedOut (s : PairWorld) {zeroForOne : Bool}
    (hBalance : (s.balance zeroForOne).toNat < 2 ^ 112) (send : U256 → Script Unit) (w : World) :
    (exec (s.answer (s.reserve0, s.reserve1)) (do
        let numerator ← checkedMul (s.balance zeroForOne * 997) (s.resOut zeroForOne)
        let scaled ← checkedMul (s.resIn zeroForOne) 1000
        let denominator ← checkedAdd scaled (s.balance zeroForOne * 997)
        let amountOut ← checkedDiv numerator denominator
        send amountOut) w).1 =
      (exec (s.answer (s.reserve0, s.reserve1)) (send (s.amountOut zeroForOne)) w).1 := by
  have hIn := s.resIn_lt zeroForOne
  have hPos := s.resIn_pos zeroForOne
  have hFee := s.fee_toNat hBalance
  have hScaled := s.scaled_toNat zeroForOne
  have hThousand : (s.resIn zeroForOne).toNat * (1000 : U256).toNat < 2 ^ 256 := by
    show (s.resIn zeroForOne).toNat * 1000 < _
    omega
  have hSum : (s.resIn zeroForOne * 1000).toNat + (s.balance zeroForOne * 997).toNat < 2 ^ 256 := by
    omega
  have hDenominator : s.resIn zeroForOne * 1000 + s.balance zeroForOne * 997 ≠ 0 := by
    apply ne_zero_of_pos
    rw [s.denominator_toNat hBalance]
    omega
  rw [exec_bind_fst (exec_checkedMul (s.numerator_lt hBalance) w),
    exec_bind_fst (exec_checkedMul hThousand w),
    exec_bind_fst (exec_checkedAdd hSum w),
    exec_bind_fst (exec_checkedDiv hDenominator w)]
  rfl

theorem swapV2_swaps (s : PairWorld) (zeroForOne : Bool)
    (hBalance : (s.balance zeroForOne).toNat < 2 ^ 112) :
    s.swaps (swapV2 s.self s.pool zeroForOne) =
      [(s.pool, .swapV2 (if zeroForOne then 0 else s.amountOut zeroForOne)
        (if zeroForOne then s.amountOut zeroForOne else 0) (addressWord s.self))] := by
  have hRead : s.ledger (s.tokenIn zeroForOne) s.self = s.balance zeroForOne := rfl
  have hFee : (s.balance zeroForOne).toNat * (997 : U256).toNat < 2 ^ 256 := by
    show (s.balance zeroForOne).toNat * 997 < _
    omega
  obtain ⟨ledger, hTransfer, _⟩ := s.exists_transfer hBalance
  unfold PairWorld.swaps swapV2
  rw [exec_bind_fst (exec_pairReserves s.toPoolWorld _ _ s.reserve0_lt s.reserve1_lt),
    exec_bind_fst (exec_poolToken s.toPoolWorld _ _ zeroForOne),
    exec_bind_fst (exec_balanceOf s.toPoolWorld _ _ hRead),
    exec_bind_fst (exec_safeTransfer s.toPoolWorld _ (w := ⟨s.ledger, 0⟩) hTransfer),
    exec_bind_fst (exec_checkedMul hFee _)]
  cases zeroForOne with
  | true =>
      have hOut := exec_checkedOut s hBalance
        (fun amountOut => callOrRevert (.swap s.pool (.swapV2 0 amountOut (addressWord s.self))))
        ⟨ledger, 0⟩
      have hSwap := exec_swap s.toPoolWorld (s.reserve0, s.reserve1) ⟨ledger, 0⟩
        (.swapV2 0 (s.amountOut true) (addressWord s.self))
      rw [hSwap] at hOut
      simp only [PairWorld.resIn, PairWorld.resOut, if_true] at hOut ⊢
      rw [hOut]
      rfl
  | false =>
      have hOut := exec_checkedOut s hBalance
        (fun amountOut => callOrRevert (.swap s.pool (.swapV2 amountOut 0 (addressWord s.self))))
        ⟨ledger, 0⟩
      have hSwap := exec_swap s.toPoolWorld (s.reserve0, s.reserve1) ⟨ledger, 0⟩
        (.swapV2 (s.amountOut false) 0 (addressWord s.self))
      rw [hSwap] at hOut
      simp only [PairWorld.resIn, PairWorld.resOut, Bool.false_eq_true, if_false] at hOut ⊢
      rw [hOut]
      rfl

/-! ## Agreement -/

/-- The V2 calls differ in the amount that `_executeV2` also asks for on the input's side. -/
theorem executeV2_agrees_iff (s : PairWorld) (zfo : Nat)
    (hPos : 0 < (s.balance (decide (zfo ≠ 0))).toNat)
    (hBalance : (s.balance (decide (zfo ≠ 0))).toNat < 2 ^ 112) :
    s.swaps (executeV2 s.self s.pool zfo) =
        s.swaps (swapV2 s.self s.pool (decide (zfo ≠ 0))) ↔
      zfo = 0 ∨ s.amountOut (decide (zfo ≠ 0)) = 0 := by
  rw [executeV2_swaps s zfo hPos hBalance, swapV2_swaps s _ hBalance]
  by_cases hDir : zfo = 0
  · simp [hDir]
  · simp [hDir]

/-- The V3 calls differ in the sign of the amount. -/
theorem executeV3_disagrees (s : PoolWorld) (zfo : Nat)
    (hPos : 0 < (s.balance (decide (zfo ≠ 0))).toNat)
    (hBalance : (s.balance (decide (zfo ≠ 0))).toNat < 2 ^ 112) :
    s.swaps (executeV3 s.self s.pool zfo) ≠
      s.swaps (swapV3 s.self s.pool (decide (zfo ≠ 0))) := by
  rw [executeV3_swaps s zfo hPos, swapV3_swaps s]
  intro hEq
  simp only [List.cons.injEq, Prod.mk.injEq, PoolCall.swapV3.injEq] at hEq
  have hSign := congrArg BitVec.toNat hEq.1.2.2.2.1
  have hZero : (0 : U256).toNat = 0 := rfl
  rw [BitVec.toNat_sub, hZero] at hSign
  omega

/-- **Agreement of the two paths.**  On V2 they make the same call from token 1 to token 0,
and the other way only where the output rounds to zero; on V3 they never do. -/
theorem swaps_iff (pair : PairWorld) (pool : PoolWorld) (zfo : Nat)
    (hPair : 0 < (pair.balance (decide (zfo ≠ 0))).toNat)
    (hPair' : (pair.balance (decide (zfo ≠ 0))).toNat < 2 ^ 112)
    (hPool : 0 < (pool.balance (decide (zfo ≠ 0))).toNat)
    (hPool' : (pool.balance (decide (zfo ≠ 0))).toNat < 2 ^ 112) :
    (∀ execute ∈ [executeV2 pair.self pair.pool zfo, executeV2Mem pair.self pair.pool zfo],
      pair.swaps execute = pair.swaps (swapV2 pair.self pair.pool (decide (zfo ≠ 0))) ↔
        zfo = 0 ∨
          997 * (pair.balance (decide (zfo ≠ 0))).toNat *
              (pair.resOut (decide (zfo ≠ 0))).toNat <
            1000 * (pair.resIn (decide (zfo ≠ 0))).toNat +
              997 * (pair.balance (decide (zfo ≠ 0))).toNat) ∧
    ∀ execute ∈ [executeV3 pool.self pool.pool zfo, executeV3Mem pool.self pool.pool zfo],
      pool.swaps execute ≠ pool.swaps (swapV3 pool.self pool.pool (decide (zfo ≠ 0))) := by
  constructor
  · intro execute hMem
    have hCode : execute = executeV2 pair.self pair.pool zfo := by
      simpa [executeV2Mem] using hMem
    rw [hCode, executeV2_agrees_iff pair zfo hPair hPair', pair.amountOut_eq_zero hPair']
  · intro execute hMem
    have hCode : execute = executeV3 pool.self pool.pool zfo := by
      simpa [executeV3Mem] using hMem
    rw [hCode]
    exact executeV3_disagrees pool zfo hPool hPool'

/-- A pair that holds 1000 of each token, and a bot that holds 100. -/
def examplePair : PairWorld where
  self := 1
  pool := 2
  token0 := 3
  token1 := 4
  ledger := fun _ holder => if holder = 2 then 1000 else if holder = 1 then 100 else 0
  ne := by decide
  reserve0 := 1000
  reserve1 := 1000
  reserve0_pos := by decide
  reserve1_pos := by decide
  reserve0_lt := by decide
  reserve1_lt := by decide
  reserve0_eq := by decide
  reserve1_eq := by decide

theorem swaps_iff_example :
    (examplePair.swaps (executeV2 1 2 0) = examplePair.swaps (swapV2 1 2 false)) ∧
      examplePair.toPoolWorld.swaps (executeV3 1 2 0) ≠
        examplePair.toPoolWorld.swaps (swapV3 1 2 false) := by
  obtain ⟨hV2, hV3⟩ := swaps_iff examplePair examplePair.toPoolWorld 0 (by decide) (by decide)
    (by decide) (by decide)
  exact ⟨(hV2 _ (by simp [examplePair])).mpr (.inl rfl), hV3 _ (by simp [examplePair])⟩

/-- From token 0 the Yul path asks for 90 of both tokens; on V3 it asks for `-100`. -/
theorem swaps_differ :
    (examplePair.swaps (executeV2 1 2 1) = [(2, .swapV2 90 90 1)] ∧
      examplePair.swaps (swapV2 1 2 true) = [(2, .swapV2 0 90 1)]) ∧
    examplePair.toPoolWorld.swaps (executeV3 1 2 1) ≠
      examplePair.toPoolWorld.swaps (swapV3 1 2 true) := by
  decide

end SovereignShadow.Ports.SwapPaths
