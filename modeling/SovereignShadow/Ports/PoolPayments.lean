import SovereignShadow.Ports.ExecutorHops
import SovereignShadow.Ports.V2Execution

/-!
# Who pays the pools

`Executor` pays its first pool before the loop, and every later pool by naming it as the
recipient of the hop before.  That is all a V2 pool needs.  A V3 pool then asks for its
input in `uniswapV3SwapCallback`, and is paid a second time.  The pools of this module do
what they should: each sends its output to the recipient that it is given, and a V3 pool
calls back for exactly its input.

## Main results

* `result_swapV2`, `result_swapV3` — one turn of the loop on such pools.
* `received_run` — what a completed loop has paid: each hop once, each V3 hop once more.
* `paysOnce_iff` — when every pool is paid exactly once.
* `not_paysOnce` — a V3 pool that is paid twice.
-/

namespace SovereignShadow.Ports.PoolPayments

open SovereignShadow.Verified.Bytes
open SovereignShadow.Verified.Callback
open SovereignShadow.Verified.Callback.Prog
open SovereignShadow.Ports.Models
open SovereignShadow.Ports.Evm
open SovereignShadow.Ports.Chain
open SovereignShadow.Ports.ExecutorContract
open SovereignShadow.Ports.ExecutorHops
open SovereignShadow.Ports.V2Execution

/-! ## Payments -/

structure Payment where
  token : Address
  dst : Address
  amount : U256
  deriving DecidableEq, Repr

/-- What a holder receives of a token. -/
def received (payments : List Payment) (holder token : Address) : ℕ :=
  (payments.map fun p => if p.dst = holder ∧ p.token = token then p.amount.toNat else 0).sum

@[simp] theorem received_nil (holder token : Address) : received [] holder token = 0 := rfl

theorem received_cons (p : Payment) (payments : List Payment) (holder token : Address) :
    received (p :: payments) holder token =
      received [p] holder token + received payments holder token := by
  simp [received]

theorem received_zero_amount (token' dst holder token : Address) :
    received [⟨token', dst, 0⟩] holder token = 0 := by simp [received]

theorem received_other {p : Payment} {holder : Address} (h : p.dst ≠ holder) (token : Address) :
    received [p] holder token = 0 := by simp [received, h]

/-! ## Pools that behave -/

/-- The transient slot, and the payments so far, the last one first. -/
structure PayWorld where
  activePool : U256
  paid : List Payment

def PayWorld.pay (w : PayWorld) (p : Payment) : PayWorld := { w with paid := p :: w.paid }

/-- The pools and tokens: what they answer may depend on everything paid before. -/
structure Market where
  token0 : Address → Address
  token1 : Address → Address
  /-- Whether a token takes a transfer of the contract. -/
  accepts : PayWorld → Payment → Bool
  reserves : PayWorld → Address → U256 × U256
  liquid : ∀ w pool, (reserves w pool).1 * (reserves w pool).2 ≠ 0
  /-- The output of a V3 pool for an input. -/
  v3Output : PayWorld → Address → Bool → U256 → U256
  v3Output_lt : ∀ w pool zeroForOne amountIn,
    (v3Output w pool zeroForOne amountIn).toNat < 2 ^ 255

namespace Market

variable (market : Market)

/-- The side that a pool is paid on. -/
def tokenIn (pool : Address) (zeroForOne : Bool) : Address :=
  if zeroForOne then market.token0 pool else market.token1 pool

/-- The side that it pays on. -/
def tokenOut (pool : Address) (zeroForOne : Bool) : Address :=
  if zeroForOne then market.token1 pool else market.token0 pool

/-- Tokens, reserves and the transient slot. -/
def answerPlain : Query → PayWorld → Reply × PayWorld
  | .tstore value, w => (⟨true, 0, 0, 0⟩, { w with activePool := value })
  | .tload, w => (.ofWord w.activePool, w)
  | .transfer token dst value, w =>
      if market.accepts w ⟨token, dst, value⟩ then (.ofWord 1, w.pay ⟨token, dst, value⟩)
      else (.failed, w)
  | .getter pool .getReserves, w =>
      (⟨true, 96, (market.reserves w pool).1, (market.reserves w pool).2⟩, w)
  | _, w => (.failed, w)

/-- A V2 pool sends what it is asked for; nothing of one token is no payment. -/
def swapV2Of (pool : Address) (amount0Out amount1Out : U256) (recipient : Address)
    (w : PayWorld) : Reply × PayWorld :=
  (⟨true, 0, 0, 0⟩,
    (w.pay ⟨market.token0 pool, recipient, amount0Out⟩).pay
      ⟨market.token1 pool, recipient, amount1Out⟩)

/-- A V3 pool sends its output, calls back with the two deltas and the data, and fails if the
call back does, or if the amount is no input. -/
def swapV3Of (ctx : Context) (pool : Address) (recipient : Address) (zeroForOne : Bool)
    (amountIn tokenWord : U256) (w : PayWorld) : Reply × PayWorld :=
  if (0 : U256).slt amountIn then
    let out := market.v3Output w pool zeroForOne amountIn
    let amount0 := if zeroForOne then amountIn else 0 - out
    let amount1 := if zeroForOne then 0 - out else amountIn
    let sent := w.pay ⟨market.tokenOut pool zeroForOne, recipient, out⟩
    match result market.answerPlain
        (uniswapV3SwapCallback { ctx with sender := pool } amount0 amount1 tokenWord) sent with
    | none => (.failed, w)
    | some after => (⟨true, 64, amount0, amount1⟩, after.2)
  else (.failed, w)

/-- The answers to the contract. -/
def answer (ctx : Context) : Query → PayWorld → Reply × PayWorld
  | .swap pool (.swapV2 amount0Out amount1Out recipient), w =>
      market.swapV2Of pool amount0Out amount1Out (toAddress recipient) w
  | .swap pool (.swapV3 recipient zeroForOne amountSpecified _ data), w =>
      market.swapV3Of ctx pool (toAddress recipient) (decide (zeroForOne ≠ 0)) amountSpecified
        (data.headD 0) w
  | q, w => market.answerPlain q w

end Market

/-! ## What each hop is due -/

section Dues

variable (market : Market) (self : Address)

/-- The output of a hop. -/
def outputOf (w : PayWorld) (hop : PackedHop) (amountIn : U256) : U256 :=
  if hop.dexType = 0 then
    amountOut
      (if hop.zeroForOne then (market.reserves w hop.pool).1 else (market.reserves w hop.pool).2)
      (if hop.zeroForOne then (market.reserves w hop.pool).2 else (market.reserves w hop.pool).1)
      amountIn
  else market.v3Output w hop.pool hop.zeroForOne amountIn

/-- The input of a hop, paid to its pool. -/
def dueOf (hop : PackedHop) (amountIn : U256) : Payment :=
  ⟨market.tokenIn hop.pool hop.zeroForOne, hop.pool, amountIn⟩

/-- The world once the loop has stored the hop's pool. -/
def atHop (w : PayWorld) (hop : PackedHop) : PayWorld :=
  { w with activePool := addressWord hop.pool }

/-- The world after a turn: the output is sent, and a V3 pool is paid. -/
def afterTurn (w : PayWorld) (hop : PackedHop) (recipient : Address) (amountIn : U256) :
    PayWorld :=
  let w := atHop w hop
  let out := outputOf market w hop amountIn
  if hop.dexType = 0 then
    (market.swapV2Of hop.pool (if hop.zeroForOne then 0 else out)
      (if hop.zeroForOne then out else 0) recipient w).2
  else
    (w.pay ⟨market.tokenOut hop.pool hop.zeroForOne, recipient, out⟩).pay
      (dueOf market hop amountIn)

/-- The hops with what their pools are due, along the run of the loop. -/
def dues : PayWorld → List PackedHop → U256 → List (PackedHop × Payment)
  | _, [], _ => []
  | w, hop :: rest, amountIn =>
      (hop, dueOf market hop amountIn) ::
        dues (afterTurn market w hop (recipientOf self rest) amountIn) rest
          (outputOf market (atHop w hop) hop amountIn)

/-- What pools are due for all their hops. -/
def due (hops : List (PackedHop × Payment)) : List Payment := hops.map Prod.snd

/-- What V3 pools are due. -/
def dueV3 (hops : List (PackedHop × Payment)) : List Payment :=
  due (hops.filter fun hop => hop.1.dexType ≠ 0)

/-- The tokens of the path: each hop is paid in what the hop before it pays out. -/
def Conforms : Address → List PackedHop → Prop
  | _, [] => True
  | tokenIn, hop :: rest =>
      tokenIn = market.tokenIn hop.pool hop.zeroForOne ∧
        hop.tokenOut = market.tokenOut hop.pool hop.zeroForOne ∧ Conforms hop.tokenOut rest

end Dues

/-! ## Signed words -/

theorem toInt_zero : (0 : U256).toInt = 0 := rfl

theorem toInt_zero_sub {out : U256} (hOut : out.toNat < 2 ^ 255) :
    ((0 : U256) - out).toInt = -(out.toNat : ℤ) := by
  have hSub : ((0 : U256) - out).toNat = (2 ^ 256 - out.toNat) % 2 ^ 256 := by
    rw [BitVec.toNat_sub]
    simp
  rw [BitVec.toInt_eq_toNat_cond, hSub]
  by_cases hZero : out.toNat = 0
  · rw [hZero]
    norm_num
  · rw [Nat.mod_eq_of_lt (by omega), if_neg (by omega)]
    omega

theorem toInt_of_pos {amountIn : U256} (hIn : (0 : U256).slt amountIn = true) :
    0 < amountIn.toNat ∧ amountIn.toInt = amountIn.toNat := by
  rw [BitVec.slt_iff_toInt_lt, toInt_zero, BitVec.toInt_eq_toNat_cond] at hIn
  have hLt := amountIn.isLt
  rw [BitVec.toInt_eq_toNat_cond]
  split at hIn
  · rename_i hHalf
    rw [if_pos hHalf]
    omega
  · omega

/-- The contract finds the output in the deltas of an input and an output. -/
theorem readDeltas {amountIn out : U256} (hIn : (0 : U256).slt amountIn = true)
    (hOut : out.toNat < 2 ^ 255) (zeroForOne : Bool) :
    let a0 := if zeroForOne then amountIn else 0 - out
    let a1 := if zeroForOne then 0 - out else amountIn
    let amount := if a1.slt a0 then a1 else a0
    (if amount.slt 0 then 0 - amount else amount) = out := by
  obtain ⟨hPos, hInt⟩ := toInt_of_pos hIn
  have hNeg := toInt_zero_sub hOut
  have hSmaller : (0 - out).slt amountIn = true := by
    rw [BitVec.slt_iff_toInt_lt, hNeg, hInt]
    omega
  have hLarger : amountIn.slt (0 - out) = false := by
    rw [Bool.eq_false_iff, ne_eq, BitVec.slt_iff_toInt_lt, hNeg, hInt]
    omega
  have hSign : (if (0 - out).slt 0 then 0 - (0 - out) else 0 - out) = out := by
    by_cases hZero : out = 0
    · subst hZero
      rfl
    · have hPosOut : out.toNat ≠ 0 := by
        intro h
        exact hZero (BitVec.eq_of_toNat_eq h)
      have hBelow : (0 - out).slt 0 = true := by
        rw [BitVec.slt_iff_toInt_lt, hNeg, toInt_zero]
        omega
      rw [if_pos hBelow]
      simp
  cases zeroForOne with
  | true =>
      have hPick : (if (0 - out).slt amountIn then 0 - out else amountIn) = 0 - out :=
        if_pos hSmaller
      show (if (if (0 - out).slt amountIn then 0 - out else amountIn).slt 0 then
        0 - (if (0 - out).slt amountIn then 0 - out else amountIn)
        else if (0 - out).slt amountIn then 0 - out else amountIn) = out
      rw [hPick]
      exact hSign
  | false =>
      have hPick : (if amountIn.slt (0 - out) then amountIn else 0 - out) = 0 - out :=
        if_neg (by rw [hLarger]; exact Bool.false_ne_true)
      show (if (if amountIn.slt (0 - out) then amountIn else 0 - out).slt 0 then
        0 - (if amountIn.slt (0 - out) then amountIn else 0 - out)
        else if amountIn.slt (0 - out) then amountIn else 0 - out) = out
      rw [hPick]
      exact hSign

/-- The callback pays the delta that is an input. -/
theorem callbackAmount {amountIn out : U256} (hIn : (0 : U256).slt amountIn = true)
    (hOut : out.toNat < 2 ^ 255) (zeroForOne : Bool) :
    let amount0 := if zeroForOne then amountIn else 0 - out
    let amount1 := if zeroForOne then 0 - out else amountIn
    (if (0 : U256).slt amount1 then amount1 else amount0) = amountIn := by
  cases zeroForOne with
  | true =>
      have hBelow : (0 : U256).slt (0 - out) = false := by
        rw [Bool.eq_false_iff, ne_eq, BitVec.slt_iff_toInt_lt, toInt_zero_sub hOut,
          toInt_zero]
        omega
      show (if (0 : U256).slt (0 - out) then 0 - out else amountIn) = amountIn
      exact if_neg (by rw [hBelow]; exact Bool.false_ne_true)
  | false => exact if_pos hIn

/-! ## One turn -/

section Turn

variable {market : Market} {ctx : Context} {w : PayWorld}

theorem result_callOrRevert (answer : Query → PayWorld → Reply × PayWorld) (q : Query) :
    result answer (callOrRevert q) w =
      if (answer q w).1.success then some ((), (answer q w).2) else none :=
  result_guarded q (fun reply : Reply => reply.success = true) w

/-- The callback to the pool that is active transfers the input. -/
theorem result_callback {pool token : Address} {amount0 amount1 amountIn : U256}
    (hActive : w.activePool = addressWord pool)
    (hAmount : (if (0 : U256).slt amount1 then amount1 else amount0) = amountIn) :
    result market.answerPlain
        (uniswapV3SwapCallback { ctx with sender := pool } amount0 amount1 (addressWord token)) w =
      if market.accepts w ⟨token, pool, amountIn⟩ then some ((), w.pay ⟨token, pool, amountIn⟩)
      else none := by
  unfold uniswapV3SwapCallback
  rw [result_bind, result_query, Option.bind_some, result_bind, result_require,
    if_pos (show addressWord ({ ctx with sender := pool } : Context).sender =
      (market.answerPlain .tload w).1.word0 from hActive.symm), Option.bind_some,
    toAddress_addressWord]
  dsimp only
  rw [hAmount, result_callOrRevert]
  by_cases hAccepts : market.accepts w ⟨token, pool, amountIn⟩ = true
  · simp [Market.answerPlain, hAccepts, Reply.ofWord]
  · simp [Market.answerPlain, hAccepts, Reply.failed]

variable {hop : PackedHop} {recipient : Address} {amountIn : U256} {ptr : Nat}

theorem directionWord (zeroForOne : Bool) :
    decide (BitVec.ofNat 256 (boolByte zeroForOne).toNat ≠ 0) = zeroForOne := by
  cases zeroForOne with
  | true => rfl
  | false => rfl

theorem answer_swapV2 (pool : Address) (amount0Out amount1Out : U256) :
    market.answer ctx (.swap pool (.swapV2 amount0Out amount1Out (addressWord recipient))) w =
      market.swapV2Of pool amount0Out amount1Out recipient w := by
  rw [Market.answer, toAddress_addressWord]

/-- A V3 pool that is the active one, and its callback. -/
theorem answer_swapV3 {tokenIn : Address} {limit : U256} :
    market.answer ctx (.swap hop.pool (.swapV3 (addressWord recipient)
        (BitVec.ofNat 256 (boolByte hop.zeroForOne).toNat) amountIn limit
        [addressWord tokenIn])) (atHop w hop) =
      market.swapV3Of ctx hop.pool recipient hop.zeroForOne amountIn (addressWord tokenIn)
        (atHop w hop) := by
  rw [Market.answer, toAddress_addressWord, directionWord]
  rfl

/-- A V3 pool replies with success only after it was paid, with the deltas of its swap. -/
theorem swapV3Of_success {tokenIn : Address}
    (h : (market.swapV3Of ctx hop.pool recipient hop.zeroForOne amountIn (addressWord tokenIn)
      (atHop w hop)).1.success = true) :
    (0 : U256).slt amountIn = true ∧
      market.swapV3Of ctx hop.pool recipient hop.zeroForOne amountIn (addressWord tokenIn)
          (atHop w hop) =
        (⟨true, 64,
            if hop.zeroForOne then amountIn
            else 0 - market.v3Output (atHop w hop) hop.pool hop.zeroForOne amountIn,
            if hop.zeroForOne then
              0 - market.v3Output (atHop w hop) hop.pool hop.zeroForOne amountIn
            else amountIn⟩,
          ((atHop w hop).pay ⟨market.tokenOut hop.pool hop.zeroForOne, recipient,
              market.v3Output (atHop w hop) hop.pool hop.zeroForOne amountIn⟩).pay
            ⟨tokenIn, hop.pool, amountIn⟩) := by
  by_cases hIn : (0 : U256).slt amountIn = true
  · refine ⟨hIn, ?_⟩
    have hOut := market.v3Output_lt (atHop w hop) hop.pool hop.zeroForOne amountIn
    unfold Market.swapV3Of at h ⊢
    rw [if_pos hIn] at h ⊢
    dsimp only at h ⊢
    rw [result_callback rfl (callbackAmount hIn hOut hop.zeroForOne)] at h ⊢
    split at h
    · exact absurd h (by simp [Reply.failed])
    · rename_i after hPaid
      split at hPaid
      · obtain rfl := Option.some.inj hPaid
        rfl
      · exact absurd hPaid (by simp)
  · unfold Market.swapV3Of at h
    rw [if_neg hIn] at h
    exact absurd h (by simp [Reply.failed])

/-- A V2 turn succeeds through a pointer that can be paid for. -/
theorem result_swapV2 (hType : hop.dexType = 0) :
    result (market.answer ctx) (swapV2 (addressWord hop.pool) (addressWord recipient)
        (boolByte hop.zeroForOne).toNat amountIn ptr) (atHop w hop) =
      if ptr < 2 ^ 64 then
        some (outputOf market (atHop w hop) hop amountIn,
          afterTurn market w hop recipient amountIn)
      else none := by
  have hReserves : market.answer ctx (.getter hop.pool .getReserves) (atHop w hop) =
      (⟨true, 96, (market.reserves (atHop w hop) hop.pool).1,
        (market.reserves (atHop w hop) hop.pool).2⟩, atHop w hop) := rfl
  unfold swapV2
  rw [result_bind, result_query, Option.bind_some, result_bind, result_require,
    toAddress_addressWord, hReserves]
  dsimp only
  rw [if_pos rfl, Option.bind_some, result_bind, result_require,
    if_pos (market.liquid (atHop w hop) hop.pool), Option.bind_some, result_bind, touch,
    result_require]
  by_cases hPtr : ptr < 2 ^ 64
  · rw [if_pos hPtr, if_pos hPtr, Option.bind_some, result_bind, result_callOrRevert,
      answer_swapV2]
    simp only [outputOf, afterTurn, if_pos hType]
    cases hop.zeroForOne with
    | true => rfl
    | false => rfl
  · rw [if_neg hPtr, if_neg hPtr, Option.bind_none]

/-- A V3 turn that succeeds has paid for its input in the callback. -/
theorem result_swapV3 {tokenIn : Address} {after : U256 × PayWorld} (hType : hop.dexType ≠ 0)
    (hToken : tokenIn = market.tokenIn hop.pool hop.zeroForOne)
    (h : result (market.answer ctx) (swapV3 (addressWord hop.pool) (addressWord recipient)
        (boolByte hop.zeroForOne).toNat amountIn (addressWord tokenIn) ptr) (atHop w hop) =
      some after) :
    ptr < 2 ^ 64 ∧ 0 < amountIn.toNat ∧
      after = (outputOf market (atHop w hop) hop amountIn,
        afterTurn market w hop recipient amountIn) := by
  unfold swapV3 at h
  rw [result_bind, touch, result_require] at h
  by_cases hPtr : ptr < 2 ^ 64
  · rw [if_pos hPtr, Option.bind_some, result_bind, result_query, Option.bind_some,
      toAddress_addressWord, answer_swapV3, result_bind, result_require] at h
    by_cases hSuccess : (market.swapV3Of ctx hop.pool recipient hop.zeroForOne amountIn
        (addressWord tokenIn) (atHop w hop)).1.success = true
    · obtain ⟨hIn, hReply⟩ := swapV3Of_success hSuccess
      have hOut := market.v3Output_lt (atHop w hop) hop.pool hop.zeroForOne amountIn
      rw [if_pos hSuccess, Option.bind_some, hReply] at h
      dsimp only at h
      rw [result_bind, result_require, if_pos le_rfl, Option.bind_some, result_pure,
        readDeltas hIn hOut hop.zeroForOne] at h
      refine ⟨hPtr, (toInt_of_pos hIn).1, ?_⟩
      rw [← Option.some.inj h]
      simp only [outputOf, afterTurn, if_neg hType, hToken]
      rfl
    · rw [if_neg hSuccess] at h
      exact absurd h (by simp)
  · rw [if_neg hPtr] at h
    exact absurd h (by simp)

end Turn

/-! ## The loop -/

/-- The input of the first hop. -/
def firstDue (market : Market) (hops : List PackedHop) (amountIn : U256) : List Payment :=
  (hops.head?.map fun hop => dueOf market hop amountIn).toList

/-- The world once the first pool is paid. -/
def started (market : Market) (hops : List PackedHop) (amountIn : U256) (w : PayWorld) :
    PayWorld := { w with paid := firstDue market hops amountIn ++ w.paid }

/-- A turn pays its output, and a V3 turn its input. -/
theorem received_afterTurn (market : Market) (w : PayWorld) (hop : PackedHop)
    (recipient : Address) (amountIn : U256) (holder token : Address) :
    received (afterTurn market w hop recipient amountIn).paid holder token =
      received w.paid holder token +
        received [⟨market.tokenOut hop.pool hop.zeroForOne, recipient,
          outputOf market (atHop w hop) hop amountIn⟩] holder token +
        if hop.dexType = 0 then 0 else received [dueOf market hop amountIn] holder token := by
  by_cases hType : hop.dexType = 0
  · simp only [afterTurn, if_pos hType, Market.swapV2Of, PayWorld.pay, atHop, Market.tokenOut]
    rw [received_cons, received_cons ⟨market.token0 hop.pool, recipient, _⟩]
    cases hop.zeroForOne with
    | true =>
        rw [if_pos rfl, if_pos rfl, if_pos rfl, received_zero_amount]
        omega
    | false =>
        rw [if_neg Bool.false_ne_true, if_neg Bool.false_ne_true, if_neg Bool.false_ne_true,
          received_zero_amount]
        omega
  · simp only [afterTurn, if_neg hType, PayWorld.pay]
    rw [received_cons, received_cons ⟨market.tokenOut hop.pool hop.zeroForOne, recipient, _⟩]
    simp only [outputOf, if_neg hType, atHop]
    omega

section Loop

variable {market : Market} {ctx : Context} {ptr : Nat}

/-- The turn begins with the hop's pool in the transient slot. -/
theorem result_store (hop : PackedHop) (w : PayWorld) :
    result (market.answer ctx) (callOrRevert (.tstore (addressWord hop.pool))) w =
      some ((), atHop w hop) :=
  result_callOrRevert (market.answer ctx) _

/-- **One turn of the loop** that completes, V2 or V3. -/
theorem run_cons {hop : PackedHop} {rest : List PackedHop} {amountIn : U256} {tokenIn : Address}
    {w w' : PayWorld} (hToken : tokenIn = market.tokenIn hop.pool hop.zeroForOne)
    (h : result (market.answer ctx) (runReads ptr (packedReads ctx.self (hop :: rest)) amountIn
      (addressWord tokenIn)) w = some ((), w')) :
    ptr < 2 ^ 64 ∧ (hop.dexType ≠ 0 → 0 < amountIn.toNat) ∧
      result (market.answer ctx) (runReads ptr (packedReads ctx.self rest)
          (outputOf market (atHop w hop) hop amountIn) (addressWord hop.tokenOut))
        (afterTurn market w hop (recipientOf ctx.self rest) amountIn) = some ((), w') := by
  rw [packedReads, runReads, result_bind, result_store, Option.bind_some] at h
  dsimp only at h
  by_cases hType : hop.dexType = 0
  · rw [if_pos (by rw [hType]; rfl), result_bind, result_swapV2 hType] at h
    by_cases hPtr : ptr < 2 ^ 64
    · rw [if_pos hPtr] at h
      exact ⟨hPtr, fun hV3 => absurd hType hV3, h⟩
    · rw [if_neg hPtr] at h
      exact absurd h (by simp)
  · have hCase : ¬ hop.dexType.toNat = 0 := fun hZero => hType (UInt8.toNat_inj.mp hZero)
    rw [if_neg hCase, result_bind] at h
    cases hTurn : result (market.answer ctx) (swapV3 (addressWord hop.pool)
        (addressWord (recipientOf ctx.self rest)) (boolByte hop.zeroForOne).toNat amountIn
        (addressWord tokenIn) ptr) (atHop w hop) with
    | none =>
        rw [hTurn] at h
        exact absurd h (by simp)
    | some after =>
        obtain ⟨hPtr, hPos, rfl⟩ := result_swapV3 hType hToken hTurn
        rw [hTurn] at h
        exact ⟨hPtr, fun _ => hPos, h⟩

/-- A V2 loop through a pointer that can be paid for completes. -/
theorem run_completes (hPtr : ptr < 2 ^ 64) {hops : List PackedHop}
    (hV2 : ∀ hop ∈ hops, hop.dexType = 0) (amountIn tokenIn : U256) (w : PayWorld) :
    ∃ w', result (market.answer ctx) (runReads ptr (packedReads ctx.self hops) amountIn tokenIn)
      w = some ((), w') := by
  induction hops generalizing amountIn tokenIn w with
  | nil => exact ⟨w, rfl⟩
  | cons hop rest ih =>
      have hType : hop.dexType = 0 := hV2 hop (by simp)
      rw [packedReads, runReads, result_bind, result_store, Option.bind_some]
      dsimp only
      rw [if_pos (by rw [hType]; rfl), result_bind, result_swapV2 hType, if_pos hPtr,
        Option.bind_some]
      exact ih (fun next hNext => hV2 next (List.mem_cons_of_mem _ hNext)) _ _ _

variable {hops : List PackedHop}

/-- **What a completed loop has paid.**  With the first hop paid before it, each hop's pool
received its input, and each V3 pool received it again. -/
theorem received_run (hSelf : ∀ hop ∈ hops, hop.pool ≠ ctx.self) {amountIn : U256}
    {tokenIn : Address} (hConforms : Conforms market tokenIn hops) {w w' : PayWorld}
    (h : result (market.answer ctx) (runReads ptr (packedReads ctx.self hops) amountIn
      (addressWord tokenIn)) w = some ((), w'))
    {holder : Address} (hHolder : holder ≠ ctx.self) (token : Address) :
    received w'.paid holder token + received (firstDue market hops amountIn) holder token =
      received w.paid holder token +
        received (due (dues market ctx.self w hops amountIn)) holder token +
        received (dueV3 (dues market ctx.self w hops amountIn)) holder token := by
  induction hops generalizing amountIn tokenIn w with
  | nil =>
      obtain rfl : w = w' := (Prod.mk.inj (Option.some.inj h)).2
      rfl
  | cons hop rest ih =>
      obtain ⟨hToken, hOut, hRest⟩ := hConforms
      obtain ⟨_, _, hRun⟩ := run_cons hToken h
      have hPaid := ih (fun next hNext => hSelf next (List.mem_cons_of_mem _ hNext)) hRest hRun
      rw [received_afterTurn] at hPaid
      -- the output is the next hop's input, or goes to the contract
      have hForwarded : received [⟨market.tokenOut hop.pool hop.zeroForOne,
            recipientOf ctx.self rest, outputOf market (atHop w hop) hop amountIn⟩] holder token =
          received (firstDue market rest (outputOf market (atHop w hop) hop amountIn))
            holder token := by
        cases rest with
        | nil => exact received_other hHolder.symm token
        | cons next more =>
            rw [← hOut, hRest.1]
            rfl
      rw [hForwarded] at hPaid
      have hDue : received (due (dues market ctx.self w (hop :: rest) amountIn)) holder token =
          received [dueOf market hop amountIn] holder token +
            received (due (dues market ctx.self
              (afterTurn market w hop (recipientOf ctx.self rest) amountIn) rest
              (outputOf market (atHop w hop) hop amountIn))) holder token :=
        received_cons _ _ _ _
      have hDueV3 : received (dueV3 (dues market ctx.self w (hop :: rest) amountIn)) holder token =
          (if hop.dexType = 0 then 0 else received [dueOf market hop amountIn] holder token) +
            received (dueV3 (dues market ctx.self
              (afterTurn market w hop (recipientOf ctx.self rest) amountIn) rest
              (outputOf market (atHop w hop) hop amountIn))) holder token := by
        by_cases hType : hop.dexType = 0
        · simp [dueV3, dues, hType]
        · rw [if_neg hType, ← received_cons]
          simp [dueV3, due, dues, hType]
      have hFirst : received (firstDue market (hop :: rest) amountIn) holder token =
          received [dueOf market hop amountIn] holder token := rfl
      rw [hDue, hDueV3, hFirst]
      omega

/-- In a completed loop every V3 hop is due a positive amount. -/
theorem dues_pos {amountIn : U256} {tokenIn : Address} (hConforms : Conforms market tokenIn hops)
    {w w' : PayWorld}
    (h : result (market.answer ctx) (runReads ptr (packedReads ctx.self hops) amountIn
      (addressWord tokenIn)) w = some ((), w'))
    {hop : PackedHop} (hHop : hop ∈ hops) (hType : hop.dexType ≠ 0) :
    ∃ p ∈ dueV3 (dues market ctx.self w hops amountIn), p.dst = hop.pool ∧
      0 < p.amount.toNat := by
  induction hops generalizing amountIn tokenIn w with
  | nil => simp at hHop
  | cons first rest ih =>
      obtain ⟨hToken, _, hRest⟩ := hConforms
      obtain ⟨_, hPos, hRun⟩ := run_cons hToken h
      rcases List.mem_cons.mp hHop with rfl | hLater
      · refine ⟨dueOf market hop amountIn, ?_, rfl, hPos hType⟩
        simp [dueV3, due, dues, hType]
      · obtain ⟨p, hMem, hDst⟩ := ih hRest hRun hLater
        refine ⟨p, ?_, hDst⟩
        by_cases hFirst : first.dexType = 0
        · simpa [dueV3, dues, hFirst] using hMem
        · simp only [dueV3, dues, due]
          rw [List.filter_cons_of_pos (by simpa using hFirst), List.map_cons]
          exact List.mem_cons_of_mem _ hMem

end Loop

theorem dueV3_eq_nil (market : Market) (self : Address) {hops : List PackedHop}
    (hV2 : ∀ hop ∈ hops, hop.dexType = 0) (w : PayWorld) (amountIn : U256) :
    dueV3 (dues market self w hops amountIn) = [] := by
  induction hops generalizing w amountIn with
  | nil => rfl
  | cons hop rest ih =>
      have hRest := ih fun next hNext => hV2 next (List.mem_cons_of_mem _ hNext)
      simpa [dueV3, dues, hV2 hop (by simp)] using hRest _ _

theorem received_mem {payments : List Payment} {p : Payment} (h : p ∈ payments) :
    p.amount.toNat ≤ received payments p.dst p.token := by
  have hTerm : p.amount.toNat ∈ payments.map fun q =>
      if q.dst = p.dst ∧ q.token = p.token then q.amount.toNat else 0 :=
    List.mem_map.mpr ⟨p, h, by simp⟩
  exact List.le_sum_of_mem hTerm

/-! ## Payment in the callback -/

/-- The loop completes, and every pool has received what it is due for its hops, in each
token.  What the contract itself receives is not counted. -/
def PaysOnce (market : Market) (ctx : Context) (loans : List (Address × U256))
    (data : UserData) (hops : List PackedHop) (w : PayWorld) : Prop :=
  ∃ w', result (market.answer ctx) (payAndRun ctx loans data) w = some ((), w') ∧
    ∀ holder, holder ≠ ctx.self → ∀ token,
      received w'.paid holder token = received w.paid holder token +
        received (due (dues market ctx.self (started market hops (firstAmount loans) w) hops
          (firstAmount loans))) holder token

section Callback

variable {market : Market} {ctx : Context} {loans : List (Address × U256)} {data : UserData}
  {loanToken : Address} {first : PackedHop} {rest : List PackedHop} {w : PayWorld}

/-- The block on a packed path: the first pool is paid, then the loop runs. -/
theorem result_payAndRun (hCount : (first :: rest).length < 256)
    (hData : Holds data.memory data.dataStart
      (addressBytes loanToken ++ packPath (first :: rest)))
    (hToken : loanToken = market.tokenIn first.pool first.zeroForOne)
    (hLoan : market.accepts w (dueOf market first (firstAmount loans)) = true) :
    result (market.answer ctx) (payAndRun ctx loans data) w =
      result (market.answer ctx) (runReads (callbackPointer loans data)
        (packedReads ctx.self (first :: rest)) (firstAmount loans) (addressWord loanToken))
        (started market (first :: rest) (firstAmount loans) w) := by
  rw [Holds.append_iff, addressBytes_length] at hData
  obtain ⟨hLoanToken, hPath⟩ := hData
  have hTurns := (readTurns_packed ctx.self hCount hPath).2
  have hTokenWord : data.loanToken = addressWord loanToken := shr96_loadWord hLoanToken
  rw [packPath, List.flatMap_cons, ← List.singleton_append, Holds.append_iff, packHop,
    Holds.append_iff, Holds.append_iff, Holds.append_iff] at hPath
  have hFirstPool : data.firstPool = addressWord first.pool :=
    shr96_loadWord hPath.2.1.1.1
  have hPay : result (market.answer ctx) (callOrRevert (.transfer (toAddress data.loanToken)
      (toAddress data.firstPool) (firstAmount loans))) w =
        some ((), started market (first :: rest) (firstAmount loans) w) := by
    rw [hTokenWord, hFirstPool, toAddress_addressWord, toAddress_addressWord, hToken,
      result_callOrRevert]
    rw [dueOf] at hLoan
    simp [Market.answer, Market.answerPlain, hLoan, Reply.ofWord, started, firstDue, dueOf,
      PayWorld.pay]
  rw [payAndRun, result_bind, hPay, Option.bind_some, runHops_eq_runReads, hTurns, hTokenWord]

end Callback

/-- **The exact condition.**  Every pool is paid exactly once if and only if every hop is V2
and the low 32 bits of the loan are zero.  A V3 pool is prepaid like any other, and paid
again when it calls back; any other loan leaves no pointer to call a pool through. -/
theorem paysOnce_iff (market : Market) (ctx : Context) (loans : List (Address × U256))
    (data : UserData) (loanToken : Address) (hops : List PackedHop) (w : PayWorld)
    (hHops : hops ≠ []) (hCount : hops.length < 256)
    (hData : Holds data.memory data.dataStart (addressBytes loanToken ++ packPath hops))
    (hDecoded : Decoded loans data) (hConforms : Conforms market loanToken hops)
    (hSelf : ∀ hop ∈ hops, hop.pool ≠ ctx.self)
    (hLoan : ∀ p ∈ firstDue market hops (firstAmount loans), market.accepts w p = true) :
    PaysOnce market ctx loans data hops w ↔
      (∀ hop ∈ hops, hop.dexType = 0) ∧ (firstAmount loans).toNat % 2 ^ 32 = 0 := by
  obtain ⟨first, rest, rfl⟩ := List.exists_cons_of_ne_nil hHops
  have hRun : result (market.answer ctx) (payAndRun ctx loans data) w = _ :=
    result_payAndRun hCount hData hConforms.1 (hLoan _ (List.mem_singleton.mpr rfl))
  have hStart : ∀ holder token, received (started market (first :: rest) (firstAmount loans)
      w).paid holder token = received w.paid holder token +
        received (firstDue market (first :: rest) (firstAmount loans)) holder token := by
    intro holder token
    exact (received_cons _ _ _ _).trans (Nat.add_comm _ _)
  unfold PaysOnce
  rw [hRun]
  constructor
  · intro ⟨w', hDone, hPaid⟩
    obtain ⟨hPtr, _⟩ := run_cons hConforms.1 hDone
    refine ⟨?_, (callbackPointer_lt_iff hDecoded).mp hPtr⟩
    intro hop hMem
    by_contra hType
    obtain ⟨p, hDue, hDst, hPos⟩ := dues_pos hConforms hDone hMem hType
    have hHolder : p.dst ≠ ctx.self := hDst ▸ hSelf hop hMem
    have hTwice := received_run hSelf hConforms hDone hHolder p.token
    have hAgain := received_mem hDue
    have hOnce := hPaid p.dst hHolder p.token
    rw [hStart] at hTwice
    omega
  · intro ⟨hV2, hLow⟩
    obtain ⟨w', hDone⟩ := run_completes ((callbackPointer_lt_iff hDecoded).mpr hLow) hV2
      (firstAmount loans) (addressWord loanToken)
      (started market (first :: rest) (firstAmount loans) w)
    refine ⟨w', hDone, ?_⟩
    intro holder hHolder token
    have hOnce := received_run hSelf hConforms hDone hHolder token
    rw [hStart, dueV3_eq_nil _ _ hV2, received_nil] at hOnce
    omega

/-! ## Samples -/

/-- Pools with a million of each token, and tokens that take every transfer. -/
def sampleMarket : Market where
  token0 := fun _ => 0x11
  token1 := fun _ => 0x22
  accepts := fun _ _ => true
  reserves := fun _ _ => (1000000, 1000000)
  liquid := fun _ _ => by decide
  v3Output := fun _ _ _ _ => 7
  v3Output_lt := fun _ _ _ _ => by decide

def sampleContext : Context := ⟨0xEE, 1, 0xBA, 0xBA⟩

/-- A pool of type `dexType`, from the first token to the second. -/
def sampleHop (dexType : UInt8) : PackedHop := ⟨0x51, 0x22, dexType, true⟩

/-- The callback's `userData` at the start of memory, with a length word of zero, which the
block does not read. -/
def sampleData (hops : List PackedHop) : UserData where
  memory := ofList (List.replicate 32 0 ++ (addressBytes 0x11 ++ packPath hops) ++ [])
  pointer := 0

theorem sampleData_holds (hops : List PackedHop) :
    Holds (sampleData hops).memory (sampleData hops).dataStart
      (addressBytes 0x11 ++ packPath hops) := by
  have hList := holds_ofList (List.replicate 32 0) (addressBytes 0x11 ++ packPath hops) []
  rw [List.length_replicate] at hList
  exact hList

/-- A V2 pool there and a V2 pool back, on a loan of `2 ^ 40`. -/
theorem paysOnce_example : PaysOnce sampleMarket sampleContext [(0x11, 2 ^ 40)]
    (sampleData [sampleHop 0, ⟨0x52, 0x11, 0, false⟩])
    [sampleHop 0, ⟨0x52, 0x11, 0, false⟩] ⟨0, []⟩ :=
  (paysOnce_iff sampleMarket sampleContext [(0x11, 2 ^ 40)]
    (sampleData [sampleHop 0, ⟨0x52, 0x11, 0, false⟩]) 0x11
    [sampleHop 0, ⟨0x52, 0x11, 0, false⟩] ⟨0, []⟩ (by decide) (by decide) (sampleData_holds _)
    (by unfold Decoded; decide) ⟨rfl, rfl, rfl, rfl, trivial⟩ (by decide)
    (fun _ _ => rfl)).mpr ⟨by decide, by decide⟩

/-- **A V3 pool is paid twice.**  It is due `2 ^ 40`, receives that before its swap, and
receives it again when it calls back. -/
theorem not_paysOnce :
    ((result (sampleMarket.answer sampleContext)
        (payAndRun sampleContext [(0x11, 2 ^ 40)] (sampleData [sampleHop 1])) ⟨0, []⟩).map
          fun after => received after.2.paid 0x51 0x11) = some (2 ^ 40 + 2 ^ 40) ∧
      ¬ ∀ (market : Market) (ctx : Context) (loans : List (Address × U256)) (data : UserData)
          (loanToken : Address) (hops : List PackedHop) (w : PayWorld), hops ≠ [] →
        hops.length < 256 →
        Holds data.memory data.dataStart (addressBytes loanToken ++ packPath hops) →
        Decoded loans data → Conforms market loanToken hops →
        (∀ hop ∈ hops, hop.pool ≠ ctx.self) →
        (∀ p ∈ firstDue market hops (firstAmount loans), market.accepts w p = true) →
        PaysOnce market ctx loans data hops w := by
  refine ⟨by decide, ?_⟩
  intro hAll
  obtain ⟨w', hDone, hPaid⟩ := hAll sampleMarket sampleContext [(0x11, 2 ^ 40)]
    (sampleData [sampleHop 1]) 0x11 [sampleHop 1] ⟨0, []⟩ (by decide) (by decide)
    (sampleData_holds _) (by unfold Decoded; decide) ⟨rfl, rfl, trivial⟩ (by decide)
    (fun _ _ => rfl)
  have hOnce := hPaid 0x51 (by decide) 0x11
  have hTwice : (result (sampleMarket.answer sampleContext) (payAndRun sampleContext
      [(0x11, 2 ^ 40)] (sampleData [sampleHop 1])) ⟨0, []⟩).map
        (fun after => received after.2.paid 0x51 0x11) = some (2 ^ 40 + 2 ^ 40) := by
    decide
  rw [hDone, Option.map_some, Option.some.injEq, hOnce] at hTwice
  revert hTwice
  decide

end SovereignShadow.Ports.PoolPayments
