import SovereignShadow.Ports.Chain
import SovereignShadow.Verified.Abi

/-!
# `SovereignShadowExecutor`

Every entry point of the contract as a program over the chain.  Anybody can have the vault
send it a flash loan.  Its callback swaps through two routers, each hop with the whole balance
of its token, checks the balance of the loaned token, repays `amounts[0]` and sends what is
left of that token to the owner.

A V3 hop encodes the seven words of `exactInputSingle` as one `bytes` argument.  The router
decodes a tuple of words there: the offset, the length and then the token, where the fee
belongs.

## Main results

* `decodeArguments_v3` — the V3 router cannot decode the calldata of a hop.
* `runs_receiveFlashLoan` — the completed callbacks.
* `loan_settles` — what a completed loan has done, whoever asked for it.
-/

namespace SovereignShadow.Ports.SovereignExecutor

open SovereignShadow.Verified.Bytes
open SovereignShadow.Verified.Abi
open SovereignShadow.Verified.Callback
open SovereignShadow.Verified.Callback.Prog
open SovereignShadow.Ports.Models
open SovereignShadow.Ports.Evm
open SovereignShadow.Ports.Chain

/-! ## The chain -/

/-- `address(this)`, `owner`, `balancerVault`, `msg.sender` and `block.timestamp`. -/
structure Context where
  self : Address
  owner : Address
  balancerVault : Address
  sender : Address
  timestamp : U256
  deriving DecidableEq, Repr

/-- What the contract asks of the chain. -/
inductive Query where
  | balanceOf (token holder : Address)
  | transfer (token dst : Address) (value : U256)
  | approve (token spender : Address) (value : U256)
  | call (target : Address) (data : List UInt8)
  | flashLoan (vault recipient : Address) (tokens : List Address) (amounts : List U256)
      (userData : List UInt8)
  | selfbalance
  | sendEther (dst : Address) (value : U256)

abbrev Script := Prog Query Reply

def uniV2Router : Address := 0x4752ba5DBc23f44D87826276BF6Fd6b1C372aD24
def uniV3Router : Address := 0x2626664c2603381E5c88859d103939a4CF97a299

/-- How the chain serves the contract.  Calls of anything but a standard token go to unknown
code, except that the V3 router reverts on calldata that it does not accept. -/
def serve (self : Address) (standard : Address → Bool) (accepts : List UInt8 → Bool) :
    Query → Ledger → Service Ledger Reply
  | .balanceOf token holder, l =>
      if standard token then .known (.ofWord (l token holder)) l else .view
  | .transfer token dst value, l =>
      if standard token then
        match l.transfer token self dst value with
        | some l' => .known (.ofWord 1) l'
        | none => .known .failed l
      else .free
  | .approve token _ _, l => if standard token then .known (.ofWord 1) l else .free
  | .call target data, l =>
      if target = uniV3Router ∧ accepts data = false then .known .failed l else .free
  | .flashLoan _ _ _ _ _, _ => .free
  | .selfbalance, _ => .view
  | .sendEther _ _, _ => .free

/-! ## High-level calls -/

def balanceOf (token holder : Address) : Script U256 := do
  let reply ← query (.balanceOf token holder)
  require (reply.success ∧ 32 ≤ reply.returndatasize)
  return reply.word0

/-- `if (!IERC20(token).transfer(dst, value)) revert TransferFailed()`. -/
def transfer (token dst : Address) (value : U256) : Script Unit := do
  let reply ← query (.transfer token dst value)
  require (reply.success ∧ 32 ≤ reply.returndatasize ∧ reply.word0 = 1)

/-- `approve`, whose answer is decoded and not looked at. -/
def approve (token spender : Address) (value : U256) : Script Unit := do
  let reply ← query (.approve token spender value)
  require (reply.success ∧ 32 ≤ reply.returndatasize ∧ reply.word0.toNat ≤ 1)

/-- `router.call(data)` and the check of its success. -/
def callRouter (router : Address) (data : List UInt8) : Script Unit := do
  let reply ← query (.call router data)
  require reply.success

/-! ## Hops -/

structure Hop where
  tIn : Address
  tOut : Address
  dexType : Nat
  fee : Nat
  deriving DecidableEq, Repr

/-- The memory from the first byte of `packedPath` on; `beyond` lies behind the path. -/
def pathMemory (packedPath : List UInt8) (beyond : ByteMem) : ByteMem := fun p =>
  packedPath.getD p (beyond p)

/-- The hop that the assembly reads at `33 + 64 i`, its unused pool left out. -/
def readHop (m : ByteMem) (i : Nat) : Hop where
  tIn := toAddress (shr96 (loadWord m (1 + 64 * i + 20)))
  tOut := toAddress (shr96 (loadWord m (1 + 64 * i + 40)))
  dexType := byteOf 0 (loadWord m (1 + 64 * i + 60))
  fee := (loadWord m (1 + 64 * i + 61)).toNat / 2 ^ 232

/-- The selector of `swapExactTokensForTokens`. -/
def swapExactTokensForTokens : List UInt8 := [0x38, 0xed, 0x17, 0x39]

/-- The selector of `exactInputSingle`. -/
def exactInputSingle : List UInt8 := [0x04, 0xe4, 0x5a, 0xaf]

def v2Calldata (ctx : Context) (hop : Hop) (amountIn : U256) : List UInt8 :=
  swapExactTokensForTokens ++ encodeTuple
    [.word amountIn.toNat, .word 0, .words [hop.tIn.toNat, hop.tOut.toNat],
      .word ctx.self.toNat, .word ctx.timestamp.toNat]

/-- `params`. -/
def v3Params (ctx : Context) (hop : Hop) (amountIn : U256) : List UInt8 :=
  encodeTuple
    [.word hop.tIn.toNat, .word hop.tOut.toNat, .word hop.fee, .word ctx.self.toNat,
      .word amountIn.toNat, .word 0, .word 0]

/-- `params` goes in as one argument of type `bytes`. -/
def v3Calldata (ctx : Context) (hop : Hop) (amountIn : U256) : List UInt8 :=
  exactInputSingle ++ encodeTuple [.bytes (v3Params ctx hop amountIn)]

/-- The body of the hop loop. -/
def swapHop (ctx : Context) (hop : Hop) : Script Unit := do
  let amountIn ← balanceOf hop.tIn ctx.self
  if hop.dexType = 0 then do
    approve hop.tIn uniV2Router amountIn
    callRouter uniV2Router (v2Calldata ctx hop amountIn)
  else do
    approve hop.tIn uniV3Router amountIn
    callRouter uniV3Router (v3Calldata ctx hop amountIn)

/-- The hop loop from hop `i` on, with `left` hops to go.  What lies behind the path changes
as the loop allocates. -/
def runHops (ctx : Context) (packedPath : List UInt8) (beyond : Nat → ByteMem) :
    Nat → Nat → Script Unit
  | 0, _ => pure ()
  | left + 1, i => do
      swapHop ctx (readHop (pathMemory packedPath (beyond i)) i)
      runHops ctx packedPath beyond left (i + 1)

/-- `hopCount`. -/
def hopCount (packedPath : List UInt8) (beyond : Nat → ByteMem) : Nat :=
  byteOf 0 (loadWord (pathMemory packedPath (beyond 0)) 0)

/-- `_performSwaps`. -/
def performSwaps (ctx : Context) (packedPath : List UInt8) (beyond : Nat → ByteMem) :
    Script Unit :=
  runHops ctx packedPath beyond (hopCount packedPath beyond) 0

/-! ## Entry points -/

def onlyOwner (ctx : Context) : Script Unit := require (ctx.sender = ctx.owner)

/-- `abi.decode(userData, (bytes, uint256))`. -/
def decodeUserData (userData : List UInt8) : Option (List UInt8 × Nat) :=
  match decodeTuple (ofList userData) 0 userData.length [.bytes, .word 256] with
  | some [.bytes packedPath, .word minProfit] => some (packedPath, minProfit)
  | _ => none

/-- `executeArbitrage`. -/
def executeArbitrage (ctx : Context) (loanToken : Address) (loanAmount : U256)
    (pathData : List UInt8) : Script Unit := do
  onlyOwner ctx
  let reply ← query (.flashLoan ctx.balancerVault ctx.self [loanToken] [loanAmount] pathData)
  require reply.success

/-- What follows the swaps, for the loaned token: the check, the repayment of `amounts[0]` and
the rest for the owner. -/
def settle (ctx : Context) (token : Address) (amounts : List U256) (startBalance : U256)
    (minProfit : Nat) : Script Unit := do
  let endBalance ← balanceOf token ctx.self
  require (startBalance.toNat + minProfit < 2 ^ 256)
  require (¬ endBalance.toNat < startBalance.toNat + minProfit)
  match amounts with
  | [] => .revert
  | amount :: _ => do
      transfer token ctx.balancerVault amount
      let rest ← balanceOf token ctx.self
      transfer token ctx.owner rest

/-- `receiveFlashLoan`; the fees are not looked at. -/
def receiveFlashLoan (ctx : Context) (tokens : List Address) (amounts : List U256)
    (userData : List UInt8) (beyond : Nat → ByteMem) : Script Unit := do
  require (ctx.sender = ctx.balancerVault)
  match decodeUserData userData, tokens with
  | some (packedPath, minProfit), token :: _ => do
      let startBalance ← balanceOf token ctx.self
      performSwaps ctx packedPath beyond
      settle ctx token amounts startBalance minProfit
  | _, _ => .revert

/-- `withdraw`. -/
def withdraw (ctx : Context) (token : Address) : Script Unit := do
  onlyOwner ctx
  let balance ← balanceOf token ctx.self
  transfer token ctx.sender balance

/-- `withdrawETH`. -/
def withdrawETH (ctx : Context) : Script Unit := do
  onlyOwner ctx
  let balance ← query .selfbalance
  let reply ← query (.sendEther ctx.owner balance.word0)
  require reply.success

/-! ## The calldata of a V3 hop -/

/-- `(address,address,uint24,address,uint256,uint256,uint160)`. -/
def exactInputSingleTypes : List Ty :=
  [.word 160, .word 160, .word 24, .word 160, .word 256, .word 256, .word 160]

/-- The arguments of `exactInputSingle` in its calldata. -/
def decodeArguments (data : List UInt8) : Option (List Value) :=
  decodeTuple (ofList data) 4 (data.length - 4) exactInputSingleTypes

/-- The third word of the calldata is the token. -/
theorem readBE_v3Calldata (ctx : Context) (hop : Hop) (amountIn : U256) :
    readBE (ofList (v3Calldata ctx hop amountIn)) 68 32 = hop.tIn.toNat := by
  obtain ⟨post, hPost⟩ : ∃ post, v3Calldata ctx hop amountIn =
      (exactInputSingle ++ wordBytes 32 ++ wordBytes (v3Params ctx hop amountIn).length) ++
        wordBytes hop.tIn.toNat ++ post := by
    refine ⟨heads 224 [.word hop.tOut.toNat, .word hop.fee, .word ctx.self.toNat,
      .word amountIn.toNat, .word 0, .word 0] ++
        padding (v3Params ctx hop amountIn).length, ?_⟩
    have hParams : v3Params ctx hop amountIn = wordBytes hop.tIn.toNat ++
        heads 224 [.word hop.tOut.toNat, .word hop.fee, .word ctx.self.toNat,
          .word amountIn.toNat, .word 0, .word 0] := by
      simp [v3Params, encodeTuple, heads, Value.tail]
    rw [v3Calldata]
    simp only [encodeTuple, heads, Value.tail, List.flatMap_cons, List.flatMap_nil,
      List.append_nil, List.length_cons, List.length_nil]
    generalize hLength : (v3Params ctx hop amountIn).length = n
    rw [hParams]
    simp [heads]
  have hHolds := holds_ofList
    (exactInputSingle ++ wordBytes 32 ++ wordBytes (v3Params ctx hop amountIn).length)
    (wordBytes hop.tIn.toNat) post
  rw [← hPost] at hHolds
  have hStart : (exactInputSingle ++ wordBytes 32 ++
      wordBytes (v3Params ctx hop amountIn).length).length = 68 := by
    simp [exactInputSingle]
  rw [hStart] at hHolds
  exact readBE_wordBytes hHolds (Nat.lt_trans hop.tIn.isLt (by norm_num))

/-- **The V3 router cannot decode** the calldata of a hop, unless its token is a number of 24
bits. -/
theorem decodeArguments_v3 (ctx : Context) {hop : Hop} (amountIn : U256)
    (hToken : 2 ^ 24 ≤ hop.tIn.toNat) : decodeArguments (v3Calldata ctx hop amountIn) = none := by
  have hFee : decodeComponent (ofList (v3Calldata ctx hop amountIn)) 4
      ((v3Calldata ctx hop amountIn).length - 4) 64 (.word 24) = none := by
    have hWord := readBE_v3Calldata ctx hop amountIn
    simp only [decodeComponent, hWord]
    rw [if_neg (by omega)]
  unfold decodeArguments decodeTuple
  split
  · rfl
  · simp only [exactInputSingleTypes, decodeFrom, hFee, Option.bind_eq_bind, Option.bind_none]
    simp

/-! ## Runs of the calls -/

section Runs

variable {self : Address} {standard : Address → Bool} {accepts : List UInt8 → Bool}
  {F : Ledger → Ledger → Prop} {l l' : Ledger} {token dst : Address} {value : U256}

theorem runs_balanceOf (hStd : standard token = true) {holder : Address} {r : U256} :
    Runs (serve self standard accepts) F (balanceOf token holder) l r l' ↔
      r = l token holder ∧ l' = l := by
  have hServe : serve self standard accepts (.balanceOf token holder) l =
      .known (.ofWord (l token holder)) l := by simp [serve, hStd]
  simp only [balanceOf, runs_bind, runs_query_known hServe, runs_require, runs_pure]
  constructor
  · rintro ⟨_, _, ⟨rfl, rfl⟩, _, _, ⟨_, rfl⟩, rfl, rfl⟩
    exact ⟨rfl, rfl⟩
  · rintro ⟨rfl, rfl⟩
    exact ⟨_, _, ⟨rfl, rfl⟩, (), l', ⟨⟨rfl, Nat.le_refl 32⟩, rfl⟩, rfl, rfl⟩

theorem runs_transfer (hStd : standard token = true) {r : Unit} :
    Runs (serve self standard accepts) F (transfer token dst value) l r l' ↔
      l.transfer token self dst value = some l' := by
  simp only [transfer, runs_bind, runs_require]
  cases hTransfer : l.transfer token self dst value with
  | none =>
      have hServe : serve self standard accepts (.transfer token dst value) l =
          .known .failed l := by simp [serve, hStd, hTransfer]
      simp only [runs_query_known hServe]
      simp [Reply.failed]
  | some paid =>
      have hServe : serve self standard accepts (.transfer token dst value) l =
          .known (.ofWord 1) paid := by simp [serve, hStd, hTransfer]
      simp only [runs_query_known hServe]
      constructor
      · rintro ⟨_, _, ⟨rfl, rfl⟩, _, rfl⟩
        rfl
      · intro hPaid
        obtain rfl := Option.some.inj hPaid
        exact ⟨_, _, ⟨rfl, rfl⟩, ⟨rfl, Nat.le_refl 32, rfl⟩, rfl⟩

theorem runs_approve (hStd : standard token = true) {r : Unit} :
    Runs (serve self standard accepts) F (approve token dst value) l r l' ↔ l' = l := by
  have hServe : serve self standard accepts (.approve token dst value) l =
      .known (.ofWord 1) l := by simp [serve, hStd]
  simp only [approve, runs_bind, runs_query_known hServe, runs_require]
  constructor
  · rintro ⟨_, _, ⟨rfl, rfl⟩, _, rfl⟩
    rfl
  · rintro rfl
    exact ⟨_, _, ⟨rfl, rfl⟩, ⟨rfl, Nat.le_refl 32, by decide⟩, rfl⟩

/-- The code behind the V2 router is unknown. -/
theorem runs_callRouter_v2 {data : List UInt8} {r : Unit} :
    Runs (serve self standard accepts) F (callRouter uniV2Router data) l r l' ↔ F l l' := by
  have hNe : ¬ (uniV2Router = uniV3Router ∧ accepts data = false) :=
    fun h => absurd h.1 (by decide)
  have hServe : serve self standard accepts (.call uniV2Router data) l = .free := by
    simp only [serve, if_neg hNe]
  simp only [callRouter, runs_bind, runs_query_free hServe, runs_require]
  constructor
  · rintro ⟨_, _, hF, _, rfl⟩
    exact hF
  · intro hF
    exact ⟨⟨true, 0, 0, 0⟩, l', hF, rfl, rfl⟩

/-- A call that the V3 router does not accept. -/
theorem not_runs_callRouter {data : List UInt8} (hData : accepts data = false) {r : Unit} :
    ¬ Runs (serve self standard accepts) F (callRouter uniV3Router data) l r l' := by
  have hServe : serve self standard accepts (.call uniV3Router data) l = .known .failed l := by
    simp [serve, hData]
  simp only [callRouter, runs_bind, runs_query_known hServe, runs_require]
  rintro ⟨_, _, ⟨rfl, rfl⟩, hFailed, _⟩
  exact absurd hFailed (by simp [Reply.failed])

/-! ## Hops -/

/-- The router reverts where its arguments cannot be decoded. -/
def ChecksArguments (accepts : List UInt8 → Bool) : Prop :=
  ∀ data, decodeArguments data = none → accepts data = false

/-- The hop is for the V2 router, or its token is a number of 24 bits. -/
def Hop.Swappable (hop : Hop) : Prop := hop.dexType = 0 ∨ hop.tIn.toNat < 2 ^ 24

variable {ctx : Context}

theorem runs_swapHop (hChecks : ChecksArguments accepts) {hop : Hop} {r : Unit}
    (h : Runs (serve self standard accepts) F (swapHop ctx hop) l r l') : hop.Swappable := by
  unfold Hop.Swappable
  by_contra hNot
  rw [not_or, Nat.not_lt] at hNot
  obtain ⟨amountIn, l₁, -, hRest⟩ := runs_bind.mp h
  rw [if_neg hNot.1] at hRest
  obtain ⟨_, l₂, -, hCall⟩ := runs_bind.mp hRest
  exact not_runs_callRouter (hChecks _ (decodeArguments_v3 ctx amountIn hNot.2)) hCall

/-- A V2 hop is whatever the code behind its router does. -/
theorem runs_swapHop_v2 {hop : Hop} (hType : hop.dexType = 0) (hStd : standard hop.tIn = true)
    {r : Unit} :
    Runs (serve ctx.self standard accepts) F (swapHop ctx hop) l r l' ↔ F l l' := by
  simp only [swapHop, if_pos hType, runs_bind, runs_balanceOf hStd, runs_approve hStd,
    runs_callRouter_v2]
  constructor
  · rintro ⟨_, _, ⟨rfl, rfl⟩, _, _, rfl, hF⟩
    exact hF
  · intro hF
    exact ⟨_, l, ⟨rfl, rfl⟩, (), l, rfl, hF⟩

/-- The hops of a path, as the loop reads them. -/
def hopsOf (packedPath : List UInt8) (beyond : Nat → ByteMem) : List Hop :=
  (List.range (hopCount packedPath beyond)).map fun i =>
    readHop (pathMemory packedPath (beyond i)) i

variable {packedPath : List UInt8} {beyond : Nat → ByteMem}

theorem runs_runHops (hChecks : ChecksArguments accepts) {left i : Nat} {r : Unit}
    (h : Runs (serve self standard accepts) F (runHops ctx packedPath beyond left i) l r l') :
    ∀ k ∈ List.range' i left,
      (readHop (pathMemory packedPath (beyond k)) k).Swappable := by
  induction left generalizing i l with
  | zero => simp
  | succ left ih =>
      obtain ⟨_, l₁, hHop, hRest⟩ := runs_bind.mp h
      rw [List.range'_succ, List.forall_mem_cons]
      exact ⟨runs_swapHop hChecks hHop, ih hRest⟩

theorem runs_performSwaps (hChecks : ChecksArguments accepts) {r : Unit}
    (h : Runs (serve self standard accepts) F (performSwaps ctx packedPath beyond) l r l') :
    ∀ hop ∈ hopsOf packedPath beyond, hop.Swappable := by
  intro hop hHop
  obtain ⟨k, hk, rfl⟩ := List.mem_map.mp hHop
  rw [List.range_eq_range'] at hk
  exact runs_runHops hChecks h k hk

/-! ## The callback -/

/-- What the settlement finds and leaves. -/
structure Settles (ctx : Context) (token : Address) (amount startBalance : U256)
    (minProfit : Nat) (swapped after : Ledger) : Prop where
  profit : startBalance.toNat + minProfit ≤ (swapped token ctx.self).toNat
  paid : ∃ repaid, swapped.transfer token ctx.self ctx.balancerVault amount = some repaid ∧
    repaid.transfer token ctx.self ctx.owner (repaid token ctx.self) = some after

theorem runs_settle (hStd : standard token = true) {amount startBalance : U256}
    {amounts : List U256} {minProfit : Nat} {r : Unit} :
    Runs (serve ctx.self standard accepts) F
        (settle ctx token (amount :: amounts) startBalance minProfit) l r l' ↔
      Settles ctx token amount startBalance minProfit l l' := by
  simp only [settle, runs_bind, runs_balanceOf hStd, runs_require, runs_transfer hStd]
  constructor
  · rintro ⟨_, _, ⟨rfl, rfl⟩, _, _, ⟨-, rfl⟩, _, _, ⟨hProfit, rfl⟩, _, repaid, hRepaid, _, _,
      ⟨rfl, rfl⟩, hPaid⟩
    exact ⟨Nat.le_of_not_lt hProfit, _, hRepaid, hPaid⟩
  · rintro ⟨hProfit, repaid, hRepaid, hPaid⟩
    have hFits : startBalance.toNat + minProfit < 2 ^ 256 :=
      Nat.lt_of_le_of_lt hProfit (l token ctx.self).isLt
    exact ⟨_, l, ⟨rfl, rfl⟩, (), l, ⟨hFits, rfl⟩, (), l, ⟨Nat.not_lt.mpr hProfit, rfl⟩, (),
      repaid, hRepaid, _, repaid, ⟨rfl, rfl⟩, hPaid⟩

/-- **The completed callbacks** for a standard token. -/
theorem runs_receiveFlashLoan (hStd : standard token = true) {tokens : List Address}
    {amount : U256} {amounts : List U256} {userData : List UInt8} {r : Unit} :
    Runs (serve ctx.self standard accepts) F
        (receiveFlashLoan ctx (token :: tokens) (amount :: amounts) userData beyond) l r l' ↔
      ctx.sender = ctx.balancerVault ∧ ∃ packedPath minProfit swapped,
        decodeUserData userData = some (packedPath, minProfit) ∧
          Runs (serve ctx.self standard accepts) F (performSwaps ctx packedPath beyond) l ()
            swapped ∧
          Settles ctx token amount (l token ctx.self) minProfit swapped l' := by
  unfold receiveFlashLoan
  rw [runs_require_bind]
  cases hDecoded : decodeUserData userData with
  | none => simp
  | some payload =>
      obtain ⟨packedPath, minProfit⟩ := payload
      simp only [runs_bind, runs_balanceOf hStd, runs_settle hStd]
      constructor
      · rintro ⟨hSender, _, _, ⟨rfl, rfl⟩, _, swapped, hSwaps, hSettles⟩
        exact ⟨hSender, packedPath, minProfit, swapped, rfl, hSwaps, hSettles⟩
      · rintro ⟨hSender, _, _, swapped, hEq, hSwaps, hSettles⟩
        obtain ⟨rfl, rfl⟩ := Prod.mk.inj (Option.some.inj hEq)
        exact ⟨hSender, _, l, ⟨rfl, rfl⟩, (), swapped, hSwaps, hSettles⟩

end Runs

/-! ## Loans -/

/-- A flash loan of one token: the vault pays it out and calls back. -/
def Loan (standard : Address → Bool) (accepts : List UInt8 → Bool)
    (F : Ledger → Ledger → Prop) (ctx : Context) (token : Address) (amount : U256)
    (userData : List UInt8) (beyond : Nat → ByteMem) (before after : Ledger) : Prop :=
  ∃ paid, before.transfer token ctx.balancerVault ctx.self amount = some paid ∧
    Runs (serve ctx.self standard accepts) F
      (receiveFlashLoan ctx [token] [amount] userData beyond) paid () after

/-- The contract, its owner and its vault are three. -/
structure Context.Distinct (ctx : Context) : Prop where
  vault_ne : ctx.balancerVault ≠ ctx.self
  owner_ne : ctx.owner ≠ ctx.self
  owner_ne_vault : ctx.owner ≠ ctx.balancerVault

/-- What a completed loan has done, on the ledger `swapped` that its swaps left. -/
structure Completed (ctx : Context) (token : Address) (amount : U256) (minProfit : Nat)
    (before swapped after : Ledger) : Prop where
  repaid : (after token ctx.balancerVault).toNat =
    (swapped token ctx.balancerVault).toNat + amount.toNat
  emptied : (after token ctx.self).toNat = 0
  /-- What the contract held before the loan goes to the owner, with the profit. -/
  owner : (swapped token ctx.owner).toNat + (before token ctx.self).toNat + minProfit ≤
    (after token ctx.owner).toNat

theorem completed_of_settles {ctx : Context} (hDistinct : ctx.Distinct) {token : Address}
    {amount : U256} {minProfit : Nat} {before paid swapped after : Ledger}
    (hPaid : before.transfer token ctx.balancerVault ctx.self amount = some paid)
    (hSettles : Settles ctx token amount (paid token ctx.self) minProfit swapped after) :
    Completed ctx token amount minProfit before swapped after := by
  obtain ⟨hProfit, repaid, hRepaid, hRest⟩ := hSettles
  have hLent := Ledger.transfer_spec hPaid token ctx.self
  have hVault := Ledger.transfer_spec hRepaid token ctx.balancerVault
  have hSelf := Ledger.transfer_spec hRepaid token ctx.self
  have hOwner := Ledger.transfer_spec hRepaid token ctx.owner
  have hVault' := Ledger.transfer_spec hRest token ctx.balancerVault
  have hSelf' := Ledger.transfer_spec hRest token ctx.self
  have hOwner' := Ledger.transfer_spec hRest token ctx.owner
  simp only [hDistinct.vault_ne, hDistinct.vault_ne.symm, hDistinct.owner_ne,
    hDistinct.owner_ne.symm, hDistinct.owner_ne_vault, hDistinct.owner_ne_vault.symm, and_false,
    and_true, if_true, if_false] at hLent hVault hSelf hOwner hVault' hSelf' hOwner'
  constructor
  case repaid => omega
  case emptied => omega
  case owner => omega

/-- **What a completed loan has done**, whoever asked the vault for it and whatever the code
that the swaps reached has done: it decoded its payload and ran its swaps on the ledger with the
loan, no hop was one that the V3 router cannot decode, and the loan and the profit are paid. -/
theorem loan_settles {standard : Address → Bool} {accepts : List UInt8 → Bool}
    {F : Ledger → Ledger → Prop} {ctx : Context} {token : Address} {amount : U256}
    {userData : List UInt8} {beyond : Nat → ByteMem} {before after : Ledger}
    (hDistinct : ctx.Distinct) (hStd : standard token = true)
    (hChecks : ChecksArguments accepts)
    (hLoan : Loan standard accepts F ctx token amount userData beyond before after) :
    ∃ packedPath minProfit paid swapped,
      before.transfer token ctx.balancerVault ctx.self amount = some paid ∧
        decodeUserData userData = some (packedPath, minProfit) ∧
          Runs (serve ctx.self standard accepts) F (performSwaps ctx packedPath beyond) paid ()
            swapped ∧
          (∀ hop ∈ hopsOf packedPath beyond, hop.Swappable) ∧
            Completed ctx token amount minProfit before swapped after := by
  obtain ⟨paid, hPaid, hCallback⟩ := hLoan
  obtain ⟨-, packedPath, minProfit, swapped, hDecoded, hSwaps, hSettles⟩ :=
    (runs_receiveFlashLoan hStd).mp hCallback
  exact ⟨packedPath, minProfit, paid, swapped, hPaid, hDecoded, hSwaps,
    runs_performSwaps hChecks hSwaps, completed_of_settles hDistinct hPaid hSettles⟩

/-! ## A loan of two hops -/

def sampleContext : Context where
  self := 0xE0
  owner := 0xA1
  balancerVault := 0xBA
  sender := 0xBA
  timestamp := 0

/-- The vault has a thousand of every token, and the contract five. -/
def sampleLedger : Ledger := fun _ holder =>
  if holder = 0xBA then 1000 else if holder = 0xE0 then 5 else 0

/-- With a hundred lent, and fifteen gained by the swaps. -/
def swappedLedger : Ledger := fun _ holder =>
  if holder = 0xBA then 900 else if holder = 0xE0 then 120 else 0

/-- The bytes of a V2 hop, in the 64 that the loop steps over. -/
def v2HopBytes (tIn tOut : Address) : List UInt8 :=
  List.replicate 20 0 ++ addressBytes tIn ++ addressBytes tOut ++ List.replicate 4 0

/-- From `0x70` to `0x71` and back. -/
def samplePath : List UInt8 := 2 :: v2HopBytes 0x70 0x71 ++ v2HopBytes 0x71 0x70

/-- The two hops, and a profit of at least seven. -/
def samplePayload : List UInt8 := encodeTuple [.bytes samplePath, .word 7]

theorem samplePayload_decodes : decodeUserData samplePayload = some (samplePath, 7) := by
  decide +kernel

/-- A router that rejects everything. -/
def rejectsAll (_ : List UInt8) : Bool := false

theorem runs_samplePath {paid : Ledger} :
    Runs (serve sampleContext.self (fun _ => true) rejectsAll) (fun _ l => l = swappedLedger)
      (performSwaps sampleContext samplePath fun _ _ => 0) paid () swappedLedger := by
  have hCount : hopCount samplePath (fun _ _ => 0) = 2 := by decide +kernel
  have hFirst : (readHop (pathMemory samplePath fun _ => 0) 0).dexType = 0 := by decide +kernel
  have hSecond : (readHop (pathMemory samplePath fun _ => 0) 1).dexType = 0 := by decide +kernel
  rw [performSwaps, hCount]
  refine runs_bind.mpr ⟨(), swappedLedger, (runs_swapHop_v2 hFirst rfl).mpr rfl, ?_⟩
  refine runs_bind.mpr ⟨(), swappedLedger, (runs_swapHop_v2 hSecond rfl).mpr rfl, ?_⟩
  exact runs_pure.mpr ⟨rfl, rfl⟩

theorem exists_sampleLoan : ∃ after,
    Loan (fun _ => true) rejectsAll (fun _ l => l = swappedLedger) sampleContext 0x70 100
      samplePayload (fun _ _ => 0) sampleLedger after := by
  have hStd : (fun _ : Address => true) 0x70 = true := rfl
  obtain ⟨paid, hPaid⟩ : ∃ paid, sampleLedger.transfer 0x70 0xBA 0xE0 100 = some paid :=
    Ledger.exists_transfer (by decide) (by decide)
  have hPaidSelf : (paid 0x70 0xE0).toNat = 105 := by
    simpa [sampleLedger] using Ledger.transfer_spec hPaid 0x70 0xE0
  have hSwapped : (swappedLedger 0x70 0xE0).toNat = 120 := by decide
  obtain ⟨repaid, hRepaid⟩ : ∃ repaid, swappedLedger.transfer 0x70 0xE0 0xBA 100 = some repaid :=
    Ledger.exists_transfer (by decide) (by decide)
  have hRepaidOwner : (repaid 0x70 0xA1).toNat = 0 := by
    simpa [swappedLedger] using Ledger.transfer_spec hRepaid 0x70 0xA1
  obtain ⟨after, hAfter⟩ : ∃ after,
      repaid.transfer 0x70 0xE0 0xA1 (repaid 0x70 0xE0) = some after :=
    Ledger.exists_transfer le_rfl (by
      have hLt := (repaid 0x70 0xE0).isLt
      change (repaid 0x70 0xA1).toNat + (repaid 0x70 0xE0).toNat < 2 ^ 256
      rw [hRepaidOwner, Nat.zero_add]
      exact hLt)
  refine ⟨after, paid, hPaid, ?_⟩
  rw [runs_receiveFlashLoan hStd]
  refine ⟨rfl, samplePath, 7, swappedLedger, samplePayload_decodes, runs_samplePath, ?_,
    repaid, hRepaid, hAfter⟩
  show (paid 0x70 0xE0).toNat + 7 ≤ (swappedLedger 0x70 0xE0).toNat
  omega

theorem loan_settles_sample : ∃ after packedPath minProfit paid swapped,
    sampleLedger.transfer 0x70 0xBA 0xE0 100 = some paid ∧
      decodeUserData samplePayload = some (packedPath, minProfit) ∧
        Runs (serve 0xE0 (fun _ => true) rejectsAll) (fun _ l => l = swappedLedger)
          (performSwaps sampleContext packedPath fun _ _ => 0) paid () swapped ∧
        (∀ hop ∈ hopsOf packedPath (fun _ _ => 0), hop.Swappable) ∧
          Completed sampleContext 0x70 100 minProfit sampleLedger swapped after := by
  obtain ⟨after, hLoan⟩ := exists_sampleLoan
  exact ⟨after, loan_settles ⟨by decide, by decide, by decide⟩ rfl (fun _ _ => rfl) hLoan⟩

end SovereignShadow.Ports.SovereignExecutor
