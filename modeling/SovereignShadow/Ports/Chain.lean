import SovereignShadow.Ports.Evm
import SovereignShadow.Verified.Callback

/-!
# The chain as a contract sees it

What the two contracts read and change outside themselves: the balances of
standard ERC-20 tokens and the one transient slot of the running contract.
Everything else (other tokens, pools, lenders, attackers, whoever is sent ether)
is unknown code: a static call of it gives any answer, a call of it hands control
over.

A standard token answers `balanceOf` from the ledger, moves exactly `value` on
`transfer`, reverts when the balance is short, and returns `true`.

## Main results

* `Ledger.transfer_spec` — every balance after a transfer, in terms of those before.
* `Ledger.transferAll_spec`, `Ledger.exists_transferAll` — a batch of transfers.
* `runs_staticBalanceOf`, `runs_checkedTransfer_standard` — the runs of the two calls.
* `OthersMove.keeps` — what other holders do takes nothing from the contract.
-/

namespace SovereignShadow.Ports.Chain

open SovereignShadow.Verified.Callback
open SovereignShadow.Verified.Callback.Prog
open SovereignShadow.Ports.Models

/-! ## The ledger of standard tokens -/

/-- Token, holder, balance. -/
abbrev Ledger := Address → Address → U256

/-- Overwrite one balance. -/
def Ledger.set (l : Ledger) (token holder : Address) (value : U256) : Ledger :=
  fun t h => if t = token ∧ h = holder then value else l t h

/-- `transfer(dst, value)` sent by `src`. -/
def Ledger.transfer (l : Ledger) (token src dst : Address) (value : U256) : Option Ledger :=
  if (l token src).toNat < value.toNat then none
  else
    let debited := l.set token src (l token src - value)
    if 2 ^ 256 ≤ (debited token dst).toNat + value.toNat then none
    else some (debited.set token dst (debited token dst + value))

theorem Ledger.transfer_spec {l l' : Ledger} {token src dst : Address} {value : U256}
    (h : l.transfer token src dst value = some l') (t holder : Address) :
    (l' t holder).toNat + (if t = token ∧ holder = src then value.toNat else 0) =
      (l t holder).toNat + (if t = token ∧ holder = dst then value.toNat else 0) := by
  unfold Ledger.transfer at h
  split at h
  · cases h
  · rename_i hEnough
    dsimp only at h
    split at h
    · cases h
    · rename_i hFits
      have hSub : (l token src - value).toNat = (l token src).toNat - value.toNat :=
        BitVec.toNat_sub_of_le (BitVec.le_def.mpr (Nat.le_of_not_lt hEnough))
      obtain rfl := Option.some.inj h
      by_cases ht : t = token
      · subst ht
        by_cases hs : holder = src <;> by_cases hd : holder = dst
        · subst hs; subst hd
          simp only [Ledger.set, and_self, if_true] at hFits ⊢
          rw [BitVec.toNat_add_of_lt (by omega)]
          omega
        · subst hs
          simp only [Ledger.set, hd, and_false, if_false, and_self, if_true]
          omega
        · subst hd
          simp only [Ledger.set, hs, and_false, if_false, and_self, if_true] at hFits ⊢
          rw [BitVec.toNat_add_of_lt (by omega)]
          omega
        · simp [Ledger.set, hs, hd]
      · simp [Ledger.set, ht]

/-- A transfer that the sender can pay and the receiver can hold goes through. -/
theorem Ledger.exists_transfer {l : Ledger} {token src dst : Address} {value : U256}
    (hEnough : value.toNat ≤ (l token src).toNat)
    (hFits : (l token dst).toNat + value.toNat < 2 ^ 256) :
    ∃ l', l.transfer token src dst value = some l' := by
  have hSub : (l token src - value).toNat = (l token src).toNat - value.toNat :=
    BitVec.toNat_sub_of_le (BitVec.le_def.mpr hEnough)
  have hDebited : (l.set token src (l token src - value) token dst).toNat ≤
      (l token dst).toNat := by
    by_cases hd : dst = src
    · subst hd
      simp only [Ledger.set, and_self, if_true]
      omega
    · simp [Ledger.set, hd]
  rw [Ledger.transfer, if_neg (by omega), if_neg (by omega)]
  exact ⟨_, rfl⟩

/-! ## Batches of transfers -/

/-- What a list of payments, token and value, comes to in one token. -/
def total (token : Address) : List (Address × U256) → Nat
  | [] => 0
  | payment :: rest =>
      (if token = payment.1 then payment.2.toNat else 0) + total token rest

/-- The payments one after another, all from `src` to `dst`. -/
def Ledger.transferAll (src dst : Address) : List (Address × U256) → Ledger → Option Ledger
  | [], l => some l
  | payment :: rest, l =>
      (l.transfer payment.1 src dst payment.2).bind (transferAll src dst rest)

theorem Ledger.transferAll_spec {src dst : Address} (hNe : src ≠ dst)
    {payments : List (Address × U256)} {l l' : Ledger}
    (h : l.transferAll src dst payments = some l') (token : Address) :
    (l' token src).toNat + total token payments = (l token src).toNat ∧
      (l' token dst).toNat = (l token dst).toNat + total token payments := by
  induction payments generalizing l with
  | nil =>
      obtain rfl := Option.some.inj h
      simp [total]
  | cons payment rest ih =>
      obtain ⟨l₁, hHead, hRest⟩ := Option.bind_eq_some_iff.mp h
      obtain ⟨hSrc, hDst⟩ := ih hRest
      have hSpecSrc := Ledger.transfer_spec hHead token src
      have hSpecDst := Ledger.transfer_spec hHead token dst
      simp only [hNe, hNe.symm, and_false, and_true, if_false] at hSpecSrc hSpecDst
      rw [total]
      omega

/-- Payments that `src` can make and `dst` can hold go through. -/
theorem Ledger.exists_transferAll {src dst : Address} (hNe : src ≠ dst)
    {payments : List (Address × U256)} {l : Ledger}
    (hEnough : ∀ token, total token payments ≤ (l token src).toNat)
    (hFits : ∀ token, (l token dst).toNat + total token payments < 2 ^ 256) :
    ∃ l', l.transferAll src dst payments = some l' := by
  induction payments generalizing l with
  | nil => exact ⟨l, rfl⟩
  | cons payment rest ih =>
      have hEnoughHead := hEnough payment.1
      have hFitsHead := hFits payment.1
      simp only [total, if_true] at hEnoughHead hFitsHead
      obtain ⟨l₁, hHead⟩ : ∃ l₁, l.transfer payment.1 src dst payment.2 = some l₁ :=
        Ledger.exists_transfer (by omega) (by omega)
      have hAfter : ∀ token, total token rest ≤ (l₁ token src).toNat ∧
          (l₁ token dst).toNat + total token rest < 2 ^ 256 := by
        intro token
        have hSpecSrc := Ledger.transfer_spec hHead token src
        have hSpecDst := Ledger.transfer_spec hHead token dst
        have hEnoughTail := hEnough token
        have hFitsTail := hFits token
        simp only [hNe, hNe.symm, and_false, and_true, if_false] at hSpecSrc hSpecDst
        rw [total] at hEnoughTail hFitsTail
        omega
      obtain ⟨l', hRest⟩ := ih (fun token => (hAfter token).1) fun token => (hAfter token).2
      exact ⟨l', Option.bind_eq_some_iff.mpr ⟨l₁, hHead, hRest⟩⟩

/-! ## Worlds, queries and replies -/

/-- The token balances and the running contract's transient slot. -/
structure World where
  ledger : Ledger
  transient : U256

/-- The view functions of a pool. -/
inductive Getter where
  | token0
  | token1
  | getReserves
  deriving DecidableEq, Repr

/-- The two `swap` calls. -/
inductive PoolCall where
  | swapV2 (amount0Out amount1Out recipient : U256)
  | swapV3 (recipient zeroForOne amountSpecified sqrtPriceLimitX96 : U256) (data : List U256)
  deriving DecidableEq, Repr

/-- What a contract can ask of the chain. -/
inductive Query where
  | balanceOf (token holder : Address)
  | getter (target : Address) (getter : Getter)
  | transfer (token dst : Address) (value : U256)
  | approve (token spender : Address) (value : U256)
  | swap (pool : Address) (call : PoolCall)
  | flashLoan (lender receiver : Address) (tokens amounts : List U256) (data : List UInt8)
  | selfbalance
  | sendEther (dst : Address) (value : U256)
  | tload
  | tstore (value : U256)

/-- The success flag of a call, the size of the data it returned and the first two
words of its output area. -/
structure Reply where
  success : Bool
  returndatasize : Nat
  word0 : U256
  word1 : U256
  deriving DecidableEq, Repr

/-- One returned word. -/
def Reply.ofWord (word : U256) : Reply := ⟨true, 32, word, 0⟩

/-- A call that reverted. -/
def Reply.failed : Reply := ⟨false, 0, 0, 0⟩

abbrev Script := Prog Query Reply

/-- How the chain serves the contract `self`. -/
def serve (self : Address) (standard : Address → Bool) : Query → World → Service World Reply
  | .balanceOf token holder, w =>
      if standard token then .known (.ofWord (w.ledger token holder)) w else .view
  | .getter _ _, _ => .view
  | .transfer token dst value, w =>
      if standard token then
        match w.ledger.transfer token self dst value with
        | some ledger => .known (.ofWord 1) { w with ledger }
        | none => .known .failed w
      else .free
  | .approve token _ _, w => if standard token then .known (.ofWord 1) w else .free
  | .swap _ _, _ => .free
  | .flashLoan _ _ _ _ _, _ => .free
  | .selfbalance, _ => .view
  | .sendEther _ _, _ => .free
  | .tload, w => .known (.ofWord w.transient) w
  | .tstore value, w => .known ⟨true, 0, 0, 0⟩ { w with transient := value }

/-- The address in a word, as `call` takes it. -/
def toAddress (word : U256) : Address := word.setWidth 160

@[simp] theorem toAddress_addressWord (a : Address) : toAddress (Evm.addressWord a) = a := by
  apply BitVec.eq_of_toNat_eq
  simp only [toAddress, Evm.addressWord, BitVec.toNat_setWidth]
  omega

/-! ## Calls with a checked success flag -/

/-- `staticcall` of `balanceOf(holder)`, reverting if it fails. -/
def staticBalanceOf (token holder : Address) : Script U256 := do
  let reply ← query (.balanceOf token holder)
  require reply.success
  return reply.word0

/-- A call whose failure reverts the caller and whose output is ignored. -/
def callOrRevert (q : Query) : Script Unit := do
  let reply ← query q
  require reply.success

/-- `success` after a call whose output may be a boolean: no data counts as `true`. -/
def Reply.accepted (reply : Reply) : Prop :=
  reply.success ∧ (0 < reply.returndatasize → reply.word0 ≠ 0)

instance (reply : Reply) : Decidable reply.accepted := by
  unfold Reply.accepted; infer_instance

section Runs

variable {self : Address} {standard : Address → Bool} {F : World → World → Prop}
  {w w' : World} {token dst : Address} {value : U256}

theorem serve_transfer_some {ledger : Ledger} (hStd : standard token = true)
    (h : w.ledger.transfer token self dst value = some ledger) :
    serve self standard (.transfer token dst value) w =
      .known (.ofWord 1) { w with ledger } := by
  simp [serve, hStd, h]

theorem serve_transfer_none (hStd : standard token = true)
    (h : w.ledger.transfer token self dst value = none) :
    serve self standard (.transfer token dst value) w = .known .failed w := by
  simp [serve, hStd, h]

/-- `balanceOf` of a standard token reads the ledger. -/
theorem runs_staticBalanceOf (hStd : standard token = true) {holder : Address} {r : U256} :
    Runs (serve self standard) F (staticBalanceOf token holder) w r w' ↔
      r = w.ledger token holder ∧ w' = w := by
  have hServe : serve self standard (.balanceOf token holder) w =
      .known (.ofWord (w.ledger token holder)) w := by simp [serve, hStd]
  simp only [staticBalanceOf, runs_bind, runs_query_known hServe, runs_require, runs_pure]
  constructor
  · rintro ⟨_, _, ⟨rfl, rfl⟩, _, _, ⟨_, rfl⟩, rfl, rfl⟩
    exact ⟨rfl, rfl⟩
  · rintro ⟨rfl, rfl⟩
    exact ⟨_, _, ⟨rfl, rfl⟩, (), w', ⟨rfl, rfl⟩, rfl, rfl⟩

/-- A transfer of a standard token under any check of the reply that accepts `true`
and rejects a revert moves the ledger. -/
theorem runs_checkedTransfer_standard (check : Reply → Prop) [DecidablePred check]
    (hTrue : check (.ofWord 1)) (hFailed : ¬ check .failed) (hStd : standard token = true)
    {r : Unit} :
    Runs (serve self standard) F
      (query (.transfer token dst value) >>= fun reply => require (check reply)) w r w' ↔
      ∃ ledger, w.ledger.transfer token self dst value = some ledger ∧
        w' = { w with ledger } := by
  simp only [runs_bind, runs_require]
  cases h : w.ledger.transfer token self dst value with
  | none =>
      simp only [runs_query_known (serve_transfer_none hStd h)]
      simp [hFailed]
  | some ledger =>
      simp only [runs_query_known (serve_transfer_some hStd h)]
      constructor
      · rintro ⟨_, _, ⟨rfl, rfl⟩, _, rfl⟩
        exact ⟨ledger, rfl, rfl⟩
      · rintro ⟨_, hLedger, rfl⟩
        obtain rfl := Option.some.inj hLedger
        exact ⟨_, _, ⟨rfl, rfl⟩, hTrue, rfl⟩

/-- A transfer of any other token is a call of unknown code. -/
theorem runs_checkedTransfer_free (check : Reply → Prop) [DecidablePred check]
    (hStd : standard token = false) {r : Unit}
    (h : Runs (serve self standard) F
      (query (.transfer token dst value) >>= fun reply => require (check reply)) w r w') :
    F w w' := by
  have hServe : serve self standard (.transfer token dst value) w = .free := by
    simp [serve, hStd]
  simp only [runs_bind, runs_require, runs_query_free hServe] at h
  obtain ⟨_, _, hF, _, rfl⟩ := h
  exact hF

/-- `runs_checkedTransfer_standard` for the success flag alone. -/
theorem runs_transfer_standard (hStd : standard token = true) {r : Unit} :
    Runs (serve self standard) F (callOrRevert (.transfer token dst value)) w r w' ↔
      ∃ ledger, w.ledger.transfer token self dst value = some ledger ∧
        w' = { w with ledger } :=
  runs_checkedTransfer_standard (fun reply => reply.success = true) rfl Bool.false_ne_true hStd

end Runs

/-! ## Custody -/

/-- What happens to standard tokens elsewhere: a balance other than `self`'s is
spent, or tokens are minted. -/
inductive OthersMove (self : Address) : World → World → Prop
  | transfer {w : World} {token src dst : Address} {value : U256} {ledger : Ledger}
      (hSrc : src ≠ self) (h : w.ledger.transfer token src dst value = some ledger) :
      OthersMove self w { w with ledger }
  | mint {w : World} {token holder : Address} {value : U256}
      (h : (w.ledger token holder).toNat + value.toNat < 2 ^ 256) :
      OthersMove self w
        { w with ledger := w.ledger.set token holder (w.ledger token holder + value) }

/-- No balance of a standard token held by `self` went down. -/
def Keeps (self : Address) (standard : Address → Bool) (w w' : World) : Prop :=
  ∀ token, standard token = true →
    (w.ledger token self).toNat ≤ (w'.ledger token self).toNat

theorem Keeps.refl (self : Address) (standard : Address → Bool) (w : World) :
    Keeps self standard w w := fun _ _ => Nat.le_refl _

theorem Keeps.trans {self : Address} {standard : Address → Bool} {w w₁ w₂ : World}
    (h₁ : Keeps self standard w w₁) (h₂ : Keeps self standard w₁ w₂) :
    Keeps self standard w w₂ :=
  fun token hStd => Nat.le_trans (h₁ token hStd) (h₂ token hStd)

theorem OthersMove.keeps {self : Address} {standard : Address → Bool} {w w' : World}
    (h : OthersMove self w w') : Keeps self standard w w' := by
  intro token _
  cases h with
  | @transfer token₀ src dst value ledger hSrc h =>
      have hSpec := Ledger.transfer_spec h token self
      have hSelf : ¬ (token = token₀ ∧ self = src) := fun hEq => hSrc hEq.2.symm
      rw [if_neg hSelf] at hSpec
      dsimp only
      omega
  | @mint token₀ holder value h =>
      dsimp only [Ledger.set]
      by_cases hEq : token = token₀ ∧ self = holder
      · obtain ⟨rfl, rfl⟩ := hEq
        rw [if_pos ⟨rfl, rfl⟩, BitVec.toNat_add_of_lt h]
        omega
      · rw [if_neg hEq]

end SovereignShadow.Ports.Chain
