import SovereignShadow.Ports.BytecodeScan
import SovereignShadow.Ports.StateMirror
import SovereignShadow.Verified.Abi
import SovereignShadow.Verified.CallTrace

/-!
# The honeypot probe

Port of `check_honeypot`, `simulate_transfer` and `get_erc20_balance` of
`state_simulator.rs`.  The probe buys, approves, sells and measures the tax of a token by
calls that it encodes itself.  The EVM is outside the repository: it answers the transaction
environments it is given, and the probe sees nothing else of it.

The word for the amount is meant to be filled by
`amount.to_be_bytes::<32>().copy_from_slice(&mut amt_bytes)`.  The receiver of the copy is
the temporary array, so `amt_bytes` stays zero, in all three places.

## Main results

* `amountWord_eq` — the word for any amount is that of zero.
* `decode_transfer`, `decode_approve` — what a token reads from the calldata.
* `checkHoneypot_planned` — the calls that the probe intends, with their amounts.
* `probesFaithful_iff` — when the calldata is that of the intended calls.
-/

namespace SovereignShadow.Ports.HoneypotProbe

open SovereignShadow.Ports.Models
open SovereignShadow.Ports.Constants
open SovereignShadow.Ports.Mirror
open SovereignShadow.Ports.BytecodeScan
open SovereignShadow.Verified.Bytes
open SovereignShadow.Verified.Abi
open SovereignShadow.Verified.Callback

/-! ## Calldata -/

/-- `receiver.copy_from_slice(source)`: what the receiver holds then.  The source is only
read. -/
def copyFromSlice (_receiver source : List UInt8) : List UInt8 := source

/-- The 32 bytes pushed for an amount. -/
def amountWord (amount : U256) : List UInt8 :=
  let amtBytes : List UInt8 := List.replicate 32 0
  let _temporary := copyFromSlice (encodeBE 32 amount.toNat) amtBytes
  amtBytes

/-- Twelve zeros and the address. -/
def addressWord (account : Address) : List UInt8 :=
  List.replicate 12 0 ++ encodeBE 20 account.toNat

/-- `transfer(address,uint256)`. -/
def transferSelector : List UInt8 := [0xa9, 0x05, 0x9c, 0xbb]

/-- `approve(address,uint256)`. -/
def approveSelector : List UInt8 := [0x09, 0x5e, 0xa7, 0xb3]

/-- `balanceOf(address)`. -/
def balanceOfSelector : List UInt8 := [0x70, 0xa0, 0x82, 0x31]

/-- Which transfer of the probe a call is. -/
inductive Stage where
  | buy | sell | refill | tax
  deriving DecidableEq, Repr

/-- The calls as the probe intends them, `from` being the sender. -/
inductive Probe where
  | transfer (stage : Stage) (token sender recipient : Address) (amount : U256)
  | approve (token owner spender : Address) (amount : U256)
  | balanceOf (token account : Address)
  deriving DecidableEq, Repr

structure TxEnv where
  caller : Address
  transactTo : Address
  data : List UInt8
  deriving DecidableEq, Repr

/-- The transaction environment that is set for a call. -/
def Probe.tx : Probe → TxEnv
  | .transfer _ token sender recipient amount =>
      { caller := sender
        transactTo := token
        data := transferSelector ++ addressWord recipient ++ amountWord amount }
  | .approve token owner spender amount =>
      { caller := owner
        transactTo := token
        data := approveSelector ++ addressWord spender ++ amountWord amount }
  | .balanceOf token account =>
      { caller := account
        transactTo := token
        data := balanceOfSelector ++ addressWord account }

/-! ## What a token reads -/

inductive TokenCall where
  | transfer (recipient : Address) (amount : U256)
  | approve (spender : Address) (amount : U256)
  deriving DecidableEq, Repr

/-- The two arguments of `(address, uint256)`. -/
def decodeArguments (data : List UInt8) : Option (Address × U256) :=
  match decodeTuple (ofList data) 4 (data.length - 4) [.word 160, .word 256] with
  | some [.word account, .word amount] => some (BitVec.ofNat 160 account, BitVec.ofNat 256 amount)
  | _ => none

/-- The call by its selector, and its arguments. -/
def decodeTokenCall (data : List UInt8) : Option TokenCall :=
  if data.take 4 = transferSelector then
    (decodeArguments data).map fun args => .transfer args.1 args.2
  else if data.take 4 = approveSelector then
    (decodeArguments data).map fun args => .approve args.1 args.2
  else none

theorem amountWord_eq (amount : U256) : amountWord amount = wordBytes 0 := by
  show List.replicate 32 0 = encodeBE 32 0
  decide

theorem addressWord_eq (account : Address) : addressWord account = wordBytes account.toNat := by
  have hSmall : account.toNat < 256 ^ 20 := account.isLt.trans_eq (by norm_num)
  have hSplit := encodeBE_add 12 20 account.toNat
  rw [Nat.div_eq_of_lt hSmall] at hSplit
  rw [wordBytes, show 32 = 12 + 20 from rfl, hSplit, addressWord]
  rfl

/-- Two words behind a selector are read back. -/
theorem decodeArguments_words {selector : List UInt8} (hSelector : selector.length = 4)
    (account : Address) (amount : U256) :
    decodeArguments (selector ++ wordBytes account.toNat ++ wordBytes amount.toNat) =
      some (account, amount) := by
  have hAccount := holds_ofList selector (wordBytes account.toNat) (wordBytes amount.toNat)
  have hAmount := holds_ofList (selector ++ wordBytes account.toNat) (wordBytes amount.toNat) []
  rw [List.append_nil, List.length_append, wordBytes_length] at hAmount
  rw [hSelector] at hAccount hAmount
  have hWide : account.toNat < 2 ^ 256 :=
    account.isLt.trans (Nat.pow_lt_pow_right (by norm_num) (by norm_num))
  have hReadAccount := readBE_wordBytes hAccount hWide
  have hReadAmount := readBE_wordBytes hAmount amount.isLt
  have hLength : (selector ++ wordBytes account.toNat ++ wordBytes amount.toNat).length = 68 := by
    rw [List.length_append, List.length_append, wordBytes_length, wordBytes_length, hSelector]
  unfold decodeArguments decodeTuple
  simp only [hLength, decodeFrom, decodeComponent, Nat.add_zero, Nat.reduceAdd, hReadAccount,
    hReadAmount, if_pos account.isLt, if_pos amount.isLt]
  simp

/-! ## The calldata of the probe -/

theorem take_selector {selector arguments rest : List UInt8} (h : selector.length = 4) :
    (selector ++ arguments ++ rest).take 4 = selector := by
  rw [List.append_assoc, ← h, List.take_left]

theorem decode_transfer (stage : Stage) (token sender recipient : Address) (amount : U256) :
    decodeTokenCall (Probe.transfer stage token sender recipient amount).tx.data =
      some (.transfer recipient 0) := by
  have hSelector : transferSelector.length = 4 := rfl
  have hArguments := decodeArguments_words hSelector recipient 0
  simp only [Probe.tx, amountWord_eq, addressWord_eq]
  rw [decodeTokenCall, take_selector hSelector, if_pos rfl]
  exact congrArg (Option.map _) hArguments

theorem decode_approve (token owner spender : Address) (amount : U256) :
    decodeTokenCall (Probe.approve token owner spender amount).tx.data =
      some (.approve spender 0) := by
  have hSelector : approveSelector.length = 4 := rfl
  have hArguments := decodeArguments_words hSelector spender 0
  simp only [Probe.tx, amountWord_eq, addressWord_eq]
  rw [decodeTokenCall, take_selector hSelector, if_neg (by decide), if_pos rfl]
  exact congrArg (Option.map _) hArguments

/-! ## The probe -/

/-- An error of the EVM, as `to_string` and as `{:?}` print it. -/
structure EvmError where
  display : String
  debug : String
  deriving DecidableEq, Repr

inductive ExecutionResult where
  | success (gasUsed : ℕ) (output : List UInt8)
  | revert
  | halt
  deriving DecidableEq, Repr

/-- `is_success`. -/
def ExecutionResult.isSuccess : ExecutionResult → Bool
  | .success _ _ => true
  | _ => false

/-- What `transact` gives. -/
abbrev Reply := Except EvmError ExecutionResult

/-- The probe: calls of the EVM, an error that `?` hands on, or a panic. -/
abbrev Check (α : Type) := ExceptT MEVError (Prog Probe Reply) α

def honeypot (msg : String) : MEVError := .honeypotDetected msg

/-- `return Err(e)` unless the condition holds. -/
def ensure (c : Prop) [Decidable c] (e : MEVError) : Check Unit := if c then pure () else throw e

/-- `transact` or `transact_commit`, an error of the EVM printed by `print`. -/
def transact (print : EvmError → String) (probe : Probe) : Check ExecutionResult :=
  ExceptT.mk do
    let reply ← Prog.query probe
    pure (reply.mapError fun e => .simulationFailed (print e))

def simulateTransfer (stage : Stage) (token sender recipient : Address) (amount : U256) :
    Check ExecutionResult :=
  transact EvmError.debug (.transfer stage token sender recipient amount)

/-- `U256::from_be_slice`; `none` is the panic on more than 32 bytes. -/
def fromBeSlice (bytes : List UInt8) : Option U256 :=
  if bytes.length ≤ 32 then some (BitVec.ofNat 256 (readBE (ofList bytes) 0 bytes.length))
  else none

/-- A value that may be missing, where that is a panic. -/
def orPanic {α : Type} : Option α → Check α
  | some a => pure a
  | none => ExceptT.mk .revert

def getErc20Balance (token account : Address) : Check U256 := do
  let res ← transact EvmError.debug (.balanceOf token account)
  match res with
  | .success _ output => orPanic (fromBeSlice output)
  | _ => pure 0

/-- `BLACKLISTED_TOKENS` on Base. -/
def blacklistedTokens : List Address := []

def maxAiTaxBps : ℕ := 100
def maxAllowedTaxBps : ℕ := 300

/-- The tables that the probe reads. -/
structure ProbeTables where
  poisonedAccounts : Address → Bool
  bytecodes : Address → Option (List UInt8)
  pools : Address → Option PoolState

/-- The arguments of the probe and the two random addresses. -/
structure ProbeArgs where
  token : Address
  pool : Address
  amountInWei : U256
  simExecutor : Address
  recipient : Address

/-- `{:?}` of an address. -/
abbrev ShowAddress := Address → String

/-- The static checks in front of the simulation. -/
def staticChecks (tables : ProbeTables) (showAddress : ShowAddress) (args : ProbeArgs) :
    Check Unit := do
  ensure (¬ (tables.poisonedAccounts args.token || tables.poisonedAccounts args.pool))
    (honeypot "Static analysis flagged this pool/token")
  ExceptT.mk (pure (xrayScanBytecode (tables.bytecodes args.token)))
  ensure (¬ blacklistedTokens.contains args.token)
    (honeypot ("Token " ++ showAddress args.token ++ " is manually blacklisted"))

/-- Steps 1 and 1.1: the balance received for the buy. -/
def buyStep (tables : ProbeTables) (args : ProbeArgs) : Check U256 := do
  let buyRes ← simulateTransfer .buy args.token args.pool args.simExecutor args.amountInWei
  ensure buyRes.isSuccess (honeypot "BUY_FAILED: Token cannot be moved from pool")
  match tables.pools args.pool with
  | some poolData =>
      ensure (¬ args.amountInWei > u256Max poolData.reserves0 poolData.reserves1 / 10)
        (honeypot "LIQUIDITY_DEPTH_TOO_SHALLOW: High price impact risk")
  | none => pure ()
  let balanceReceived ← getErc20Balance args.token args.simExecutor
  ensure (balanceReceived ≠ 0) (honeypot "GHOST_TOKEN: Reported success but zero balance")
  pure balanceReceived

/-- Step 1.2. -/
def approveStep (args : ProbeArgs) : Check Unit := do
  let appRes ← transact EvmError.display
    (.approve args.token args.simExecutor args.recipient args.amountInWei)
  ensure appRes.isSuccess (honeypot "APPROVE_FAILED: Token blocks approval logic")

/-- Steps 2 and 2.1, with the gas trap. -/
def sellStep (args : ProbeArgs) (balanceReceived : U256) : Check Unit := do
  let baseAssetBalBefore ← getErc20Balance tokenWeth args.simExecutor
  let sellRes ← simulateTransfer .sell args.token args.simExecutor args.pool balanceReceived
  ensure sellRes.isSuccess (honeypot "SELL_FAILED: Token cannot be sold back to pool")
  let baseAssetBalAfter ← getErc20Balance tokenWeth args.simExecutor
  ensure (¬ (baseAssetBalAfter ≤ baseAssetBalBefore ∧ balanceReceived ≠ 0))
    (honeypot "LIQUIDATION_FAILED: Sell successful but no base asset received")
  match sellRes with
  | .success gasUsed _ =>
      ensure (¬ gasUsed > 150000)
        (honeypot ("GAS_TRAP: Abnormal sell gas (" ++ toString gasUsed ++ ")"))
  | _ => pure ()

/-- `tax_bps`. -/
def taxBps (amountInWei received : U256) : U256 :=
  saturatingSub amountInWei received * 10000 / u256Max amountInWei 1

/-- Step 3. -/
def taxStep (args : ProbeArgs) : Check ℕ := do
  let _ ← simulateTransfer .refill args.token args.pool args.simExecutor args.amountInWei
  let taxRes ← simulateTransfer .tax args.token args.simExecutor args.recipient args.amountInWei
  match taxRes with
  | .success _ _ =>
      let received ← getErc20Balance args.token args.recipient
      let taxU64 ← orPanic (toU64 (taxBps args.amountInWei received))
      let isAi : Bool :=
        args.token = tokenVirtual ∨ args.token = tokenLuna ∨ args.token = tokenAi16z
      let maxTax := if isAi then maxAiTaxBps else maxAllowedTaxBps
      ensure (¬ taxU64 > maxTax)
        (honeypot ("HIGH_TAX: " ++ toString taxU64 ++ " BPS detected (Max: " ++
          toString maxTax ++ ")"))
      pure taxU64
  | _ => pure 0

def checkHoneypot (tables : ProbeTables) (showAddress : ShowAddress) (args : ProbeArgs) :
    Check ℕ :=
  if coreTokens.contains args.token then pure 0
  else do
    staticChecks tables showAddress args
    let balanceReceived ← buyStep tables args
    approveStep args
    sellStep args balanceReceived
    taxStep args

/-! ## The calls that the probe intends -/

/-- What the probe's calls are for. -/
def Planned (args : ProbeArgs) : Probe → Prop
  | .transfer .sell token sender recipient amount =>
      token = args.token ∧ sender = args.simExecutor ∧ recipient = args.pool ∧ amount ≠ 0
  | .transfer .tax token sender recipient amount =>
      token = args.token ∧ sender = args.simExecutor ∧ recipient = args.recipient ∧
        amount = args.amountInWei
  | .transfer _ token sender recipient amount =>
      token = args.token ∧ sender = args.pool ∧ recipient = args.simExecutor ∧
        amount = args.amountInWei
  | .approve token owner spender amount =>
      token = args.token ∧ owner = args.simExecutor ∧ spender = args.recipient ∧
        amount = args.amountInWei
  | .balanceOf _ _ => True

section Checks

variable {α β : Type} {P : Probe → Prop}

/-- The calls of a check satisfy `P`, and its value, if it ends with one, `Post`. -/
def Calls (P : Probe → Prop) (Post : α → Prop) (x : Check α) : Prop :=
  Asks P (fun r => ∀ a, r = .ok a → Post a) x.run

theorem calls_bind {Post : α → Prop} {Post' : β → Prop} {x : Check α} {f : α → Check β}
    (hx : Calls P Post x) (hf : ∀ a, Post a → Calls P Post' (f a)) : Calls P Post' (x >>= f) := by
  refine Asks.bind hx fun r hr => ?_
  cases r with
  | ok a => exact hf a (hr a rfl)
  | error e => exact nofun

theorem calls_pure {Post : α → Prop} {a : α} (h : Post a) : Calls P Post (pure a : Check α) := by
  intro a' hEq
  obtain rfl := Except.ok.inj hEq
  exact h

theorem calls_ensure (c : Prop) [Decidable c] (e : MEVError) :
    Calls P (fun _ => c) (ensure c e) := by
  unfold ensure
  split
  case isTrue hc => exact calls_pure hc
  case isFalse => exact nofun

theorem Calls.weaken {Post Weak : α → Prop} {x : Check α} (hx : Calls P Post x)
    (hPost : ∀ a, Post a → Weak a) : Calls P Weak x :=
  Asks.weaken hx fun _ hr a hEq => hPost a (hr a hEq)

theorem calls_transact {print : EvmError → String} {probe : Probe} (h : P probe) :
    Calls P (fun _ => True) (transact print probe) :=
  ⟨h, fun _ _ _ => trivial⟩

theorem calls_orPanic (x : Option α) : Calls P (fun _ => True) (orPanic x) := by
  cases x with
  | some a => exact calls_pure trivial
  | none => trivial

theorem calls_getErc20Balance {token account : Address} (h : P (.balanceOf token account)) :
    Calls P (fun _ => True) (getErc20Balance token account) := by
  apply calls_bind (calls_transact h)
  intro res _
  cases res with
  | success gasUsed output => exact calls_orPanic _
  | revert => exact calls_pure trivial
  | halt => exact calls_pure trivial

end Checks

section Plan

variable (tables : ProbeTables) (showAddress : ShowAddress) (args : ProbeArgs)

theorem staticChecks_calls :
    Calls (Planned args) (fun _ => True) (staticChecks tables showAddress args) := by
  have hScan : Calls (Planned args) (fun _ => True)
      (ExceptT.mk (pure (xrayScanBytecode (tables.bytecodes args.token))) : Check Unit) :=
    fun _ _ => trivial
  apply calls_bind (calls_ensure _ _)
  intro _ _
  apply calls_bind hScan
  intro _ _
  exact (calls_ensure _ _).weaken fun _ _ => trivial

/-- The buy step ends with a balance that is not zero. -/
theorem buyStep_calls : Calls (Planned args) (· ≠ 0) (buyStep tables args) := by
  apply calls_bind (calls_transact ⟨rfl, rfl, rfl, rfl⟩)
  intro buyRes _
  apply calls_bind (calls_ensure _ _)
  intro _ _
  have hBalance : Calls (Planned args) (· ≠ 0) (do
      let balanceReceived ← getErc20Balance args.token args.simExecutor
      ensure (balanceReceived ≠ 0) (honeypot "GHOST_TOKEN: Reported success but zero balance")
      pure balanceReceived) := by
    apply calls_bind (calls_getErc20Balance trivial)
    intro balanceReceived _
    exact calls_bind (calls_ensure _ _) fun _ hSome => calls_pure hSome
  cases tables.pools args.pool with
  | some poolData => exact calls_bind (calls_ensure _ _) fun _ _ => hBalance
  | none => exact hBalance

theorem approveStep_calls : Calls (Planned args) (fun _ => True) (approveStep args) := by
  apply calls_bind (calls_transact ⟨rfl, rfl, rfl, rfl⟩)
  intro appRes _
  exact (calls_ensure _ _).weaken fun _ _ => trivial

theorem sellStep_calls {balanceReceived : U256} (hSome : balanceReceived ≠ 0) :
    Calls (Planned args) (fun _ => True) (sellStep args balanceReceived) := by
  apply calls_bind (calls_getErc20Balance trivial)
  intro before _
  apply calls_bind (calls_transact ⟨rfl, rfl, rfl, hSome⟩)
  intro sellRes _
  apply calls_bind (calls_ensure _ _)
  intro _ _
  apply calls_bind (calls_getErc20Balance trivial)
  intro after _
  apply calls_bind (calls_ensure _ _)
  intro _ _
  cases sellRes with
  | success gasUsed output => exact (calls_ensure _ _).weaken fun _ _ => trivial
  | revert => exact calls_pure trivial
  | halt => exact calls_pure trivial

theorem taxStep_calls : Calls (Planned args) (fun _ => True) (taxStep args) := by
  apply calls_bind (calls_transact ⟨rfl, rfl, rfl, rfl⟩)
  intro _ _
  apply calls_bind (calls_transact ⟨rfl, rfl, rfl, rfl⟩)
  intro taxRes _
  cases taxRes with
  | success gasUsed output =>
      apply calls_bind (calls_getErc20Balance trivial)
      intro received _
      apply calls_bind (calls_orPanic _)
      intro taxU64 _
      exact calls_bind (calls_ensure _ _) fun _ _ => calls_pure trivial
  | revert => exact calls_pure trivial
  | halt => exact calls_pure trivial

/-- **The plan.**  Whatever the EVM answers, the probe intends these calls and no others. -/
theorem checkHoneypot_planned :
    Calls (Planned args) (fun _ => True) (checkHoneypot tables showAddress args) := by
  unfold checkHoneypot
  split
  case isTrue => exact calls_pure trivial
  case isFalse =>
    apply calls_bind (staticChecks_calls tables showAddress args)
    intro _ _
    apply calls_bind (buyStep_calls tables args)
    intro balanceReceived hSome
    apply calls_bind (approveStep_calls args)
    intro _ _
    apply calls_bind (sellStep_calls args hSome)
    intro _ _
    exact taxStep_calls args

end Plan

/-! ## Runs -/

variable {W : Type}

/-- The EVM's answer to a call; a balance is read without a commit. -/
def serve (evm : TxEnv → W → Reply × W) : Probe → W → Reply × W
  | .balanceOf token account, w => ((evm (Probe.balanceOf token account).tx w).1, w)
  | probe, w => evm probe.tx w

/-- The calls that a run of the probe executes. -/
def executed (evm : TxEnv → W → Reply × W) (tables : ProbeTables) (showAddress : ShowAddress)
    (args : ProbeArgs) (w : W) : List Probe :=
  (exec (serve evm) (checkHoneypot tables showAddress args).run w).1

/-- The token reads the call that the probe intends. -/
def Faithful : Probe → Prop
  | .transfer stage token sender recipient amount =>
      decodeTokenCall (Probe.transfer stage token sender recipient amount).tx.data =
        some (.transfer recipient amount)
  | .approve token owner spender amount =>
      decodeTokenCall (Probe.approve token owner spender amount).tx.data =
        some (.approve spender amount)
  | .balanceOf _ _ => True

theorem faithful_transfer_iff {stage : Stage} {token sender recipient : Address}
    {amount : U256} : Faithful (.transfer stage token sender recipient amount) ↔ amount = 0 := by
  rw [Faithful, decode_transfer]
  constructor
  · intro hSame
    injection hSame with hCall
    injection hCall with _ hAmount
    exact hAmount.symm
  · rintro rfl
    rfl

theorem faithful_approve_iff {token owner spender : Address} {amount : U256} :
    Faithful (.approve token owner spender amount) ↔ amount = 0 := by
  rw [Faithful, decode_approve]
  constructor
  · intro hSame
    injection hSame with hCall
    injection hCall with _ hAmount
    exact hAmount.symm
  · rintro rfl
    rfl

/-- The transfer whose receipt the tax is computed from. -/
def Probe.IsTax : Probe → Prop
  | .transfer .tax _ _ _ _ => True
  | _ => False

/-- The transfer of the balance received. -/
def Probe.IsSell : Probe → Prop
  | .transfer .sell _ _ _ _ => True
  | _ => False

section Run

variable (evm : TxEnv → W → Reply × W) (tables : ProbeTables) (showAddress : ShowAddress)
  (args : ProbeArgs) (w : W)

theorem planned_of_executed {probe : Probe}
    (h : probe ∈ executed evm tables showAddress args w) : Planned args probe :=
  (checkHoneypot_planned tables showAddress args).exec (serve evm) w probe h

/-- The tax is measured on a transfer of nothing. -/
theorem tax_transfers_zero {probe : Probe} (h : probe ∈ executed evm tables showAddress args w)
    (hTax : probe.IsTax) : decodeTokenCall probe.tx.data = some (.transfer args.recipient 0) := by
  have hPlanned := planned_of_executed evm tables showAddress args w h
  cases probe with
  | transfer stage token sender recipient amount =>
      cases stage with
      | tax =>
          obtain ⟨-, -, rfl, -⟩ := hPlanned
          exact decode_transfer _ _ _ _ _
      | buy => exact hTax.elim
      | sell => exact hTax.elim
      | refill => exact hTax.elim
  | approve token owner spender amount => exact hTax.elim
  | balanceOf token account => exact hTax.elim

/-- With an amount of zero every call but the sell is what it is meant to be. -/
theorem faithful_of_zero (hZero : args.amountInWei = 0) {probe : Probe}
    (h : probe ∈ executed evm tables showAddress args w) (hSell : ¬ probe.IsSell) :
    Faithful probe := by
  have hPlanned := planned_of_executed evm tables showAddress args w h
  cases probe with
  | transfer stage token sender recipient amount =>
      rw [faithful_transfer_iff, ← hZero]
      cases stage with
      | sell => exact absurd trivial hSell
      | buy => exact hPlanned.2.2.2
      | refill => exact hPlanned.2.2.2
      | tax => exact hPlanned.2.2.2
  | approve token owner spender amount =>
      rw [faithful_approve_iff, ← hZero]
      exact hPlanned.2.2.2
  | balanceOf token account => trivial

/-- The sell is tested with a transfer of nothing, never with the balance received. -/
theorem sell_not_faithful {token sender recipient : Address} {amount : U256}
    (h : .transfer .sell token sender recipient amount ∈
      executed evm tables showAddress args w) :
    ¬ Faithful (.transfer .sell token sender recipient amount) := by
  have hPlanned := planned_of_executed evm tables showAddress args w h
  rw [faithful_transfer_iff]
  exact hPlanned.2.2.2

end Run

/-- A transfer and an approval of the amount are encoded, so are the calls of a run that are
made for the amount, and the tax is measured on a transfer of it. -/
structure ProbesFaithful (args : ProbeArgs) (stage : Stage) (sender recipient spender : Address)
    (executed : List Probe) : Prop where
  transfer : Faithful (.transfer stage args.token sender recipient args.amountInWei)
  approve : Faithful (.approve args.token sender spender args.amountInWei)
  calls : ∀ probe ∈ executed, ¬ probe.IsSell → Faithful probe
  tax : ∀ probe ∈ executed, probe.IsTax →
    decodeTokenCall probe.tx.data = some (.transfer args.recipient args.amountInWei)

/-- **The calldata.**  Calls for an amount are encoded with the amount, and the tax is
measured on it, if and only if the amount is zero. -/
theorem probesFaithful_iff (evm : TxEnv → W → Reply × W) (tables : ProbeTables)
    (showAddress : ShowAddress) (args : ProbeArgs) (w : W) (stage : Stage)
    (sender recipient spender : Address) :
    ProbesFaithful args stage sender recipient spender
        (executed evm tables showAddress args w) ↔ args.amountInWei = 0 := by
  constructor
  · intro h
    exact faithful_transfer_iff.mp h.transfer
  · intro hZero
    refine ⟨faithful_transfer_iff.mpr hZero, faithful_approve_iff.mpr hZero, ?_, ?_⟩
    · intro probe hProbe hSell
      exact faithful_of_zero evm tables showAddress args w hZero hProbe hSell
    · intro probe hProbe hTax
      rw [hZero]
      exact tax_transfers_zero evm tables showAddress args w hProbe hTax

/-- An EVM in which every call succeeds and returns the number of commits so far. -/
def countingEvm : TxEnv → ℕ → Reply × ℕ := fun _ commits =>
  (.ok (.success 21000 (encodeBE 32 commits)), commits + 1)

def emptyTables : ProbeTables where
  poisonedAccounts := fun _ => false
  bytecodes := fun _ => none
  pools := fun _ => none

/-- A probe for one ether. -/
def oneEther : ProbeArgs where
  token := 0x11
  pool := 0x22
  amountInWei := 1000000000000000000
  simExecutor := 0x33
  recipient := 0x44

/-- The run measures the tax, on a transfer of nothing. -/
theorem not_probesFaithful :
    let run := executed countingEvm emptyTables (fun _ => "") oneEther 0
    let probe := Probe.transfer .tax 0x11 0x33 0x44 1000000000000000000
    probe ∈ run ∧ decodeTokenCall probe.tx.data = some (.transfer 0x44 0) ∧
      ¬ ProbesFaithful oneEther .tax 0x33 0x44 0x44 run := by
  intro run probe
  have hRun : probe ∈ run := by decide +kernel
  refine ⟨hRun, decode_transfer _ _ _ _ _, ?_⟩
  intro hFaithful
  have hAmount := faithful_transfer_iff.mp hFaithful.transfer
  exact absurd hAmount (by decide)

end SovereignShadow.Ports.HoneypotProbe
