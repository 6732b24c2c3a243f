import SovereignShadow.Ports.ExecutorContract

/-!
# Who can move the tokens of `Executor`

Sequences of transactions that the owner does not send.  In a transaction anyone
may call any entry point, any number of times and from inside any call that the
contract makes, and anyone may have the Balancer vault lend to the contract with
any `userData`.  The transient slot is clear when a transaction starts.

The direct calls are harmless: `onlyOwner`, the vault check, and a callback that
pays only the active pool, which is the zero address while the slot is clear.  A
flash loan is not: whoever asks for it chooses the token, the first receiver and
the pools.  It is harmless when its payload has no hops and its first transfer
takes nothing, goes to the contract itself or is of a token that is not a
standard one, and when the callback runs out of gas.

## Main results

* `outsider_call` — direct calls leave the world alone while the slot is clear.
* `harmless_loan` — what a harmless flash loan leaves.
* `custody_without_loans` — the balances over a whole sequence of transactions.
* `vaultLoan_oneTransfer` — the callback without hops, which shows how a loan drains.
-/

namespace SovereignShadow.Ports.ExecutorCustody

open SovereignShadow.Verified.Bytes
open SovereignShadow.Verified.Callback
open SovereignShadow.Verified.Callback.Prog
open SovereignShadow.Ports.Models
open SovereignShadow.Ports.Evm
open SovereignShadow.Ports.Chain
open SovereignShadow.Ports.ExecutorContract

/-! ## Calls, loans and transactions -/

/-- The contract and its immutables. -/
structure Deployment where
  executor : Address
  owner : Address
  balancerVault : Address
  vault_ne : balancerVault ≠ executor

/-- A call from `sender`. -/
def Deployment.context (d : Deployment) (sender : Address) : Context where
  self := d.executor
  owner := d.owner
  balancerVault := d.balancerVault
  sender := sender

/-- The vault calls only from its `flashLoan`, and nobody calls from address zero. -/
structure Outsider (d : Deployment) (sender : Address) : Prop where
  ne_owner : sender ≠ d.owner
  ne_vault : sender ≠ d.balancerVault
  ne_zero : sender ≠ 0

/-- A direct call by an outsider. -/
def DirectCall (d : Deployment) (standard : Address → Bool) (F : World → World → Prop)
    (w w' : World) : Prop :=
  ∃ sender call r, Outsider d sender ∧
    Runs (serve d.executor standard) F (program (d.context sender) call) w r w'

/-- `flashLoan(executor, loans, userData)` on the vault, by anyone: the payout, the
callback, and a vault that has its tokens back. -/
def VaultLoan (d : Deployment) (standard : Address → Bool) (F : World → World → Prop)
    (loans : List (Address × U256)) (data : UserData) (w w' : World) : Prop :=
  ∃ wPaid,
    Runs (serve d.balancerVault standard) F (payLoans d.executor loans) w () wPaid ∧
    Runs (serve d.executor standard) F
      (receiveFlashLoan (d.context d.balancerVault) loans data) wPaid () w' ∧
    ∀ loan ∈ loans, standard loan.1 = true →
      (w.ledger loan.1 d.balancerVault).toNat ≤ (w'.ledger loan.1 d.balancerVault).toNat

/-- One entry into the contract. -/
def Turn (d : Deployment) (standard : Address → Bool)
    (Allowed : List (Address × U256) → UserData → Prop) (F : World → World → Prop)
    (w w' : World) : Prop :=
  DirectCall d standard F w w' ∨
    ∃ loans data, Allowed loans data ∧ VaultLoan d standard F loans data w w'

/-- A transaction not sent by the owner: anything that foreign code can do, to any
depth of calls, from a clear slot. -/
def Transaction (d : Deployment) (standard : Address → Bool)
    (Allowed : List (Address × U256) → UserData → Prop) (w w' : World) : Prop :=
  ∃ n, foreignAt (Turn d standard Allowed) (OthersMove d.executor) n
    { w with transient := 0 } w'

/-- No hops, and a first transfer that takes no standard token away. -/
def KeepsTokens (d : Deployment) (standard : Address → Bool)
    (loans : List (Address × U256)) (data : UserData) : Prop :=
  data.hops = 0 ∧
    (firstAmount loans = 0 ∨ toAddress data.firstPool = d.executor ∨
      standard (toAddress data.loanToken) = false)

/-- The loans that cannot take anything: the payload keeps the tokens, or the
callback cannot return. -/
def Harmless (d : Deployment) (standard : Address → Bool)
    (loans : List (Address × U256)) (data : UserData) : Prop :=
  KeepsTokens d standard loans data ∨ (firstAmount loans).toNat % 2 ^ 32 ≠ 0 ∨ loans = []

/-! ## The invariant -/

/-- From a clear slot: the slot stays clear and the balances do not go down. -/
def Guarded (d : Deployment) (standard : Address → Bool) (w w' : World) : Prop :=
  w.transient = 0 → w'.transient = 0 ∧ Keeps d.executor standard w w'

theorem Guarded.refl (d : Deployment) (standard : Address → Bool) (w : World) :
    Guarded d standard w w := fun hClear => ⟨hClear, Keeps.refl _ _ w⟩

theorem Guarded.trans {d : Deployment} {standard : Address → Bool} {w w₁ w₂ : World}
    (h₁ : Guarded d standard w w₁) (h₂ : Guarded d standard w₁ w₂) :
    Guarded d standard w w₂ := by
  intro hClear
  obtain ⟨hClear₁, hKeeps₁⟩ := h₁ hClear
  obtain ⟨hClear₂, hKeeps₂⟩ := h₂ hClear₁
  exact ⟨hClear₂, hKeeps₁.trans hKeeps₂⟩

theorem guarded_of_othersMove {d : Deployment} {standard : Address → Bool} {w w' : World}
    (h : OthersMove d.executor w w') : Guarded d standard w w' := by
  intro hClear
  refine ⟨?_, h.keeps⟩
  cases h with
  | transfer hSrc hTransfer => exact hClear
  | mint hFits => exact hClear

/-! ## Direct calls -/

section OneTurn

variable {d : Deployment} {standard : Address → Bool} {F : World → World → Prop}
  {w w' : World} {loans : List (Address × U256)} {data : UserData}

theorem addressWord_ne_zero {a : Address} (h : a ≠ 0) : addressWord a ≠ 0 := by
  intro hWord
  apply h
  rw [← toAddress_addressWord a, hWord]
  rfl

/-- Nobody but the owner gets past `onlyOwner`. -/
theorem not_runs_onlyOwner {sender : Address} {R : Type} {next : Unit → Script R} {r : R}
    (hOut : Outsider d sender) :
    ¬ Runs (serve d.executor standard) F (onlyOwner (d.context sender) >>= next) w r w' := by
  intro h
  exact hOut.ne_owner (runs_require_bind.mp h).1

/-- **While the slot is clear, an outsider's call gets nothing done.** -/
theorem outsider_call {sender : Address} {call : Call} {r : Unit} (hOut : Outsider d sender)
    (hClear : w.transient = 0)
    (h : Runs (serve d.executor standard) F (program (d.context sender) call) w r w') :
    w' = w := by
  cases call with
  | executeArbitrage loanToken loanAmount pathData minProfit =>
      obtain ⟨_, _, hRun, _⟩ := runs_bind.mp h
      exact absurd hRun (not_runs_onlyOwner hOut)
  | withdraw token => exact absurd h (not_runs_onlyOwner hOut)
  | withdrawETH => exact absurd h (not_runs_onlyOwner hOut)
  | receive => exact (runs_pure.mp h).2
  | constantGetter => exact (runs_pure.mp h).2
  | receiveFlashLoan loans data => exact absurd (runs_require_bind.mp h).1 hOut.ne_vault
  | uniswapV3SwapCallback amount0Delta amount1Delta tokenWord =>
      obtain ⟨activePool, w₁, hLoad, hRest⟩ := runs_bind.mp h
      have hServe : serve d.executor standard .tload w = .known (.ofWord w.transient) w := rfl
      obtain ⟨rfl, rfl⟩ := (runs_query_known hServe).mp hLoad
      have hActive : addressWord sender = w₁.transient := (runs_require_bind.mp hRest).1
      exact absurd (hActive.trans hClear) (addressWord_ne_zero hOut.ne_zero)

/-! ## Flash loans -/

/-- The payout credits the contract, whatever other tokens do on the way. -/
theorem payLoans_credit (hF : ∀ {w w'}, F w w' → Guarded d standard w w')
    (hClear : w.transient = 0) {r : Unit}
    (h : Runs (serve d.balancerVault standard) F (payLoans d.executor loans) w r w') :
    w'.transient = 0 ∧ ∀ token, standard token = true →
      (w.ledger token d.executor).toNat + total token loans ≤
        (w'.ledger token d.executor).toNat := by
  induction loans generalizing w with
  | nil =>
      obtain ⟨_, rfl⟩ := runs_pure.mp h
      exact ⟨hClear, fun token _ => Nat.le_of_eq (Nat.add_zero _)⟩
  | cons loan rest ih =>
      obtain ⟨_, w₁, hHead, hRest⟩ := runs_bind.mp h
      by_cases hStd : standard loan.1 = true
      · obtain ⟨ledger, hTransfer, rfl⟩ := (runs_transfer_standard hStd).mp hHead
        obtain ⟨hClear', hCredit⟩ := ih (w := { w with ledger }) hClear hRest
        refine ⟨hClear', fun token hToken => ?_⟩
        have hSpec := Ledger.transfer_spec hTransfer token d.executor
        have hTail := hCredit token hToken
        simp only [d.vault_ne.symm, and_false, and_true, if_false] at hSpec
        dsimp only at hTail
        rw [total]
        omega
      · have hMove := hF (runs_checkedTransfer_free _ (Bool.eq_false_iff.mpr hStd) hHead)
        obtain ⟨hClear₁, hKeeps⟩ := hMove hClear
        obtain ⟨hClear', hCredit⟩ := ih hClear₁ hRest
        refine ⟨hClear', fun token hToken => ?_⟩
        have hNe : token ≠ loan.1 := fun hEq => hStd (hEq ▸ hToken)
        have hHere := hKeeps token hToken
        have hTail := hCredit token hToken
        rw [total, if_neg hNe]
        omega

/-- A callback that returns has written through the free pointer. -/
theorem runs_repay {ctx : Context} {ptr : Nat} {r : Unit}
    (h : Runs (serve d.executor standard) F (repay ctx loans ptr) w r w') :
    ptr < 2 ^ 64 ∧ ∃ loan rest, loans = loan :: rest ∧
      Runs (serve d.executor standard) F
        (transferOrTF loan.1 ctx.balancerVault loan.2) w r w' := by
  cases loans with
  | nil => exact absurd h runs_revert
  | cons loan rest =>
      obtain ⟨hTouch, hTransfer⟩ := runs_require_bind.mp h
      exact ⟨hTouch, loan, rest, rfl, hTransfer⟩

/-- The pointer is in reach only if the low four bytes of the amount are zero. -/
theorem callbackPointer_reach (h : callbackPointer loans data < 2 ^ 64) :
    (firstAmount loans).toNat % 2 ^ 32 = 0 := by
  unfold callbackPointer freePointer at h
  omega

/-- The first transfer of a payload that keeps the tokens. -/
theorem firstTransfer_guarded (hF : ∀ {w w'}, F w w' → Guarded d standard w w')
    (hKeeps : firstAmount loans = 0 ∨ toAddress data.firstPool = d.executor ∨
      standard (toAddress data.loanToken) = false) {r : Unit}
    (h : Runs (serve d.executor standard) F
      (callOrRevert (.transfer (toAddress data.loanToken) (toAddress data.firstPool)
        (firstAmount loans))) w r w') : Guarded d standard w w' := by
  by_cases hStd : standard (toAddress data.loanToken) = true
  · obtain ⟨ledger, hTransfer, rfl⟩ := (runs_transfer_standard hStd).mp h
    intro hClear
    refine ⟨hClear, fun token _ => ?_⟩
    have hSpec := Ledger.transfer_spec hTransfer token d.executor
    dsimp only
    rcases hKeeps with hZero | hSelf | hOther
    · have hValue : (firstAmount loans).toNat = 0 := by rw [hZero]; rfl
      simp only [hValue, ite_self] at hSpec
      omega
    · rw [hSelf] at hSpec
      omega
    · rw [hOther] at hStd
      cases hStd
  · exact hF (runs_checkedTransfer_free _ (Bool.eq_false_iff.mpr hStd) h)

/-- The repayment takes no more than the loan in its token. -/
theorem repay_debit (hF : ∀ {w w'}, F w w' → Guarded d standard w w')
    (hClear : w.transient = 0) {ptr : Nat} {r : Unit}
    (h : Runs (serve d.executor standard) F (repay (d.context d.balancerVault) loans ptr)
      w r w') :
    w'.transient = 0 ∧ ∀ token, standard token = true →
      (w.ledger token d.executor).toNat ≤
        (w'.ledger token d.executor).toNat + total token loans := by
  obtain ⟨_, loan, rest, rfl, hTransfer⟩ := runs_repay h
  by_cases hStd : standard loan.1 = true
  · obtain ⟨ledger, hLedger, rfl⟩ :=
      (runs_checkedTransfer_standard _ (by decide) (by decide) hStd).mp hTransfer
    refine ⟨hClear, fun token _ => ?_⟩
    have hSpec := Ledger.transfer_spec hLedger token d.executor
    have hVault : d.executor ≠ (d.context d.balancerVault).balancerVault := d.vault_ne.symm
    simp only [hVault, and_false, and_true, if_false] at hSpec
    dsimp only
    rw [total]
    omega
  · have hMove := hF (runs_checkedTransfer_free _ (Bool.eq_false_iff.mpr hStd) hTransfer)
    obtain ⟨hClear', hKeeps⟩ := hMove hClear
    refine ⟨hClear', fun token hToken => ?_⟩
    have hHere := hKeeps token hToken
    omega

/-- **A harmless flash loan** leaves the slot clear and the balances no lower. -/
theorem harmless_loan (hF : ∀ {w w'}, F w w' → Guarded d standard w w')
    (hHarmless : Harmless d standard loans data)
    (h : VaultLoan d standard F loans data w w') : Guarded d standard w w' := by
  intro hClear
  obtain ⟨wPaid, hPaid, hCallback, _⟩ := h
  obtain ⟨_, wHops, hRun, hRepay⟩ := runs_bind.mp (runs_require_bind.mp hCallback).2
  obtain ⟨_, wFirst, hFirst, hHops⟩ := runs_bind.mp hRun
  obtain ⟨hReach, _, _, hLoans, _⟩ := runs_repay hRepay
  rcases hHarmless with ⟨hNoHops, hFirstKeeps⟩ | hAmount | hEmpty
  · rw [hNoHops] at hHops
    obtain ⟨_, rfl⟩ := runs_pure.mp hHops
    obtain ⟨hClearPaid, hCredit⟩ := payLoans_credit hF hClear hPaid
    obtain ⟨hClearFirst, hKept⟩ := firstTransfer_guarded hF hFirstKeeps hFirst hClearPaid
    obtain ⟨hClear', hDebit⟩ := repay_debit hF hClearFirst hRepay
    refine ⟨hClear', fun token hToken => ?_⟩
    have hCreditToken := hCredit token hToken
    have hKeptToken := hKept token hToken
    have hDebitToken := hDebit token hToken
    omega
  · exact absurd (callbackPointer_reach hReach) hAmount
  · rw [hEmpty] at hLoans
    cases hLoans

/-- One loan without hops: the payout, the payload's transfer and the repayment, all
in one standard token, are a turn. -/
theorem vaultLoan_oneTransfer {token : Address} {amount : U256} {paid first second : Ledger}
    (hNoHops : data.hops = 0) (hReach : callbackPointer [(token, amount)] data < 2 ^ 64)
    (hStd : standard token = true) (hToken : toAddress data.loanToken = token)
    (hPaid : w.ledger.transfer token d.balancerVault d.executor amount = some paid)
    (hFirst : paid.transfer token d.executor (toAddress data.firstPool) amount = some first)
    (hSecond : first.transfer token d.executor d.balancerVault amount = some second) :
    VaultLoan d standard F [(token, amount)] data w { w with ledger := second } := by
  refine ⟨{ w with ledger := paid }, ?_, ?_, ?_⟩
  · have hPayout : Runs (serve d.balancerVault standard) F
        (callOrRevert (.transfer token d.executor amount)) w () { w with ledger := paid } :=
      (runs_transfer_standard hStd).mpr ⟨paid, hPaid, rfl⟩
    exact runs_bind.mpr ⟨(), _, hPayout, runs_pure.mpr ⟨rfl, rfl⟩⟩
  · refine runs_require_bind.mpr ⟨rfl, runs_bind.mpr ⟨(), { w with ledger := first }, ?_, ?_⟩⟩
    · refine runs_bind.mpr ⟨(), { w with ledger := first }, ?_, ?_⟩
      · rw [hToken]
        exact (runs_transfer_standard hStd).mpr ⟨first, hFirst, rfl⟩
      · rw [hNoHops]
        exact runs_pure.mpr ⟨rfl, rfl⟩
    · refine runs_require_bind.mpr ⟨hReach, ?_⟩
      exact (runs_checkedTransfer_standard _ (by decide) (by decide) hStd).mpr
        ⟨second, hSecond, rfl⟩
  · intro loan hMem _
    obtain rfl := List.mem_singleton.mp hMem
    have hPaidSpec := Ledger.transfer_spec hPaid token d.balancerVault
    have hFirstSpec := Ledger.transfer_spec hFirst token d.balancerVault
    have hSecondSpec := Ledger.transfer_spec hSecond token d.balancerVault
    simp only [d.vault_ne, and_false, and_true, if_true, if_false] at *
    omega

end OneTurn

/-! ## Whole sequences of transactions -/

/-- **Custody.**  Over any sequence of transactions that the owner does not send and
whose flash loans to the contract are all harmless, no balance goes down, from any
point of the sequence to any later one. -/
theorem custody_without_loans (d : Deployment) (standard : Address → Bool)
    (worlds : List World)
    (h : worlds.IsChain (Transaction d standard (Harmless d standard))) :
    worlds.Pairwise (Keeps d.executor standard) := by
  have hOne : ∀ {w w'}, Transaction d standard (Harmless d standard) w w' →
      Keeps d.executor standard w w' := by
    intro w w' hTransaction
    obtain ⟨n, hForeign⟩ := hTransaction
    have hGuarded : Guarded d standard { w with transient := 0 } w' := by
      refine foreignAt_subset (Guarded.refl d standard) Guarded.trans guarded_of_othersMove
        ?_ n hForeign
      intro F hF w w' hTurn
      rcases hTurn with hDirect | ⟨loans, data, hHarmless, hLoan⟩
      · obtain ⟨sender, call, r, hOut, hRun⟩ := hDirect
        intro hClear
        obtain rfl := outsider_call hOut hClear hRun
        exact ⟨hClear, Keeps.refl _ _ w'⟩
      · exact harmless_loan hF hHarmless hLoan
    exact (hGuarded rfl).2
  have hChain : worlds.IsChain (Keeps d.executor standard) := h.imp fun _ _ => hOne
  have : Trans (Keeps d.executor standard) (Keeps d.executor standard)
      (Keeps d.executor standard) := ⟨Keeps.trans⟩
  exact List.isChain_iff_pairwise.mp hChain

/-- `Executor` at `0x5E`, owned by `0x0A`, with the vault at `0xBA`. -/
def sampleDeployment : Deployment where
  executor := 0x5E
  owner := 0x0A
  balancerVault := 0xBA
  vault_ne := by decide

/-- One standard token, at `0x70`. -/
def sampleStandard (token : Address) : Bool := token == 0x70

/-- `2 ^ 64`. -/
def sampleAmount : U256 := 0x10000000000000000

/-- The contract and the vault hold `sampleAmount` of it. -/
def sampleLedger : Ledger := fun token holder =>
  if token = 0x70 ∧ (holder = 0x5E ∨ holder = 0xBA) then sampleAmount else 0

/-- A payload of 41 bytes: the token, no hops, and the first pool. -/
def sampleData (firstPool : Address) : UserData where
  memory := ofList (u256Bytes 41 ++ addressBytes 0x70 ++ [0] ++ addressBytes firstPool)
  pointer := 0

theorem sampleData_reads (firstPool : Address) :
    toAddress (sampleData firstPool).loanToken = 0x70 ∧ (sampleData firstPool).hops = 0 ∧
      toAddress (sampleData firstPool).firstPool = firstPool := by
  have hToken : Holds (sampleData firstPool).memory 32 (addressBytes 0x70) := by
    have h := holds_ofList (u256Bytes 41) (addressBytes 0x70) ([0] ++ addressBytes firstPool)
    simpa [sampleData] using h
  have hHops : Holds (sampleData firstPool).memory 52 [0] := by
    have h := holds_ofList (u256Bytes 41 ++ addressBytes 0x70) [0] (addressBytes firstPool)
    simpa [sampleData] using h
  have hPool : Holds (sampleData firstPool).memory 53 (addressBytes firstPool) := by
    have h := holds_ofList (u256Bytes 41 ++ addressBytes 0x70 ++ [0]) (addressBytes firstPool) []
    simpa [sampleData] using h
  refine ⟨?_, ?_, ?_⟩
  · rw [UserData.loanToken]
    exact (congrArg toAddress (shr96_loadWord hToken)).trans (toAddress_addressWord _)
  · show byteOf 0 (loadWord (sampleData firstPool).memory 52) = 0
    rw [byteOf_loadWord _ 52 0 (by decide), Nat.add_zero, hHops 0 (by decide)]
    rfl
  · rw [UserData.firstPool]
    exact (congrArg toAddress (shr96_loadWord hPool)).trans (toAddress_addressWord _)

/-- The contract forwards the loan to `firstPool` and repays out of what it has. -/
theorem exists_sampleLoan (firstPool : Address) (F : World → World → Prop)
    (hReach : callbackPointer [(0x70, sampleAmount)] (sampleData firstPool) < 2 ^ 64) :
    ∃ ledger, VaultLoan sampleDeployment sampleStandard F [(0x70, sampleAmount)]
        (sampleData firstPool) ⟨sampleLedger, 0⟩ ⟨ledger, 0⟩ ∧
      (firstPool ≠ 0x5E → (ledger 0x70 0x5E).toNat = 0) := by
  obtain ⟨hToken, hHops, hPool⟩ := sampleData_reads firstPool
  have hAmount : sampleAmount.toNat = 2 ^ 64 := by decide
  have hExecutor : (sampleLedger 0x70 0x5E).toNat = 2 ^ 64 := by decide
  have hVault : (sampleLedger 0x70 0xBA).toNat = 2 ^ 64 := by decide
  have hBound : (sampleLedger 0x70 firstPool).toNat ≤ 2 ^ 64 := by
    unfold sampleLedger
    split
    · exact Nat.le_of_eq hAmount
    · exact Nat.zero_le _
  obtain ⟨paid, hPaid⟩ : ∃ paid, sampleLedger.transfer 0x70 0xBA 0x5E sampleAmount = some paid :=
    Ledger.exists_transfer (by omega) (by omega)
  have hPaidSelf := Ledger.transfer_spec hPaid 0x70 0x5E
  have hPaidPool := Ledger.transfer_spec hPaid 0x70 firstPool
  rw [if_neg (by decide), if_pos ⟨rfl, rfl⟩] at hPaidSelf
  obtain ⟨first, hFirst⟩ : ∃ first,
      paid.transfer 0x70 0x5E firstPool sampleAmount = some first := by
    refine Ledger.exists_transfer (by omega) ?_
    split at hPaidPool <;> split at hPaidPool <;> omega
  have hFirstSelf := Ledger.transfer_spec hFirst 0x70 0x5E
  have hFirstVault := Ledger.transfer_spec hFirst 0x70 0xBA
  have hPaidVault := Ledger.transfer_spec hPaid 0x70 0xBA
  rw [if_pos ⟨rfl, rfl⟩] at hFirstSelf
  rw [if_neg (by decide)] at hFirstVault
  rw [if_pos ⟨rfl, rfl⟩, if_neg (by decide)] at hPaidVault
  obtain ⟨second, hSecond⟩ : ∃ second,
      first.transfer 0x70 0x5E 0xBA sampleAmount = some second := by
    refine Ledger.exists_transfer ?_ ?_
    · split at hFirstSelf <;> omega
    · split at hFirstVault <;> omega
  have hSecondSelf := Ledger.transfer_spec hSecond 0x70 0x5E
  rw [if_pos ⟨rfl, rfl⟩, if_neg (by decide)] at hSecondSelf
  refine ⟨second, ?_, fun hNe => ?_⟩
  · refine vaultLoan_oneTransfer hHops hReach rfl hToken hPaid ?_ hSecond
    rw [hPool]
    exact hFirst
  · rw [if_neg fun hEq => hNe hEq.2.symm] at hFirstSelf
    omega

/-- A loan whose payload sends it to the contract itself. -/
theorem transactions_sample :
    ∃ ledger, List.Pairwise (Keeps 0x5E sampleStandard)
      [⟨sampleLedger, 0⟩, ⟨ledger, 0⟩] := by
  have hReach : callbackPointer [(0x70, sampleAmount)] (sampleData 0x5E) < 2 ^ 64 := by
    decide
  obtain ⟨_, hHops, hPool⟩ := sampleData_reads 0x5E
  obtain ⟨ledger, hLoan, _⟩ := exists_sampleLoan 0x5E
    (foreignAt (Turn sampleDeployment sampleStandard (Harmless sampleDeployment sampleStandard))
      (OthersMove 0x5E) 0) hReach
  have hTransaction : Transaction sampleDeployment sampleStandard
      (Harmless sampleDeployment sampleStandard) ⟨sampleLedger, 0⟩ ⟨ledger, 0⟩ :=
    ⟨1, foreignAt_turn (Or.inr ⟨_, _, Or.inl ⟨hHops, Or.inr (Or.inl hPool)⟩, hLoan⟩)⟩
  exact ⟨ledger, custody_without_loans sampleDeployment sampleStandard
    [⟨sampleLedger, 0⟩, ⟨ledger, 0⟩] (List.isChain_pair.mpr hTransaction)⟩

/-- A loan whose payload sends it to `0xBAD`: the contract repays the vault out of its
own balance. -/
theorem not_transactions_keep :
    ¬ ∀ w', Transaction sampleDeployment sampleStandard (fun _ _ => True)
        ⟨sampleLedger, 0⟩ w' →
      Keeps 0x5E sampleStandard ⟨sampleLedger, 0⟩ w' := by
  intro hClaim
  have hReach : callbackPointer [(0x70, sampleAmount)] (sampleData 0xBAD) < 2 ^ 64 := by
    decide
  obtain ⟨ledger, hLoan, hLost⟩ := exists_sampleLoan 0xBAD
    (foreignAt (Turn sampleDeployment sampleStandard fun _ _ => True) (OthersMove 0x5E) 0) hReach
  have hTransaction : Transaction sampleDeployment sampleStandard (fun _ _ => True)
      ⟨sampleLedger, 0⟩ ⟨ledger, 0⟩ :=
    ⟨1, foreignAt_turn (Or.inr ⟨_, _, trivial, hLoan⟩)⟩
  have hKept : (sampleLedger 0x70 0x5E).toNat ≤ (ledger 0x70 0x5E).toNat :=
    hClaim _ hTransaction 0x70 rfl
  have hBefore : (sampleLedger 0x70 0x5E).toNat = 2 ^ 64 := by decide
  have hAfter := hLost (by decide)
  omega

end SovereignShadow.Ports.ExecutorCustody
