import SovereignShadow.Ports.ShadowBot

/-!
# The Zero-Loss Shield of `ShadowBot`

Both lender callbacks read the balance of the first borrowed token, run the hops,
settle with the lender and compare.  `receiveFlashLoan` subtracts the loan from
the first reading and repays before the second.  `executeOperation` means to
subtract the loan too, but reads it with `mload` at a calldata offset, where the
memory is empty; the pool then takes the loan and the premium after the second
reading.  So on the Balancer path the shield protects `minProfit` whatever the
hops do, and on the Aave path the premium of the first token comes out of it.

Past the shield both callbacks send their ether, with all the gas and no lock.  The
recipient is the fee vault or the coinbase; were it a contract that calls back, it
could take what the shield has just checked, on either path.

## Main results

* `runs_receiveFlashLoanShield`, `runs_executeOperationShield` — what is known when the
  shield of a callback is passed.
* `CallbackPath.runs_callback` — a callback is its shield and the tip.
* `exists_drained` — what a recipient that calls back can take.
* `zeroLoss_iff` — exactly when the shield holds.
-/

namespace SovereignShadow.Ports.ZeroLossShield

open SovereignShadow.Verified.Bytes
open SovereignShadow.Verified.Callback
open SovereignShadow.Verified.Callback.Prog
open SovereignShadow.Ports.Models
open SovereignShadow.Ports.Evm
open SovereignShadow.Ports.Chain
open SovereignShadow.Ports.GhostPayload
open SovereignShadow.Ports.ShadowBot

/-! ## Loans as payments -/

/-- What the lender pays out. -/
def drawn (loans : List Loan) : List (Address × U256) :=
  loans.map fun loan => (loan.asset, loan.amount)

/-- What the lender is paid back. -/
def repayments (loans : List Loan) : List (Address × U256) :=
  loans.map fun loan => (loan.asset, loan.amount + loan.fee)

/-- The fees or premiums alone. -/
def premiums (loans : List Loan) : List (Address × U256) :=
  loans.map fun loan => (loan.asset, loan.fee)

/-- No sum of amount and fee wraps. -/
def SumsFit (loans : List Loan) : Prop :=
  ∀ loan ∈ loans, loan.amount.toNat + loan.fee.toNat < 2 ^ 256

theorem total_repayments {loans : List Loan} (hFit : SumsFit loans) (token : Address) :
    total token (repayments loans) = total token (drawn loans) + total token (premiums loans) := by
  induction loans with
  | nil => rfl
  | cons loan rest ih =>
      have hHead : (loan.amount + loan.fee).toNat = loan.amount.toNat + loan.fee.toNat :=
        BitVec.toNat_add_of_lt (hFit loan (List.mem_cons_self ..))
      have hRest := ih fun loan' hMem => hFit loan' (List.mem_cons_of_mem _ hMem)
      simp only [repayments, drawn, premiums, List.map_cons, total] at hRest ⊢
      rw [hRest, hHead]
      by_cases hToken : token = loan.asset
      · simp only [hToken, if_true]
        omega
      · simp only [hToken, if_false]
        omega

/-- Where the totals fit a word, so does every sum. -/
theorem SumsFit.of_totals {loans : List Loan}
    (h : ∀ token, total token (drawn loans) + total token (premiums loans) < 2 ^ 256) :
    SumsFit loans := by
  induction loans with
  | nil => intro loan hMem; cases hMem
  | cons loan rest ih =>
      intro loan' hMem
      rcases List.mem_cons.mp hMem with hHead | hRest
      · subst hHead
        have hTotal := h loan'.asset
        simp only [drawn, premiums, List.map_cons, total, if_true] at hTotal
        omega
      · refine ih (fun token => ?_) loan' hRest
        have hTotal := h token
        simp only [drawn, premiums, List.map_cons, total] at hTotal ⊢
        omega

/-! ## The stages of a callback -/

section Stages

variable {standard : Address → Bool} {F : World → World → Prop} {ctx : Context}
  {w w' : World}

/-- A tip is nothing, or a call of whoever is sent the ether. -/
theorem runs_tip {self recipient : Address} {r : Unit} :
    Runs (serve self standard) F (tip recipient) w r w' ↔ w' = w ∨ F w w' := by
  have hSend : ∀ (value : U256) (w₁ : World),
      serve self standard (.sendEther recipient value) w₁ = .free := fun _ _ => rfl
  rw [tip, runs_bind]
  constructor
  · rintro ⟨balance, w₁, hBalance, hRest⟩
    obtain rfl := (runs_query_view rfl).mp hBalance
    split at hRest
    · obtain ⟨_, w₂, hSent, hDone⟩ := runs_bind.mp hRest
      obtain ⟨_, rfl⟩ := runs_pure.mp hDone
      exact Or.inr ((runs_query_free (hSend _ _)).mp hSent)
    · exact Or.inl (runs_pure.mp hRest).2
  · rintro (rfl | hCalled)
    · -- no ether
      refine ⟨⟨true, 32, 0, 0⟩, w', (runs_query_view rfl).mpr rfl, ?_⟩
      rw [if_neg (by decide)]
      exact runs_pure.mpr ⟨rfl, rfl⟩
    · refine ⟨⟨true, 32, 1, 0⟩, w, (runs_query_view rfl).mpr rfl, ?_⟩
      rw [if_pos (by decide)]
      exact runs_bind.mpr ⟨⟨true, 0, 0, 0⟩, w', (runs_query_free (hSend _ _)).mpr hCalled,
        runs_pure.mpr ⟨rfl, rfl⟩⟩

/-- The repayment loop is a batch of transfers to the vault. -/
theorem runs_repayVault {self : Address} {loans : List Loan} {r : Unit}
    (hStd : ∀ loan ∈ loans, standard loan.asset = true) :
    Runs (serve self standard) F (repayVault loans) w r w' ↔
      ∃ ledger, w.ledger.transferAll self balancerVault (repayments loans) = some ledger ∧
        w' = { w with ledger } := by
  induction loans generalizing w with
  | nil =>
      simp only [repayVault, repayments, List.map_nil, Ledger.transferAll, runs_pure]
      constructor
      · rintro ⟨_, rfl⟩
        exact ⟨_, rfl, rfl⟩
      · rintro ⟨_, h, rfl⟩
        obtain rfl := Option.some.inj h
        exact ⟨trivial, rfl⟩
  | cons loan rest ih =>
      have hHead := hStd loan (List.mem_cons_self ..)
      have hRest := fun loan' hMem => hStd loan' (List.mem_cons_of_mem _ hMem)
      simp only [repayVault, runs_bind, runs_transfer_standard hHead, ih hRest]
      simp only [repayments, List.map_cons, Ledger.transferAll, Option.bind_eq_some_iff]
      constructor
      · rintro ⟨_, _, ⟨ledger₁, h₁, rfl⟩, ledger, h, rfl⟩
        exact ⟨ledger, ⟨ledger₁, h₁, h⟩, rfl⟩
      · rintro ⟨ledger, ⟨ledger₁, h₁, h⟩, rfl⟩
        exact ⟨(), _, ⟨ledger₁, h₁, rfl⟩, ledger, h, rfl⟩

/-- An approval of a standard token leaves the balances alone. -/
theorem runs_safeApprove {self token spender : Address} {value : U256} {r : Unit}
    (hStd : standard token = true) :
    Runs (serve self standard) F (safeApprove token spender value) w r w' ↔ w' = w := by
  have hServe : ∀ v, serve self standard (.approve token spender v) w =
      .known (.ofWord 1) w := fun v => by simp [serve, hStd]
  have hAccepted : (Reply.ofWord 1).accepted := by decide
  simp only [safeApprove, runs_bind, runs_query_known (hServe _)]
  constructor
  · rintro ⟨_, _, ⟨_, rfl⟩, _, _, hSecond, hDone⟩
    obtain ⟨_, rfl⟩ := (runs_query_known (hServe _)).mp hSecond
    exact (runs_require.mp hDone).2
  · rintro rfl
    exact ⟨_, _, ⟨rfl, rfl⟩, _, _, (runs_query_known (hServe _)).mpr ⟨rfl, rfl⟩,
      runs_require.mpr ⟨hAccepted, rfl⟩⟩

/-- The approval loop only checks the sums. -/
theorem runs_approvePool {self : Address} {loans : List Loan} {r : Unit}
    (hStd : ∀ loan ∈ loans, standard loan.asset = true) :
    Runs (serve self standard) F (approvePool loans) w r w' ↔ SumsFit loans ∧ w' = w := by
  induction loans generalizing w with
  | nil => simp [approvePool, SumsFit]
  | cons loan rest ih =>
      have hHead := hStd loan (List.mem_cons_self ..)
      have hRest := fun loan' hMem => hStd loan' (List.mem_cons_of_mem _ hMem)
      simp only [approvePool, runs_require_bind]
      simp only [runs_bind, runs_safeApprove hHead, ih hRest, SumsFit, List.forall_mem_cons]
      constructor
      · rintro ⟨hFit, _, _, rfl, hFits, rfl⟩
        exact ⟨⟨hFit, hFits⟩, rfl⟩
      · rintro ⟨⟨hFit, hFits⟩, rfl⟩
        exact ⟨hFit, (), w', rfl, hFits, rfl⟩

/-- The word that `executeOperation` takes for the loan: nothing was ever stored there. -/
theorem loadWord_executeOperationMemory (self : Address) (balance : U256) (n : Nat) :
    loadWord (executeOperationMemory self balance) (amountsOffset n + 0x20) = 0 := by
  have hEmpty : ∀ p, 0x60 ≤ p → executeOperationMemory self balance p = 0 := by
    intro p hp
    refine List.getD_eq_default _ _ ?_
    simp only [List.length_append, List.length_replicate, List.length_take, u256Bytes_length]
    omega
  have hZero : ∀ k,
      readBE (executeOperationMemory self balance) (amountsOffset n + 0x20) k = 0 := by
    intro k
    induction k with
    | zero => rfl
    | succ k ih =>
        rw [readBE, ih, hEmpty _ (by unfold amountsOffset; omega)]
        rfl
  rw [loadWord, hZero]
  rfl

/-- **Balancer callback.**  Its shield is passed exactly when the caller is the vault, the
hops run, the vault is repaid and the balance then covers the first reading, less the
loan, plus `minProfit`. -/
theorem runs_receiveFlashLoanShield {loans : List Loan} {minProfit : U256} {hops : Script Unit}
    (hLoans : loans ≠ []) (hStd : ∀ loan ∈ loans, standard loan.asset = true) {r : Unit} :
    Runs (serve ctx.self standard) F (receiveFlashLoanShield ctx loans minProfit hops) w r w' ↔
      ctx.sender = balancerVault ∧ ∃ wHops ledger,
        Runs (serve ctx.self standard) F hops w () wHops ∧
        wHops.ledger.transferAll ctx.self balancerVault (repayments loans) = some ledger ∧
        ¬ ledger (primaryLoan loans).asset ctx.self <
          w.ledger (primaryLoan loans).asset ctx.self - (primaryLoan loans).amount +
            minProfit ∧
        w' = { wHops with ledger } := by
  have hPrimary : standard (primaryLoan loans).asset = true := by
    obtain ⟨first, rest, rfl⟩ := List.exists_cons_of_ne_nil hLoans
    exact hStd first (List.mem_cons_self ..)
  simp only [receiveFlashLoanShield, runs_require_bind]
  refine and_congr_right fun _ => ?_
  simp only [runs_bind, runs_require, runs_staticBalanceOf hPrimary, runs_repayVault hStd]
  constructor
  · rintro ⟨_, _, ⟨rfl, rfl⟩, _, wHops, hHops, _, _, ⟨ledger, hRepaid, rfl⟩, _, _,
      ⟨rfl, rfl⟩, hCheck, rfl⟩
    exact ⟨wHops, ledger, hHops, hRepaid, hCheck, rfl⟩
  · rintro ⟨wHops, ledger, hHops, hRepaid, hCheck, rfl⟩
    exact ⟨_, w, ⟨rfl, rfl⟩, (), wHops, hHops, (), _, ⟨ledger, hRepaid, rfl⟩, _, _,
      ⟨rfl, rfl⟩, hCheck, rfl⟩

/-- **Aave callback.**  Its shield is passed exactly when the caller is the pool, the hops
run, no sum overflows and the balance then covers the first reading plus `minProfit`. -/
theorem runs_executeOperationShield {loans : List Loan} {minProfit : U256} {hops : Script Unit}
    (hLoans : loans ≠ []) (hStd : ∀ loan ∈ loans, standard loan.asset = true) {r : Unit} :
    Runs (serve ctx.self standard) F (executeOperationShield ctx loans minProfit hops) w r w' ↔
      ctx.sender = aaveV3Pool ∧ Runs (serve ctx.self standard) F hops w () w' ∧
        SumsFit loans ∧
        ¬ w'.ledger (primaryLoan loans).asset ctx.self <
          w.ledger (primaryLoan loans).asset ctx.self + minProfit := by
  have hPrimary : standard (primaryLoan loans).asset = true := by
    obtain ⟨first, rest, rfl⟩ := List.exists_cons_of_ne_nil hLoans
    exact hStd first (List.mem_cons_self ..)
  simp only [executeOperationShield, runs_require_bind, loadWord_executeOperationMemory,
    sub_zero]
  refine and_congr_right fun _ => ?_
  simp only [runs_bind, runs_require, runs_staticBalanceOf hPrimary, runs_approvePool hStd]
  constructor
  · rintro ⟨_, _, _, ⟨rfl, rfl⟩, _, _, hHops, _, _, ⟨hFits, rfl⟩, _, _, ⟨rfl, rfl⟩, hCheck, rfl⟩
    exact ⟨hHops, hFits, hCheck⟩
  · rintro ⟨hHops, hFits, hCheck⟩
    exact ⟨hLoans, _, w, ⟨rfl, rfl⟩, (), w', hHops, (), w', ⟨hFits, rfl⟩, _, w', ⟨rfl, rfl⟩,
      hCheck, rfl⟩

end Stages

/-! ## The shield -/

/-- The two lender callbacks. -/
inductive CallbackPath where
  | receiveFlashLoan
  | executeOperation
  deriving DecidableEq, Repr

/-- Who calls it. -/
def CallbackPath.lender : CallbackPath → Address
  | .receiveFlashLoan => balancerVault
  | .executeOperation => aaveV3Pool

/-- The callback around a hop stage. -/
def CallbackPath.callback (path : CallbackPath) (ctx : Context) (loans : List Loan)
    (minProfit : U256) (hops : Script Unit) : Script Unit :=
  match path with
  | .receiveFlashLoan => receiveFlashLoanWith ctx loans minProfit hops
  | .executeOperation => do
      let _ ← executeOperationWith ctx loans minProfit hops
      pure ()

/-- The callback up to its shield. -/
def CallbackPath.shield (path : CallbackPath) (ctx : Context) (loans : List Loan)
    (minProfit : U256) (hops : Script Unit) : Script Unit :=
  match path with
  | .receiveFlashLoan => receiveFlashLoanShield ctx loans minProfit hops
  | .executeOperation => executeOperationShield ctx loans minProfit hops

/-- Who is sent the ether once it is passed. -/
def CallbackPath.tipped (path : CallbackPath) (ctx : Context) : Address :=
  match path with
  | .receiveFlashLoan => sequencerFeeVault
  | .executeOperation => ctx.coinbase

/-- A callback is its shield and the tip. -/
theorem CallbackPath.runs_callback {path : CallbackPath} {ctx : Context} {loans : List Loan}
    {minProfit : U256} {hops : Script Unit} {standard : Address → Bool}
    {F : World → World → Prop} {w w' : World} {r : Unit} :
    Runs (serve ctx.self standard) F (path.callback ctx loans minProfit hops) w r w' ↔
      ∃ passed, Runs (serve ctx.self standard) F (path.shield ctx loans minProfit hops) w ()
          passed ∧
        Runs (serve ctx.self standard) F (tip (path.tipped ctx)) passed () w' := by
  cases path with
  | receiveFlashLoan =>
      simp only [callback, receiveFlashLoanWith, shield, tipped, runs_bind]
      constructor
      · rintro ⟨_, passed, hShield, hTip⟩
        exact ⟨passed, hShield, hTip⟩
      · rintro ⟨passed, hShield, hTip⟩
        exact ⟨(), passed, hShield, hTip⟩
  | executeOperation =>
      simp only [callback, executeOperationWith, shield, tipped, runs_bind, runs_pure]
      constructor
      · rintro ⟨_, _, ⟨_, passed, hShield, _, _, hTip, _, rfl⟩, _, rfl⟩
        exact ⟨passed, hShield, hTip⟩
      · rintro ⟨passed, hShield, hTip⟩
        exact ⟨true, w', ⟨(), passed, hShield, (), w', hTip, rfl, rfl⟩, trivial, rfl⟩

/-- The local `balanceBefore`, from the first reading. -/
def CallbackPath.balanceBefore (path : CallbackPath) (self : Address) (loans : List Loan)
    (balance : U256) : U256 :=
  match path with
  | .receiveFlashLoan => balance - (primaryLoan loans).amount
  | .executeOperation => balance -
      loadWord (executeOperationMemory self balance) (amountsOffset loans.length + 0x20)

/-- The lender ends up with every amount and fee: the vault has been paid inside the
callback, the pool pulls after it. -/
def CallbackPath.Settled (path : CallbackPath) (self : Address) (loans : List Loan)
    (w w' : World) : Prop :=
  SumsFit loans ∧
    match path with
    | .receiveFlashLoan => w' = w
    | .executeOperation =>
        ∃ ledger, w.ledger.transferAll self aaveV3Pool (repayments loans) = some ledger ∧
          w' = { w with ledger }

/-- A flash loan that went through: the worlds before the payout, when the shield was
passed, when the callback returned and after the settlement, with any hop stage, any
unknown code and any recipient of the tip. -/
structure LoanRun (path : CallbackPath) (loans : List Loan) (minProfit : U256) where
  ctx : Context
  standard : Address → Bool
  foreign : World → World → Prop
  recipient : World → World → Prop
  hops : Script Unit
  before : World
  lent : Ledger
  passed : World
  returned : World
  after : World
  self_ne : ctx.self ≠ path.lender
  standardLoans : ∀ loan ∈ loans, standard loan.asset = true
  payout : before.ledger.transferAll path.lender ctx.self (drawn loans) = some lent
  thresholdFits :
    (path.balanceBefore ctx.self loans (lent (primaryLoan loans).asset ctx.self)).toNat +
      minProfit.toNat < 2 ^ 256
  run : Runs (serve ctx.self standard) foreign (path.shield ctx loans minProfit hops)
    { before with ledger := lent } () passed
  tip : Runs (serve ctx.self standard) recipient (tip (path.tipped ctx)) passed () returned
  settled : path.Settled ctx.self loans returned after

/-- `minProfit` is there at the end. -/
def LoanRun.Safe {path : CallbackPath} {loans : List Loan} {minProfit : U256}
    (loan : LoanRun path loans minProfit) : Prop :=
  (loan.before.ledger (primaryLoan loans).asset loan.ctx.self).toNat + minProfit.toNat ≤
    (loan.after.ledger (primaryLoan loans).asset loan.ctx.self).toNat

/-- Whoever is sent the ether takes no standard token of the contract. -/
def LoanRun.Spares {path : CallbackPath} {loans : List Loan} {minProfit : U256}
    (loan : LoanRun path loans minProfit) : Prop :=
  ∀ w w', loan.recipient w w' → Keeps loan.ctx.self loan.standard w w'

/-- The shield: however the loan went, `minProfit` is there at the end. -/
def ZeroLoss (path : CallbackPath) (loans : List Loan) (minProfit : U256) : Prop :=
  ∀ loan : LoanRun path loans minProfit, loan.Spares → loan.Safe

/-- No total overflows, so a run can get through. -/
def TotalsFit (loans : List Loan) (minProfit : U256) : Prop :=
  (∀ token, total token (drawn loans) + total token (premiums loans) < 2 ^ 256) ∧
    total (primaryLoan loans).asset (drawn loans) + minProfit.toNat < 2 ^ 256

/-- The first loan is part of the total in its token. -/
theorem primary_le_total (loans : List Loan) :
    (primaryLoan loans).amount.toNat ≤ total (primaryLoan loans).asset (drawn loans) := by
  cases loans with
  | nil => exact Nat.zero_le _
  | cons first rest =>
      have hTotal : total first.asset (drawn (first :: rest)) =
          first.amount.toNat + total first.asset (drawn rest) := by
        simp [drawn, total]
      show first.amount.toNat ≤ total first.asset (drawn (first :: rest))
      omega

/-- The primary token is a standard one. -/
theorem standard_primary {standard : Address → Bool} {loans : List Loan} (hLoans : loans ≠ [])
    (hStd : ∀ loan ∈ loans, standard loan.asset = true) :
    standard (primaryLoan loans).asset = true := by
  obtain ⟨first, rest, rfl⟩ := List.exists_cons_of_ne_nil hLoans
  exact hStd first (List.mem_cons_self ..)

/-- A recipient that spares the contract leaves what the shield has checked. -/
theorem LoanRun.Spares.passed_le {path : CallbackPath} {loans : List Loan} {minProfit : U256}
    {loan : LoanRun path loans minProfit} (h : loan.Spares) (hLoans : loans ≠ []) :
    (loan.passed.ledger (primaryLoan loans).asset loan.ctx.self).toNat ≤
      (loan.returned.ledger (primaryLoan loans).asset loan.ctx.self).toNat := by
  rcases runs_tip.mp loan.tip with hNone | hCalled
  · rw [hNone]
  · exact h _ _ hCalled _ (standard_primary hLoans loan.standardLoans)

/-- A threshold that fits a word is passed by what is not below it. -/
private theorem le_of_not_lt_threshold {balance base minProfit : U256}
    (hFits : base.toNat + minProfit.toNat < 2 ^ 256)
    (hCheck : ¬ balance < base + minProfit) :
    base.toNat + minProfit.toNat ≤ balance.toNat := by
  rw [← BitVec.toNat_add_of_lt hFits]
  exact Nat.le_of_not_lt hCheck

/-- On the Balancer path the shield holds. -/
theorem zeroLoss_receiveFlashLoan {loans : List Loan} {minProfit : U256} (hLoans : loans ≠ []) :
    ZeroLoss .receiveFlashLoan loans minProfit := by
  intro loan hSpares
  have hFits := loan.thresholdFits
  obtain ⟨_, hSettled⟩ := loan.settled
  obtain ⟨_, wHops, ledger, _, _, hCheck, hPassed⟩ :=
    (runs_receiveFlashLoanShield hLoans loan.standardLoans).mp loan.run
  have hKept := hSpares.passed_le hLoans
  have hPaid := (Ledger.transferAll_spec loan.self_ne.symm loan.payout
    (primaryLoan loans).asset).2
  have hFirst := primary_le_total loans
  have hProfit := le_of_not_lt_threshold hFits hCheck
  have hBase : (loan.lent (primaryLoan loans).asset loan.ctx.self -
      (primaryLoan loans).amount).toNat =
      (loan.lent (primaryLoan loans).asset loan.ctx.self).toNat -
        (primaryLoan loans).amount.toNat :=
    BitVec.toNat_sub_of_le (BitVec.le_def.mpr (by omega))
  rw [CallbackPath.balanceBefore, hBase] at hProfit
  rw [hPassed] at hKept
  rw [LoanRun.Safe, hSettled]
  dsimp only at hKept
  omega

/-- What the Aave path guarantees: `minProfit` less the premium. -/
theorem executeOperation_balance {loans : List Loan} {minProfit : U256} (hLoans : loans ≠ [])
    {loan : LoanRun .executeOperation loans minProfit} (hSpares : loan.Spares) :
    TotalsFit loans minProfit ∧
      (loan.before.ledger (primaryLoan loans).asset loan.ctx.self).toNat + minProfit.toNat ≤
        (loan.after.ledger (primaryLoan loans).asset loan.ctx.self).toNat +
          total (primaryLoan loans).asset (premiums loans) := by
  have hFits := loan.thresholdFits
  rw [CallbackPath.balanceBefore, loadWord_executeOperationMemory, sub_zero] at hFits
  obtain ⟨_, ledger, hPulled, hAfter⟩ := loan.settled
  obtain ⟨_, _, hSums, hCheck⟩ :=
    (runs_executeOperationShield hLoans loan.standardLoans).mp loan.run
  have hKept := hSpares.passed_le hLoans
  have hProfit := le_of_not_lt_threshold hFits hCheck
  have hPaid := (Ledger.transferAll_spec loan.self_ne.symm loan.payout
    (primaryLoan loans).asset).2
  have hPull : ∀ token, (ledger token loan.ctx.self).toNat +
      (total token (drawn loans) + total token (premiums loans)) =
        (loan.returned.ledger token loan.ctx.self).toNat := by
    intro token
    rw [← total_repayments hSums]
    exact (Ledger.transferAll_spec loan.self_ne hPulled token).1
  have hPullPrimary := hPull (primaryLoan loans).asset
  refine ⟨⟨fun token => ?_, by omega⟩, ?_⟩
  · have hPullToken := hPull token
    have hWord := (loan.returned.ledger token loan.ctx.self).isLt
    omega
  · rw [hAfter]
    dsimp only
    omega

/-! ## Runs that lose -/

section Losses

variable {loans : List Loan} {minProfit : U256} {lender token : Address} {own : Nat}
  {held : Address → Nat}

/-- `ShadowBot` at `0x5B` owns `own` of the primary token, the lender what it will lend. -/
def openingLedger (loans : List Loan) (lender : Address) (own : Nat) : Ledger :=
  fun token holder =>
    if holder = lender then BitVec.ofNat 256 (total token (drawn loans))
    else if holder = 0x5B ∧ token = (primaryLoan loans).asset then BitVec.ofNat 256 own
    else 0

/-- `ShadowBot` alone holds tokens. -/
def heldLedger (held : Address → Nat) : Ledger := fun token holder =>
  if holder = 0x5B then BitVec.ofNat 256 (held token) else 0

private theorem toNat_ofNat {n : Nat} (h : n < 2 ^ 256) : (BitVec.ofNat 256 n).toNat = n := by
  rw [BitVec.toNat_ofNat, Nat.mod_eq_of_lt h]

theorem openingLedger_self (hNe : lender ≠ 0x5B) (hOwn : own < 2 ^ 256) :
    (openingLedger loans lender own token 0x5B).toNat =
      if token = (primaryLoan loans).asset then own else 0 := by
  rw [openingLedger, if_neg hNe.symm]
  by_cases hToken : token = (primaryLoan loans).asset
  · rw [if_pos ⟨rfl, hToken⟩, if_pos hToken, toNat_ofNat hOwn]
  · rw [if_neg fun h => hToken h.2, if_neg hToken]
    rfl

theorem heldLedger_self (h : held token < 2 ^ 256) :
    (heldLedger held token 0x5B).toNat = held token := by
  rw [heldLedger, if_pos rfl, toNat_ofNat h]

/-- The lender can pay out. -/
theorem exists_lent (hNe : lender ≠ 0x5B) (hDrawn : ∀ token, total token (drawn loans) < 2 ^ 256)
    (hOwn : own + total (primaryLoan loans).asset (drawn loans) < 2 ^ 256) :
    ∃ lent, (openingLedger loans lender own).transferAll lender 0x5B (drawn loans) = some lent ∧
      (lent (primaryLoan loans).asset 0x5B).toNat =
        own + total (primaryLoan loans).asset (drawn loans) := by
  have hLender : ∀ token, (openingLedger loans lender own token lender).toNat =
      total token (drawn loans) := by
    intro token
    rw [openingLedger, if_pos rfl, toNat_ofNat (hDrawn token)]
  have hSelf : ∀ token, (openingLedger loans lender own token 0x5B).toNat =
      if token = (primaryLoan loans).asset then own else 0 :=
    fun _ => openingLedger_self hNe (by omega)
  obtain ⟨lent, hLent⟩ : ∃ lent,
      (openingLedger loans lender own).transferAll lender 0x5B (drawn loans) = some lent := by
    refine Ledger.exists_transferAll hNe (fun token => (hLender token).ge) fun token => ?_
    have hFit := hDrawn token
    rw [hSelf]
    split
    · rename_i hToken
      subst hToken
      exact hOwn
    · omega
  refine ⟨lent, hLent, ?_⟩
  rw [(Ledger.transferAll_spec hNe hLent _).2, hSelf, if_pos rfl]

/-- `ShadowBot` can repay what it holds enough for. -/
theorem exists_repaid (hNe : lender ≠ 0x5B) (hSums : SumsFit loans)
    (hEnough : ∀ token, total token (drawn loans) + total token (premiums loans) ≤ held token)
    (hFits : ∀ token, held token < 2 ^ 256) :
    ∃ repaid, (heldLedger held).transferAll 0x5B lender (repayments loans) = some repaid ∧
      ∀ token, (repaid token 0x5B).toNat +
        (total token (drawn loans) + total token (premiums loans)) = held token := by
  have hSelf : ∀ token, (heldLedger held token 0x5B).toNat = held token :=
    fun token => heldLedger_self (hFits token)
  have hEmpty : ∀ token, (heldLedger held token lender).toNat = 0 :=
    fun token => by rw [heldLedger, if_neg hNe]; rfl
  obtain ⟨repaid, hRepaid⟩ : ∃ repaid,
      (heldLedger held).transferAll 0x5B lender (repayments loans) = some repaid := by
    refine Ledger.exists_transferAll hNe.symm (fun token => ?_) fun token => ?_
    · rw [hSelf, total_repayments hSums]
      exact hEnough token
    · rw [hEmpty, total_repayments hSums, Nat.zero_add]
      exact (hEnough token).trans_lt (hFits token)
  refine ⟨repaid, hRepaid, fun token => ?_⟩
  rw [← total_repayments hSums, (Ledger.transferAll_spec hNe.symm hRepaid token).1, hSelf]

/-- One swap that leaves exactly the given balances. -/
def sampleHops : Script Unit := callOrRevert (.swap 0 (.swapV2 0 0 0))

theorem runs_sampleHops {self : Address} {standard : Address → Bool} (w target : World) :
    Runs (serve self standard) (fun _ w' => w' = target) sampleHops w () target := by
  refine runs_bind.mpr ⟨⟨true, 0, 0, 0⟩, target, (runs_query_free rfl).mpr rfl, ?_⟩
  exact runs_require.mpr ⟨rfl, rfl⟩

/-- A balance that reaches the threshold passes the check. -/
private theorem not_lt_threshold {balance base minProfit : U256}
    (hFits : base.toNat + minProfit.toNat < 2 ^ 256)
    (hReached : base.toNat + minProfit.toNat ≤ balance.toNat) : ¬ balance < base + minProfit := by
  rw [BitVec.lt_def, BitVec.toNat_add_of_lt hFits]
  omega

/-- A recipient that leaves everything as it is. -/
def idle (w w' : World) : Prop := w' = w

theorem LoanRun.spares_of_idle {path : CallbackPath} {loan : LoanRun path loans minProfit}
    (h : loan.recipient = idle) : loan.Spares := by
  intro w w' hCalled
  rw [h] at hCalled
  obtain rfl : w' = w := hCalled
  exact Keeps.refl _ _ w'

/-- A world in which `ShadowBot` alone holds tokens. -/
def heldWorld (held : Address → Nat) : World := { ledger := heldLedger held, transient := 0 }

/-- An Aave loan: the hops leave `held`, the recipient of the tip leaves `left`, and the pool
pulls from that. -/
theorem exists_aaveRun {left : Address → Nat} {recipient : World → World → Prop}
    {lent pulled : Ledger} (hLoans : loans ≠ []) (hSums : SumsFit loans)
    (hLent : (openingLedger loans aaveV3Pool own).transferAll aaveV3Pool 0x5B (drawn loans) =
      some lent)
    (hThreshold : (lent (primaryLoan loans).asset 0x5B).toNat + minProfit.toNat < 2 ^ 256)
    (hReached : (lent (primaryLoan loans).asset 0x5B).toNat + minProfit.toNat ≤
      (heldLedger held (primaryLoan loans).asset 0x5B).toNat)
    (hTip : recipient (heldWorld held) (heldWorld left))
    (hPulled : (heldLedger left).transferAll 0x5B aaveV3Pool (repayments loans) = some pulled) :
    ∃ loan : LoanRun .executeOperation loans minProfit, loan.recipient = recipient ∧
      (loan.Safe ↔ (openingLedger loans aaveV3Pool own (primaryLoan loans).asset 0x5B).toNat +
        minProfit.toNat ≤ (pulled (primaryLoan loans).asset 0x5B).toNat) := by
  have hNe : aaveV3Pool ≠ (0x5B : Address) := by decide
  let loan : LoanRun .executeOperation loans minProfit :=
    { ctx := ⟨0x5B, 0x0A, aaveV3Pool, sequencerFeeVault⟩
      standard := fun _ => true
      foreign := fun _ w => w = heldWorld held
      recipient := recipient
      hops := sampleHops
      before := { ledger := openingLedger loans aaveV3Pool own, transient := 0 }
      lent := lent
      passed := heldWorld held
      returned := heldWorld left
      after := { heldWorld left with ledger := pulled }
      self_ne := hNe.symm
      standardLoans := fun _ _ => rfl
      payout := hLent
      thresholdFits := by
        rw [CallbackPath.balanceBefore, loadWord_executeOperationMemory, sub_zero]
        exact hThreshold
      run := (runs_executeOperationShield hLoans fun _ _ => rfl).mpr
        ⟨rfl, runs_sampleHops _ (heldWorld held), hSums, not_lt_threshold hThreshold hReached⟩
      tip := runs_tip.mpr (Or.inr hTip)
      settled := ⟨hSums, pulled, hPulled, rfl⟩ }
  exact ⟨loan, rfl, Iff.rfl⟩

/-! ### A premium -/

/-- What `ShadowBot` must own so that the pool can pull the premium. -/
def cushion (loans : List Loan) (minProfit : U256) : Nat :=
  total (primaryLoan loans).asset (premiums loans) - minProfit.toNat

/-- After the hops: just enough of the first token to pass the check, and what the
pool will pull of the others. -/
def traded (loans : List Loan) (minProfit : U256) (token : Address) : Nat :=
  if token = (primaryLoan loans).asset then
    cushion loans minProfit + total token (drawn loans) + minProfit.toNat
  else total token (drawn loans) + total token (premiums loans)

theorem traded_fits (hFit : TotalsFit loans minProfit) (token : Address) :
    total token (drawn loans) + total token (premiums loans) ≤ traded loans minProfit token ∧
      traded loans minProfit token < 2 ^ 256 := by
  have hTotal := hFit.1 token
  have hThreshold := hFit.2
  unfold traded cushion
  by_cases hToken : token = (primaryLoan loans).asset
  · subst hToken
    rw [if_pos rfl]
    omega
  · rw [if_neg hToken]
    omega

/-- Where the premium is not zero and the totals fit, some run loses. -/
theorem not_zeroLoss_executeOperation (hLoans : loans ≠ [])
    (hPremium : total (primaryLoan loans).asset (premiums loans) ≠ 0)
    (hFit : TotalsFit loans minProfit) : ¬ ZeroLoss .executeOperation loans minProfit := by
  intro hShield
  have hNe : aaveV3Pool ≠ (0x5B : Address) := by decide
  have hSums : SumsFit loans := .of_totals hFit.1
  have hPrimaryFit := hFit.1 (primaryLoan loans).asset
  have hThresholdFit := hFit.2
  have hCushion : cushion loans minProfit =
      total (primaryLoan loans).asset (premiums loans) - minProfit.toNat := rfl
  have hTradedPrimary : traded loans minProfit (primaryLoan loans).asset =
      cushion loans minProfit + total (primaryLoan loans).asset (drawn loans) +
        minProfit.toNat := if_pos rfl
  obtain ⟨lent, hLent, hLentPrimary⟩ := exists_lent hNe
    (fun token => (Nat.le_add_right _ _).trans_lt (hFit.1 token))
    (show cushion loans minProfit + total (primaryLoan loans).asset (drawn loans) < 2 ^ 256 by
      omega)
  obtain ⟨pulled, hPulled, hPulledSelf⟩ := exists_repaid hNe hSums
    (fun token => (traded_fits hFit token).1) fun token => (traded_fits hFit token).2
  have hPulledPrimary := hPulledSelf (primaryLoan loans).asset
  have hOwn : (openingLedger loans aaveV3Pool (cushion loans minProfit)
      (primaryLoan loans).asset 0x5B).toNat = cushion loans minProfit := by
    rw [openingLedger_self hNe (by omega), if_pos rfl]
  have hHeld := heldLedger_self (traded_fits hFit (primaryLoan loans).asset).2
  obtain ⟨loan, hIdle, hSafe⟩ := @exists_aaveRun loans minProfit _ _ _ idle lent pulled hLoans
    hSums hLent (by omega) (by omega) rfl hPulled
  have hKept := hSafe.mp (hShield loan (LoanRun.spares_of_idle hIdle))
  omega

/-! ### A recipient that takes -/

/-- After the hops: enough for the check of either path. -/
def rich (loans : List Loan) (minProfit : U256) (token : Address) : Nat :=
  2 * total token (drawn loans) + total token (premiums loans) + minProfit.toNat

section Drained

variable (hLoans : loans ≠ []) (hProfit : 0 < minProfit.toNat)
  (hRoom : ∀ token, 2 * (total token (drawn loans) + total token (premiums loans)) +
    minProfit.toNat < 2 ^ 256)
include hRoom

theorem sumsFit_of_room : SumsFit loans := .of_totals fun token => by
  have hRoomToken := hRoom token
  omega

theorem rich_fits (token : Address) :
    total token (drawn loans) + total token (premiums loans) ≤ rich loans minProfit token ∧
      rich loans minProfit token < 2 ^ 256 := by
  have hRoomToken := hRoom token
  unfold rich
  omega

theorem exists_lent_of_room (hNe : lender ≠ 0x5B) :
    ∃ lent, (openingLedger loans lender 0).transferAll lender 0x5B (drawn loans) = some lent ∧
      (lent (primaryLoan loans).asset 0x5B).toNat =
        0 + total (primaryLoan loans).asset (drawn loans) := by
  refine exists_lent hNe (fun token => ?_) ?_
  · have hRoomToken := hRoom token
    omega
  · have hRoomPrimary := hRoom (primaryLoan loans).asset
    omega

include hLoans hProfit

/-- The fee vault leaves nothing, after the vault is repaid. -/
theorem exists_drained_receiveFlashLoan :
    ∃ loan : LoanRun .receiveFlashLoan loans minProfit, ¬ loan.Safe := by
  have hNe : balancerVault ≠ (0x5B : Address) := by decide
  have hSums := sumsFit_of_room hRoom
  have hRoomPrimary := hRoom (primaryLoan loans).asset
  obtain ⟨lent, hLent, hLentPrimary⟩ := exists_lent_of_room hRoom hNe
  obtain ⟨repaid, hRepaid, hRepaidSelf⟩ := exists_repaid hNe hSums
    (fun token => (rich_fits hRoom token).1) fun token => (rich_fits hRoom token).2
  have hRepaidPrimary := hRepaidSelf (primaryLoan loans).asset
  have hRich : rich loans minProfit (primaryLoan loans).asset =
      2 * total (primaryLoan loans).asset (drawn loans) +
        total (primaryLoan loans).asset (premiums loans) + minProfit.toNat := rfl
  have hFirst := primary_le_total loans
  have hBase : (lent (primaryLoan loans).asset 0x5B - (primaryLoan loans).amount).toNat =
      (lent (primaryLoan loans).asset 0x5B).toNat - (primaryLoan loans).amount.toNat :=
    BitVec.toNat_sub_of_le (BitVec.le_def.mpr (by omega))
  have hThreshold : (lent (primaryLoan loans).asset 0x5B - (primaryLoan loans).amount).toNat +
      minProfit.toNat < 2 ^ 256 := by omega
  have hReached : (lent (primaryLoan loans).asset 0x5B - (primaryLoan loans).amount).toNat +
      minProfit.toNat ≤ (repaid (primaryLoan loans).asset 0x5B).toNat := by omega
  let drained : World := { ledger := fun _ _ => 0, transient := 0 }
  let loan : LoanRun .receiveFlashLoan loans minProfit :=
    { ctx := ⟨0x5B, 0x0A, balancerVault, sequencerFeeVault⟩
      standard := fun _ => true
      foreign := fun _ w => w = heldWorld (rich loans minProfit)
      recipient := fun _ w => w = drained
      hops := sampleHops
      before := { ledger := openingLedger loans balancerVault 0, transient := 0 }
      lent := lent
      passed := { heldWorld (rich loans minProfit) with ledger := repaid }
      returned := drained
      after := drained
      self_ne := hNe.symm
      standardLoans := fun _ _ => rfl
      payout := hLent
      thresholdFits := hThreshold
      run := (runs_receiveFlashLoanShield hLoans fun _ _ => rfl).mpr
        ⟨rfl, heldWorld (rich loans minProfit), repaid, runs_sampleHops _ _, hRepaid,
          not_lt_threshold hThreshold hReached, rfl⟩
      tip := runs_tip.mpr (Or.inr rfl)
      settled := ⟨hSums, rfl⟩ }
  refine ⟨loan, fun hSafe => ?_⟩
  have hNone : (openingLedger loans balancerVault 0 (primaryLoan loans).asset 0x5B).toNat +
      minProfit.toNat ≤ (0 : U256).toNat := hSafe
  have hZero : (0 : U256).toNat = 0 := rfl
  omega

/-- The block's coinbase leaves what the pool will pull. -/
theorem exists_drained_executeOperation :
    ∃ loan : LoanRun .executeOperation loans minProfit, ¬ loan.Safe := by
  have hNe : aaveV3Pool ≠ (0x5B : Address) := by decide
  have hSums := sumsFit_of_room hRoom
  have hRoomPrimary := hRoom (primaryLoan loans).asset
  obtain ⟨lent, hLent, hLentPrimary⟩ := exists_lent_of_room hRoom hNe
  obtain ⟨pulled, hPulled, hPulledSelf⟩ := exists_repaid hNe hSums (fun token => Nat.le_refl _)
    fun token => (rich_fits hRoom token).1.trans_lt (rich_fits hRoom token).2
  have hPulledPrimary := hPulledSelf (primaryLoan loans).asset
  have hHeld := heldLedger_self (rich_fits hRoom (primaryLoan loans).asset).2
  have hRich : rich loans minProfit (primaryLoan loans).asset =
      2 * total (primaryLoan loans).asset (drawn loans) +
        total (primaryLoan loans).asset (premiums loans) + minProfit.toNat := rfl
  obtain ⟨loan, -, hSafe⟩ := @exists_aaveRun loans minProfit 0 (rich loans minProfit)
    (fun token => total token (drawn loans) + total token (premiums loans))
    (fun _ w => w = heldWorld fun token =>
      total token (drawn loans) + total token (premiums loans))
    lent pulled hLoans hSums hLent (by omega) (by omega) rfl hPulled
  refine ⟨loan, fun hKept => ?_⟩
  have hNone := hSafe.mp hKept
  omega

/-- **A recipient that calls back** can take the profit on either path: it is called once the
shield is passed. -/
theorem exists_drained (path : CallbackPath) :
    ∃ loan : LoanRun path loans minProfit, ¬ loan.Safe := by
  cases path with
  | receiveFlashLoan => exact exists_drained_receiveFlashLoan hLoans hProfit hRoom
  | executeOperation => exact exists_drained_executeOperation hLoans hProfit hRoom

end Drained

end Losses

/-- **The shield, exactly.**  Where whoever is sent the ether spares the contract it holds
on the Balancer path, and on the Aave path precisely when the first token carries no
premium (or no run gets through, a total being too large for a word).  A recipient that
does not spare it loses on either path. -/
theorem zeroLoss_iff (path : CallbackPath) (first : Loan) (rest : List Loan)
    (minProfit : U256) :
    (ZeroLoss path (first :: rest) minProfit ↔
      path = .receiveFlashLoan ∨ total first.asset (premiums (first :: rest)) = 0 ∨
        ¬ TotalsFit (first :: rest) minProfit) ∧
      (0 < minProfit.toNat →
        (∀ token, 2 * (total token (drawn (first :: rest)) +
          total token (premiums (first :: rest))) + minProfit.toNat < 2 ^ 256) →
        ∃ loan : LoanRun path (first :: rest) minProfit, ¬ loan.Safe) := by
  have hLoans : first :: rest ≠ [] := List.cons_ne_nil first rest
  have hPrimary : (primaryLoan (first :: rest)).asset = first.asset := rfl
  refine ⟨?_, fun hProfit hRoom => exists_drained hLoans hProfit hRoom path⟩
  cases path with
  | receiveFlashLoan => exact iff_of_true (zeroLoss_receiveFlashLoan hLoans) (Or.inl rfl)
  | executeOperation =>
      constructor
      · intro hShield
        right
        by_contra hBoth
        rw [not_or, not_not] at hBoth
        exact not_zeroLoss_executeOperation hLoans hBoth.1 hBoth.2 hShield
      · intro hCondition loan hSpares
        obtain ⟨hFit, hBalance⟩ := executeOperation_balance hLoans hSpares
        rcases hCondition with hPath | hPremium | hTotals
        · cases hPath
        · rw [hPrimary] at hBalance
          rw [LoanRun.Safe, hPrimary]
          omega
        · exact absurd hFit hTotals

/-- One loan of 1000 at a premium of 9. -/
def sampleLoan : Loan := ⟨0x70, 1000, 9⟩

/-- `ShadowBot` owns 100 of the token, the pool 5000. -/
def sampleLedger : Ledger := fun token holder =>
  if token = 0x70 then
    if holder = 0x5B then 100 else if holder = aaveV3Pool then 5000 else 0
  else 0

/-- A payload of zeros: `minProfit` 0 and no hops.  `executeOperation` returns, and the
pool's pull leaves 91 of the 100. -/
theorem not_zeroLoss : ¬ ZeroLoss .executeOperation [sampleLoan] 0 := by
  intro hShield
  have hNe : aaveV3Pool ≠ (0x5B : Address) := by decide
  obtain ⟨lent, hLent⟩ : ∃ lent,
      sampleLedger.transfer 0x70 aaveV3Pool 0x5B 1000 = some lent :=
    Ledger.exists_transfer (by decide) (by decide)
  have hLentSelf := Ledger.transfer_spec hLent 0x70 0x5B
  have hLentPool := Ledger.transfer_spec hLent 0x70 aaveV3Pool
  have hOwn : (sampleLedger 0x70 0x5B).toNat = 100 := by decide
  have hStock : (sampleLedger 0x70 aaveV3Pool).toNat = 5000 := by decide
  have hAmount : (1000 : U256).toNat = 1000 := by decide
  have hDue : (1000 + 9 : U256).toNat = 1009 := by decide
  rw [if_neg (by decide), if_pos ⟨rfl, rfl⟩] at hLentSelf
  rw [if_pos ⟨rfl, rfl⟩, if_neg (by decide)] at hLentPool
  obtain ⟨pulled, hPulled⟩ : ∃ pulled,
      lent.transfer 0x70 0x5B aaveV3Pool (1000 + 9) = some pulled :=
    Ledger.exists_transfer (by omega) (by omega)
  have hPulledSelf := Ledger.transfer_spec hPulled 0x70 0x5B
  rw [if_pos ⟨rfl, rfl⟩, if_neg (by decide)] at hPulledSelf
  let ctx : Context := ⟨0x5B, 0x0A, aaveV3Pool, sequencerFeeVault⟩
  let returned : World := { ledger := lent, transient := 0 }
  have hSums : SumsFit [sampleLoan] := by
    intro loan hMem
    obtain rfl := List.mem_singleton.mp hMem
    decide
  have hMinProfit : minProfitCalldata (ofList []) 0 = 0 := by decide
  have hNoHops : executeArbitrageHopsCalldata (ofList []) 0 = [] := by decide
  have hPasses : Runs (serve ctx.self fun _ => true) (fun _ _ => False)
      (executeOperationShield ctx [sampleLoan] (minProfitCalldata (ofList []) 0)
        (executeHops ctx.self (executeArbitrageHopsCalldata (ofList []) 0)))
      returned () returned := by
    rw [hMinProfit, hNoHops]
    refine (runs_executeOperationShield (List.cons_ne_nil _ _) fun _ _ => rfl).mpr
      ⟨rfl, runs_pure.mpr ⟨rfl, rfl⟩, hSums, ?_⟩
    show ¬ lent 0x70 0x5B < lent 0x70 0x5B + 0
    rw [add_zero]
    exact BitVec.lt_irrefl (lent 0x70 0x5B)
  let loan : LoanRun .executeOperation [sampleLoan] 0 :=
    { ctx := ctx
      standard := fun _ => true
      foreign := fun _ _ => False
      recipient := idle
      hops := executeHops ctx.self (executeArbitrageHopsCalldata (ofList []) 0)
      before := { ledger := sampleLedger, transient := 0 }
      lent := lent
      passed := returned
      returned := returned
      after := { returned with ledger := pulled }
      self_ne := hNe.symm
      standardLoans := fun _ _ => rfl
      payout := Option.bind_eq_some_iff.mpr ⟨lent, hLent, rfl⟩
      thresholdFits := by
        rw [CallbackPath.balanceBefore, loadWord_executeOperationMemory, sub_zero]
        exact (lent 0x70 0x5B).isLt
      run := by
        rw [hMinProfit] at hPasses
        exact hPasses
      tip := runs_tip.mpr (Or.inl rfl)
      settled := ⟨hSums, pulled, Option.bind_eq_some_iff.mpr ⟨pulled, hPulled, rfl⟩, rfl⟩ }
  have hSpares : loan.Spares := LoanRun.spares_of_idle rfl
  have hKept : (sampleLedger 0x70 0x5B).toNat + (0 : U256).toNat ≤
      (pulled 0x70 0x5B).toNat := hShield loan hSpares
  omega

end SovereignShadow.Ports.ZeroLossShield
