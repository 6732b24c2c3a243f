import SovereignShadow.Ports.ShadowBot

/-!
# Who can move the tokens of `ShadowBot`

A sequence of calls by accounts other than the owner, the Balancer vault and the
Aave pool, with any arguments, each from a contract that may call again while it
is being paid.  Between the calls, other holders move their own tokens.

Of all entry points only the swap callback does anything for such a caller: it
pays whoever calls it with a positive delta, in the token that the caller itself
names.  Without such a call no balance of a standard token goes down.

## Main results

* `outsider_unpaid` — every other call of an outsider reverts or does nothing.
* `custody_without_payment` — the balances over a whole run.
* `callback_pays_caller` — what the unchecked callback does.
-/

namespace SovereignShadow.Ports.ShadowBotCustody

open Relation
open SovereignShadow.Verified.Callback
open SovereignShadow.Verified.Callback.Prog
open SovereignShadow.Ports.Models
open SovereignShadow.Ports.Evm
open SovereignShadow.Ports.Chain
open SovereignShadow.Ports.ShadowBot

/-! ## Calls and runs -/

/-- The caller is neither the owner nor a lender. -/
def Outsider (ctx : Context) : Prop :=
  ctx.sender ≠ ctx.owner ∧ ctx.sender ≠ balancerVault ∧ ctx.sender ≠ aaveV3Pool

instance (ctx : Context) : Decidable (Outsider ctx) := by unfold Outsider; infer_instance

/-- A swap callback with a positive delta. -/
def AsksPayment : Call → Prop
  | .uniswapV3SwapCallback amount0Delta amount1Delta =>
      0 < amount0Delta.toInt ∨ 0 < amount1Delta.toInt
  | _ => False

/-- One call by an outsider, of those that `Allowed` lets through. -/
def outsiderTurn (self owner : Address) (standard : Address → Bool) (Allowed : Call → Prop)
    (F : World → World → Prop) (w w' : World) : Prop :=
  ∃ ctx call r, ctx.self = self ∧ ctx.owner = owner ∧ Outsider ctx ∧ Allowed call ∧
    Runs (serve self standard) F (program ctx call) w r w'

/-! ## One call -/

section OneCall

variable {standard : Address → Bool} {F : World → World → Prop} {ctx : Context}
  {w w' : World}

/-- Nobody but the owner gets past `onlyOwner`. -/
theorem not_runs_onlyOwner {R : Type} {next : Unit → Script R} {r : R}
    (hOut : Outsider ctx) :
    ¬ Runs (serve ctx.self standard) F (onlyOwner ctx >>= next) w r w' := by
  intro h
  exact hOut.1 (runs_require_bind.mp h).1

/-- **An outsider who asks no payment gets nothing done.** -/
theorem outsider_unpaid {call : Call} {r : Unit} (hOut : Outsider ctx)
    (hUnpaid : ¬ AsksPayment call)
    (h : Runs (serve ctx.self standard) F (program ctx call) w r w') : w' = w := by
  cases call with
  | executeArbitrage pathData => exact absurd h (not_runs_onlyOwner hOut)
  | fallback data => exact absurd h (not_runs_onlyOwner hOut)
  | receive => exact (runs_pure.mp h).2
  | constantGetter => exact (runs_pure.mp h).2
  | receiveFlashLoan loans memory userData =>
      obtain ⟨_, _, hShield, _⟩ := runs_bind.mp h
      exact absurd (runs_require_bind.mp hShield).1 hOut.2.1
  | executeOperation loans calldata paramsOffset =>
      obtain ⟨_, _, hRun, _⟩ := runs_bind.mp h
      obtain ⟨_, _, hShield, _⟩ := runs_bind.mp hRun
      exact absurd (runs_require_bind.mp hShield).1 hOut.2.2
  | uniswapV3SwapCallback amount0Delta amount1Delta =>
      have hZero : ¬ 0 < amount0Delta.toInt := fun hPos => hUnpaid (Or.inl hPos)
      have hOne : ¬ 0 < amount1Delta.toInt := fun hPos => hUnpaid (Or.inr hPos)
      simp only [program, uniswapV3SwapCallback, if_neg hZero, if_neg hOne] at h
      exact (runs_pure.mp h).2
  | withdrawETH => exact absurd h (not_runs_onlyOwner hOut)
  | withdrawToken token => exact absurd h (not_runs_onlyOwner hOut)

/-- The callback pays its caller in whatever token the caller's `token0()` names. -/
theorem callback_pays_caller {amount0Delta amount1Delta : U256} {token : Address}
    {ledger : Ledger} (hPos : 0 < amount0Delta.toInt) (hStd : standard token = true)
    (h : w.ledger.transfer token ctx.self ctx.sender amount0Delta = some ledger) :
    Runs (serve ctx.self standard) F
      (program ctx (.uniswapV3SwapCallback amount0Delta amount1Delta)) w ()
      { w with ledger } := by
  have hAnswer : Runs (serve ctx.self standard) F (poolToken ctx.sender .token0) w token w := by
    refine runs_bind.mpr ⟨.ofWord (addressWord token), w, (runs_query_view rfl).mpr rfl, ?_⟩
    have hClean : (addressWord token).toNat < 2 ^ 160 := by
      rw [addressWord, BitVec.toNat_setWidth]
      omega
    refine runs_require_bind.mpr ⟨⟨rfl, Nat.le_refl _, hClean⟩, runs_pure.mpr ⟨?_, rfl⟩⟩
    exact (toAddress_addressWord token).symm
  have hPaid : Runs (serve ctx.self standard) F
      (safeTransfer token ctx.sender amount0Delta) w () { w with ledger } := by
    refine runs_bind.mpr ⟨_, _,
      (runs_query_known (serve_transfer_some hStd h)).mpr ⟨rfl, rfl⟩, ?_⟩
    exact runs_require.mpr ⟨by decide, rfl⟩
  simp only [program, uniswapV3SwapCallback, if_pos hPos]
  exact runs_bind.mpr ⟨token, w, hAnswer, hPaid⟩

end OneCall

/-! ## Whole runs -/

/-- **Custody.**  However outsiders call, call back and move their own tokens, as
long as no swap callback asks for a payment, `self` loses nothing. -/
theorem custody_without_payment (self owner : Address) (standard : Address → Bool) (n : Nat)
    (w w' : World)
    (h : foreignAt (outsiderTurn self owner standard fun call => ¬ AsksPayment call)
      (OthersMove self) n w w') :
    Keeps self standard w w' := by
  refine foreignAt_subset (Keeps.refl self standard) Keeps.trans OthersMove.keeps ?_ n h
  intro F _ w w' hTurn
  obtain ⟨ctx, call, r, rfl, _, hOut, hUnpaid, hRun⟩ := hTurn
  obtain rfl := outsider_unpaid hOut hUnpaid hRun
  exact Keeps.refl ctx.self standard w'

/-- `ShadowBot` at `0x5B`, owned by `0x0A`, called by `0xBAD`. -/
def sampleContext : Context where
  self := 0x5B
  owner := 0x0A
  sender := 0xBAD
  coinbase := sequencerFeeVault

/-- One standard token, at `0x70`. -/
def sampleStandard (token : Address) : Bool := token == 0x70

/-- `ShadowBot` and its caller hold 1000 each of it. -/
def sampleWorld : World where
  ledger := fun token holder =>
    if token = 0x70 ∧ (holder = 0x5B ∨ holder = 0xBAD) then 1000 else 0
  transient := 0

/-- An empty callback, then a gift to the contract. -/
theorem custody_sample :
    ∃ ledger, sampleWorld.ledger.transfer 0x70 0xBAD 0x5B 5 = some ledger ∧
      Keeps 0x5B sampleStandard sampleWorld { sampleWorld with ledger } := by
  obtain ⟨ledger, hGift⟩ : ∃ ledger,
      sampleWorld.ledger.transfer 0x70 0xBAD 0x5B 5 = some ledger :=
    Ledger.exists_transfer (by decide) (by decide)
  refine ⟨ledger, hGift, custody_without_payment 0x5B 0x0A sampleStandard 1 _ _ ?_⟩
  have hCall : outsiderTurn 0x5B 0x0A sampleStandard (fun call => ¬ AsksPayment call)
      (foreignAt (outsiderTurn 0x5B 0x0A sampleStandard fun call => ¬ AsksPayment call)
        (OthersMove 0x5B) 0) sampleWorld sampleWorld :=
    ⟨sampleContext, .uniswapV3SwapCallback 0 0, (), rfl, rfl, by decide,
      by simp [AsksPayment], ⟨rfl, rfl⟩⟩
  exact (foreignAt_turn hCall).tail (Or.inl (.transfer (by decide) hGift))

/-- An outsider that answers `token0()` with the token it wants takes all of it. -/
theorem not_custody :
    ¬ ∀ w', foreignAt (outsiderTurn 0x5B 0x0A sampleStandard fun _ => True)
        (OthersMove 0x5B) 1 sampleWorld w' →
      Keeps 0x5B sampleStandard sampleWorld w' := by
  intro hClaim
  obtain ⟨ledger, hPaid⟩ : ∃ ledger,
      sampleWorld.ledger.transfer 0x70 0x5B 0xBAD 1000 = some ledger :=
    Ledger.exists_transfer (by decide) (by decide)
  have hPos : 0 < (1000 : U256).toInt := by decide
  have hTurn : outsiderTurn 0x5B 0x0A sampleStandard (fun _ => True)
      (foreignAt (outsiderTurn 0x5B 0x0A sampleStandard fun _ => True) (OthersMove 0x5B) 0)
      sampleWorld { sampleWorld with ledger } := by
    refine ⟨sampleContext, .uniswapV3SwapCallback 1000 0, (), rfl, rfl, by decide, trivial, ?_⟩
    show Runs (serve sampleContext.self sampleStandard) _ _ _ _ _
    exact callback_pays_caller hPos rfl hPaid
  have hKept := hClaim _ (foreignAt_turn hTurn) 0x70 rfl
  have hSpec := Ledger.transfer_spec hPaid 0x70 0x5B
  have hBefore : (sampleWorld.ledger 0x70 0x5B).toNat = 1000 := by decide
  rw [if_pos ⟨rfl, rfl⟩, if_neg (by decide)] at hSpec
  have hValue : (1000 : U256).toNat = 1000 := by decide
  dsimp only at hKept
  omega

end SovereignShadow.Ports.ShadowBotCustody
