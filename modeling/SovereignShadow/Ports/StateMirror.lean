import SovereignShadow.Ports.Constants

/-!
# The state mirror

Port of the parts of `state_mirror.rs` that the detector and the executor read:
the pool table, the gas state, the block clock and the trader registry.
-/

namespace SovereignShadow.Ports.Mirror

open SovereignShadow.Ports.Models
open SovereignShadow.Ports.Constants

structure PoolState where
  reserves0 : U256
  reserves1 : U256
  dexType : DexType
  isStable : Bool
  deriving DecidableEq, Repr

/-- An entry of the pool table: the priced state, the V3 state and the block stamp. -/
structure MirrorEntry extends PoolState where
  liquidity : U256
  sqrtPriceX96 : U256
  tick : Int
  lastUpdatedBlock : Nat
  deriving DecidableEq, Repr

structure GasState where
  baseFee : U256
  priorityFee : U256
  maxPriorityFeePerGas : U256
  deriving DecidableEq, Repr

/-- The tables of the mirror. -/
structure StateMirror where
  pools : Address → Option PoolState
  traderRegistry : Address → Option (Finset Address)

/-- `get_pool_data`; no caller's maximal age is looked at. -/
def StateMirror.getPoolData (mirror : StateMirror) (address : Address) : Option PoolState :=
  mirror.pools address

/-- `get_competition_score`. -/
def StateMirror.getCompetitionScore (mirror : StateMirror) (pool : Address) : Nat :=
  ((mirror.traderRegistry pool).map Finset.card).getD 0

/-- `is_congested`. -/
def StateMirror.isCongested (mirror : StateMirror) (pool : Address) (maxBots : Nat) : Bool :=
  decide (maxBots ≤ mirror.getCompetitionScore pool)

/-- `verify_state_freshness` at clock `now`, in seconds. -/
def verifyStateFreshness (lastBlockTimestamp now : Nat) : Except MEVError Unit :=
  if lastBlockTimestamp = 0 then .ok ()
  else
    let drift := now - lastBlockTimestamp
    if drift > maxNodeLagSeconds then
      .error (.other ("[PILLAR T] Block Lag: " ++ toString drift ++ "s > " ++
        toString maxNodeLagSeconds ++ "s limit"))
    else .ok ()

end SovereignShadow.Ports.Mirror
