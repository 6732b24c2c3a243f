import SovereignShadow.Ports.Constants

/-!
# Bribes and priority fees

Port of `bidding_engine.rs`.  The atomics of the engine are the fields of
`BiddingEngine`; the clock and the mirror's base fee are read from outside, so
every call takes its readings as an argument.  `none` is a panic: a profit or a
base fee that does not fit `u128`, or a zero divisor.  The one floating-point
comparison is the parameter `heatRising`.
-/

namespace SovereignShadow.Ports.Bidding

open SovereignShadow.Ports.Models
open SovereignShadow.Ports.Constants

/-- `Instant`, in nanoseconds. -/
abbrev Instant := Nat

/-- Whole seconds from `earlier` to `later`, as `duration_since(..).as_secs()`. -/
def secsSince (later earlier : Instant) : Nat := (later - earlier) / 1000000000

structure BiddingEngine where
  defaultBribe : Nat
  lastSuccess : Option (Instant × Nat)
  predatorHits : Nat
  predatorPressure : Nat
  wins : Nat
  losses : Nat
  consecutiveLosses : Nat
  lastHeatScore : Nat
  lastPressureUpdate : Instant
  competitorHistory : Address → Option (Nat × Nat)

/-- `BiddingEngine::new` at clock `now`. -/
def BiddingEngine.new (now : Instant) : BiddingEngine where
  defaultBribe := 50
  lastSuccess := none
  predatorHits := 0
  predatorPressure := 0
  wins := 0
  losses := 0
  consecutiveLosses := 0
  lastHeatScore := 0
  lastPressureUpdate := now
  competitorHistory := fun _ => none

/-- What one `calculate_bribe` reads from outside the engine. -/
structure BribeReads where
  now : Instant
  elapsedNow : Instant
  baseFee : U256

/-- `is_predator_active`. -/
def isPredatorActive (opp : Opportunity) : Bool :=
  match opp.triggerSender with
  | some sender => knownCompetitors.contains sender
  | none => false

/-- One of the three AI tokens is an end of the hop. -/
def hopTouchesAi (hop : Hop) : Bool :=
  hop.tokenIn = tokenVirtual ∨ hop.tokenOut = tokenVirtual ∨
    hop.tokenIn = tokenLuna ∨ hop.tokenOut = tokenLuna ∨
    hop.tokenIn = tokenAi16z ∨ hop.tokenOut = tokenAi16z

/-- `path_contains_ai`. -/
def pathContainsAi (opp : Opportunity) : Bool := opp.path.hops.any hopTouchesAi

/-- The pressure decay at the top of `calculate_bribe`. -/
def BiddingEngine.decayPressure (engine : BiddingEngine) (now : Instant) : BiddingEngine :=
  if secsSince now engine.lastPressureUpdate > 60 then
    { engine with
      predatorPressure := engine.predatorPressure - 1
      lastPressureUpdate := now }
  else engine

/-- The predator branch: its percentage and its counters. -/
def BiddingEngine.predatorBribe (engine : BiddingEngine) (opp : Opportunity)
    (now : Instant) : Nat × BiddingEngine :=
  let engine :=
    { engine with
      predatorHits := (engine.predatorHits + 1) % u64Size
      predatorPressure := (engine.predatorPressure + 1) % u64Size
      lastPressureUpdate := now }
  let frequentWinner : Bool :=
    match opp.triggerSender with
    | none => false
    | some sender =>
        match engine.competitorHistory sender with
        | some (wins, losses) => wins > losses
        | none => false
  (if frequentWinner then min 98 maxBribePct else min 92 maxBribePct, engine)

/-- The tier loop: the last tier whose threshold the profit reaches, up to the
first one it does not. -/
def tierBribe (profitVal : Nat) : List (Nat × Nat) → Nat → Nat
  | [], bribePct => bribePct
  | (threshold, pct) :: rest, bribePct =>
      if profitVal ≥ threshold then tierBribe profitVal rest pct else bribePct

/-- `calculate_bribe`: the percentage and the engine it leaves. -/
def BiddingEngine.calculateBribe (heatRising : Nat → Nat → Bool) (engine : BiddingEngine)
    (opp : Opportunity) (reads : BribeReads) : Option (Nat × BiddingEngine) :=
  let engine := engine.decayPressure reads.now
  if pathContainsAi opp then some (min 95 maxBribePct, engine)
  else if isPredatorActive opp then some (engine.predatorBribe opp reads.now)
  else
    match toU128 opp.expectedProfit with
    | none => none
    | some profitVal =>
        if profitVal < microProfitThresholdWei then some (5, engine)
        else
          let bribePct := tierBribe profitVal biddingTiers engine.defaultBribe
          let lossStreak := engine.consecutiveLosses
          let bribePct :=
            if lossStreak > 2 then
              min ((bribePct + lossStreak % 2 ^ 32 * 8 % 2 ^ 32) % 2 ^ 32) (maxBribePct - 9)
            else bribePct
          match toU128 reads.baseFee with
          | none => none
          | some baseFee =>
              let currentHeat :=
                (engine.predatorPressure * 15 % u64Size + baseFee / 1000000000 % u64Size) %
                  u64Size
              let prevHeat := engine.lastHeatScore
              let engine := { engine with lastHeatScore := currentHeat }
              let rising := prevHeat > 0 ∧ heatRising currentHeat prevHeat = true
              let bribePct := if rising ∨ lossStreak > 5 then max bribePct 94 else bribePct
              let bribePct :=
                if opp.isWhaleTrigger then min ((bribePct + 10) % 2 ^ 32) maxBribePct
                else bribePct
              let bribePct :=
                match engine.lastSuccess with
                | some (ts, lb) =>
                    if secsSince reads.elapsedNow ts < 60 then
                      (bribePct + lb) % 2 ^ 32 / 2 else bribePct
                | none => bribePct
              some (max (min bribePct maxBribePct) 10, engine)

/-- What one `suggest_priority_fee` reads from outside the engine; the base fee
is loaded twice. -/
structure FeeReads where
  baseFee : U256
  baseFeeAgain : U256

/-- `is_mafia`. -/
def BiddingEngine.isMafia (engine : BiddingEngine) : Bool :=
  engine.lastHeatScore > 50 ∨ engine.consecutiveLosses > 3

/-- The overshoot over the trigger's gas price, capped on Base. -/
def BiddingEngine.overshoot (engine : BiddingEngine) (opp : Opportunity) (compGas : U256) :
    Option U256 :=
  let adjustment : U256 := if engine.isMafia then 4000000000 else 2000000000
  match opp.chain with
  | .base =>
      let profitLimitFactor : U256 := if engine.isMafia then 1 else 2
      match u256Div opp.expectedProfit (u256Max opp.gasEstimate 1 * profitLimitFactor) with
      | none => none
      | some maxAllowed => some (u256Min (saturatingAdd compGas adjustment) maxAllowed)

/-- `suggest_priority_fee`. -/
def BiddingEngine.suggestPriorityFee (engine : BiddingEngine) (opp : Opportunity)
    (currentPriority : U256) (reads : FeeReads) : Option U256 :=
  if reads.baseFee > 100000000 then some 0
  else
    let suggested :=
      match opp.triggerGasPrice with
      | some compGas => engine.overshoot opp compGas
      | none => some currentPriority
    match suggested with
    | none => none
    | some suggested =>
        let congestionMultiplier : U256 := if reads.baseFeeAgain > 500000000 then 120 else 100
        let suggested := suggested * congestionMultiplier / 100
        if reads.baseFeeAgain > 1000000000 ∧ opp.chain = .base then some 0
        else some (u256Max suggested minBuilderTipWei)

/-- One more win or loss against the sender of the trigger. -/
def BiddingEngine.countAgainst (engine : BiddingEngine) (opp : Opportunity) (won : Bool) :
    BiddingEngine :=
  match opp.triggerSender with
  | none => engine
  | some sender =>
      let (wins, losses) := (engine.competitorHistory sender).getD (0, 0)
      let stats :=
        if won then ((wins + 1) % u64Size, losses) else (wins, (losses + 1) % u64Size)
      { engine with
        competitorHistory := fun other =>
          if other = sender then some stats else engine.competitorHistory other }

/-- `record_success` at clock `now`. -/
def BiddingEngine.recordSuccess (engine : BiddingEngine) (opp : Opportunity) (bribePct : Nat)
    (now : Instant) : BiddingEngine :=
  let engine :=
    { engine with wins := (engine.wins + 1) % u64Size, consecutiveLosses := 0 }
  { engine.countAgainst opp true with lastSuccess := some (now, bribePct) }

/-- `record_failure`. -/
def BiddingEngine.recordFailure (engine : BiddingEngine) (opp : Opportunity) :
    BiddingEngine :=
  let engine :=
    { engine with
      losses := (engine.losses + 1) % u64Size
      consecutiveLosses := (engine.consecutiveLosses + 1) % u64Size }
  engine.countAgainst opp false

end SovereignShadow.Ports.Bidding
