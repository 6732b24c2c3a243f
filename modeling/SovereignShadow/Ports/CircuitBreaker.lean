import SovereignShadow.Ports.Constants

/-!
# The circuit breaker

Port of `CircuitBreaker` of `utils.rs`.  The counters are `u64` atomics, so
their sums and increments wrap.  Clock readings are arguments, and so are the
fields that other tasks own (`BreakerReads`): they are installed at the moment
of a read.
-/

namespace SovereignShadow.Ports.Breaker

open SovereignShadow.Ports.Models
open SovereignShadow.Ports.Constants

inductive FailureType where
  | outOfGas | slippage | revert | other
  deriving DecidableEq, Repr

structure CircuitBreaker where
  failureCounts : FailureType → Nat
  lastFailureTime : Nat
  baseCooldownSecs : Nat
  maxFailures : Nat
  lastLatencyMs : Nat
  currentBalance : U256
  manualKillSwitch : Bool
  sequencerStalled : Bool

/-- `CircuitBreaker::new`. -/
def CircuitBreaker.new (maxFailures baseCooldownSecs : Nat) : CircuitBreaker where
  failureCounts := fun _ => 0
  lastFailureTime := 0
  baseCooldownSecs := baseCooldownSecs
  maxFailures := maxFailures
  lastLatencyMs := 0
  currentBalance := 0
  manualKillSwitch := false
  sequencerStalled := false

/-- The fields that the heartbeat, the balance feed and the operator write. -/
structure BreakerReads where
  lastLatencyMs : Nat
  currentBalance : U256
  manualKillSwitch : Bool
  sequencerStalled : Bool

/-- The breaker with the other tasks' fields as they stand at a read. -/
def CircuitBreaker.observe (breaker : CircuitBreaker) (reads : BreakerReads) :
    CircuitBreaker :=
  { breaker with
    lastLatencyMs := reads.lastLatencyMs
    currentBalance := reads.currentBalance
    manualKillSwitch := reads.manualKillSwitch
    sequencerStalled := reads.sequencerStalled }

/-- The sum over `failure_counts`. -/
def CircuitBreaker.total (breaker : CircuitBreaker) : Nat :=
  (breaker.failureCounts .outOfGas + breaker.failureCounts .slippage +
    breaker.failureCounts .revert + breaker.failureCounts .other) % u64Size

/-- `is_open` at clock `now`, in seconds. -/
def CircuitBreaker.isOpen (breaker : CircuitBreaker) (now : Nat) : Bool :=
  if breaker.manualKillSwitch then true
  else if breaker.sequencerStalled then true
  else if breaker.lastLatencyMs > maxBuilderLatencyMs ∧ breaker.lastLatencyMs ≠ 0 then true
  else if breaker.currentBalance < minSearcherBalanceWei ∧ breaker.currentBalance ≠ 0 then
    true
  else if breaker.total < breaker.maxFailures then false
  else
    let cooldown :=
      breaker.baseCooldownSecs * ((1 + breaker.failureCounts .outOfGas) % u64Size) % u64Size
    now - breaker.lastFailureTime < cooldown

/-- The counters after `record_failure` at clock `now`. -/
def CircuitBreaker.recordFailure (breaker : CircuitBreaker) (ftype : FailureType)
    (now : Nat) : CircuitBreaker :=
  { breaker with
    failureCounts := fun counted =>
      if counted = ftype then (breaker.failureCounts counted + 1) % u64Size
      else breaker.failureCounts counted
    lastFailureTime := now }

/-- Whether `record_failure` then sets `GLOBAL_PAUSE`. -/
def CircuitBreaker.vetoes (breaker : CircuitBreaker) : Bool := breaker.total > 20

/-- `record_success`. -/
def CircuitBreaker.recordSuccess (breaker : CircuitBreaker) : CircuitBreaker :=
  { breaker with failureCounts := fun _ => 0 }

end SovereignShadow.Ports.Breaker
