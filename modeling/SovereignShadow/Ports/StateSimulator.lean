import SovereignShadow.Ports.Constants

/-!
# Branch simulation

Port of the parts of `state_simulator.rs` around the EVM runs: the result
record, the three-branch driver and the wash-trade check.  The EVM itself is
outside the repository, so `simulate_strategy` is a parameter of its callers.
-/

namespace SovereignShadow.Ports.StateSimulator

open SovereignShadow.Ports.Models
open SovereignShadow.Ports.Constants

inductive SimulationBranch where
  | top | mid | tail
  deriving DecidableEq, Repr

/-- An EIP-2930 access list. -/
abbrev AccessList := List (Address × List B256)

structure SimResult where
  profit : U256
  gasUsed : UInt64
  branch : SimulationBranch
  success : Bool
  accessList : AccessList
  deriving DecidableEq, Repr

/-- `run_branch_simulation`: a branch whose simulation fails is left out. -/
def runBranchSimulation (simulateStrategy : SimulationBranch → Option SimResult) :
    List SimResult :=
  [SimulationBranch.top, .mid, .tail].filterMap simulateStrategy

/-- `detect_wash_trap`, given the size of the pool's trader set; `showAddress`
prints the pool in the message. -/
def detectWashTrap (showAddress : Address → String) (uniqueTraders : Option Nat)
    (pool : Address) : Except MEVError Unit :=
  match uniqueTraders with
  | some uniqueCount =>
      if uniqueCount > 0 ∧ uniqueCount < minUniqueTraders then
        .error (.honeypotDetected ("WASH_TRAP: Pool " ++ showAddress pool ++
          " has only " ++ toString uniqueCount ++ " unique traders"))
      else .ok ()
  | none => .ok ()

end SovereignShadow.Ports.StateSimulator
