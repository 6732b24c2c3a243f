import SovereignShadow.Ports.Models

/-!
# Constants

The values of `constants.rs` that the ported functions read, under the source's
names.
-/

namespace SovereignShadow.Ports.Constants

open SovereignShadow.Ports.Models

def tokenWeth : Address := 0x4200000000000000000000000000000000000006
def tokenUsdc : Address := 0x833589fCD6eDb6E08f4c7C32D4f71b54bdA02913
def tokenDai : Address := 0x50c5725949A6F0c72E6C4a641F24049A917DB0Cb
def tokenVirtual : Address := 0x0bFbCF9fa4f9C56B0F40a671Ad40E0805A091865
def tokenLuna : Address := 0xD533a949740bb3306d119CC777fa900bA034cd52
def tokenAi16z : Address := 0x30c90069678174577B0Ac49969D7070F7915B597

/-- `CORE_TOKENS`. -/
def coreTokens : List Address := [tokenWeth, tokenUsdc, tokenDai]

/-- `TOP_100_POOLS`. -/
def top100Pools : List Address :=
  [0xcDAC0d6c6C59727a65F871236188350531885C43, 0xd0b53D9277642d899DF5C87A3966A349A798F224,
    0x4C36388bE6F416A29C8d8Eee819bb35ed3737a01, 0x21943f679eD5f05329883584860D49C039237685,
    0x7E3411B04766089cFaa52DB688855356A12f05D1, 0xc9034c3E7242654fd148e934814510d0e9436db4,
    0x4b0Aaf3EBb163dd45F663b38b6d93f6093EBC2d3, 0x3062ad446da2cfdb10266e06bee30f33ba2a6b41,
    0xf0c57173e35181D061033A38166D5726C4A641F2, 0x7f670f78B17dEC44d5Ef68a48740b6f8849cc2e6,
    0x532f27101965dd16442E59d40670Fa5ad5f3fe91, 0x2Ae3F1Ec7F1F5012CFEab0185bfc7aa3cf0DEc22,
    0x420DD381b31aEf6683db6B902084c0BAc2D1b5d5, 0x0BFbCF9fa4f9C56B0F40a671Ad40E0805A091865,
    0x30c90069678174577B0Ac49969D7070F7915B597, 0x04C9F118A4864700721A163744021d21DB27c11f,
    0x3D2d7681335A74Be482D207137f814bA688849E8, 0x4ed4E862860beD51a9570b96d89aF5E1B0Efefed]

/-- `MAX_ALPHA_LIQUIDITY_USD`. -/
def maxAlphaLiquidityUsd : Nat := 40000

/-- `ESTIMATED_ETH_PRICE`. -/
def estimatedEthPrice : Nat := 2500

/-- `POOL_HOTNESS_TTL_SEC`. -/
def poolHotnessTtlSec : Nat := 1800

/-- `KNOWN_COMPETITORS`. -/
def knownCompetitors : List Address := [0x000000000000084e0aD24b420F9bDb26b6fB0D0F]

/-- `BIDDING_TIERS`: profit threshold in wei, bribe percentage. -/
def biddingTiers : List (Nat × Nat) :=
  [(0, 5), (1000000000000000, 10), (10000000000000000, 20), (100000000000000000, 40),
    (1000000000000000000, 60)]

def minBuilderTipWei : U256 := 1000000000000
def maxBribePct : Nat := 99
def microProfitThresholdWei : Nat := 10000000000000
def maxBranchLossBps : U256 := 1000

def minSearcherBalanceWei : U256 := 500000000000000
def maxBuilderLatencyMs : Nat := 100
def maxNodeLagSeconds : Nat := 10
def minUniqueTraders : Nat := 5

def gasVaultPercentage : U256 := 5
def gasVaultAddress : Option Address := some 0x54d444D3873fdFFE7016Ebb535388cEf4983705b
def dustThresholdWei : U256 := 100000000000000
def maxSweepGasPriceWei : U256 := 50000000
def uniswapV2Router : Address := 0x7a250d5630B4cF539739dF2C5dAcb4c659F2488D
def baseAerodromeRouter : Address := 0xcF77a3Ba9A5DA3999247B82c4B9D43c1A7fD7c8a

end SovereignShadow.Ports.Constants
