import SovereignShadow.Verified.Bytes
import SovereignShadow.Verified.Checked
import SovereignShadow.Ports.Models
import SovereignShadow.Ports.Evm
import SovereignShadow.Ports.GhostPayload
import SovereignShadow.Ports.UniversalDecoder
import SovereignShadow.Ports.DecoderTotality
import SovereignShadow.Ports.BiddingEngine
import SovereignShadow.Ports.CircuitBreaker
import SovereignShadow.Ports.FlashLoanExecutor
import SovereignShadow.Ports.ExecutorStages
import SovereignShadow.Ports.RevertProtection
import SovereignShadow.Ports.NonceRuns
import SovereignShadow.Ports.BundleSequencer
import SovereignShadow.Ports.Chain
import SovereignShadow.Ports.ShadowBot
import SovereignShadow.Ports.ShadowBotCustody
import SovereignShadow.Ports.ZeroLossShield
import SovereignShadow.Ports.ExecutorContract
import SovereignShadow.Ports.ExecutorCustody
import SovereignShadow.Ports.MathEngine
import SovereignShadow.Verified.ConstantProduct
import SovereignShadow.Verified.GoldenSection
import SovereignShadow.Verified.WideBracket
import SovereignShadow.Ports.OptimalInput
import SovereignShadow.Ports.SizingSearch
import SovereignShadow.Ports.PathQuotes
import SovereignShadow.Ports.SearchRange
import SovereignShadow.Ports.CycleSearch
import SovereignShadow.Ports.ArbitrageDetector
import SovereignShadow.Ports.GenuineCycles
import SovereignShadow.Ports.EdgeWalks
import SovereignShadow.Ports.GraphBuilder
import SovereignShadow.Verified.CompressedRows
import SovereignShadow.Ports.GraphInvariant
import SovereignShadow.Ports.SearchBounds
import SovereignShadow.Ports.MirrorSync
import SovereignShadow.Ports.MulticallAlignment
import SovereignShadow.Ports.MirrorFreshness
import SovereignShadow.Verified.Abi
import SovereignShadow.Ports.FlashCalldata
import SovereignShadow.Ports.SwapPaths
import SovereignShadow.Ports.V3Math
import SovereignShadow.Verified.PowerTable
import SovereignShadow.Ports.FullWidth
import SovereignShadow.Verified.NewtonSqrt
import SovereignShadow.Verified.PeakInput
import SovereignShadow.Ports.SquareRoot
import SovereignShadow.Ports.TwoPoolOptimum
import SovereignShadow.Ports.TickMath
import SovereignShadow.Ports.TickSearch
import SovereignShadow.Ports.InitializedTicks
import SovereignShadow.Verified.RoundedDivision
import SovereignShadow.Ports.SwapStep
import SovereignShadow.Ports.TokenAmounts
import SovereignShadow.Ports.ExactInputStep
import SovereignShadow.Ports.ExactOutputStep
import SovereignShadow.Ports.SwapLoop
import SovereignShadow.Ports.SwapTermination
import SovereignShadow.Ports.SwapLiquidity
import SovereignShadow.Ports.V2Quote
import SovereignShadow.Ports.V2Execution
import SovereignShadow.Ports.RobustnessGate
import SovereignShadow.Ports.SurvivalRule
import SovereignShadow.Ports.BreakerRuns
import SovereignShadow.Verified.FirstSeen
import SovereignShadow.Ports.NerveBridge
import SovereignShadow.Ports.PoolFeed
import SovereignShadow.Ports.ExecutorHops
import SovereignShadow.Ports.PoolPayments
import SovereignShadow.Ports.RouterCalldata
import SovereignShadow.Verified.StableCurve
import SovereignShadow.Ports.StablePrice
import SovereignShadow.Ports.ProjectedReserves
import SovereignShadow.Ports.LiquidityAmounts
import SovereignShadow.Ports.StableQuote
import SovereignShadow.Ports.V2RouterCalls
import SovereignShadow.Ports.UniswapXOrders
import SovereignShadow.Ports.V3Path
import SovereignShadow.Verified.Tasks
import SovereignShadow.Ports.ProfitHandler
import SovereignShadow.Ports.SurvivalReserve
import SovereignShadow.Ports.InventorySweep
import SovereignShadow.Ports.PriceUpdates
import SovereignShadow.Ports.ProviderPool
import SovereignShadow.Verified.Tiling
import SovereignShadow.Ports.WarmStart
import SovereignShadow.Ports.LiquidityPruning
import SovereignShadow.Ports.PriorityFee
import SovereignShadow.Verified.ClearedSet
import SovereignShadow.Ports.TraderRegistry
import SovereignShadow.Verified.Immediates
import SovereignShadow.Ports.BytecodeScan
import SovereignShadow.Ports.HoneypotProbe
import SovereignShadow.Ports.RegistryRoutes
import SovereignShadow.Ports.SentQuotes
import SovereignShadow.Verified.RetainedTable
import SovereignShadow.Ports.DetectorRuns
import SovereignShadow.Ports.SovereignExecutor
import SovereignShadow.Ports.StableRefinement
import SovereignShadow.Ports.BytecodeStore
import SovereignShadow.Verified.OrderStatistic
import SovereignShadow.Ports.GasFeed
import SovereignShadow.Ports.LogMirror
import SovereignShadow.Verified.Permits
import SovereignShadow.Ports.EngineLoop
import SovereignShadow.Ports.NoiseBranches
import SovereignShadow.Verified.Asked
import SovereignShadow.Ports.EmptySelectors
import SovereignShadow.Ports.CodelessExecutor
import SovereignShadow.Ports.WalletNonces
import SovereignShadow.Verified.Tickets
import SovereignShadow.Ports.PoolIntake
import SovereignShadow.Verified.Broadcast
import SovereignShadow.Verified.Chunks
import SovereignShadow.Ports.BootstrapSync
import SovereignShadow.Ports.Delivery
