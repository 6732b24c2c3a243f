import SovereignShadow.Verified.Bytes

/-!
# The engine's data model

Port of `models.rs`: the types that the detector, the executor and the two
contracts exchange, and `ArbitragePath::encode_ghost_multi`, the packed payload
that `ShadowBot` decodes.  Record fields that no function of the development
reads are left out.
-/

namespace SovereignShadow.Ports.Models

open SovereignShadow.Verified.Bytes

/-- `alloy_primitives::U256`: arithmetic wraps, as the operators of `ruint` do. -/
abbrev U256 := BitVec 256

/-- `Uint<512, 8>`, the width of the quote intermediates. -/
abbrev U512 := BitVec 512

/-- `I256`: the same bits as `U256`, compared as a signed number. -/
abbrev I256 := BitVec 256

/-- A 20-byte account address. -/
abbrev Address := BitVec 160

/-- A 32-byte hash. -/
abbrev B256 := BitVec 256

/-! ## Word operations of `ruint` -/

/-- The number of values of a `u64`. -/
abbrev u64Size : Nat := 2 ^ 64

/-- `saturating_sub`. -/
def saturatingSub (a b : U256) : U256 := if b ≤ a then a - b else 0

/-- `saturating_add`. -/
def saturatingAdd (a b : U256) : U256 := if a + b < a then BitVec.allOnes 256 else a + b

def u256Max (a b : U256) : U256 := if a < b then b else a

def u256Min (a b : U256) : U256 := if b < a then b else a

theorem u256Min_toNat (a b : U256) : (u256Min a b).toNat = min a.toNat b.toNat := by
  unfold u256Min
  split
  case isTrue hLt => exact (min_eq_right (BitVec.lt_def.mp hLt).le).symm
  case isFalse hNot => exact (min_eq_left (not_lt.mp fun h => hNot (BitVec.lt_def.mpr h))).symm

theorem u256Max_toNat (a b : U256) : (u256Max a b).toNat = max a.toNat b.toNat := by
  unfold u256Max
  split
  case isTrue hLt => exact (max_eq_right (BitVec.lt_def.mp hLt).le).symm
  case isFalse hNot => exact (max_eq_left (not_lt.mp fun h => hNot (BitVec.lt_def.mpr h))).symm

/-- `a / b`; `none` is the panic on a zero divisor. -/
def u256Div (a b : U256) : Option U256 := if b = 0 then none else some (a / b)

/-- `to::<u64>()`; `none` is the panic on a value that does not fit. -/
def toU64 (a : U256) : Option Nat := if a.toNat < 2 ^ 64 then some a.toNat else none

/-- `to::<u128>()`; `none` is the panic on a value that does not fit. -/
def toU128 (a : U256) : Option Nat := if a.toNat < 2 ^ 128 then some a.toNat else none

/-! ## Records -/

inductive Chain where
  | base
  deriving DecidableEq, Repr, Inhabited

inductive DexName where
  | uniswapV2 | uniswapV3 | sushiSwap | aerodrome | baseSwap | pancakeSwap
  | maverick | permit2 | cowSwap | uniswapX
  deriving DecidableEq, Repr

instance : Inhabited DexName := ⟨.uniswapV2⟩

inductive DexType where
  | uniswapV2 | uniswapV3 | maverickV2 | aerodrome
  deriving DecidableEq, Repr

instance : Inhabited DexType := ⟨.uniswapV2⟩

/-- `dex_type as u8`. -/
def DexType.toU8 : DexType → UInt8
  | .uniswapV2 => 0
  | .uniswapV3 => 1
  | .maverickV2 => 2
  | .aerodrome => 3

structure Hop where
  pool : Address
  poolAddress : Address
  tokenIn : Address
  tokenOut : Address
  dexType : DexType
  dexName : DexName
  zeroForOne : Bool
  isStable : Bool
  deriving DecidableEq, Repr, Inhabited

structure Path where
  hops : List Hop
  totalGas : Nat
  deriving DecidableEq, Repr, Inhabited

structure MempoolTx where
  data : List UInt8
  hash : B256
  toAddr : Option Address
  deriving DecidableEq, Repr, Inhabited

structure SwapInfo where
  dex : DexName
  router : Address
  tokenIn : Address
  tokenOut : Address
  amountIn : U256
  amountOutMin : U256
  toAddr : Address
  fee : Option Nat
  deriving DecidableEq, Repr, Inhabited

inductive Lender where
  | balancer | aaveV3 | uniswapV2 | uniswapV3 | aerodrome | makerDAO | morphoBlue | curve
  deriving DecidableEq, Repr

/-- `Lender::id`, the byte the contract dispatches on. -/
def Lender.id : Lender → UInt8
  | .balancer => 0
  | .aaveV3 => 1
  | _ => 2

structure Opportunity where
  id : String
  path : Path
  expectedProfit : U256
  gasEstimate : U256
  inputToken : Address
  inputAmount : U256
  isWhaleTrigger : Bool
  chain : Chain
  triggerGasPrice : Option U256
  triggerSender : Option Address
  pendingTxs : List MempoolTx
  deriving DecidableEq, Repr, Inhabited

structure Bundle where
  transactions : List (List UInt8)
  targetBlock : Nat
  bribe : U256
  deriving DecidableEq, Repr, Inhabited

inductive MEVError where
  | simulationFailed (msg : String)
  | honeypotDetected (msg : String)
  | circuitBreakerOpen
  | noRelayAccepted
  | other (msg : String)
  deriving DecidableEq, Repr

theorem toU128_eq_some {a : U256} {n : Nat} :
    toU128 a = some n ↔ a.toNat < 2 ^ 128 ∧ n = a.toNat := by
  unfold toU128
  split <;> simp_all [eq_comm]

/-! ## The packed payload -/

structure ArbitragePath where
  hops : List Hop
  loans : List (Address × U256)
  lender : Lender
  deriving DecidableEq, Repr

def addressBytes (a : Address) : List UInt8 := encodeBE 20 a.toNat

def u256Bytes (x : U256) : List UInt8 := encodeBE 32 x.toNat

def boolByte (b : Bool) : UInt8 := if b then 1 else 0

/-- One 52-byte loan record: token, then amount. -/
def encodeLoan (loan : Address × U256) : List UInt8 :=
  addressBytes loan.1 ++ u256Bytes loan.2

/-- One 43-byte hop record; the last byte carries the stability flag. -/
def encodeHop (hop : Hop) : List UInt8 :=
  addressBytes hop.pool ++ addressBytes hop.tokenOut ++
    [hop.dexType.toU8, boolByte hop.zeroForOne, boolByte hop.isStable]

/-- The hop section: `hops.len() as u8`, then the records. -/
def encodeHops (hops : List Hop) : List UInt8 :=
  UInt8.ofNat hops.length :: hops.flatMap encodeHop

/-- `encode_ghost_multi`.  The loans and the profit floor are arguments; the
lender and the hops come from the path itself. -/
def ArbitragePath.encodeGhostMulti (path : ArbitragePath)
    (loans : List (Address × U256)) (minProfit : U256) : List UInt8 :=
  u256Bytes minProfit ++ [path.lender.id, UInt8.ofNat loans.length] ++
    loans.flatMap encodeLoan ++ encodeHops path.hops

@[simp] theorem addressBytes_length (a : Address) : (addressBytes a).length = 20 := by
  simp [addressBytes]

@[simp] theorem u256Bytes_length (x : U256) : (u256Bytes x).length = 32 := by
  simp [u256Bytes]

@[simp] theorem encodeLoan_length (loan : Address × U256) : (encodeLoan loan).length = 52 := by
  simp [encodeLoan]

@[simp] theorem encodeHop_length (hop : Hop) : (encodeHop hop).length = 43 := by
  simp [encodeHop]

theorem flatMap_encodeLoan_length (loans : List (Address × U256)) :
    (loans.flatMap encodeLoan).length = 52 * loans.length := by
  induction loans with
  | nil => rfl
  | cons loan rest ih =>
      rw [List.flatMap_cons, List.length_append, encodeLoan_length, ih, List.length_cons]
      omega

end SovereignShadow.Ports.Models
