import SovereignShadow.Ports.Models
import SovereignShadow.Verified.Checked

/-!
# Calldata decoding

Port of `universal_decoder.rs` and of the ABI readers of `utils.rs`, in both
builds: every `usize` sum and product goes through the build's own arithmetic,
every slice through the panicking or the optional range access.
-/

namespace SovereignShadow.Ports.UniversalDecoder

open SovereignShadow.Verified.Bytes
open SovereignShadow.Verified.Checked
open SovereignShadow.Verified.Checked.Outcome
open SovereignShadow.Ports.Models

/-- The bytes of a `bytes::Bytes`; an allocation has at most `isize::MAX` bytes. -/
structure Bytes where
  data : List UInt8
  length_lt : data.length < 2 ^ 63

structure DecodeTx where
  toAddr : Option Address
  value : U256
  input : Bytes

inductive SelectorMethod where
  | v2 | aerodrome | v2Eth | v3Single | universalRouter | uniswapX
  deriving DecidableEq, Repr

/-- The big-endian number that a byte list spells. -/
def beNat (bytes : List UInt8) : Nat := readBE (ofList bytes) 0 bytes.length

/-- `SELECTORS.get`. -/
def selectors : Nat → Option SelectorMethod
  | 0x38ed1739 => some .v2
  | 0x8803dbee => some .v2
  | 0x18cbafe5 => some .v2
  | 0x4a25d94a => some .v2
  | 0xa1251d75 => some .aerodrome
  | 0xcdf2de83 => some .aerodrome
  | 0x15263a6a => some .aerodrome
  | 0x7ff36449 => some .v2Eth
  | 0xfb3bdb41 => some .v2Eth
  | 0x414bf389 => some .v3Single
  | 0x3593564c => some .universalRouter
  | 0x8ae0693a => some .uniswapX
  | 0x5b0d135a => some .uniswapX
  | _ => none

/-- `u32::from_be_bytes` of the first four bytes. -/
def selectorOf (data : List UInt8) : Nat := beNat (data.take 4)

/-! ## Zero-copy ABI readers -/

def readU256 (build : Build) (data : List UInt8) (offset : Nat) : Outcome U256 := do
  let stop ← uadd build offset 32
  if stop > data.length then .none
  else do
    let bytes ← slice data offset stop
    .value (BitVec.ofNat 256 (beNat bytes))

def readAddress (build : Build) (data : List UInt8) (offset : Nat) : Outcome Address := do
  let addrStart ← uadd build offset 12
  let stop ← uadd build addrStart 20
  if stop > data.length then .none
  else do
    let bytes ← slice data addrStart stop
    .value (BitVec.ofNat 160 (beNat bytes))

/-- The low eight bytes of the word at `offset`; `try_into` needs exactly eight. -/
def readUsize (build : Build) (data : List UInt8) (offset : Nat) : Outcome Nat := do
  let lo ← uadd build offset 24
  let hi ← uadd build offset 32
  let bytes ← getRange data lo hi
  if bytes.length = 8 then .value (beNat bytes) else .none

/-- `to::<u32>()`, which panics on a value that does not fit. -/
def toU32 (x : U256) : Outcome Nat := if x.toNat < 2 ^ 32 then .value x.toNat else .panic

/-! ## The six branches -/

def decodeV2 (build : Build) (data : List UInt8) (toAddr : Address) : Outcome SwapInfo := do
  if data.length < 160 then .none
  else do
    let amountIn ← readU256 build data 0
    let amountOutMin ← readU256 build data 32
    let pathOffset ← readUsize build data 64
    let pathLen ← readUsize build data pathOffset
    if ¬ (2 ≤ pathLen ∧ pathLen ≤ 10) then .none
    else do
      let pathStart ← uadd build pathOffset 32
      let pathBytes ← umul build pathLen 32
      let pathEnd ← uadd build pathStart pathBytes
      if data.length < pathEnd then .none
      else do
        let tokenIn ← readAddress build data pathStart
        let lastAt ← umul build (pathLen - 1) 32
        let last ← uadd build pathStart lastAt
        let tokenOut ← readAddress build data last
        let recipient ← readAddress build data 96
        .value
          { dex := .uniswapV2, router := toAddr, tokenIn := tokenIn, tokenOut := tokenOut,
            amountIn := amountIn, amountOutMin := amountOutMin, toAddr := recipient,
            fee := .none }

/-- The route list at `routesOffset`: the first route's source and the last
route's destination, three slots a route. -/
def decodeAerodromeRoutes (build : Build) (input : List UInt8) (toAddr : Address)
    (amountIn amountOutMin : U256) (routesOffset : Nat) (recipient : Address) :
    Outcome SwapInfo := do
  let routesLen ← readUsize build input routesOffset
  if routesLen = 0 then .none
  else do
    let routeStart ← uadd build routesOffset 32
    let tokenIn ← readAddress build input routeStart
    let skipped ← umul build (routesLen - 1) 96
    let finalRouteIdx ← uadd build routeStart skipped
    let outAt ← uadd build finalRouteIdx 32
    let tokenOut ← readAddress build input outAt
    .value
      { dex := .aerodrome, router := toAddr, tokenIn := tokenIn, tokenOut := tokenOut,
        amountIn := amountIn, amountOutMin := amountOutMin, toAddr := recipient,
        fee := .none }

def decodeAerodrome (build : Build) (data : List UInt8) (toAddr : Address) (value : U256) :
    Outcome SwapInfo :=
  if data.length < 4 then .none
  else
    let selector := selectorOf data
    let input := data.drop 4
    if selector = 0xcdf2de83 then
      if input.length < 96 then .none
      else do
        let amountOutMin ← readU256 build input 0
        let routesOffset ← readUsize build input 32
        let recipient ← readAddress build input 64
        decodeAerodromeRoutes build input toAddr value amountOutMin routesOffset recipient
    else if selector = 0x15263a6a ∨ selector = 0xa1251d75 then
      if input.length < 128 then .none
      else do
        let amountIn ← readU256 build input 0
        let amountOutMin ← readU256 build input 32
        let routesOffset ← readUsize build input 64
        let recipient ← readAddress build input 96
        decodeAerodromeRoutes build input toAddr amountIn amountOutMin routesOffset recipient
    else .none

def decodeV2Eth (build : Build) (data : List UInt8) (toAddr : Address) (value : U256) :
    Outcome SwapInfo := do
  if data.length < 128 then .none
  else do
    let amountOutMin ← readU256 build data 0
    let pathOffset ← readUsize build data 32
    let recipient ← readAddress build data 64
    let pathLen ← readUsize build data pathOffset
    if ¬ (2 ≤ pathLen ∧ pathLen ≤ 10) then .none
    else do
      let pathStart ← uadd build pathOffset 32
      let tokenIn ← readAddress build data pathStart
      let lastAt ← umul build (pathLen - 1) 32
      let last ← uadd build pathStart lastAt
      let tokenOut ← readAddress build data last
      .value
        { dex := .uniswapV2, router := toAddr, tokenIn := tokenIn, tokenOut := tokenOut,
          amountIn := value, amountOutMin := amountOutMin, toAddr := recipient, fee := .none }

def decodeV3Single (build : Build) (data : List UInt8) (toAddr : Address) :
    Outcome (List SwapInfo) := do
  if data.length < 228 then .value []
  else do
    let first ← (readUsize build data 4).unwrapOr 0
    let start := if first = 32 then 36 else 4
    let tokenIn ← (readAddress build data start).unwrapOr 0
    let outAt ← uadd build start 32
    let tokenOut ← (readAddress build data outAt).unwrapOr 0
    let feeAt ← uadd build start 64
    let feeWord ← (readU256 build data feeAt).unwrapOr 0
    let fee ← toU32 feeWord
    let recipientAt ← uadd build start 96
    let recipient ← (readAddress build data recipientAt).unwrapOr 0
    let amountInAt ← uadd build start 160
    let amountIn ← (readU256 build data amountInAt).unwrapOr 0
    let amountOutMinAt ← uadd build start 192
    let amountOutMin ← (readU256 build data amountOutMinAt).unwrapOr 0
    .value
      [{ dex := .uniswapV3, router := toAddr, tokenIn := tokenIn, tokenOut := tokenOut,
         amountIn := amountIn, amountOutMin := amountOutMin, toAddr := recipient,
         fee := some fee }]

/-- `&data[order_abs + 32 .. (order_abs + 32 + order_len).min(data.len())]`. -/
def orderPayload (build : Build) (data : List UInt8) (orderAbs orderLen : Nat) :
    Outcome (List UInt8) := do
  let lo ← uadd build orderAbs 32
  let hi ← uadd build lo orderLen
  slice data lo (min hi data.length)

/-- The first output of an order payload. -/
def parseOrderPayload (build : Build) (orderPayload : List UInt8) (reactor : Address) :
    Outcome SwapInfo := do
  if orderPayload.length < 160 then .none
  else do
    let tokenIn ← readAddress build orderPayload 192
    let amountIn ← readU256 build orderPayload 204
    let outputsAbs ← readUsize build orderPayload 288
    let outputsFloor ← uadd build outputsAbs 64
    if orderPayload.length < outputsFloor then .none
    else do
      let outputsLen ← readUsize build orderPayload outputsAbs
      if outputsLen = 0 then .none
      else do
        let firstOutputPtr ← uadd build outputsAbs 32
        let tokenOut ← readAddress build orderPayload firstOutputPtr
        let minAt ← uadd build firstOutputPtr 12
        let amountOutMin ← readU256 build orderPayload minAt
        let recipientAt ← uadd build firstOutputPtr 76
        let recipient ← readAddress build orderPayload recipientAt
        .value
          { dex := .uniswapX, router := reactor, tokenIn := tokenIn, tokenOut := tokenOut,
            amountIn := amountIn, amountOutMin := amountOutMin, toAddr := recipient,
            fee := .none }

def parseUniswapxOrder (build : Build) (data : List UInt8) (offset : Nat)
    (reactor : Address) : Outcome SwapInfo := do
  let orderPtr ← readUsize build data offset
  let orderAbs ← uadd build offset orderPtr
  let orderLen ← readUsize build data orderAbs
  let payload ← orderPayload build data orderAbs orderLen
  parseOrderPayload build payload reactor

/-- One item of an `executeBatch` array. -/
def parseBatchItem (build : Build) (data : List UInt8) (arrayStart : Nat)
    (reactor : Address) (i : Nat) : Outcome SwapInfo := do
  let slots ← uadd build arrayStart 32
  let skipped ← umul build i 32
  let itemOffset ← uadd build slots skipped
  let relPtr ← readUsize build data itemOffset
  let offset ← uadd build arrayStart relPtr
  parseUniswapxOrder build data offset reactor

/-- The orders of an `executeBatch` array, at most five. -/
def parseBatch (build : Build) (data : List UInt8) (arrayOffset : Nat) (reactor : Address) :
    Outcome (List SwapInfo) := do
  let arrayStart ← uadd build arrayOffset 4
  let len ← readUsize build data arrayStart
  collectEach (parseBatchItem build data arrayStart reactor) (List.range (min len 5))

def decodeUniswapx (build : Build) (data : List UInt8) (reactor : Address) :
    Outcome (List SwapInfo) :=
  if data.length < 128 then .value []
  else
    let selector := selectorOf data
    if selector = 0x8ae0693a then
      (parseUniswapxOrder build data 4 reactor).collect
    else if selector = 0x5b0d135a then
      (do let arrayOffset ← readUsize build data 4
          parseBatch build data arrayOffset reactor).unwrapOr []
    else .value []

/-- The last match of the command loop on a sliced input. -/
def routerSwap (build : Build) (inp : List UInt8) (toAddr : Address) (cmd : UInt8)
    (recipient : Address) (amountIn amountOutMin : U256) (pathPtr pathLen : Nat) :
    Outcome SwapInfo :=
  if cmd = 0x00 then do
    let pathEnd ← uadd build pathPtr pathLen
    if inp.length ≥ pathEnd ∧ pathLen ≥ 43 then do
      let pb ← slice inp pathPtr pathEnd
      let inBytes ← slice pb 0 20
      let feeBytes ← slice pb 20 23
      let outBytes ← slice pb 23 43
      .value
        { dex := .uniswapV3, router := toAddr, tokenIn := BitVec.ofNat 160 (beNat inBytes),
          tokenOut := BitVec.ofNat 160 (beNat outBytes), amountIn := amountIn,
          amountOutMin := amountOutMin, toAddr := recipient, fee := some (beNat feeBytes) }
    else .none
  else if cmd = 0x08 then
    if pathLen ≥ 2 then do
      let pathBytes ← umul build pathLen 32
      let pathEnd ← uadd build pathPtr pathBytes
      if inp.length ≥ pathEnd then do
        let tokenIn ← (readAddress build inp pathPtr).unwrapOr 0
        let lastAt ← umul build (pathLen - 1) 32
        let last ← uadd build pathPtr lastAt
        let tokenOut ← (readAddress build inp last).unwrapOr 0
        .value
          { dex := .uniswapV2, router := toAddr, tokenIn := tokenIn, tokenOut := tokenOut,
            amountIn := amountIn, amountOutMin := amountOutMin, toAddr := recipient,
            fee := .none }
      else .none
    else .none
  else .none

/-- One command's input slice. -/
def routerInput (build : Build) (inp : List UInt8) (toAddr : Address) (cmd : UInt8) :
    Outcome SwapInfo :=
  if inp.length < 160 then .none
  else do
    let recipient ← (readAddress build inp 0).unwrapOr 0
    let amountIn ← (readU256 build inp 32).unwrapOr 0
    let amountOutMin ← (readU256 build inp 64).unwrapOr 0
    let pathOff ← (readUsize build inp 96).unwrapOr 0
    let pathLen ← (readUsize build inp pathOff).unwrapOr 0
    let pathPtr ← uadd build pathOff 32
    routerSwap build inp toAddr cmd recipient amountIn amountOutMin pathPtr pathLen

/-- One iteration of the command loop; `.none` is `continue`. -/
def routerCommand (build : Build) (data : List UInt8) (toAddr : Address)
    (inputsPtr inputsArrayStart : Nat) (item : UInt8 × Nat) : Outcome SwapInfo := do
  let skipped ← umul build item.2 32
  let slot ← uadd build inputsArrayStart skipped
  let off ← (readUsize build data slot).unwrapOr 0
  let start ← uadd build inputsPtr off
  let startEnd ← uadd build start 32
  if startEnd > data.length then .none
  else do
    let len ← (readUsize build data start).unwrapOr 0
    let sliceStart ← uadd build start 32
    let sliceEnd ← uadd build sliceStart len
    if sliceEnd > data.length then .none
    else do
      let inp ← slice data sliceStart sliceEnd
      routerInput build inp toAddr item.1

def decodeUniversalRouter (build : Build) (calldata : List UInt8) (toAddr : Address) :
    Outcome (List SwapInfo) :=
  if calldata.length ≥ 4 then
    let data := calldata.drop 4
    if data.length < 96 then .value []
    else do
      let cmdsPtr ← (readUsize build data 0).unwrapOr 0
      let cmdsLen ← (readUsize build data cmdsPtr).unwrapOr 0
      let cmdsStart ← uadd build cmdsPtr 32
      let cmdsEnd ← uadd build cmdsStart cmdsLen
      if cmdsEnd > data.length then .value []
      else do
        let commands ← slice data cmdsStart cmdsEnd
        let inputsPtr ← (readUsize build data 32).unwrapOr 0
        let inputsArrayStart ← uadd build inputsPtr 32
        collectEach (routerCommand build data toAddr inputsPtr inputsArrayStart)
          commands.zipIdx
  else .value []

/-- `UniversalDecoder::decode`. -/
def decode (build : Build) (tx : DecodeTx) : Outcome (List SwapInfo) :=
  let data := tx.input.data
  if data.length < 4 then .value []
  else
    let toAddr := tx.toAddr.getD 0
    match selectors (selectorOf data) with
    | some .v2 => (decodeV2 build (data.drop 4) toAddr).collect
    | some .aerodrome => (decodeAerodrome build data toAddr tx.value).collect
    | some .v2Eth => (decodeV2Eth build (data.drop 4) toAddr tx.value).collect
    | some .v3Single => decodeV3Single build data toAddr
    | some .universalRouter => decodeUniversalRouter build data toAddr
    | some .uniswapX => decodeUniswapx build data toAddr
    | .none => .value []

end SovereignShadow.Ports.UniversalDecoder
