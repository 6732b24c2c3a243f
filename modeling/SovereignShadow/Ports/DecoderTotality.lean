import SovereignShadow.Ports.UniversalDecoder

/-!
# When decoding returns

`decode` reads offsets, lengths and counts from the calldata and adds them up
before it compares them with the calldata's length.  The module states, branch
by branch, which of these sums have to stay below the word size (and, for the
V3 branch, which word has to be a `u32`), and proves that `decode` returns in
both builds exactly then.

## Main results

* `refines_decode` — a debug run that returns fixes the release run.
* `decode_total_iff` — the exact condition.
* `not_decode_total` — one V3 call with a wide fee word aborts the process.
-/

namespace SovereignShadow.Ports.DecoderTotality

open SovereignShadow.Verified.Bytes
open SovereignShadow.Verified.Checked
open SovereignShadow.Verified.Checked.Outcome
open SovereignShadow.Ports.Models
open SovereignShadow.Ports.UniversalDecoder

/-! ## Release agrees with debug -/

theorem refines_readU256 {data : List UInt8} {offset : Nat} :
    Refines (readU256 .debug data offset) (readU256 .release data offset) :=
  (refines_uadd offset 32).bind fun _ => .refl _

theorem refines_readAddress {data : List UInt8} {offset : Nat} :
    Refines (readAddress .debug data offset) (readAddress .release data offset) :=
  (refines_uadd offset 12).bind fun _ => (refines_uadd _ 20).bind fun _ => .refl _

theorem refines_readUsize {data : List UInt8} {offset : Nat} :
    Refines (readUsize .debug data offset) (readUsize .release data offset) :=
  (refines_uadd offset 24).bind fun _ => (refines_uadd _ 32).bind fun _ => .refl _

theorem refines_decodeV2 {data : List UInt8} {toAddr : Address} :
    Refines (decodeV2 .debug data toAddr) (decodeV2 .release data toAddr) :=
  .ite (.refl _) <| refines_readU256.bind fun _ => refines_readU256.bind fun _ =>
    refines_readUsize.bind fun _ => refines_readUsize.bind fun _ =>
    .ite (.refl _) <| (refines_uadd _ _).bind fun _ => (refines_umul _ _).bind fun _ =>
    (refines_uadd _ _).bind fun _ => .ite (.refl _) <|
    refines_readAddress.bind fun _ => (refines_umul _ _).bind fun _ =>
    (refines_uadd _ _).bind fun _ => refines_readAddress.bind fun _ =>
    refines_readAddress.bind fun _ => .refl _

theorem refines_decodeAerodromeRoutes {input : List UInt8} {toAddr : Address}
    {amountIn amountOutMin : U256} {routesOffset : Nat} {recipient : Address} :
    Refines
      (decodeAerodromeRoutes .debug input toAddr amountIn amountOutMin routesOffset recipient)
      (decodeAerodromeRoutes .release input toAddr amountIn amountOutMin routesOffset
        recipient) :=
  refines_readUsize.bind fun _ => .ite (.refl _) <|
    (refines_uadd _ _).bind fun _ => refines_readAddress.bind fun _ =>
    (refines_umul _ _).bind fun _ => (refines_uadd _ _).bind fun _ =>
    (refines_uadd _ _).bind fun _ => refines_readAddress.bind fun _ => .refl _

theorem refines_decodeAerodrome {data : List UInt8} {toAddr : Address} {value : U256} :
    Refines (decodeAerodrome .debug data toAddr value)
      (decodeAerodrome .release data toAddr value) :=
  .ite (.refl _) <| .ite
    (.ite (.refl _) <| refines_readU256.bind fun _ => refines_readUsize.bind fun _ =>
      refines_readAddress.bind fun _ => refines_decodeAerodromeRoutes) <| .ite
    (.ite (.refl _) <| refines_readU256.bind fun _ => refines_readU256.bind fun _ =>
      refines_readUsize.bind fun _ => refines_readAddress.bind fun _ =>
      refines_decodeAerodromeRoutes)
    (.refl _)

theorem refines_decodeV2Eth {data : List UInt8} {toAddr : Address} {value : U256} :
    Refines (decodeV2Eth .debug data toAddr value) (decodeV2Eth .release data toAddr value) :=
  .ite (.refl _) <| refines_readU256.bind fun _ => refines_readUsize.bind fun _ =>
    refines_readAddress.bind fun _ => refines_readUsize.bind fun _ =>
    .ite (.refl _) <| (refines_uadd _ _).bind fun _ => refines_readAddress.bind fun _ =>
    (refines_umul _ _).bind fun _ => (refines_uadd _ _).bind fun _ =>
    refines_readAddress.bind fun _ => .refl _

theorem refines_decodeV3Single {data : List UInt8} {toAddr : Address} :
    Refines (decodeV3Single .debug data toAddr) (decodeV3Single .release data toAddr) :=
  .ite (.refl _) <| (refines_readUsize.unwrapOr 0).bind fun _ =>
    (refines_readAddress.unwrapOr 0).bind fun _ => (refines_uadd _ _).bind fun _ =>
    (refines_readAddress.unwrapOr 0).bind fun _ => (refines_uadd _ _).bind fun _ =>
    (refines_readU256.unwrapOr 0).bind fun _ => Refines.bind (.refl _) fun _ =>
    (refines_uadd _ _).bind fun _ => (refines_readAddress.unwrapOr 0).bind fun _ =>
    (refines_uadd _ _).bind fun _ => (refines_readU256.unwrapOr 0).bind fun _ =>
    (refines_uadd _ _).bind fun _ => (refines_readU256.unwrapOr 0).bind fun _ => .refl _

theorem refines_parseOrderPayload {payload : List UInt8} {reactor : Address} :
    Refines (parseOrderPayload .debug payload reactor)
      (parseOrderPayload .release payload reactor) :=
  .ite (.refl _) <| refines_readAddress.bind fun _ => refines_readU256.bind fun _ =>
    refines_readUsize.bind fun _ => (refines_uadd _ _).bind fun _ => .ite (.refl _) <|
    refines_readUsize.bind fun _ => .ite (.refl _) <| (refines_uadd _ _).bind fun _ =>
    refines_readAddress.bind fun _ => (refines_uadd _ _).bind fun _ =>
    refines_readU256.bind fun _ => (refines_uadd _ _).bind fun _ =>
    refines_readAddress.bind fun _ => .refl _

theorem refines_parseUniswapxOrder {data : List UInt8} {offset : Nat} {reactor : Address} :
    Refines (parseUniswapxOrder .debug data offset reactor)
      (parseUniswapxOrder .release data offset reactor) :=
  refines_readUsize.bind fun _ => (refines_uadd _ _).bind fun _ =>
    refines_readUsize.bind fun _ =>
    ((refines_uadd _ _).bind fun _ => (refines_uadd _ _).bind fun _ => .refl _).bind fun _ =>
    refines_parseOrderPayload

theorem refines_parseBatch {data : List UInt8} {arrayOffset : Nat} {reactor : Address} :
    Refines (parseBatch .debug data arrayOffset reactor)
      (parseBatch .release data arrayOffset reactor) :=
  (refines_uadd _ _).bind fun _ => refines_readUsize.bind fun _ =>
    refines_collectEach (fun _ => (refines_uadd _ _).bind fun _ =>
      (refines_umul _ _).bind fun _ => (refines_uadd _ _).bind fun _ =>
      refines_readUsize.bind fun _ => (refines_uadd _ _).bind fun _ =>
      refines_parseUniswapxOrder) _

theorem refines_decodeUniswapx {data : List UInt8} {reactor : Address} :
    Refines (decodeUniswapx .debug data reactor) (decodeUniswapx .release data reactor) :=
  .ite (.refl _) <| .ite refines_parseUniswapxOrder.collect <| .ite
    ((refines_readUsize.bind fun _ => refines_parseBatch).unwrapOr [])
    (.refl _)

theorem refines_routerSwap {inp : List UInt8} {toAddr : Address} {cmd : UInt8}
    {recipient : Address} {amountIn amountOutMin : U256} {pathPtr pathLen : Nat} :
    Refines
      (routerSwap .debug inp toAddr cmd recipient amountIn amountOutMin pathPtr pathLen)
      (routerSwap .release inp toAddr cmd recipient amountIn amountOutMin pathPtr pathLen) :=
  .ite ((refines_uadd _ _).bind fun _ => .refl _) <| .ite
    (.ite ((refines_umul _ _).bind fun _ => (refines_uadd _ _).bind fun _ => .ite
        ((refines_readAddress.unwrapOr 0).bind fun _ => (refines_umul _ _).bind fun _ =>
          (refines_uadd _ _).bind fun _ => (refines_readAddress.unwrapOr 0).bind fun _ =>
          .refl _)
        (.refl _))
      (.refl _))
    (.refl _)

theorem refines_routerInput {inp : List UInt8} {toAddr : Address} {cmd : UInt8} :
    Refines (routerInput .debug inp toAddr cmd) (routerInput .release inp toAddr cmd) :=
  .ite (.refl _) <| (refines_readAddress.unwrapOr 0).bind fun _ =>
    (refines_readU256.unwrapOr 0).bind fun _ => (refines_readU256.unwrapOr 0).bind fun _ =>
    (refines_readUsize.unwrapOr 0).bind fun _ => (refines_readUsize.unwrapOr 0).bind fun _ =>
    (refines_uadd _ _).bind fun _ => refines_routerSwap

theorem refines_routerCommand {data : List UInt8} {toAddr : Address}
    {inputsPtr inputsArrayStart : Nat} (item : UInt8 × Nat) :
    Refines (routerCommand .debug data toAddr inputsPtr inputsArrayStart item)
      (routerCommand .release data toAddr inputsPtr inputsArrayStart item) :=
  (refines_umul _ _).bind fun _ => (refines_uadd _ _).bind fun _ =>
    (refines_readUsize.unwrapOr 0).bind fun _ => (refines_uadd _ _).bind fun _ =>
    (refines_uadd _ _).bind fun _ => .ite (.refl _) <|
    (refines_readUsize.unwrapOr 0).bind fun _ => (refines_uadd _ _).bind fun _ =>
    (refines_uadd _ _).bind fun _ => .ite (.refl _) <|
    Refines.bind (.refl _) fun _ => refines_routerInput

theorem refines_decodeUniversalRouter {calldata : List UInt8} {toAddr : Address} :
    Refines (decodeUniversalRouter .debug calldata toAddr)
      (decodeUniversalRouter .release calldata toAddr) :=
  .ite
    (.ite (.refl _) <| (refines_readUsize.unwrapOr 0).bind fun _ =>
      (refines_readUsize.unwrapOr 0).bind fun _ => (refines_uadd _ _).bind fun _ =>
      (refines_uadd _ _).bind fun _ => .ite (.refl _) <|
      Refines.bind (.refl _) fun _ => (refines_readUsize.unwrapOr 0).bind fun _ =>
      (refines_uadd _ _).bind fun _ => refines_collectEach refines_routerCommand _)
    (.refl _)

/-- Where the debug build returns, the release build gives the same swaps. -/
theorem refines_decode (tx : DecodeTx) : Refines (decode .debug tx) (decode .release tx) := by
  unfold decode
  refine .ite (.refl _) ?_
  cases selectors (selectorOf tx.input.data) with
  | none => exact .refl _
  | some method =>
      cases method with
      | v2 => exact refines_decodeV2.collect
      | aerodrome => exact refines_decodeAerodrome.collect
      | v2Eth => exact refines_decodeV2Eth.collect
      | v3Single => exact refines_decodeV3Single
      | universalRouter => exact refines_decodeUniversalRouter
      | uniswapX => exact refines_decodeUniswapx

/-! ## The condition, branch by branch -/

/-- The low eight bytes of the word at `p`. -/
def usizeWord (data : List UInt8) (p : Nat) : Nat := beNat ((data.drop (p + 24)).take 8)

/-- The word at `p`. -/
def fullWord (data : List UInt8) (p : Nat) : Nat := beNat ((data.drop p).take 32)

/-- `usizeWord` where the word lies inside the data, and 0 elsewhere. -/
def usizeOr (data : List UInt8) (p : Nat) : Nat :=
  if p + 32 ≤ data.length then usizeWord data p else 0

/-- V2 tail, after the selector: the path offset. -/
def V2Fits (data : List UInt8) : Prop :=
  160 ≤ data.length → usizeWord data 64 + 32 < M

def V2EthFits (data : List UInt8) : Prop :=
  128 ≤ data.length → usizeWord data 32 + 32 < M

/-- The route list's offset, and the end of its last route. -/
def RoutesFit (input : List UInt8) (routesOffset : Nat) : Prop :=
  routesOffset + 32 < M ∧
    (routesOffset + 64 ≤ input.length → usizeWord input routesOffset ≠ 0 →
      routesOffset + 32 + (usizeWord input routesOffset - 1) * 96 + 64 < M)

def AerodromeFits (data : List UInt8) : Prop :=
  if selectorOf data = 0xcdf2de83 then
    100 ≤ data.length → RoutesFit (data.drop 4) (usizeWord (data.drop 4) 32)
  else 132 ≤ data.length → RoutesFit (data.drop 4) (usizeWord (data.drop 4) 64)

/-- The fee word of `exactInputSingle` is a `u32`. -/
def V3SingleFits (data : List UInt8) : Prop :=
  228 ≤ data.length →
    fullWord data ((if usizeWord data 4 = 32 then 36 else 4) + 64) < 2 ^ 32

/-- One signed order, from the slot at `offset` to its first output. -/
def OrderFits (data : List UInt8) (offset : Nat) : Prop :=
  offset + 32 < M ∧
    (offset + 32 ≤ data.length →
      let orderAbs := offset + usizeWord data offset
      orderAbs + 32 < M ∧
        (orderAbs + 32 ≤ data.length →
          let orderLen := usizeWord data orderAbs
          let payload := (data.drop (orderAbs + 32)).take orderLen
          orderAbs + 32 + orderLen < M ∧
            (320 ≤ payload.length → usizeWord payload 288 + 64 < M)))

/-- The array of `executeBatch`: its offset, and each of the items read. -/
def BatchFits (data : List UInt8) : Prop :=
  let arrayStart := usizeWord data 4 + 4
  arrayStart + 32 < M ∧
    (arrayStart + 32 ≤ data.length →
      ∀ i < min (usizeWord data arrayStart) 5,
        arrayStart + 32 + i * 32 + 32 ≤ data.length →
          OrderFits data (arrayStart + usizeWord data (arrayStart + 32 + i * 32)))

def UniswapXFits (data : List UInt8) : Prop :=
  128 ≤ data.length →
    if selectorOf data = 0x8ae0693a then OrderFits data 4 else BatchFits data

/-- One router input: its path's offset and, for the two swap commands, the
path's end. -/
def InputFits (inp : List UInt8) (cmd : UInt8) : Prop :=
  160 ≤ inp.length →
    let pathOff := usizeWord inp 96
    let pathLen := usizeOr inp pathOff
    pathOff + 32 < M ∧ (cmd = 0x00 → pathOff + 32 + pathLen < M) ∧
      (cmd = 0x08 → 2 ≤ pathLen → pathOff + 32 + pathLen * 32 < M)

/-- One router command: its slot, its input's start and its input's end. -/
def CommandFits (data : List UInt8) (inputsPtr : Nat) (cmd : UInt8) (idx : Nat) : Prop :=
  let slot := inputsPtr + 32 + idx * 32
  let start := inputsPtr + usizeOr data slot
  slot + 32 < M ∧ start + 32 < M ∧
    (start + 32 ≤ data.length →
      let len := usizeWord data start
      start + 32 + len < M ∧
        (start + 32 + len ≤ data.length →
          InputFits ((data.drop (start + 32)).take len) cmd))

/-- The router's command string and inputs table, after the selector. -/
def RouterFits (data : List UInt8) : Prop :=
  96 ≤ data.length →
    let cmdsPtr := usizeWord data 0
    let cmdsLen := usizeOr data cmdsPtr
    let inputsPtr := usizeWord data 32
    cmdsPtr + 32 < M ∧ cmdsPtr + 32 + cmdsLen < M ∧
      (cmdsPtr + 32 + cmdsLen ≤ data.length →
        inputsPtr + 32 < M ∧
          ∀ item ∈ ((data.drop (cmdsPtr + 32)).take cmdsLen).zipIdx,
            CommandFits data inputsPtr item.1 item.2)

/-- The whole condition, by selector. -/
def DecodeFits (data : List UInt8) : Prop :=
  4 ≤ data.length →
    match selectors (selectorOf data) with
    | some .v2 => V2Fits (data.drop 4)
    | some .aerodrome => AerodromeFits data
    | some .v2Eth => V2EthFits (data.drop 4)
    | some .v3Single => V3SingleFits data
    | some .universalRouter => RouterFits (data.drop 4)
    | some .uniswapX => UniswapXFits data
    | .none => True

/-! ## The readers in a debug build -/

section Readers

variable {α β : Type} (data : List UInt8) (offset : Nat)

/-- What the three readers share in a debug build: the word's end is formed
first, then compared with the length. -/
def readWith (a : α) : Outcome α :=
  if offset + 32 < M then
    if offset + 32 ≤ data.length then .value a else .none
  else .panic

theorem readUsize_debug :
    readUsize .debug data offset = readWith data offset (usizeWord data offset) := by
  unfold readWith
  by_cases hM : offset + 32 < M
  · have h24 : offset + 24 < M := by omega
    by_cases hlen : offset + 32 ≤ data.length
    · have hlt : data.length - (offset + 24) ≥ 8 := by omega
      simp [readUsize, uadd, word, hM, h24, hlen, getRange, usizeWord, hlt]
    · simp [readUsize, uadd, word, hM, h24, hlen, getRange]
  · by_cases h24 : offset + 24 < M
    · simp [readUsize, uadd, word, hM, h24]
    · simp [readUsize, uadd, word, hM, h24]

theorem readU256_debug :
    readU256 .debug data offset =
      readWith data offset (BitVec.ofNat 256 (fullWord data offset)) := by
  unfold readWith
  by_cases hM : offset + 32 < M
  · by_cases hlen : offset + 32 ≤ data.length
    · have hgt : ¬ offset + 32 > data.length := by omega
      simp [readU256, uadd, word, hM, hlen, hgt, slice, fullWord]
    · have hgt : offset + 32 > data.length := by omega
      simp [readU256, uadd, word, hM, hlen, hgt]
  · simp [readU256, uadd, word, hM]

/-- The address in the low 20 bytes of the word at `offset`. -/
def addressWordAt : Address := BitVec.ofNat 160 (beNat ((data.drop (offset + 12)).take 20))

theorem readAddress_debug :
    readAddress .debug data offset =
      readWith data offset (addressWordAt data offset) := by
  unfold readWith
  by_cases hM : offset + 32 < M
  · have h12 : offset + 12 < M := by omega
    by_cases hlen : offset + 32 ≤ data.length
    · have hgt : ¬ offset + 32 > data.length := by omega
      simp [readAddress, uadd, word, hM, h12, hlen, hgt, slice, addressWordAt]
    · have hgt : offset + 32 > data.length := by omega
      simp [readAddress, uadd, word, hM, h12, hlen, hgt]
  · by_cases h12 : offset + 12 < M
    · simp [readAddress, uadd, word, hM, h12]
    · simp [readAddress, uadd, word, hM, h12]

variable (a d : α)

theorem readWith_of_le {data : List UInt8} (hlen : data.length < 2 ^ 63) {offset : Nat}
    (h : offset + 32 ≤ data.length) (a : α) : readWith data offset a = .value a := by
  have hM : offset + 32 < M := by
    unfold M
    omega
  rw [readWith, if_pos hM, if_pos h]

theorem readWith_bind_returns (f : α → Outcome β) :
    (readWith data offset a >>= f).Returns ↔
      offset + 32 < M ∧ (offset + 32 ≤ data.length → (f a).Returns) := by
  unfold readWith
  by_cases hM : offset + 32 < M
  · by_cases hlen : offset + 32 ≤ data.length
    · simp [hM, hlen]
    · simp [hM, hlen]
  · simp [hM]

theorem readWith_unwrapOr :
    (readWith data offset a).unwrapOr d =
      if offset + 32 < M then .value (if offset + 32 ≤ data.length then a else d)
      else .panic := by
  unfold readWith
  by_cases hM : offset + 32 < M
  · by_cases hlen : offset + 32 ≤ data.length
    · simp [hM, hlen, Outcome.unwrapOr]
    · simp [hM, hlen, Outcome.unwrapOr]
  · simp [hM, Outcome.unwrapOr]

theorem readWith_unwrapOr_bind_returns (f : α → Outcome β) :
    ((readWith data offset a).unwrapOr d >>= f).Returns ↔
      offset + 32 < M ∧ (f (if offset + 32 ≤ data.length then a else d)).Returns := by
  rw [readWith_unwrapOr]
  by_cases hM : offset + 32 < M
  · simp [hM]
  · simp [hM]

theorem readWith_unwrapOr_bind_yields (f : α → Outcome β) :
    ((readWith data offset a).unwrapOr d >>= f).Yields ↔
      offset + 32 < M ∧ (f (if offset + 32 ≤ data.length then a else d)).Yields := by
  rw [readWith_unwrapOr]
  by_cases hM : offset + 32 < M
  · simp [hM]
  · simp [hM]

theorem readUsize_or_bind_returns (f : Nat → Outcome β) :
    ((readUsize .debug data offset).unwrapOr 0 >>= f).Returns ↔
      offset + 32 < M ∧ (f (usizeOr data offset)).Returns := by
  rw [readUsize_debug]
  exact readWith_unwrapOr_bind_returns data offset (usizeWord data offset) 0 f

theorem readUsize_or_bind_yields (f : Nat → Outcome β) :
    ((readUsize .debug data offset).unwrapOr 0 >>= f).Yields ↔
      offset + 32 < M ∧ (f (usizeOr data offset)).Yields := by
  rw [readUsize_debug]
  exact readWith_unwrapOr_bind_yields data offset (usizeWord data offset) 0 f

theorem usizeOr_of_le {data : List UInt8} {offset : Nat} (h : offset + 32 ≤ data.length) :
    usizeOr data offset = usizeWord data offset := if_pos h

end Readers

theorem toNat_fullWord (data : List UInt8) (p : Nat) :
    (BitVec.ofNat 256 (fullWord data p)).toNat = fullWord data p := by
  have hlen : ((data.drop p).take 32).length ≤ 32 := List.length_take_le 32 (data.drop p)
  have hlt : fullWord data p < 2 ^ 256 := by
    calc fullWord data p < 256 ^ ((data.drop p).take 32).length := readBE_lt _ 0 _
      _ ≤ 256 ^ 32 := Nat.pow_le_pow_right (by decide) hlen
      _ = 2 ^ 256 := by norm_num
  rw [BitVec.toNat_ofNat]
  exact Nat.mod_eq_of_lt hlt

theorem toU32_bind_yields {β : Type} (x : U256) (f : Nat → Outcome β) :
    (toU32 x >>= f).Yields ↔ x.toNat < 2 ^ 32 ∧ (f x.toNat).Yields := by
  unfold toU32
  by_cases hx : x.toNat < 2 ^ 32
  · simp only [hx, if_true, value_bind, true_and]
  · simp only [hx, if_false, panic_bind, not_yields_panic, false_and]

/-! ## The branches in a debug build -/

theorem aerodrome_selector {n : Nat} (h : selectors n = some .aerodrome) :
    n = 0xa1251d75 ∨ n = 0xcdf2de83 ∨ n = 0x15263a6a := by
  unfold selectors at h
  split at h <;> simp_all

theorem uniswapX_selector {n : Nat} (h : selectors n = some .uniswapX) :
    n = 0x8ae0693a ∨ n = 0x5b0d135a := by
  unfold selectors at h
  split at h <;> simp_all

section Branches

variable {data : List UInt8} (toAddr : Address)

theorem decodeV2_returns (hlen : data.length < 2 ^ 63) :
    (decodeV2 .debug data toAddr).Returns ↔ V2Fits data := by
  simp only [decodeV2, V2Fits, readUsize_debug, readU256_debug, readAddress_debug,
    readWith_bind_returns, returns_uadd_bind, returns_umul_bind, returns_ite, returns_value,
    returns_none, implies_true, and_true, true_and, M]
  omega

theorem decodeV2Eth_returns (hlen : data.length < 2 ^ 63) (value : U256) :
    (decodeV2Eth .debug data toAddr value).Returns ↔ V2EthFits data := by
  simp only [decodeV2Eth, V2EthFits, readUsize_debug, readU256_debug, readAddress_debug,
    readWith_bind_returns, returns_uadd_bind, returns_umul_bind, returns_ite, returns_value,
    returns_none, implies_true, and_true, true_and, M]
  omega

theorem decodeAerodromeRoutes_returns (hlen : data.length < 2 ^ 63)
    (amountIn amountOutMin : U256) (routesOffset : Nat) (recipient : Address) :
    (decodeAerodromeRoutes .debug data toAddr amountIn amountOutMin routesOffset
      recipient).Returns ↔ RoutesFit data routesOffset := by
  simp only [decodeAerodromeRoutes, RoutesFit, readUsize_debug, readAddress_debug,
    readWith_bind_returns, returns_uadd_bind, returns_umul_bind, returns_ite, returns_value,
    returns_none, implies_true, and_true, true_and, M]
  omega

theorem decodeAerodrome_returns (hlen : data.length < 2 ^ 63)
    (hsel : selectors (selectorOf data) = some .aerodrome) (h4 : 4 ≤ data.length)
    (value : U256) :
    (decodeAerodrome .debug data toAddr value).Returns ↔ AerodromeFits data := by
  have hcases := aerodrome_selector hsel
  have hdrop : (data.drop 4).length = data.length - 4 := List.length_drop
  have hlen' : (data.drop 4).length < 2 ^ 63 := by omega
  have hshort : ¬ data.length < 4 := by omega
  unfold decodeAerodrome AerodromeFits
  rw [if_neg hshort]
  by_cases hEth : selectorOf data = 0xcdf2de83
  · rw [if_pos hEth, if_pos hEth, returns_ite, hdrop]
    by_cases hfull : 100 ≤ data.length
    · have hge : ¬ data.length - 4 < 96 := by omega
      simp (disch := omega) only [readUsize_debug, readU256_debug, readAddress_debug,
        readWith_of_le hlen', value_bind, decodeAerodromeRoutes_returns toAddr hlen',
        returns_none, implies_true, true_and, hge, hfull, not_false_eq_true, forall_const]
    · simp only [hfull, show data.length - 4 < 96 by omega, returns_none, not_true_eq_false,
        false_implies, and_self, implies_true]
  · have hTokens : selectorOf data = 0x15263a6a ∨ selectorOf data = 0xa1251d75 := by omega
    rw [if_neg hEth, if_neg hEth, if_pos hTokens, returns_ite, hdrop]
    by_cases hfull : 132 ≤ data.length
    · have hge : ¬ data.length - 4 < 128 := by omega
      simp (disch := omega) only [readUsize_debug, readU256_debug, readAddress_debug,
        readWith_of_le hlen', value_bind, decodeAerodromeRoutes_returns toAddr hlen',
        returns_none, implies_true, true_and, hge, hfull, not_false_eq_true, forall_const]
    · simp only [hfull, show data.length - 4 < 128 by omega, returns_none, not_true_eq_false,
        false_implies, and_self, implies_true]

/-- The offsets of `exactInputSingle` are constants, so only the fee word can fail. -/
theorem decodeV3Single_yields (data : List UInt8) :
    (decodeV3Single .debug data toAddr).Yields ↔ V3SingleFits data := by
  unfold decodeV3Single V3SingleFits
  by_cases hshort : data.length < 228
  · have hnot : ¬ 228 ≤ data.length := by omega
    simp only [hshort, hnot, if_true, yields_value, false_implies]
  · have hfull : 228 ≤ data.length := by omega
    have hFirst : 4 + 32 ≤ data.length := by omega
    rw [if_neg hshort]
    simp only [readUsize_debug, readU256_debug, readAddress_debug, hFirst, hfull, if_true,
      readWith_unwrapOr_bind_yields, yields_uadd_bind, toU32_bind_yields, yields_value,
      forall_const, and_true, M]
    by_cases hProxy : usizeWord data 4 = 32
    · have hFee : 36 + 64 + 32 ≤ data.length := by omega
      simp only [hProxy, hFee, if_true, toNat_fullWord]
      omega
    · have hFee : 4 + 64 + 32 ≤ data.length := by omega
      simp only [hProxy, hFee, if_true, if_false, toNat_fullWord]
      omega

/-- A payload fails only through the offset of its outputs. -/
theorem parseOrderPayload_returns (hlen : data.length < 2 ^ 63) (reactor : Address) :
    (parseOrderPayload .debug data reactor).Returns ↔
      (320 ≤ data.length → usizeWord data 288 + 64 < M) := by
  simp only [parseOrderPayload, readUsize_debug, readU256_debug, readAddress_debug,
    readWith_bind_returns, returns_uadd_bind, returns_ite, returns_value, returns_none,
    implies_true, and_true, true_and, M]
  omega

/-- A readable order's payload starts inside the data, so its slice is never
inverted: only the sum of its end can fail. -/
theorem orderPayload_bind_returns {β : Type} {orderAbs : Nat} (orderLen : Nat)
    (hlen : data.length < 2 ^ 63) (hin : orderAbs + 32 ≤ data.length)
    (f : List UInt8 → Outcome β) :
    (orderPayload .debug data orderAbs orderLen >>= f).Returns ↔
      orderAbs + 32 + orderLen < M ∧
        (f ((data.drop (orderAbs + 32)).take orderLen)).Returns := by
  have hM : orderAbs + 32 < M := by
    unfold M
    omega
  by_cases hEnd : orderAbs + 32 + orderLen < M
  · have hlo : orderAbs + 32 ≤ min (orderAbs + 32 + orderLen) data.length := by omega
    have hTake : (data.drop (orderAbs + 32)).take
          (min (orderAbs + 32 + orderLen) data.length - (orderAbs + 32)) =
        (data.drop (orderAbs + 32)).take orderLen := by
      rw [List.take_eq_take_iff, List.length_drop]
      omega
    simp only [orderPayload, uadd, word, hM, hEnd, if_true, value_bind, true_and,
      slice_of_le hlo (Nat.min_le_right _ _), hTake]
  · simp only [orderPayload, uadd, word, hM, hEnd, if_true, if_false, value_bind,
      panic_bind, not_returns_panic, false_and]

theorem parseUniswapxOrder_returns (hlen : data.length < 2 ^ 63) (reactor : Address)
    (offset : Nat) :
    (parseUniswapxOrder .debug data offset reactor).Returns ↔ OrderFits data offset := by
  have hPayload : ∀ lo n, ((data.drop lo).take n).length < 2 ^ 63 := by
    intro lo n
    rw [List.length_take, List.length_drop]
    omega
  simp only [parseUniswapxOrder, OrderFits, readUsize_debug, readWith_bind_returns,
    returns_uadd_bind]
  refine and_congr_right fun _ => imp_congr_right fun _ => ?_
  constructor
  · rintro ⟨-, hAbs, hRest⟩
    refine ⟨hAbs, fun hin => ?_⟩
    obtain ⟨hEnd, hOut⟩ := (orderPayload_bind_returns _ hlen hin _).mp (hRest hin)
    exact ⟨hEnd, (parseOrderPayload_returns (hPayload _ _) reactor).mp hOut⟩
  · rintro ⟨hAbs, hRest⟩
    refine ⟨by omega, hAbs, fun hin => ?_⟩
    obtain ⟨hEnd, hOut⟩ := hRest hin
    exact (orderPayload_bind_returns _ hlen hin _).mpr
      ⟨hEnd, (parseOrderPayload_returns (hPayload _ _) reactor).mpr hOut⟩

theorem parseBatchItem_returns (hlen : data.length < 2 ^ 63) (reactor : Address)
    {arrayStart i : Nat} (hin : arrayStart + 32 ≤ data.length) (hi : i < 5) :
    (parseBatchItem .debug data arrayStart reactor i).Returns ↔
      (arrayStart + 32 + i * 32 + 32 ≤ data.length →
        OrderFits data (arrayStart + usizeWord data (arrayStart + 32 + i * 32))) := by
  have hFits : ∀ p, OrderFits data p → p + 32 < M := fun p h => h.1
  simp only [parseBatchItem, readUsize_debug, readWith_bind_returns, returns_uadd_bind,
    returns_umul_bind, parseUniswapxOrder_returns hlen]
  constructor
  · rintro ⟨-, -, -, -, hRead⟩ hItem
    exact (hRead hItem).2
  · intro hRead
    unfold M at *
    refine ⟨by omega, by omega, by omega, by omega, fun hItem => ?_⟩
    have hOrder := hRead hItem
    have := hFits _ hOrder
    exact ⟨by omega, hOrder⟩

theorem parseBatch_returns (hlen : data.length < 2 ^ 63) (reactor : Address) :
    (parseBatch .debug data (usizeWord data 4) reactor).Returns ↔ BatchFits data := by
  simp only [parseBatch, BatchFits, readUsize_debug, readWith_bind_returns,
    returns_uadd_bind, returns_collectEach, List.mem_range]
  have hItems : ∀ (arrayStart n : Nat), arrayStart + 32 ≤ data.length →
      ((∀ i < min n 5, (parseBatchItem .debug data arrayStart reactor i).Returns) ↔
        ∀ i < min n 5, arrayStart + 32 + i * 32 + 32 ≤ data.length →
          OrderFits data (arrayStart + usizeWord data (arrayStart + 32 + i * 32))) := by
    intro arrayStart n hin
    refine forall_congr' fun i => imp_congr_right fun hi => ?_
    exact parseBatchItem_returns hlen reactor hin (by omega)
  constructor
  · rintro ⟨-, hStart, hRest⟩
    exact ⟨hStart, fun hin => (hItems _ _ hin).mp (hRest hin)⟩
  · rintro ⟨hStart, hRest⟩
    exact ⟨by omega, hStart, fun hin => (hItems _ _ hin).mpr (hRest hin)⟩

theorem decodeUniswapx_yields (hlen : data.length < 2 ^ 63)
    (hsel : selectors (selectorOf data) = some .uniswapX) (reactor : Address) :
    (decodeUniswapx .debug data reactor).Yields ↔ UniswapXFits data := by
  have hcases := uniswapX_selector hsel
  unfold decodeUniswapx UniswapXFits
  by_cases hshort : data.length < 128
  · have hnot : ¬ 128 ≤ data.length := by omega
    simp only [hshort, hnot, if_true, yields_value, false_implies]
  · have hfull : 128 ≤ data.length := by omega
    rw [if_neg hshort]
    by_cases hOne : selectorOf data = 0x8ae0693a
    · rw [if_pos hOne, yields_collect, parseUniswapxOrder_returns hlen]
      simp only [hfull, hOne, if_true, forall_const]
    · have hBatch : selectorOf data = 0x5b0d135a := by omega
      rw [if_neg hOne, if_pos hBatch, yields_unwrapOr, readUsize_debug,
        readWith_of_le hlen (by omega), value_bind]
      simp only [hfull, hOne, if_false, forall_const]
      exact parseBatch_returns hlen reactor

/-- A path of at least 43 bytes that lies in the input slices without failing. -/
theorem routerSwap_returns {inp : List UInt8} (hlen : inp.length < 2 ^ 63) (cmd : UInt8)
    (recipient : Address) (amountIn amountOutMin : U256) (pathPtr pathLen : Nat) :
    (routerSwap .debug inp toAddr cmd recipient amountIn amountOutMin pathPtr
      pathLen).Returns ↔
      (cmd = 0x00 → pathPtr + pathLen < M) ∧
        (cmd = 0x08 → 2 ≤ pathLen → pathPtr + pathLen * 32 < M) := by
  have h08 : ¬ (0x00 : UInt8) = 0x08 := by decide
  have h80 : ¬ (0x08 : UInt8) = 0x00 := by decide
  unfold routerSwap
  by_cases h0 : cmd = 0x00
  · subst h0
    rw [if_pos rfl, returns_uadd_bind]
    constructor
    · rintro ⟨hEnd, -⟩
      exact ⟨fun _ => hEnd, fun h => absurd h h08⟩
    · rintro ⟨hEnd, -⟩
      refine ⟨hEnd rfl, ?_⟩
      rw [returns_ite]
      refine ⟨fun hfit => ?_, fun _ => returns_none⟩
      have hpb : ((inp.drop pathPtr).take (pathPtr + pathLen - pathPtr)).length =
          pathLen := by
        rw [List.length_take, List.length_drop]
        omega
      rw [slice_of_le (by omega) hfit.1, value_bind, slice_of_le (by omega) (by omega),
        value_bind, slice_of_le (by omega) (by omega), value_bind,
        slice_of_le (by omega) (by omega), value_bind]
      exact returns_value _
  · rw [if_neg h0]
    by_cases h8 : cmd = 0x08
    · subst h8
      simp only [h80, if_true, returns_ite, returns_uadd_bind, returns_umul_bind,
        readAddress_debug, readWith_unwrapOr_bind_returns, returns_value, returns_none,
        implies_true, and_true, true_and, forall_const, false_implies, M]
      omega
    · simp only [h0, h8, if_false, returns_none, false_implies, and_self]

theorem routerInput_returns {inp : List UInt8} (hlen : inp.length < 2 ^ 63) (cmd : UInt8) :
    (routerInput .debug inp toAddr cmd).Returns ↔ InputFits inp cmd := by
  unfold routerInput InputFits
  by_cases hshort : inp.length < 160
  · have hnot : ¬ 160 ≤ inp.length := by omega
    simp only [hshort, hnot, if_true, returns_none, false_implies]
  · have hfull : 160 ≤ inp.length := by omega
    have hOff : 96 + 32 ≤ inp.length := by omega
    rw [if_neg hshort]
    simp only [readU256_debug, readAddress_debug, readWith_unwrapOr_bind_returns,
      readUsize_or_bind_returns, usizeOr_of_le hOff, returns_uadd_bind,
      routerSwap_returns toAddr hlen, hfull, forall_const]
    unfold M
    constructor
    · rintro ⟨-, -, -, -, hPath, -, hEnds⟩
      exact ⟨hPath, hEnds⟩
    · rintro ⟨hPath, hEnds⟩
      exact ⟨by omega, by omega, by omega, by omega, hPath, hPath, hEnds⟩

theorem routerCommand_returns (hlen : data.length < 2 ^ 63) (inputsPtr : Nat)
    (item : UInt8 × Nat) :
    (routerCommand .debug data toAddr inputsPtr (inputsPtr + 32) item).Returns ↔
      CommandFits data inputsPtr item.1 item.2 := by
  have hInput : ∀ lo n, ((data.drop lo).take n).length < 2 ^ 63 := by
    intro lo n
    rw [List.length_take, List.length_drop]
    omega
  simp only [routerCommand, CommandFits, readUsize_or_bind_returns, returns_uadd_bind,
    returns_umul_bind, returns_ite, returns_none, implies_true, true_and, Nat.not_lt,
    gt_iff_lt]
  constructor
  · rintro ⟨-, -, hSlot, -, hStart, hBody⟩
    refine ⟨hSlot, hStart, fun hin => ?_⟩
    obtain ⟨-, -, hEnd, hSlice⟩ := hBody hin
    rw [usizeOr_of_le hin] at hEnd hSlice
    refine ⟨hEnd, fun hfit => ?_⟩
    have hInp := hSlice hfit
    rw [slice_of_le (by omega) hfit, value_bind, Nat.add_sub_cancel_left] at hInp
    exact (routerInput_returns toAddr (hInput _ _) item.1).mp hInp
  · rintro ⟨hSlot, hStart, hBody⟩
    refine ⟨by omega, by omega, hSlot, by omega, hStart, fun hin => ?_⟩
    obtain ⟨hEnd, hSlice⟩ := hBody hin
    rw [usizeOr_of_le hin]
    refine ⟨hStart, hStart, hEnd, fun hfit => ?_⟩
    rw [slice_of_le (by omega) hfit, value_bind, Nat.add_sub_cancel_left]
    exact (routerInput_returns toAddr (hInput _ _) item.1).mpr (hSlice hfit)

theorem decodeUniversalRouter_yields {calldata : List UInt8} (h4 : 4 ≤ calldata.length)
    (hlen : calldata.length < 2 ^ 63) :
    (decodeUniversalRouter .debug calldata toAddr).Yields ↔ RouterFits (calldata.drop 4) := by
  have hdrop : (calldata.drop 4).length < 2 ^ 63 := by
    rw [List.length_drop]
    omega
  unfold decodeUniversalRouter RouterFits
  rw [if_pos h4]
  generalize calldata.drop 4 = data at hdrop
  by_cases hshort : data.length < 96
  · have hnot : ¬ 96 ≤ data.length := by omega
    simp only [hshort, hnot, if_true, yields_value, false_implies]
  · have hfull : 96 ≤ data.length := by omega
    have hCmds : 0 + 32 ≤ data.length := by omega
    have hInputs : 32 + 32 ≤ data.length := by omega
    rw [if_neg hshort]
    simp only [readUsize_or_bind_yields, usizeOr_of_le hCmds, yields_uadd_bind,
      yields_ite, yields_value, hfull, forall_const, implies_true, true_and, Nat.not_lt,
      gt_iff_lt]
    constructor
    · rintro ⟨-, hPtr, -, hEnd, hBody⟩
      refine ⟨hPtr, hEnd, fun hfit => ?_⟩
      have hLoop := hBody hfit
      rw [slice_of_le (by omega) hfit, value_bind, Nat.add_sub_cancel_left,
        readUsize_or_bind_yields, usizeOr_of_le hInputs, yields_uadd_bind,
        yields_collectEach] at hLoop
      exact ⟨hLoop.2.1, fun item hItem =>
        (routerCommand_returns toAddr hdrop _ item).mp (hLoop.2.2 item hItem)⟩
    · rintro ⟨hPtr, hEnd, hBody⟩
      refine ⟨by decide, hPtr, hPtr, hEnd, fun hfit => ?_⟩
      obtain ⟨hTable, hLoop⟩ := hBody hfit
      rw [slice_of_le (by omega) hfit, value_bind, Nat.add_sub_cancel_left,
        readUsize_or_bind_yields, usizeOr_of_le hInputs, yields_uadd_bind,
        yields_collectEach]
      exact ⟨by decide, hTable, fun item hItem =>
        (routerCommand_returns toAddr hdrop _ item).mpr (hLoop item hItem)⟩

end Branches

/-! ## The whole decoder -/

theorem decode_debug_yields (tx : DecodeTx) :
    (decode .debug tx).Yields ↔ DecodeFits tx.input.data := by
  have hlen := tx.input.length_lt
  have hdrop : (tx.input.data.drop 4).length < 2 ^ 63 := by
    rw [List.length_drop]
    omega
  unfold decode DecodeFits
  by_cases hshort : tx.input.data.length < 4
  · have hnot : ¬ 4 ≤ tx.input.data.length := by omega
    simp only [hshort, hnot, if_true, yields_value, false_implies]
  · have h4 : 4 ≤ tx.input.data.length := by omega
    rw [if_neg hshort]
    simp only [h4, forall_const]
    cases hsel : selectors (selectorOf tx.input.data) with
    | none => exact iff_of_true (yields_value _) trivial
    | some method =>
        cases method with
        | v2 => exact (yields_collect _).trans (decodeV2_returns _ hdrop)
        | aerodrome =>
            exact (yields_collect _).trans (decodeAerodrome_returns _ hlen hsel h4 _)
        | v2Eth => exact (yields_collect _).trans (decodeV2Eth_returns _ hdrop _)
        | v3Single => exact decodeV3Single_yields _ _
        | universalRouter => exact decodeUniversalRouter_yields _ h4 hlen
        | uniswapX => exact decodeUniswapx_yields hlen hsel _

/-- **When decoding is total.**  `decode` gives a vector in both builds exactly
when the sums of the branch that the selector picks stay below the word size
and, in the V3 branch, the fee word is a `u32`. -/
theorem decode_total_iff (tx : DecodeTx) :
    (∀ build, (decode build tx).Yields) ↔ DecodeFits tx.input.data := by
  rw [← decode_debug_yields]
  constructor
  · intro hAll
    exact hAll .debug
  · intro hDebug build
    cases build with
    | debug => exact hDebug
    | release =>
        rw [refines_decode tx hDebug.returns]
        exact hDebug

/-- A call of `exactInputSingle` whose argument words are all ones. -/
def wideFeeCall : DecodeTx where
  toAddr := some 0x2626664c2603336E57B271c5C0b26F421741e481
  value := 0
  input :=
    { data := [0x41, 0x4b, 0xf3, 0x89] ++ List.replicate 224 0xff
      length_lt := by
        rw [List.length_append, List.length_replicate]
        norm_num }

/-- The wide fee word panics in both builds, and release aborts on a panic. -/
theorem not_decode_total : ¬ ∀ tx build, (decode build tx).Yields := by
  intro hAll
  have hPanic : decode .release wideFeeCall = .panic := by decide +kernel
  have hYields := hAll wideFeeCall .release
  rw [hPanic] at hYields
  exact not_yields_panic hYields

end SovereignShadow.Ports.DecoderTotality
