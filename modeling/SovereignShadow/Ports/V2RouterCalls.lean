import SovereignShadow.Ports.RouterCalldata

/-!
# V2 router calls

A call of one of the six swap methods of a V2 router and what the decoder makes of it.  Three
methods are decoded as they are encoded.  The two methods that name their output first are
read as if they named their input first, so the two amounts change places.  The selector of
the sixth is misspelled in the table of the decoder, which gives nothing for it.

## Main results

* `decodeV2_held`, `decodeV2Eth_held` — what the decoders read from the words of a call.
* `v2Call_decodes_iff` — when the decoder gives the one record of a call.
* `not_v2Call_decodes` — an exact-output call whose amounts are swapped.
-/

namespace SovereignShadow.Ports.V2RouterCalls

open SovereignShadow.Verified.Bytes
open SovereignShadow.Verified.Abi
open SovereignShadow.Verified.Checked
open SovereignShadow.Verified.Checked.Outcome
open SovereignShadow.Ports.Models
open SovereignShadow.Ports.UniversalDecoder
open SovereignShadow.Ports.DecoderTotality
open SovereignShadow.Ports.RouterCalldata

/-! ## Calls -/

inductive V2Method where
  | swapExactTokensForTokens | swapTokensForExactTokens | swapExactEthForTokens
  | swapTokensForExactEth | swapExactTokensForEth | swapEthForExactTokens
  deriving DecidableEq, Repr

/-- `SELECTOR_UNISWAP_V2_*`. -/
def V2Method.selector : V2Method → Nat
  | .swapExactTokensForTokens => 0x38ed1739
  | .swapTokensForExactTokens => 0x8803dbee
  | .swapExactEthForTokens => 0x7ff36ab5
  | .swapTokensForExactEth => 0x4a25d94a
  | .swapExactTokensForEth => 0x18cbafe5
  | .swapEthForExactTokens => 0xfb3bdb41

/-- The input is the value of the transaction. -/
def V2Method.Payable : V2Method → Prop
  | .swapExactEthForTokens | .swapEthForExactTokens => True
  | _ => False

/-- Two to ten tokens. -/
structure V2Path where
  first : Address
  second : Address
  rest : List Address
  short : rest.length ≤ 8

namespace V2Path

def words (path : V2Path) : List Nat :=
  (path.first :: path.second :: path.rest).map BitVec.toNat

def last (path : V2Path) : Address := path.rest.getLastD path.second

theorem words_length (path : V2Path) : path.words.length = path.rest.length + 2 := by
  simp [words]

end V2Path

/-- A swap: the amount or greatest amount paid in, the amount or least amount received. -/
structure V2Call where
  method : V2Method
  paid : U256
  received : U256
  path : V2Path
  recipient : Address
  deadline : U256

namespace V2Call

variable (call : V2Call)

/-- The arguments, in the order of the method. -/
def values : List Value :=
  match call.method with
  | .swapExactTokensForTokens | .swapExactTokensForEth =>
      [.word call.paid.toNat, .word call.received.toNat, .words call.path.words,
        .word call.recipient.toNat, .word call.deadline.toNat]
  | .swapTokensForExactTokens | .swapTokensForExactEth =>
      [.word call.received.toNat, .word call.paid.toNat, .words call.path.words,
        .word call.recipient.toNat, .word call.deadline.toNat]
  | .swapExactEthForTokens | .swapEthForExactTokens =>
      [.word call.received.toNat, .words call.path.words, .word call.recipient.toNat,
        .word call.deadline.toNat]

/-- The selector and the standard encoding of the arguments. -/
def calldata : List UInt8 := encodeBE 4 call.method.selector ++ encodeTuple call.values

/-- A transaction that makes the call, at any address; a payable method is paid in its value. -/
def CarriedBy (tx : DecodeTx) : Prop :=
  tx.input.data = call.calldata ∧ (call.method.Payable → tx.value = call.paid)

/-- The record of the call. -/
def Reported (info : SwapInfo) : Prop :=
  info.tokenIn = call.path.first ∧ info.tokenOut = call.path.last ∧
    info.toAddr = call.recipient ∧ info.amountIn = call.paid ∧
    info.amountOutMin = call.received

/-- In either build the decoder gives the record and nothing else. -/
def Decoded (tx : DecodeTx) : Prop :=
  ∀ build, ∃ info, decode build tx = .value [info] ∧ call.Reported info

/-- The decoder reads the amounts where the method has them. -/
def InOrder : Prop :=
  match call.method with
  | .swapExactTokensForTokens | .swapExactTokensForEth | .swapEthForExactTokens => True
  | .swapTokensForExactTokens | .swapTokensForExactEth => call.paid = call.received
  | .swapExactEthForTokens => False

end V2Call

/-! ## The two decoders -/

theorem V2Path.words_head (path : V2Path) : path.words[0]? = some path.first.toNat := rfl

/-- The last token of a path lies at its end. -/
theorem V2Path.words_last (path : V2Path) :
    path.words[path.rest.length + 1]? = some path.last.toNat := by
  have hRest : (path.second :: path.rest)[path.rest.length]? = some path.last := by
    have hGet := @List.getLast?_eq_getElem? _ (path.second :: path.rest)
    rw [List.getLast?_cons, ← List.getLastD_eq_getLast?] at hGet
    exact hGet.symm
  rw [V2Path.words, List.getElem?_map, List.getElem?_cons_succ, hRest]
  rfl

section Decoders

variable {data : List UInt8} {path : V2Path}

/-- The length, the first and the last token of a path that is held. -/
theorem path_held {p : Nat} (h : (Value.words path.words).tail <+: data.drop p) :
    wordBytes (path.rest.length + 2) <+: data.drop p ∧
      wordBytes path.first.toNat <+: data.drop (p + 32) ∧
      wordBytes path.last.toNat <+: data.drop (p + 32 + (path.rest.length + 1) * 32) := by
  have hSplit := prefix_drop_append h
  rw [path.words_length, wordBytes_length] at hSplit
  have hFirst := words_at hSplit.2 path.words_head
  have hLast := words_at hSplit.2 path.words_last
  rw [Nat.mul_comm] at hLast
  exact ⟨hSplit.1, hFirst, hLast⟩

variable {recipient toAddr : Address} {amountOutMin : U256} (hLength : data.length < 2 ^ 63)
include hLength

/-- `decode_v2` on the words of a call. -/
theorem decodeV2_held {amountIn : U256} (hIn : wordBytes amountIn.toNat <+: data.drop 0)
    (hOut : wordBytes amountOutMin.toNat <+: data.drop 32)
    (hOffset : wordBytes 160 <+: data.drop 64)
    (hTo : wordBytes recipient.toNat <+: data.drop 96)
    (hPath : (Value.words path.words).tail <+: data.drop 160) :
    decodeV2 .debug data toAddr = .value
      { dex := .uniswapV2, router := toAddr, tokenIn := path.first, tokenOut := path.last,
        amountIn := amountIn, amountOutMin := amountOutMin, toAddr := recipient,
        fee := .none } := by
  have hShort := path.short
  have hHeld := path_held hPath
  have hEnd := word_inside hHeld.2.2
  have hM : data.length < M := hLength.trans (by norm_num)
  have hLast : path.rest.length + 2 - 1 = path.rest.length + 1 := rfl
  unfold decodeV2
  rw [if_neg (by omega), readU256_held hLength hIn, value_bind, readU256_held hLength hOut,
    value_bind, readUsize_held hLength hOffset (by norm_num), value_bind,
    readUsize_held hLength hHeld.1 (by omega), value_bind, if_neg (by omega),
    uadd_of_lt .debug (by norm_num [M]), value_bind, umul_of_lt .debug (by unfold M; omega),
    value_bind, uadd_of_lt .debug (by unfold M; omega), value_bind, if_neg (by omega),
    readAddress_held hLength hHeld.2.1, value_bind, hLast,
    umul_of_lt .debug (by unfold M; omega), value_bind, uadd_of_lt .debug (by unfold M; omega),
    value_bind, readAddress_held hLength hHeld.2.2, value_bind, readAddress_held hLength hTo,
    value_bind, ofNat_toNat, ofNat_toNat, ofNat_toNat, ofNat_toNat, ofNat_toNat]

/-- `decode_v2_eth` on the words of a call. -/
theorem decodeV2Eth_held {value : U256}
    (hOut : wordBytes amountOutMin.toNat <+: data.drop 0)
    (hOffset : wordBytes 128 <+: data.drop 32)
    (hTo : wordBytes recipient.toNat <+: data.drop 64)
    (hPath : (Value.words path.words).tail <+: data.drop 128) :
    decodeV2Eth .debug data toAddr value = .value
      { dex := .uniswapV2, router := toAddr, tokenIn := path.first, tokenOut := path.last,
        amountIn := value, amountOutMin := amountOutMin, toAddr := recipient,
        fee := .none } := by
  have hShort := path.short
  have hHeld := path_held hPath
  have hEnd := word_inside hHeld.2.2
  have hLast : path.rest.length + 2 - 1 = path.rest.length + 1 := rfl
  unfold decodeV2Eth
  rw [if_neg (by omega), readU256_held hLength hOut, value_bind,
    readUsize_held hLength hOffset (by norm_num), value_bind, readAddress_held hLength hTo,
    value_bind, readUsize_held hLength hHeld.1 (by omega), value_bind, if_neg (by omega),
    uadd_of_lt .debug (by norm_num [M]), value_bind, readAddress_held hLength hHeld.2.1,
    value_bind, hLast, umul_of_lt .debug (by unfold M; omega), value_bind,
    uadd_of_lt .debug (by unfold M; omega), value_bind, readAddress_held hLength hHeld.2.2,
    value_bind, ofNat_toNat, ofNat_toNat, ofNat_toNat, ofNat_toNat]

end Decoders

/-! ## Calls of the methods -/

/-- The arguments of a method with two amounts. -/
theorem twoAmounts_held {data : List UInt8} {a b recipient deadline : Nat} {path : V2Path}
    (h : encodeTuple [.word a, .word b, .words path.words, .word recipient, .word deadline] =
      data) :
    wordBytes a <+: data.drop 0 ∧ wordBytes b <+: data.drop 32 ∧
      wordBytes 160 <+: data.drop 64 ∧ wordBytes recipient <+: data.drop 96 ∧
      (Value.words path.words).tail <+: data.drop 160 := by
  have hWhole : wordBytes a ++ (wordBytes b ++ (wordBytes 160 ++ (wordBytes recipient ++
      (wordBytes deadline ++ (Value.words path.words).tail)))) <+: data.drop 0 := by
    rw [List.drop_zero, ← h]
    simp [encodeTuple, heads, Value.tail]
  have hA := prefix_drop_append hWhole
  have hB := prefix_drop_append hA.2
  have hOffset := prefix_drop_append hB.2
  have hTo := prefix_drop_append hOffset.2
  have hTail := (prefix_drop_append hTo.2).2
  simp only [wordBytes_length, Nat.reduceAdd, Nat.zero_add] at hB hOffset hTo hTail
  exact ⟨hA.1, hB.1, hOffset.1, hTo.1, hTail⟩

/-- The arguments of a payable method. -/
theorem oneAmount_held {data : List UInt8} {a recipient deadline : Nat} {path : V2Path}
    (h : encodeTuple [.word a, .words path.words, .word recipient, .word deadline] = data) :
    wordBytes a <+: data.drop 0 ∧ wordBytes 128 <+: data.drop 32 ∧
      wordBytes recipient <+: data.drop 64 ∧
      (Value.words path.words).tail <+: data.drop 128 := by
  have hWhole : wordBytes a ++ (wordBytes 128 ++ (wordBytes recipient ++
      (wordBytes deadline ++ (Value.words path.words).tail))) <+: data.drop 0 := by
    rw [List.drop_zero, ← h]
    simp [encodeTuple, heads, Value.tail]
  have hA := prefix_drop_append hWhole
  have hOffset := prefix_drop_append hA.2
  have hTo := prefix_drop_append hOffset.2
  have hTail := (prefix_drop_append hTo.2).2
  simp only [wordBytes_length, Nat.reduceAdd, Nat.zero_add] at hOffset hTo hTail
  exact ⟨hA.1, hOffset.1, hTo.1, hTail⟩

namespace V2Call

/-- The amounts as the decoder takes them: the first one is paid, the second one received. -/
def readAmounts (call : V2Call) : U256 × U256 :=
  match call.method with
  | .swapTokensForExactTokens | .swapTokensForExactEth => (call.received, call.paid)
  | _ => (call.paid, call.received)

/-- What the decoder makes of a call; it does not know the sixth method. -/
def record (call : V2Call) (router : Address) : List SwapInfo :=
  if call.method = .swapExactEthForTokens then []
  else
    [{ dex := .uniswapV2, router, tokenIn := call.path.first, tokenOut := call.path.last,
       amountIn := call.readAmounts.1, amountOutMin := call.readAmounts.2,
       toAddr := call.recipient, fee := .none }]

variable {call : V2Call} {tx : DecodeTx}

theorem CarriedBy.selector (h : call.CarriedBy tx) :
    selectorOf tx.input.data = call.method.selector := by
  rw [h.1, calldata, selectorOf, List.take_left' (encodeBE_length 4 _), beNat_encodeBE]
  cases call.method <;> rfl

theorem CarriedBy.arguments (h : call.CarriedBy tx) :
    tx.input.data.drop 4 = encodeTuple call.values := by
  rw [h.1, calldata, List.drop_left' (encodeBE_length 4 _)]

theorem CarriedBy.length (h : call.CarriedBy tx) :
    4 ≤ tx.input.data.length ∧ (encodeTuple call.values).length < 2 ^ 63 := by
  have hLength := tx.input.length_lt
  have hSize : tx.input.data.length = 4 + (encodeTuple call.values).length := by
    rw [h.1, calldata, List.length_append, encodeBE_length]
  omega

/-- A method that goes to `decode_v2`. -/
theorem CarriedBy.decode_v2 (h : call.CarriedBy tx)
    (hSelector : selectors call.method.selector = some .v2)
    (hValues : call.values = [.word call.readAmounts.1.toNat, .word call.readAmounts.2.toNat,
      .words call.path.words, .word call.recipient.toNat, .word call.deadline.toNat]) :
    decode .debug tx = .value
      [{ dex := .uniswapV2, router := tx.toAddr.getD 0, tokenIn := call.path.first,
         tokenOut := call.path.last, amountIn := call.readAmounts.1,
         amountOutMin := call.readAmounts.2, toAddr := call.recipient, fee := .none }] := by
  have hLength := h.length
  have hHeld := twoAmounts_held (congrArg encodeTuple hValues).symm
  unfold decode
  dsimp only
  rw [if_neg (by omega), h.selector, hSelector, h.arguments]
  dsimp only
  rw [decodeV2_held hLength.2 hHeld.1 hHeld.2.1 hHeld.2.2.1 hHeld.2.2.2.1 hHeld.2.2.2.2]
  rfl

/-- A method that goes to `decode_v2_eth`. -/
theorem CarriedBy.decode_v2Eth (h : call.CarriedBy tx)
    (hSelector : selectors call.method.selector = some .v2Eth)
    (hValues : call.values = [.word call.received.toNat, .words call.path.words,
      .word call.recipient.toNat, .word call.deadline.toNat]) :
    decode .debug tx = .value
      [{ dex := .uniswapV2, router := tx.toAddr.getD 0, tokenIn := call.path.first,
         tokenOut := call.path.last, amountIn := tx.value, amountOutMin := call.received,
         toAddr := call.recipient, fee := .none }] := by
  have hLength := h.length
  have hHeld := oneAmount_held (congrArg encodeTuple hValues).symm
  unfold decode
  dsimp only
  rw [if_neg (by omega), h.selector, hSelector, h.arguments]
  dsimp only
  rw [decodeV2Eth_held hLength.2 hHeld.1 hHeld.2.1 hHeld.2.2.1 hHeld.2.2.2]
  rfl

/-- **The debug build on a call.** -/
theorem CarriedBy.decode_eq (h : call.CarriedBy tx) :
    decode .debug tx = .value (call.record (tx.toAddr.getD 0)) := by
  cases hMethod : call.method with
  | swapExactTokensForTokens =>
      rw [h.decode_v2 (by rw [hMethod]; rfl) (by simp [values, readAmounts, hMethod])]
      simp [record, hMethod]
  | swapExactTokensForEth =>
      rw [h.decode_v2 (by rw [hMethod]; rfl) (by simp [values, readAmounts, hMethod])]
      simp [record, hMethod]
  | swapTokensForExactTokens =>
      rw [h.decode_v2 (by rw [hMethod]; rfl) (by simp [values, readAmounts, hMethod])]
      simp [record, hMethod]
  | swapTokensForExactEth =>
      rw [h.decode_v2 (by rw [hMethod]; rfl) (by simp [values, readAmounts, hMethod])]
      simp [record, hMethod]
  | swapEthForExactTokens =>
      have hPaid : tx.value = call.paid := h.2 (by rw [hMethod]; trivial)
      rw [h.decode_v2Eth (by rw [hMethod]; rfl) (by simp [values, hMethod])]
      simp [record, readAmounts, hMethod, hPaid]
  | swapExactEthForTokens =>
      have hLength := h.length
      have hUnknown : selectors call.method.selector = .none := by rw [hMethod]; rfl
      unfold decode
      dsimp only
      rw [if_neg (by omega), h.selector, hUnknown]
      simp [record, hMethod]

/-- The record in any build. -/
theorem CarriedBy.decode_build (h : call.CarriedBy tx) (build : Build) :
    decode build tx = .value (call.record (tx.toAddr.getD 0)) := by
  have hDebug := h.decode_eq
  cases build with
  | debug => exact hDebug
  | release =>
      have hReturns : (decode .debug tx).Returns := by
        rw [hDebug]
        exact returns_value _
      exact (refines_decode tx hReturns).trans hDebug

end V2Call

/-- **When a call is decoded.**  For every call of the six methods, carried by any transaction,
the decoder gives exactly its record if and only if it reads the amounts where the method has
them: always for the exact-input methods and for the payable exact-output method, with equal
amounts for the other two, and never for the method whose selector it misspells. -/
theorem v2Call_decodes_iff {call : V2Call} {tx : DecodeTx} (h : call.CarriedBy tx) :
    call.Decoded tx ↔ call.InOrder := by
  have hEach : call.Decoded tx ↔
      ∃ info, call.record (tx.toAddr.getD 0) = [info] ∧ call.Reported info := by
    constructor
    · intro hAll
      have hDebug := hAll .debug
      rw [h.decode_build .debug] at hDebug
      simpa using hDebug
    · intro hRecord build
      rw [h.decode_build build]
      simpa using hRecord
  have hSwapped : call.received = call.paid ∧ call.paid = call.received ↔
      call.paid = call.received := and_iff_right_of_imp Eq.symm
  rw [hEach, V2Call.record, V2Call.InOrder]
  cases hMethod : call.method with
  | swapExactTokensForTokens => simp [V2Call.Reported, V2Call.readAmounts, hMethod]
  | swapExactTokensForEth => simp [V2Call.Reported, V2Call.readAmounts, hMethod]
  | swapTokensForExactTokens =>
      simp [V2Call.Reported, V2Call.readAmounts, hMethod, hSwapped]
  | swapTokensForExactEth =>
      simp [V2Call.Reported, V2Call.readAmounts, hMethod, hSwapped]
  | swapEthForExactTokens => simp [V2Call.Reported, V2Call.readAmounts, hMethod]
  | swapExactEthForTokens => simp

/-! ## Two calls -/

/-- Three tokens, with a fixed amount on one side. -/
def sampleCall (method : V2Method) (paid received : U256) : V2Call where
  method := method
  paid := paid
  received := received
  path := ⟨0x4200000000000000000000000000000000000006,
    0x833589fCD6eDb6E08f4c7C32D4f71b54bdA02913, [0x50c5725949A6F0c72E6C4a641F24049A917DB0Cb],
    by decide⟩
  recipient := 0xd8dA6BF26964aF9D7eEd9e03E53415D37aA96045
  deadline := 1900000000

def sampleTx (method : V2Method) (paid received : U256) : DecodeTx where
  toAddr := some 0x7a250d5630B4cF539739dF2C5dAcb4c659F2488D
  value := paid
  input := ⟨(sampleCall method paid received).calldata, by
    cases method <;> simp [sampleCall, V2Call.calldata, V2Call.values, encodeTuple,
      heads_length, Value.tail, V2Path.words]⟩

/-- One ether for at least 2500 dollars is decoded. -/
theorem v2Call_decodes_example :
    (sampleCall .swapExactTokensForTokens 1000000000000000000 2500000000).Decoded
        (sampleTx .swapExactTokensForTokens 1000000000000000000 2500000000) ↔
      (sampleCall .swapExactTokensForTokens 1000000000000000000 2500000000).InOrder :=
  v2Call_decodes_iff ⟨rfl, fun hPayable => hPayable.elim⟩

/-- **Exactly 2500 dollars for at most one ether** is not: the amounts change places. -/
theorem not_v2Call_decodes :
    ¬ ∀ (call : V2Call) (tx : DecodeTx), call.CarriedBy tx → call.Decoded tx := by
  intro hAll
  have hCarried : (sampleCall .swapTokensForExactTokens 1000000000000000000 2500000000).CarriedBy
      (sampleTx .swapTokensForExactTokens 1000000000000000000 2500000000) :=
    ⟨rfl, fun hPayable => hPayable.elim⟩
  have hDecoded := hAll _ _ hCarried .debug
  rw [hCarried.decode_eq] at hDecoded
  obtain ⟨info, hInfo, -, -, -, hPaid, -⟩ := hDecoded
  have hOne : [_] = [info] := Outcome.value.inj hInfo
  have hSwapped : (2500000000 : U256) = info.amountIn :=
    congrArg SwapInfo.amountIn (List.head_eq_of_cons_eq hOne)
  have hDiffer : (2500000000 : U256) ≠ 1000000000000000000 := by decide
  exact hDiffer (hSwapped.trans hPaid)

end SovereignShadow.Ports.V2RouterCalls
