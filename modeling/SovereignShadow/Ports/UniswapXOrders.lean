import SovereignShadow.Ports.RouterCalldata

/-!
# UniswapX orders

An order laid out in words as the decoder documents it: the input at 192, the offset of the
outputs at 288, four words an output.  The decoder takes the tokens from where they are, but
advances past a token by the twenty bytes of an address and not by its word.  Each start
amount is read twenty bytes early and begins with the token; the recipient is read twenty
bytes early too and is made of the end amount.

## Main results

* `straddled_piece` — the word that begins inside another.
* `parseOrderPayload_laidOut` — what the decoder makes of an order.
* `order_parsed_iff` — the orders whose fields it reports.
* `not_order_parsed` — an everyday order whose input amount is not reported.
-/

namespace SovereignShadow.Ports.UniswapXOrders

open SovereignShadow.Verified.Bytes
open SovereignShadow.Verified.Abi
open SovereignShadow.Verified.Checked
open SovereignShadow.Verified.Checked.Outcome
open SovereignShadow.Ports.Models
open SovereignShadow.Ports.UniversalDecoder
open SovereignShadow.Ports.DecoderTotality
open SovereignShadow.Ports.RouterCalldata

/-! ## Orders -/

/-- A token and the amount of it, which moves from its start to its end. -/
structure Leg where
  token : Address
  startAmount : U256
  endAmount : U256

structure Output extends Leg where
  recipient : Address

/-- The input and one output or more. -/
structure Order where
  input : Leg
  first : Output
  rest : List Output

namespace Leg

variable (leg : Leg)

def words : List Nat := [leg.token.toNat, leg.startAmount.toNat, leg.endAmount.toNat]

/-- The start amount spells the token and begins it again. -/
def Repeats : Prop :=
  leg.startAmount.toNat = leg.token.toNat * 2 ^ 96 + leg.token.toNat / 2 ^ 64

instance : Decidable leg.Repeats := inferInstanceAs (Decidable (_ = _))

/-- The word twenty bytes before the start amount. -/
def straddled : Nat := leg.token.toNat * 2 ^ 96 + leg.startAmount.toNat / 2 ^ 160

end Leg

def Output.words (output : Output) : List Nat := output.toLeg.words ++ [output.recipient.toNat]

namespace Order

variable (order : Order)

def outputs : List Output := order.first :: order.rest

/-- The words of the outputs, their number first. -/
def outputWords : List Nat := order.outputs.length :: order.outputs.flatMap Output.words

/-- The payload has the input at 192, behind it the offset of the outputs, and the outputs
there; the rest of it is free. -/
def LaidOut (payload : List UInt8) : Prop :=
  ∃ outputsAt, (order.input.words ++ [outputsAt]).flatMap wordBytes <+: payload.drop 192 ∧
    order.outputWords.flatMap wordBytes <+: payload.drop outputsAt

/-- The fields of the order are reported. -/
def Parsed (result : Outcome SwapInfo) : Prop :=
  ∃ info, result = .value info ∧ info.tokenIn = order.input.token ∧
    info.amountIn = order.input.startAmount ∧ info.tokenOut = order.first.token ∧
    info.amountOutMin = order.first.startAmount ∧ info.toAddr = order.first.recipient

/-- Both start amounts repeat their tokens, and the recipient is the end of the first
output's end amount with twelve zero bytes behind it. -/
def Coincides : Prop :=
  order.input.Repeats ∧ order.first.toLeg.Repeats ∧
    order.first.recipient.toNat = order.first.endAmount.toNat % 2 ^ 64 * 2 ^ 96

end Order

/-- The payload that the parser cuts out of the calldata. -/
def reachedPayload (build : Build) (data : List UInt8) (offset : Nat) :
    Outcome (List UInt8) := do
  let orderPtr ← readUsize build data offset
  let orderAbs ← uadd build offset orderPtr
  let orderLen ← readUsize build data orderAbs
  orderPayload build data orderAbs orderLen

/-! ## Reaching a payload -/

section Reaching

variable {build : Build} {data payload : List UInt8} {offset : Nat}

theorem reached_length_le (h : reachedPayload build data offset = .value payload) :
    payload.length ≤ data.length := by
  obtain ⟨orderPtr, -, hAbs⟩ := bind_eq_value h
  obtain ⟨orderAbs, -, hLen⟩ := bind_eq_value hAbs
  obtain ⟨orderLen, -, hPayload⟩ := bind_eq_value hLen
  obtain ⟨lo, -, hHi⟩ := bind_eq_value hPayload
  obtain ⟨hi, -, hSlice⟩ := bind_eq_value hHi
  exact slice_length_le hSlice

/-- The parser goes on with the payload that it cuts out. -/
theorem parseUniswapxOrder_reached {reactor : Address}
    (h : reachedPayload build data offset = .value payload) :
    parseUniswapxOrder build data offset reactor = parseOrderPayload build payload reactor := by
  obtain ⟨orderPtr, hPtr, hAbs⟩ := bind_eq_value h
  obtain ⟨orderAbs, hSum, hLen⟩ := bind_eq_value hAbs
  obtain ⟨orderLen, hRead, hPayload⟩ := bind_eq_value hLen
  rw [parseUniswapxOrder, hPtr, value_bind, hSum, value_bind, hRead, value_bind, hPayload,
    value_bind]

/-- A payload behind its length, where the pointer at `offset` leads, is reached. -/
theorem reached_of_placed {ptr : Nat} (hLength : data.length < 2 ^ 63)
    (hPtr : wordBytes ptr <+: data.drop offset)
    (hSize : wordBytes payload.length <+: data.drop (offset + ptr))
    (hPayload : payload <+: data.drop (offset + ptr + 32)) :
    reachedPayload .debug data offset = .value payload := by
  have hInside := word_inside hSize
  have hEnd : offset + ptr + 32 + payload.length ≤ data.length := by
    have hLe := hPayload.length_le
    rw [List.length_drop] at hLe
    omega
  have hM : data.length < M := hLength.trans (by norm_num)
  unfold reachedPayload orderPayload
  rw [readUsize_held hLength hPtr (by omega), value_bind, uadd_of_lt .debug (by omega),
    value_bind, readUsize_held hLength hSize (by omega), value_bind,
    uadd_of_lt .debug (by omega), value_bind, uadd_of_lt .debug (by omega), value_bind,
    Nat.min_eq_left hEnd, slice_of_le (by omega) hEnd, Nat.add_sub_cancel_left,
    take_drop_piece hPayload]

end Reaching

/-! ## The words of an order -/

/-- Twelve bytes into a word lies its end, followed by the beginning of the next. -/
theorem straddled_piece {data : List UInt8} {p x y : Nat} (hx : wordBytes x <+: data.drop p)
    (hy : wordBytes y <+: data.drop (p + 32)) :
    wordBytes (x * 256 ^ 12 + y / 256 ^ 20 % 256 ^ 12) <+: data.drop (p + 12) := by
  have hEnd : encodeBE 20 x <+: data.drop (p + 12) := by
    rw [wordBytes, encodeBE_add 12 20] at hx
    have hSplit := (prefix_drop_append hx).2
    rwa [encodeBE_length] at hSplit
  have hBegin : encodeBE 12 (y / 256 ^ 20) <+: data.drop (p + 32) := by
    rw [wordBytes, encodeBE_add 12 20] at hy
    exact (prefix_drop_append hy).1
  rw [wordBytes, ← encodeBE_append 20 12]
  exact append_piece hEnd (by rwa [encodeBE_length])

/-- The start amount of a leg as the decoder reads it, inside the token. -/
theorem Leg.straddled_held {data : List UInt8} {p : Nat} (leg : Leg)
    (hToken : wordBytes leg.token.toNat <+: data.drop p)
    (hStart : wordBytes leg.startAmount.toNat <+: data.drop (p + 32)) :
    wordBytes leg.straddled <+: data.drop (p + 12) := by
  have hPiece := straddled_piece hToken hStart
  have hFew : leg.startAmount.toNat / 256 ^ 20 < 256 ^ 12 := by
    have hWord := leg.startAmount.isLt
    rw [Nat.div_lt_iff_lt_mul (by norm_num)]
    exact hWord.trans_eq (by norm_num)
  rw [Nat.mod_eq_of_lt hFew] at hPiece
  rw [Leg.straddled]
  norm_num at hPiece
  exact hPiece

/-- An address as the decoder reads it, inside the amount before it. -/
theorem recipient_held {data : List UInt8} {p : Nat} (output : Output)
    (hEnd : wordBytes output.endAmount.toNat <+: data.drop p)
    (hRecipient : wordBytes output.recipient.toNat <+: data.drop (p + 32)) :
    wordBytes (output.endAmount.toNat * 2 ^ 96) <+: data.drop (p + 12) := by
  have hPiece := straddled_piece hEnd hRecipient
  have hNone : output.recipient.toNat / 256 ^ 20 = 0 :=
    Nat.div_eq_of_lt (output.recipient.isLt.trans_eq (by norm_num))
  rw [hNone, Nat.zero_mod, Nat.add_zero] at hPiece
  norm_num at hPiece
  exact hPiece

/-- The straddled word is the start amount when the start amount repeats the token. -/
theorem Leg.straddled_eq_iff (leg : Leg) :
    leg.straddled = leg.startAmount.toNat ↔ leg.Repeats := by
  unfold Leg.straddled Leg.Repeats
  have hToken := leg.token.isLt
  have hStart := leg.startAmount.isLt
  have hTail : leg.startAmount.toNat / 2 ^ 160 < 2 ^ 96 := by
    rw [Nat.div_lt_iff_lt_mul (by norm_num)]
    exact hStart.trans_eq (by norm_num)
  have hHead : leg.token.toNat / 2 ^ 64 < 2 ^ 96 := by
    rw [Nat.div_lt_iff_lt_mul (by norm_num)]
    exact hToken.trans_eq (by norm_num)
  -- the first twelve bytes of a word that begins with the token are those of the token
  have hBegin : ∀ low, low < 2 ^ 96 → leg.startAmount.toNat = leg.token.toNat * 2 ^ 96 + low →
      leg.startAmount.toNat / 2 ^ 160 = leg.token.toNat / 2 ^ 64 := by
    intro low hLow hSum
    calc leg.startAmount.toNat / 2 ^ 160
        = leg.startAmount.toNat / 2 ^ 96 / 2 ^ 64 := by rw [Nat.div_div_eq_div_mul, ← pow_add]
      _ = leg.token.toNat / 2 ^ 64 := by
          rw [hSum, Nat.add_comm, Nat.add_mul_div_right _ _ (by norm_num),
            Nat.div_eq_of_lt hLow, Nat.zero_add]
  constructor
  · intro hEq
    rw [← hBegin _ hTail hEq.symm]
    exact hEq.symm
  · intro hRepeats
    rw [hBegin _ hHead hRepeats]
    exact hRepeats.symm

/-! ## What the decoder reports -/

/-- Where the words of an order lie. -/
structure WordsHeld (order : Order) (payload : List UInt8) (outputsAt : Nat) : Prop where
  token : wordBytes order.input.token.toNat <+: payload.drop 192
  startAmount : wordBytes order.input.startAmount.toNat <+: payload.drop (192 + 32)
  outputsOffset : wordBytes outputsAt <+: payload.drop 288
  outputsLength : wordBytes order.outputs.length <+: payload.drop outputsAt
  outToken : wordBytes order.first.token.toNat <+: payload.drop (outputsAt + 32)
  outStart : wordBytes order.first.startAmount.toNat <+: payload.drop (outputsAt + 32 + 32)
  outEnd : wordBytes order.first.endAmount.toNat <+: payload.drop (outputsAt + 96)
  recipient : wordBytes order.first.recipient.toNat <+: payload.drop (outputsAt + 96 + 32)
  few : order.outputs.length ≤ payload.length

theorem Order.outputWords_length (order : Order) :
    order.outputWords.length = 4 * order.outputs.length + 1 := by
  have hFour : ∀ output : Output, output.words.length = 4 := fun _ => rfl
  simp [Order.outputWords, List.length_flatMap, hFour, Nat.mul_comm]

theorem wordsHeld_of_laidOut {order : Order} {payload : List UInt8} {outputsAt : Nat}
    (hInput : (order.input.words ++ [outputsAt]).flatMap wordBytes <+: payload.drop 192)
    (hOutputs : order.outputWords.flatMap wordBytes <+: payload.drop outputsAt) :
    WordsHeld order payload outputsAt where
  token := @words_at payload _ 192 0 _ hInput rfl
  startAmount := @words_at payload _ 192 1 _ hInput rfl
  outputsOffset := @words_at payload _ 192 3 _ hInput rfl
  outputsLength := @words_at payload _ outputsAt 0 _ hOutputs rfl
  outToken := @words_at payload _ outputsAt 1 _ hOutputs rfl
  outStart := @words_at payload _ outputsAt 2 _ hOutputs rfl
  outEnd := @words_at payload _ outputsAt 3 _ hOutputs rfl
  recipient := @words_at payload _ outputsAt 4 _ hOutputs rfl
  few := by
    have hLe := hOutputs.length_le
    rw [flatMap_wordBytes_length, Order.outputWords_length, List.length_drop] at hLe
    omega

/-- What the decoder makes of an order. -/
def Order.record (order : Order) (reactor : Address) : SwapInfo where
  dex := .uniswapX
  router := reactor
  tokenIn := order.input.token
  tokenOut := order.first.token
  amountIn := BitVec.ofNat 256 order.input.straddled
  amountOutMin := BitVec.ofNat 256 order.first.straddled
  toAddr := BitVec.ofNat 160 (order.first.endAmount.toNat * 2 ^ 96)
  fee := .none

theorem parseOrderPayload_laidOut {order : Order} {payload : List UInt8} (reactor : Address)
    (hLength : payload.length < 2 ^ 63) (hLaid : order.LaidOut payload) :
    parseOrderPayload .debug payload reactor = .value (order.record reactor) := by
  obtain ⟨outputsAt, hInput, hOutputs⟩ := hLaid
  have hWords := wordsHeld_of_laidOut hInput hOutputs
  have hAmountIn := order.input.straddled_held hWords.token hWords.startAmount
  have hAmountOut := order.first.straddled_held hWords.outToken hWords.outStart
  have hRecipient := recipient_held order.first hWords.outEnd hWords.recipient
  have hFirst := word_inside hWords.outputsOffset
  have hLast := word_inside hWords.recipient
  have hFew := hWords.few
  have hM : payload.length + 64 < M := by
    unfold M
    omega
  have hSome : order.outputs.length ≠ 0 := Nat.succ_ne_zero _
  unfold parseOrderPayload
  rw [if_neg (by omega), readAddress_held hLength hWords.token, value_bind,
    readU256_held hLength hAmountIn, value_bind,
    readUsize_held hLength hWords.outputsOffset (by omega), value_bind,
    uadd_of_lt .debug (by omega), value_bind, if_neg (by omega),
    readUsize_held hLength hWords.outputsLength (by omega), value_bind, if_neg hSome,
    uadd_of_lt .debug (by omega), value_bind, readAddress_held hLength hWords.outToken,
    value_bind, uadd_of_lt .debug (by omega), value_bind, readU256_held hLength hAmountOut,
    value_bind, uadd_of_lt .debug (by omega), value_bind,
    readAddress_held hLength hRecipient, value_bind, ofNat_toNat, ofNat_toNat]
  rfl

theorem parseOrderPayload_build (build : Build) {order : Order} {payload : List UInt8}
    (reactor : Address) (hLength : payload.length < 2 ^ 63) (hLaid : order.LaidOut payload) :
    parseOrderPayload build payload reactor = .value (order.record reactor) := by
  have hDebug := parseOrderPayload_laidOut reactor hLength hLaid
  cases build with
  | debug => exact hDebug
  | release =>
      have hReturns : (parseOrderPayload .debug payload reactor).Returns := by
        rw [hDebug]
        exact returns_value _
      exact (refines_parseOrderPayload hReturns).trans hDebug

/-! ## When the fields are reported -/

theorem Leg.ofNat_straddled_iff (leg : Leg) :
    BitVec.ofNat 256 leg.straddled = leg.startAmount ↔ leg.Repeats := by
  have hToken := leg.token.isLt
  have hStart : leg.startAmount.toNat / 2 ^ 160 < 2 ^ 96 := by
    rw [Nat.div_lt_iff_lt_mul (by norm_num)]
    exact leg.startAmount.isLt.trans_eq (by norm_num)
  have hFits : leg.straddled < 2 ^ 256 := by
    unfold Leg.straddled
    omega
  rw [← leg.straddled_eq_iff, ← BitVec.toNat_inj, BitVec.toNat_ofNat, Nat.mod_eq_of_lt hFits]

theorem recipient_eq_iff (output : Output) :
    BitVec.ofNat 160 (output.endAmount.toNat * 2 ^ 96) = output.recipient ↔
      output.recipient.toNat = output.endAmount.toNat % 2 ^ 64 * 2 ^ 96 := by
  have hLow : output.endAmount.toNat * 2 ^ 96 % 2 ^ 160 =
      output.endAmount.toNat % 2 ^ 64 * 2 ^ 96 :=
    Nat.mul_mod_mul_right (2 ^ 96) output.endAmount.toNat (2 ^ 64)
  rw [← BitVec.toNat_inj, BitVec.toNat_ofNat, hLow, eq_comm]

/-- The record names the fields of the order when they coincide with what is read. -/
theorem parsed_record_iff (order : Order) (reactor : Address) :
    order.Parsed (.value (order.record reactor)) ↔ order.Coincides := by
  rw [Order.Coincides, ← order.input.ofNat_straddled_iff, ← order.first.ofNat_straddled_iff,
    ← recipient_eq_iff]
  constructor
  · rintro ⟨info, hInfo, hRest⟩
    rw [← Outcome.value.inj hInfo] at hRest
    exact ⟨hRest.2.1, hRest.2.2.2.1, hRest.2.2.2.2⟩
  · rintro ⟨hIn, hOut, hRecipient⟩
    exact ⟨_, rfl, rfl, hIn, rfl, hOut, hRecipient⟩

/-- **Which orders are reported.**  For every order, every payload that has it laid out as the
decoder documents and every place in any calldata where the parser comes upon that payload,
in either build, the fields of the order are reported if and only if its start amounts repeat
their tokens and the recipient is the end of the end amount. -/
theorem order_parsed_iff {order : Order} {payload : List UInt8} (build : Build) (data : Bytes)
    (offset : Nat) (reactor : Address) (hLaid : order.LaidOut payload)
    (hReached : reachedPayload build data.data offset = .value payload) :
    order.Parsed (parseUniswapxOrder build data.data offset reactor) ↔ order.Coincides := by
  have hLength : payload.length < 2 ^ 63 := (reached_length_le hReached).trans_lt data.length_lt
  rw [parseUniswapxOrder_reached hReached, parseOrderPayload_build build reactor hLength hLaid,
    parsed_record_iff]

/-! ## Two orders -/

/-- An order behind six empty words, its outputs right behind the input. -/
def Order.payload (order : Order) : List UInt8 :=
  List.replicate 192 0 ++ ((order.input.words ++ [320]).flatMap wordBytes ++
    order.outputWords.flatMap wordBytes)

/-- A call of `execute`: the selector, and the order behind it. -/
def Order.calldata (order : Order) : List UInt8 :=
  encodeBE 4 0x8ae0693a ++
    (wordBytes 32 ++ (wordBytes order.payload.length ++ order.payload))

theorem Order.calldata_length (order : Order) :
    order.calldata.length = 420 + 128 * order.outputs.length := by
  rw [calldata, payload, List.length_append, List.length_append, List.length_append,
    List.length_append, List.length_append, encodeBE_length, List.length_replicate, flatMap_wordBytes_length,
    flatMap_wordBytes_length, outputWords_length, wordBytes_length, wordBytes_length,
    List.length_append, Leg.words]
  simp only [List.length_cons, List.length_nil]
  omega

theorem Order.laidOut_payload (order : Order) : order.LaidOut order.payload := by
  have hWhole : order.payload <+: order.payload.drop 0 := List.prefix_rfl
  have hRest := (prefix_drop_append hWhole).2
  rw [List.length_replicate, Nat.zero_add] at hRest
  have hSplit := prefix_drop_append hRest
  rw [flatMap_wordBytes_length] at hSplit
  exact ⟨320, hSplit.1, hSplit.2⟩

theorem Order.reached_calldata (order : Order) (hLength : order.calldata.length < 2 ^ 63) :
    reachedPayload .debug order.calldata 4 = .value order.payload := by
  have hWhole : order.calldata <+: order.calldata.drop 0 := List.prefix_rfl
  have hRest := (prefix_drop_append hWhole).2
  rw [encodeBE_length, Nat.zero_add] at hRest
  have hPtr := prefix_drop_append hRest
  have hSize := prefix_drop_append hPtr.2
  simp only [wordBytes_length] at hSize
  exact reached_of_placed hLength hPtr.1 hSize.1 hSize.2

/-- One output for one input. -/
def sampleOrder (amountIn amountOut endAmount : U256) (recipient : Address) : Order where
  input :=
    { token := 0x4200000000000000000000000000000000000006
      startAmount := amountIn
      endAmount := amountIn }
  first :=
    { token := 0x833589fCD6eDb6E08f4c7C32D4f71b54bdA02913
      startAmount := amountOut
      endAmount := endAmount
      recipient := recipient }
  rest := []

def sampleData (amountIn amountOut endAmount : U256) (recipient : Address) : Bytes where
  data := (sampleOrder amountIn amountOut endAmount recipient).calldata
  length_lt := by
    rw [Order.calldata_length]
    simp [Order.outputs, sampleOrder]

theorem sample_reached (amountIn amountOut endAmount : U256) (recipient : Address) :
    reachedPayload .debug (sampleData amountIn amountOut endAmount recipient).data 4 =
      .value (sampleOrder amountIn amountOut endAmount recipient).payload :=
  Order.reached_calldata _ (sampleData amountIn amountOut endAmount recipient).length_lt

/-- An order whose amounts repeat the tokens is reported. -/
theorem order_parsed_example :
    (sampleOrder 0x4200000000000000000000000000000000000006420000000000000000000000
        0x833589fCD6eDb6E08f4c7C32D4f71b54bdA02913833589fCD6eDb6E08f4c7C32
        7 0x0000000000000007000000000000000000000000).Parsed
      (parseUniswapxOrder .debug
        (sampleData 0x4200000000000000000000000000000000000006420000000000000000000000
          0x833589fCD6eDb6E08f4c7C32D4f71b54bdA02913833589fCD6eDb6E08f4c7C32
          7 0x0000000000000007000000000000000000000000).data 4 0) :=
  (order_parsed_iff .debug _ 4 0 (Order.laidOut_payload _) (sample_reached _ _ _ _)).mpr
    ⟨by decide, by decide, by decide⟩

/-- **One ether for 2500 dollars** is not: the input amount begins with the token. -/
theorem not_order_parsed :
    ¬ ∀ (order : Order) (payload : List UInt8) (build : Build) (data : Bytes) (offset : Nat)
        (reactor : Address), order.LaidOut payload →
      reachedPayload build data.data offset = .value payload →
      order.Parsed (parseUniswapxOrder build data.data offset reactor) := by
  intro hAll
  have hReached := sample_reached 1000000000000000000 2500000000 2400000000
    0xd8dA6BF26964aF9D7eEd9e03E53415D37aA96045
  have hLaid := Order.laidOut_payload (sampleOrder 1000000000000000000 2500000000 2400000000
    0xd8dA6BF26964aF9D7eEd9e03E53415D37aA96045)
  have hLength := (reached_length_le hReached).trans_lt (sampleData 1000000000000000000
    2500000000 2400000000 0xd8dA6BF26964aF9D7eEd9e03E53415D37aA96045).length_lt
  have hParsed := hAll _ _ .debug _ 4 0 hLaid hReached
  rw [parseUniswapxOrder_reached hReached, parseOrderPayload_laidOut 0 hLength hLaid,
    parsed_record_iff] at hParsed
  have hDiffers : ¬ (sampleOrder 1000000000000000000 2500000000 2400000000
      0xd8dA6BF26964aF9D7eEd9e03E53415D37aA96045).input.Repeats := by decide
  exact hDiffers hParsed.1

end SovereignShadow.Ports.UniswapXOrders
