import SovereignShadow.Ports.DecoderTotality
import SovereignShadow.Verified.Abi

/-!
# Universal Router calls

A call of `execute(bytes, bytes[], uint256)` and what the decoder makes of it.  The offsets
of the inputs are counted from behind the length of the array, and the decoder counts them
from the length itself.  So it takes the word before an input for its length, and reads the
input from its length word on: the length for the recipient, the recipient for the amount,
and so on.

## Main results

* `routerCommand_at` — what the decoder makes of one command.
* `routerCommand_swap` — when that is the swap: its recipient and both amounts are the
  number of its input's bytes, and what follows the input spells a path with the same ends.
* `decodes_iff` — when the decoder gives one record for each swap.
* `coincidence_decodes` — a call where it does.
-/

namespace SovereignShadow.Ports.RouterCalldata

open SovereignShadow.Verified.Bytes
open SovereignShadow.Verified.Abi
open SovereignShadow.Verified.Checked
open SovereignShadow.Verified.Checked.Outcome
open SovereignShadow.Ports.Models
open SovereignShadow.Ports.UniversalDecoder
open SovereignShadow.Ports.DecoderTotality

/-! ## Calls -/

/-- The path of a swap: tokens with fees between them, packed, or an array of two tokens
or more. -/
inductive SwapPath where
  | packed (first : Address) (hop : BitVec 24 × Address) (rest : List (BitVec 24 × Address))
  | tokens (first second : Address) (rest : List Address)
  deriving DecidableEq, Repr

namespace SwapPath

def tokenIn : SwapPath → Address
  | packed first _ _ => first
  | tokens first _ _ => first

def tokenOut : SwapPath → Address
  | packed _ hop rest => (rest.getLastD hop).2
  | tokens _ second rest => rest.getLastD second

/-- `V3_SWAP_EXACT_IN` or `V2_SWAP_EXACT_IN`. -/
def command : SwapPath → UInt8
  | packed _ _ _ => 0x00
  | tokens _ _ _ => 0x08

def packedHop (hop : BitVec 24 × Address) : List UInt8 :=
  encodeBE 3 hop.1.toNat ++ addressBytes hop.2

/-- The path as an argument of the input. -/
def value : SwapPath → Value
  | packed first hop rest => .bytes (addressBytes first ++ (hop :: rest).flatMap packedHop)
  | tokens first second rest => .words ((first :: second :: rest).map BitVec.toNat)

end SwapPath

/-- The arguments of a swap command. -/
structure Swap where
  recipient : Address
  amountIn : U256
  amountOutMin : U256
  path : SwapPath
  payerIsUser : Bool
  deriving DecidableEq, Repr

/-- Its input. -/
def Swap.input (swap : Swap) : List UInt8 :=
  encodeTuple [.word swap.recipient.toNat, .word swap.amountIn.toNat,
    .word swap.amountOutMin.toNat, swap.path.value, .word swap.payerIsUser.toNat]

/-- A command with its input: a swap, or any other one. -/
inductive Command where
  | swap (swap : Swap)
  | other (byte : UInt8) (input : List UInt8) (notSwap : byte ≠ 0x00 ∧ byte ≠ 0x08)

namespace Command

def byte : Command → UInt8
  | swap s => s.path.command
  | other b _ _ => b

def input : Command → List UInt8
  | swap s => s.input
  | other _ i _ => i

def swap? : Command → Option Swap
  | swap s => some s
  | other _ _ _ => none

end Command

/-- Where the tail of `inputs` starts, behind the head and the commands. -/
def inputsAt (commands : List Command) : Nat :=
  96 + (Value.bytes (commands.map Command.byte)).tail.length

/-- `abi.encode(commands, inputs, deadline)`. -/
def arguments (commands : List Command) (deadline : U256) : List UInt8 :=
  wordBytes 96 ++ (wordBytes (inputsAt commands) ++ (wordBytes deadline.toNat ++
    ((Value.bytes (commands.map Command.byte)).tail ++
      bytesArrayTail (commands.map Command.input))))

/-- The calldata of `execute`. -/
def routerCall (commands : List Command) (deadline : U256) : List UInt8 :=
  encodeBE 4 0x3593564c ++ arguments commands deadline

/-! ## What the decoder is to give -/

/-- A record with the swap's recipient, amounts and end tokens. -/
def Reports (info : SwapInfo) (swap : Swap) : Prop :=
  info.toAddr = swap.recipient ∧ info.amountIn = swap.amountIn ∧
    info.amountOutMin = swap.amountOutMin ∧ info.tokenIn = swap.path.tokenIn ∧
    info.tokenOut = swap.path.tokenOut

/-- In either build the decoder gives one record for each swap, in order. -/
def Decodes (tx : DecodeTx) (commands : List Command) : Prop :=
  ∀ build, ∃ infos, decode build tx = .value infos ∧
    List.Forall₂ Reports infos (commands.filterMap Command.swap?)

/-! ## Words of the calldata -/

theorem beNat_encodeBE (w x : Nat) : beNat (encodeBE w x) = x % 256 ^ w := by
  have hHolds : Holds (ofList (encodeBE w x)) 0 (encodeBE w x) := by
    simpa using holds_ofList [] (encodeBE w x) []
  rw [beNat, encodeBE_length, hHolds.readBE_encodeBE]

section Words

variable {data : List UInt8} {p x : Nat} (h : wordBytes x <+: data.drop p)
include h

theorem fullWord_piece : fullWord data p = x % 2 ^ 256 := by
  have hTake := take_drop_piece h
  rw [wordBytes_length] at hTake
  rw [fullWord, hTake, wordBytes, beNat_encodeBE]
  norm_num

theorem usizeWord_piece : usizeWord data p = x % 2 ^ 64 := by
  have hSplit : wordBytes x = encodeBE 24 (x / 256 ^ 8) ++ encodeBE 8 x := encodeBE_add 24 8 x
  rw [hSplit] at h
  have hTake := take_drop_piece (prefix_drop_append h).2
  rw [encodeBE_length, encodeBE_length] at hTake
  rw [usizeWord, hTake, beNat_encodeBE]
  norm_num

theorem addressWordAt_piece : addressWordAt data p = BitVec.ofNat 160 x := by
  have hSplit : wordBytes x = encodeBE 12 (x / 256 ^ 20) ++ encodeBE 20 x :=
    encodeBE_add 12 20 x
  rw [hSplit] at h
  have hTake := take_drop_piece (prefix_drop_append h).2
  rw [encodeBE_length, encodeBE_length] at hTake
  rw [addressWordAt, hTake, beNat_encodeBE]
  apply BitVec.eq_of_toNat_eq
  rw [BitVec.toNat_ofNat, BitVec.toNat_ofNat]
  norm_num

end Words

/-- A piece of a slice is a piece of the data. -/
theorem window {data : List UInt8} {start n p w : Nat} (h : p + w ≤ n) :
    (((data.drop start).take n).drop p).take w = (data.drop (start + p)).take w := by
  rw [List.drop_take, List.take_take, List.drop_drop, Nat.min_eq_left (by omega)]

section Window

variable {data : List UInt8} {start n p : Nat}

theorem usizeWord_window (h : p + 32 ≤ n) :
    usizeWord ((data.drop start).take n) p = usizeWord data (start + p) := by
  rw [usizeWord, window (by omega), ← Nat.add_assoc, usizeWord]

theorem fullWord_window (h : p + 32 ≤ n) :
    fullWord ((data.drop start).take n) p = fullWord data (start + p) := by
  rw [fullWord, window h, fullWord]

theorem addressWordAt_window (h : p + 32 ≤ n) :
    addressWordAt ((data.drop start).take n) p = addressWordAt data (start + p) := by
  rw [addressWordAt, window (by omega), ← Nat.add_assoc, addressWordAt]

end Window

/-! ## Readers that stay inside -/

section Inside

variable {data : List UInt8} {p : Nat} (hLength : data.length < 2 ^ 63)
  (h : p + 32 ≤ data.length)
include hLength h

theorem readUsize_inside : (readUsize .debug data p).unwrapOr 0 = .value (usizeWord data p) := by
  rw [readUsize_debug, readWith_of_le hLength h]
  rfl

theorem readU256_inside :
    (readU256 .debug data p).unwrapOr 0 = .value (BitVec.ofNat 256 (fullWord data p)) := by
  rw [readU256_debug, readWith_of_le hLength h]
  rfl

theorem readAddress_inside :
    (readAddress .debug data p).unwrapOr 0 = .value (addressWordAt data p) := by
  rw [readAddress_debug, readWith_of_le hLength h]
  rfl

end Inside

/-! ## Reading words that are held -/

section Held

variable {data : List UInt8} {p x : Nat}

theorem word_inside (h : wordBytes x <+: data.drop p) : p + 32 ≤ data.length := by
  have hLe := le_length_piece h (by rw [wordBytes_length]; norm_num)
  rw [wordBytes_length] at hLe
  exact hLe

variable (hLength : data.length < 2 ^ 63) (h : wordBytes x <+: data.drop p)
include hLength h

theorem readU256_held : readU256 .debug data p = .value (BitVec.ofNat 256 x) := by
  rw [readU256_debug, readWith_of_le hLength (word_inside h), fullWord_piece h,
    ← BitVec.toNat_ofNat, BitVec.ofNat_toNat, BitVec.setWidth_eq]

theorem readUsize_held (hx : x < 2 ^ 64) : readUsize .debug data p = .value x := by
  rw [readUsize_debug, readWith_of_le hLength (word_inside h), usizeWord_piece h,
    Nat.mod_eq_of_lt hx]

theorem readAddress_held : readAddress .debug data p = .value (BitVec.ofNat 160 x) := by
  rw [readAddress_debug, readWith_of_le hLength (word_inside h), addressWordAt_piece h]

end Held

theorem ofNat_toNat {w : Nat} (x : BitVec w) : BitVec.ofNat w x.toNat = x := by
  rw [BitVec.ofNat_toNat, BitVec.setWidth_eq]

/-! ## One command -/

/-- The address in the 20 bytes from `p` on. -/
def addressAt (data : List UInt8) (p : Nat) : Address :=
  BitVec.ofNat 160 (beNat ((data.drop p).take 20))

/-- The low eight bytes of the word before an input. -/
def lengthBefore (data : List UInt8) (start : Nat) : Nat := usizeWord data (start - 32)

section Command

variable {data : List UInt8} (toAddr : Address)

/-- A slice of at least five words. -/
theorem routerInput_eq {inp : List UInt8} (hInput : inp.length < 2 ^ 63) (byte : UInt8)
    (hFull : 160 ≤ inp.length) :
    routerInput .debug inp toAddr byte =
      if usizeWord inp 96 + 32 < M then
        routerSwap .debug inp toAddr byte (addressWordAt inp 0)
          (BitVec.ofNat 256 (fullWord inp 32)) (BitVec.ofNat 256 (fullWord inp 64))
          (usizeWord inp 96 + 32) (usizeOr inp (usizeWord inp 96))
      else .panic := by
  unfold routerInput
  rw [if_neg (by omega), readAddress_inside hInput (by omega), value_bind,
    readU256_inside hInput (by omega), value_bind, readU256_inside hInput (by omega),
    value_bind, readUsize_inside hInput (by omega), value_bind, readUsize_debug,
    readWith_unwrapOr]
  by_cases hOff : usizeWord inp 96 + 32 < M
  · rw [if_pos hOff, if_pos hOff, value_bind, uadd_of_lt .debug hOff, value_bind, usizeOr]
  · rw [if_neg hOff, if_neg hOff, panic_bind]

/-- **What the decoder makes of one command** whose input's length word lies at `start`: it
reads from there on as many bytes as the word before says. -/
theorem routerCommand_at (hLength : data.length < 2 ^ 63) {inputsPtr k start : Nat}
    (byte : UInt8)
    (hSlot : inputsPtr + 32 + 32 * k + 32 ≤ data.length)
    (hOff : inputsPtr + usizeWord data (inputsPtr + 32 + 32 * k) + 32 = start)
    (hStart : start ≤ data.length) :
    routerCommand .debug data toAddr inputsPtr (inputsPtr + 32) (byte, k) =
      if start + lengthBefore data start < M then
        if start + lengthBefore data start ≤ data.length then
          routerInput .debug ((data.drop start).take (lengthBefore data start)) toAddr byte
        else .none
      else .panic := by
  have hM : data.length < M := hLength.trans (by norm_num)
  have hBefore : inputsPtr + usizeWord data (inputsPtr + 32 + 32 * k) = start - 32 := by omega
  have hBack : start - 32 + 32 = start := by omega
  have hLen : usizeWord data (start - 32) = lengthBefore data start := rfl
  unfold routerCommand
  rw [umul_of_lt .debug (by dsimp only; omega), value_bind,
    uadd_of_lt .debug (by dsimp only; omega), value_bind]
  dsimp only
  rw [Nat.mul_comm k 32, readUsize_inside hLength hSlot, value_bind,
    uadd_of_lt .debug (by omega), value_bind, hBefore, uadd_of_lt .debug (by omega), value_bind,
    hBack, if_neg (by omega), readUsize_inside hLength (by omega), value_bind, value_bind, hLen]
  by_cases hEnd : start + lengthBefore data start < M
  · rw [if_pos hEnd, uadd_of_lt .debug hEnd, value_bind]
    by_cases hFit : start + lengthBefore data start ≤ data.length
    · rw [if_neg (by omega), if_pos hFit, slice_of_le (by omega) hFit, value_bind,
        Nat.add_sub_cancel_left]
    · rw [if_pos (by omega), if_neg hFit]
  · have hPanic : uadd .debug start (lengthBefore data start) = .panic := if_neg hEnd
    rw [if_neg hEnd, hPanic, panic_bind]

/-- Any other command gives nothing. -/
theorem routerSwap_other {inp : List UInt8} {byte : UInt8} (hOther : byte ≠ 0x00 ∧ byte ≠ 0x08)
    (recipient : Address) (amountIn amountOutMin : U256) (pathPtr pathLen : Nat) :
    routerSwap .debug inp toAddr byte recipient amountIn amountOutMin pathPtr pathLen = .none := by
  rw [routerSwap, if_neg hOther.1, if_neg hOther.2]

/-! ## Paths -/

/-- From `p` on, with `n` for the length and `room` bytes to read, lies a path with the ends
of this one. -/
def Spells (data : List UInt8) (p n room : Nat) (path : SwapPath) : Prop :=
  match path with
  | .packed _ _ _ =>
      43 ≤ n ∧ n ≤ room ∧ addressAt data p = path.tokenIn ∧
        addressAt data (p + 23) = path.tokenOut
  | .tokens _ _ _ =>
      2 ≤ n ∧ n * 32 ≤ room ∧ addressWordAt data p = path.tokenIn ∧
        addressWordAt data (p + (n - 1) * 32) = path.tokenOut

section Path

variable {inp : List UInt8} (hInput : inp.length < 2 ^ 63) (recipient : Address)
  (amountIn amountOutMin : U256) (pathPtr pathLen : Nat)
include hInput

theorem routerSwap_packed (info : SwapInfo) :
    routerSwap .debug inp toAddr 0x00 recipient amountIn amountOutMin pathPtr pathLen =
        .value info ↔
      (pathPtr + pathLen ≤ inp.length ∧ 43 ≤ pathLen) ∧
        info = { dex := .uniswapV3, router := toAddr, tokenIn := addressAt inp pathPtr,
                 tokenOut := addressAt inp (pathPtr + 23), amountIn := amountIn,
                 amountOutMin := amountOutMin, toAddr := recipient,
                 fee := some (beNat ((inp.drop (pathPtr + 20)).take 3)) } := by
  unfold routerSwap
  rw [if_pos rfl]
  by_cases hEnd : pathPtr + pathLen < M
  · rw [uadd_of_lt .debug hEnd, value_bind]
    by_cases hFit : pathPtr + pathLen ≤ inp.length ∧ 43 ≤ pathLen
    · have hPiece : ((inp.drop pathPtr).take pathLen).length = pathLen := by
        rw [List.length_take, List.length_drop]
        omega
      rw [if_pos hFit, slice_of_le (by omega) hFit.1, value_bind, Nat.add_sub_cancel_left,
        slice_of_le (by omega) (by omega), value_bind, slice_of_le (by omega) (by omega),
        value_bind, slice_of_le (by omega) (by omega), value_bind, window (by omega),
        window (by omega), window (by omega)]
      simp [hFit, addressAt, eq_comm]
    · rw [if_neg hFit]
      simp [hFit]
  · have hPanic : uadd .debug pathPtr pathLen = .panic := if_neg hEnd
    rw [hPanic, panic_bind]
    unfold M at hEnd
    constructor
    · intro h
      exact absurd h (by simp)
    · intro h
      omega

theorem routerSwap_tokens (info : SwapInfo) :
    routerSwap .debug inp toAddr 0x08 recipient amountIn amountOutMin pathPtr pathLen =
        .value info ↔
      (2 ≤ pathLen ∧ pathPtr + pathLen * 32 ≤ inp.length) ∧
        info = { dex := .uniswapV2, router := toAddr, tokenIn := addressWordAt inp pathPtr,
                 tokenOut := addressWordAt inp (pathPtr + (pathLen - 1) * 32),
                 amountIn := amountIn, amountOutMin := amountOutMin, toAddr := recipient,
                 fee := .none } := by
  unfold routerSwap
  rw [if_neg (by decide), if_pos rfl]
  by_cases hTwo : 2 ≤ pathLen
  · rw [if_pos hTwo]
    by_cases hFit : pathPtr + pathLen * 32 ≤ inp.length
    · have hM : pathPtr + pathLen * 32 < M := (hFit.trans_lt hInput).trans (by norm_num)
      rw [umul_of_lt .debug (by omega), value_bind, uadd_of_lt .debug hM, value_bind,
        if_pos hFit, readAddress_inside hInput (by omega), value_bind,
        umul_of_lt .debug (by omega), value_bind, uadd_of_lt .debug (by omega), value_bind,
        readAddress_inside hInput (by omega), value_bind]
      simp [hTwo, hFit, eq_comm]
    · -- the end is beyond the input, or beyond the word
      by_cases hMul : pathLen * 32 < M
      · rw [umul_of_lt .debug hMul, value_bind]
        by_cases hEnd : pathPtr + pathLen * 32 < M
        · rw [uadd_of_lt .debug hEnd, value_bind, if_neg hFit]
          simp [hFit]
        · have hPanic : uadd .debug pathPtr (pathLen * 32) = .panic := if_neg hEnd
          rw [hPanic, panic_bind]
          simp [hFit]
      · have hPanic : umul .debug pathLen 32 = .panic := if_neg hMul
        rw [hPanic, panic_bind]
        simp [hFit]
  · rw [if_neg hTwo]
    simp [hTwo]

/-- **A swap's record** comes from five fields and a path behind them. -/
theorem routerSwap_reports (swap : Swap) (off n : Nat) :
    (∃ info, routerSwap .debug inp toAddr swap.path.command recipient amountIn amountOutMin
        (off + 32) n = .value info ∧ Reports info swap) ↔
      recipient = swap.recipient ∧ amountIn = swap.amountIn ∧
        amountOutMin = swap.amountOutMin ∧ off + 32 ≤ inp.length ∧
        Spells inp (off + 32) n (inp.length - (off + 32)) swap.path := by
  cases hPath : swap.path with
  | packed first hop rest =>
      simp only [SwapPath.command, routerSwap_packed toAddr hInput, Reports, Spells, hPath]
      constructor
      · intro ⟨info, ⟨⟨hFit, hLong⟩, hInfo⟩, hTo, hIn, hOut, hFirst, hLast⟩
        subst hInfo
        exact ⟨hTo, hIn, hOut, by omega, hLong, by omega, hFirst, hLast⟩
      · intro ⟨hTo, hIn, hOut, hRoom, hLong, hFit, hFirst, hLast⟩
        exact ⟨_, ⟨⟨by omega, hLong⟩, rfl⟩, hTo, hIn, hOut, hFirst, hLast⟩
  | tokens first second rest =>
      simp only [SwapPath.command, routerSwap_tokens toAddr hInput, Reports, Spells, hPath]
      constructor
      · intro ⟨info, ⟨⟨hTwo, hFit⟩, hInfo⟩, hTo, hIn, hOut, hFirst, hLast⟩
        subst hInfo
        exact ⟨hTo, hIn, hOut, by omega, hTwo, by omega, hFirst, hLast⟩
      · intro ⟨hTo, hIn, hOut, hRoom, hTwo, hFit, hFirst, hLast⟩
        exact ⟨_, ⟨⟨hTwo, by omega⟩, rfl⟩, hTo, hIn, hOut, hFirst, hLast⟩

end Path

/-! ## Commands whose inputs lie in the data -/

theorem spells_window {start n p k room : Nat} (hRoom : p + room ≤ n) (path : SwapPath) :
    Spells ((data.drop start).take n) p k room path ↔ Spells data (start + p) k room path := by
  cases path with
  | packed first hop rest =>
      simp only [Spells, addressAt]
      constructor
      · intro ⟨hLong, hFit, hFirst, hLast⟩
        rw [window (by omega)] at hFirst hLast
        exact ⟨hLong, hFit, hFirst, hLast⟩
      · intro ⟨hLong, hFit, hFirst, hLast⟩
        rw [window (by omega), window (by omega)]
        exact ⟨hLong, hFit, hFirst, hLast⟩
  | tokens first second rest =>
      simp only [Spells]
      constructor
      · intro ⟨hTwo, hFit, hFirst, hLast⟩
        rw [addressWordAt_window (by omega)] at hFirst hLast
        rw [← Nat.add_assoc] at hLast
        exact ⟨hTwo, hFit, hFirst, hLast⟩
      · intro ⟨hTwo, hFit, hFirst, hLast⟩
        rw [addressWordAt_window (by omega), addressWordAt_window (by omega), ← Nat.add_assoc]
        exact ⟨hTwo, hFit, hFirst, hLast⟩

/-- A command that is no swap gives nothing: its misread length and path offset stay below
the word size. -/
def Harmless (data : List UInt8) (start : Nat) : Prop :=
  start + lengthBefore data start < M ∧
    (start + lengthBefore data start ≤ data.length → 160 ≤ lengthBefore data start →
      usizeWord data (start + 96) + 32 < M)

/-- A swap is read rightly by coincidence: its recipient and both amounts are the number of
its input's bytes, and what lies behind the input, with the input's last word for a length,
spells a path with the same ends. -/
def Coincides (data : List UInt8) (start : Nat) (swap : Swap) : Prop :=
  let size := swap.input.length
  swap.recipient.toNat = size ∧ swap.amountIn.toNat = size ∧ swap.amountOutMin.toNat = size ∧
    start + lengthBefore data start ≤ data.length ∧ size + 32 ≤ lengthBefore data start ∧
      Spells data (start + (size + 32)) (usizeWord data (start + size))
        (lengthBefore data start - (size + 32)) swap.path

theorem swap_input_length (swap : Swap) : 160 ≤ swap.input.length := by
  rw [Swap.input, encodeTuple, List.length_append, heads_length]
  simp

/-- The four words that the decoder reads, from the length word of a swap's input on. -/
theorem swap_words {start : Nat} {swap : Swap}
    (hTail : (Value.bytes swap.input).tail <+: data.drop start) :
    addressWordAt data start = BitVec.ofNat 160 swap.input.length ∧
      fullWord data (start + 32) = swap.recipient.toNat ∧
      fullWord data (start + 64) = swap.amountIn.toNat ∧
      usizeWord data (start + 96) = swap.amountOutMin.toNat % 2 ^ 64 := by
  rw [Value.tail, List.append_assoc] at hTail
  obtain ⟨hLen, hInput⟩ := prefix_drop_append hTail
  have hHeads := (prefix_drop_append (prefix_drop_append hInput).1).1
  obtain ⟨hRecipient, hRest⟩ := prefix_drop_append hHeads
  obtain ⟨hIn, hMore⟩ := prefix_drop_append hRest
  have hOut := (prefix_drop_append hMore).1
  simp only [wordBytes_length, Nat.add_assoc, Nat.reduceAdd] at hRecipient hIn hOut
  have hRecipientLt := swap.recipient.isLt
  have hInLt := swap.amountIn.isLt
  refine ⟨addressWordAt_piece hLen, ?_, ?_, ?_⟩
  · rw [fullWord_piece hRecipient]
    omega
  · rw [fullWord_piece hIn]
    omega
  · exact usizeWord_piece hOut

/-- Fields that are read one word early are the swap's own where all are the length. -/
theorem shifted_fields {swap : Swap} {size : Nat} (hSize : size < 2 ^ 63) :
    (BitVec.ofNat 160 size = swap.recipient ∧
      BitVec.ofNat 256 swap.recipient.toNat = swap.amountIn ∧
      BitVec.ofNat 256 swap.amountIn.toNat = swap.amountOutMin) ↔
      swap.recipient.toNat = size ∧ swap.amountIn.toNat = size ∧
        swap.amountOutMin.toNat = size := by
  have hRecipientLt := swap.recipient.isLt
  have hInLt := swap.amountIn.isLt
  rw [← BitVec.toNat_inj, ← BitVec.toNat_inj, ← BitVec.toNat_inj, BitVec.toNat_ofNat,
    BitVec.toNat_ofNat, BitVec.toNat_ofNat, Nat.mod_eq_of_lt (by omega),
    Nat.mod_eq_of_lt (by omega), Nat.mod_eq_of_lt (by omega)]
  constructor
  · intro ⟨hTo, hIn, hOut⟩
    omega
  · intro ⟨hTo, hIn, hOut⟩
    omega

section Placed

variable {inputsPtr k start : Nat} (hLength : data.length < 2 ^ 63)
  (hSlot : inputsPtr + 32 + 32 * k + 32 ≤ data.length)
  (hOff : inputsPtr + usizeWord data (inputsPtr + 32 + 32 * k) + 32 = start)
  (hStart : start ≤ data.length)
include hLength hSlot hOff hStart

theorem routerCommand_other {byte : UInt8} (hOther : byte ≠ 0x00 ∧ byte ≠ 0x08) :
    (∀ info, routerCommand .debug data toAddr inputsPtr (inputsPtr + 32) (byte, k) ≠
        .value info) ∧
      (routerCommand .debug data toAddr inputsPtr (inputsPtr + 32) (byte, k) = .none ↔
        Harmless data start) := by
  rw [routerCommand_at toAddr hLength byte hSlot hOff hStart]
  unfold Harmless
  by_cases hEnd : start + lengthBefore data start < M
  · rw [if_pos hEnd]
    by_cases hFit : start + lengthBefore data start ≤ data.length
    · rw [if_pos hFit]
      have hSize : ((data.drop start).take (lengthBefore data start)).length =
          lengthBefore data start := by
        rw [List.length_take, List.length_drop]
        omega
      by_cases hFull : 160 ≤ lengthBefore data start
      · rw [routerInput_eq toAddr (by omega) byte (by omega), routerSwap_other toAddr hOther,
          usizeWord_window (by omega)]
        by_cases hOffset : usizeWord data (start + 96) + 32 < M
        · rw [if_pos hOffset]
          simp [hEnd, hOffset]
        · rw [if_neg hOffset]
          simp [hFit, hFull, hOffset]
      · rw [routerInput, if_pos (by omega)]
        simp [hEnd, hFull]
    · rw [if_neg hFit]
      simp [hEnd, hFit]
  · rw [if_neg hEnd]
    simp [hEnd]

theorem routerCommand_swap {swap : Swap} (hSize : swap.input.length < 2 ^ 63)
    (hTail : (Value.bytes swap.input).tail <+: data.drop start) :
    (∃ info, routerCommand .debug data toAddr inputsPtr (inputsPtr + 32)
        (swap.path.command, k) = .value info ∧ Reports info swap) ↔
      Coincides data start swap := by
  obtain ⟨hSelf, hRecipient, hIn, hOut⟩ := swap_words hTail
  have hFive := swap_input_length swap
  rw [routerCommand_at toAddr hLength _ hSlot hOff hStart]
  unfold Coincides
  dsimp only
  by_cases hFit : start + lengthBefore data start ≤ data.length
  · have hLen : ((data.drop start).take (lengthBefore data start)).length =
        lengthBefore data start := by
      rw [List.length_take, List.length_drop]
      omega
    rw [if_pos (by unfold M; omega), if_pos hFit]
    by_cases hFull : 160 ≤ lengthBefore data start
    · rw [routerInput_eq toAddr (by omega) _ (by omega), addressWordAt_window (by omega),
        fullWord_window (by omega), fullWord_window (by omega), usizeWord_window (by omega),
        Nat.add_zero start, hSelf, hRecipient, hIn, hOut]
      by_cases hOffset : swap.amountOutMin.toNat % 2 ^ 64 + 32 < M
      · rw [if_pos hOffset, routerSwap_reports toAddr (by omega), hLen]
        constructor
        · intro ⟨hTo, hA, hM, hRoom, hSpells⟩
          obtain ⟨hTo, hA, hM⟩ := (shifted_fields hSize).mp ⟨hTo, hA, hM⟩
          have hPath : swap.amountOutMin.toNat % 2 ^ 64 = swap.input.length := by omega
          rw [hPath] at hRoom hSpells
          rw [usizeOr_of_le (by omega), usizeWord_window hRoom, spells_window (by omega)] at hSpells
          exact ⟨hTo, hA, hM, hFit, hRoom, hSpells⟩
        · intro ⟨hTo, hA, hM, _, hRoom, hSpells⟩
          have hPath : swap.amountOutMin.toNat % 2 ^ 64 = swap.input.length := by omega
          obtain ⟨hTo, hA, hM⟩ := (shifted_fields hSize).mpr ⟨hTo, hA, hM⟩
          rw [hPath, usizeOr_of_le (by omega), usizeWord_window hRoom, spells_window (by omega)]
          exact ⟨hTo, hA, hM, hRoom, hSpells⟩
      · rw [if_neg hOffset]
        unfold M at hOffset
        constructor
        · intro ⟨info, hPanic, _⟩
          exact absurd hPanic (by simp)
        · intro ⟨_, _, hM, _⟩
          omega
    · rw [routerInput, if_pos (by omega)]
      constructor
      · intro ⟨info, hNone, _⟩
        exact absurd hNone (by simp)
      · intro ⟨_, _, _, _, hRoom, _⟩
        omega
  · rw [if_neg hFit]
    constructor
    · intro ⟨info, hValue, _⟩
      split at hValue
      · exact absurd hValue (by simp)
      · exact absurd hValue (by simp)
    · intro ⟨_, _, _, hIs, _⟩
      exact absurd hIs hFit

end Placed

end Command

/-! ## The call -/

/-- The length word of the `k`-th input. -/
def inputStart (commands : List Command) (k : Nat) : Nat :=
  inputsAt commands + 32 + tailStart (commands.map Command.input) k

/-- What the decoder reads of the head, and where the inputs lie. -/
theorem arguments_layout {commands : List Command} {deadline : U256} {data : List UInt8}
    (hData : data = arguments commands deadline) (hLength : data.length < 2 ^ 63) :
    usizeWord data 0 = 96 ∧ usizeWord data 32 = inputsAt commands ∧
      usizeWord data 96 = commands.length ∧ 128 + commands.length ≤ data.length ∧
      (data.drop 128).take commands.length = commands.map Command.byte ∧
      bytesArrayTail (commands.map Command.input) <+: data.drop (inputsAt commands) := by
  have hAll : arguments commands deadline <+: data.drop 0 := by
    rw [List.drop_zero, hData]
  obtain ⟨hFirst, hRest⟩ := prefix_drop_append hAll
  obtain ⟨hSecond, hRest⟩ := prefix_drop_append hRest
  obtain ⟨_, hTails⟩ := prefix_drop_append hRest
  obtain ⟨hCommands, hInputs⟩ := prefix_drop_append hTails
  rw [Value.tail, List.append_assoc] at hCommands
  obtain ⟨hCount, hBytes⟩ := prefix_drop_append hCommands
  have hString := (prefix_drop_append hBytes).1
  simp only [wordBytes_length, Nat.zero_add, Nat.reduceAdd] at hSecond hInputs hCount hString
  have hInputsLe : inputsAt commands ≤ data.length := by
    have hLe := le_length_piece hInputs (by simp [bytesArrayTail])
    exact (Nat.le_add_right _ _).trans hLe
  have hCountLe : 128 + commands.length ≤ data.length := by
    have hLe := hString.length_le
    have hCountPos := le_length_piece hCount (by simp)
    rw [wordBytes_length] at hCountPos
    rw [List.length_drop, List.length_map] at hLe
    omega
  refine ⟨usizeWord_piece hFirst, ?_, ?_, hCountLe, ?_, hInputs⟩
  · rw [usizeWord_piece hSecond, Nat.mod_eq_of_lt (by omega)]
  · rw [usizeWord_piece hCount, List.length_map, Nat.mod_eq_of_lt (by omega)]
  · have hTake := take_drop_piece hString
    rw [List.length_map] at hTake
    exact hTake

/-- The decoder runs its loop over the commands. -/
theorem decode_routerCall {tx : DecodeTx} {commands : List Command} {deadline : U256}
    (hCall : tx.input.data = routerCall commands deadline) :
    decode .debug tx =
      collectEach (routerCommand .debug (arguments commands deadline) (tx.toAddr.getD 0)
        (inputsAt commands) (inputsAt commands + 32))
        (commands.map Command.byte).zipIdx := by
  have hSize := tx.input.length_lt
  have hSelector : selectorOf tx.input.data = 0x3593564c := by
    rw [hCall, routerCall, selectorOf, List.take_left' (encodeBE_length 4 _), beNat_encodeBE]
    rfl
  have hDrop : tx.input.data.drop 4 = arguments commands deadline := by
    rw [hCall, routerCall, List.drop_left' (encodeBE_length 4 _)]
  have hFour : 4 ≤ tx.input.data.length := by
    rw [hCall, routerCall, List.length_append, encodeBE_length]
    omega
  have hLength : (arguments commands deadline).length < 2 ^ 63 := by
    rw [← hDrop, List.length_drop]
    omega
  obtain ⟨hFirst, hSecond, hCount, hEnd, hBytes, hInputs⟩ := arguments_layout rfl hLength
  have hInputsLe := le_length_piece hInputs (by simp [bytesArrayTail])
  unfold decode
  rw [if_neg (by omega), hSelector]
  show decodeUniversalRouter .debug tx.input.data (tx.toAddr.getD 0) = _
  unfold decodeUniversalRouter
  rw [if_pos hFour]
  dsimp only
  rw [hDrop, if_neg (by omega), readUsize_inside hLength (by omega), value_bind, hFirst,
    readUsize_inside hLength (by omega), value_bind, hCount, uadd_of_lt .debug (by decide),
    value_bind, uadd_of_lt .debug (by unfold M; omega), value_bind, if_neg (by omega),
    slice_of_le (by omega) (by omega), value_bind, readUsize_inside hLength (by omega),
    value_bind, hSecond, uadd_of_lt .debug (by unfold M; omega), value_bind,
    Nat.add_sub_cancel_left, hBytes]

/-- A command that the decoder treats as it should. -/
def Survives (data : List UInt8) (start : Nat) : Command → Prop
  | .swap swap => Coincides data start swap
  | .other _ _ _ => Harmless data start

/-- Any build does it if and only if the debug build does. -/
theorem decodes_iff_debug (tx : DecodeTx) (commands : List Command) :
    Decodes tx commands ↔ ∃ infos, decode .debug tx = .value infos ∧
      List.Forall₂ Reports infos (commands.filterMap Command.swap?) := by
  constructor
  · intro hAll
    exact hAll .debug
  · intro hDebug build
    cases build with
    | debug => exact hDebug
    | release =>
        obtain ⟨infos, hValue, hMatch⟩ := hDebug
        have hReturns : (decode .debug tx).Returns := by
          rw [hValue]
          exact returns_value infos
        exact ⟨infos, (refines_decode tx hReturns).trans hValue, hMatch⟩

/-- The record of the `k`-th command. -/
theorem gives_iff {commands : List Command} {deadline : U256}
    (hLength : (arguments commands deadline).length < 2 ^ 63) (toAddr : Address) {k : Nat}
    {command : Command} (hCommand : commands[k]? = some command) :
    (command.swap? = .none → ∀ info, routerCommand .debug (arguments commands deadline) toAddr
        (inputsAt commands) (inputsAt commands + 32) (command.byte, k) ≠ .value info) ∧
      (Gives Reports (routerCommand .debug (arguments commands deadline) toAddr
          (inputsAt commands) (inputsAt commands + 32) (command.byte, k)) command.swap? ↔
        Survives (arguments commands deadline) (inputStart commands k) command) := by
  obtain ⟨_, _, _, _, _, hInputs⟩ := arguments_layout rfl hLength
  have hInput : (commands.map Command.input)[k]? = some command.input := by
    rw [List.getElem?_map, hCommand]
    rfl
  obtain ⟨hOffset, hTail⟩ := bytesArrayTail_at hInputs hInput
  have hSlot := le_length_piece hOffset (by simp)
  have hStart := le_length_piece hTail (by simp [Value.tail])
  rw [wordBytes_length] at hSlot
  have hOff : inputsAt commands + usizeWord (arguments commands deadline)
      (inputsAt commands + 32 + 32 * k) + 32 = inputStart commands k := by
    rw [usizeWord_piece hOffset, Nat.mod_eq_of_lt (by omega), inputStart]
    omega
  have hIn : inputStart commands k ≤ (arguments commands deadline).length :=
    (Nat.le_add_right _ _).trans hStart
  cases command with
  | other byte input notSwap =>
      obtain ⟨hNever, hNone⟩ := routerCommand_other toAddr hLength hSlot hOff hIn notSwap
      exact ⟨fun _ => hNever, hNone⟩
  | swap swap =>
      refine ⟨fun hSwap => absurd hSwap (by simp [Command.swap?]), ?_⟩
      have hSize : swap.input.length < 2 ^ 63 := by
        rw [Value.tail, List.length_append, List.length_append] at hStart
        show (Command.swap swap).input.length < 2 ^ 63
        omega
      exact routerCommand_swap toAddr hLength hSlot hOff hIn hSize hTail

/-- **The exact condition.**  The decoder gives one record for each swap if and only if each
command that is no swap has a harmless word before its input, and each swap has the length
of its own input for recipient, amount and least amount, and is followed by a path with the
same ends. -/
theorem decodes_iff (tx : DecodeTx) (commands : List Command) (deadline : U256)
    (hCall : tx.input.data = routerCall commands deadline) :
    Decodes tx commands ↔ ∀ k command, commands[k]? = some command →
      Survives (arguments commands deadline) (inputStart commands k) command := by
  have hLength : (arguments commands deadline).length < 2 ^ 63 := by
    have hSize := tx.input.length_lt
    rw [hCall, routerCall, List.length_append] at hSize
    omega
  have hItems : (commands.map Command.byte).zipIdx =
      commands.zipIdx.map fun item => (item.1.byte, item.2) := List.zipIdx_map
  have hSwaps : commands.filterMap Command.swap? =
      commands.zipIdx.filterMap fun item => item.1.swap? := by
    rw [← Function.comp_def Command.swap? Prod.fst, ← List.filterMap_map, List.zipIdx_map_fst]
  have hOnly : ∀ item ∈ commands.zipIdx, item.1.swap? = .none → ∀ info,
      routerCommand .debug (arguments commands deadline) (tx.toAddr.getD 0) (inputsAt commands)
        (inputsAt commands + 32) (item.1.byte, item.2) ≠ .value info := by
    intro item hItem
    exact (gives_iff hLength _ (List.mem_zipIdx_iff_getElem?.mp hItem)).1
  rw [decodes_iff_debug, decode_routerCall hCall, hItems, collectEach_map, hSwaps,
    collectEach_forall₂_iff hOnly]
  constructor
  · intro hGives k command hCommand
    have hItem := hGives (command, k) (List.mk_mem_zipIdx_iff_getElem?.mpr hCommand)
    exact (gives_iff hLength _ hCommand).2.mp hItem
  · intro hSurvives item hItem
    have hCommand := List.mem_zipIdx_iff_getElem?.mp hItem
    exact (gives_iff hLength _ hCommand).2.mpr (hSurvives item.2 item.1 hCommand)

/-- Three commands.  The first one's input says 352 bytes, and the swap's own input has 256;
behind it lie 32 and 2, which are also its tokens. -/
def coincidence : List Command :=
  [.other 0x0b (wordBytes 352) (by decide),
    .swap ⟨256, 256, 256, .tokens 0x20 0x02 [], false⟩,
    .other 0x0b (wordBytes 2) (by decide)]

def coincidenceTx : DecodeTx where
  toAddr := some 0x66a9893cC07D91D95644AEDD05D03f95e1dBA8Af
  value := 0
  input := ⟨routerCall coincidence 0, by
    simp [routerCall, arguments, bytesArrayTail, encodeTuple, heads_length, coincidence,
      Value.tail, padding, Command.input, Command.byte, Swap.input, SwapPath.value]⟩

/-- The swap is reported, with fields that are all read in the wrong place. -/
theorem coincidence_decodes : Decodes coincidenceTx coincidence := by
  apply (decodes_iff coincidenceTx coincidence 0 rfl).mpr
  intro k command hCommand
  match k, hCommand with
  | 0, hCommand =>
      obtain rfl := Option.some.inj hCommand
      show Harmless _ _
      unfold Harmless
      decide +kernel
  | 1, hCommand =>
      obtain rfl := Option.some.inj hCommand
      show Coincides _ _ _
      unfold Coincides Spells
      decide +kernel
  | 2, hCommand =>
      obtain rfl := Option.some.inj hCommand
      show Harmless _ _
      unfold Harmless
      decide +kernel

/-- One ether for at least 2500 dollars, over one V3 pool. -/
def oneSwap : Swap where
  recipient := 0xd8dA6BF26964aF9D7eEd9e03E53415D37aA96045
  amountIn := 1000000000000000000
  amountOutMin := 2500000000
  path := .packed 0x4200000000000000000000000000000000000006
    (500, 0x833589fCD6eDb6E08f4c7C32D4f71b54bdA02913) []
  payerIsUser := true

def oneSwapTx : DecodeTx where
  toAddr := some 0x66a9893cC07D91D95644AEDD05D03f95e1dBA8Af
  value := 0
  input := ⟨routerCall [.swap oneSwap] 0, by
    simp [routerCall, arguments, bytesArrayTail, encodeTuple, heads_length, oneSwap,
      Value.tail, padding, Command.input, Command.byte, Swap.input, SwapPath.value,
      SwapPath.packedHop]⟩

/-- **A single swap is not reported**, in either build. -/
theorem not_decodes :
    decode .debug oneSwapTx = .value [] ∧ decode .release oneSwapTx = .value [] ∧
      ¬ ∀ (tx : DecodeTx) (commands : List Command) (deadline : U256),
        tx.input.data = routerCall commands deadline → Decodes tx commands := by
  have hDebug : decode .debug oneSwapTx = .value [] := by decide +kernel
  have hRelease : decode .release oneSwapTx = .value [] := by
    have hReturns : (decode .debug oneSwapTx).Returns := by
      rw [hDebug]
      exact returns_value []
    exact (refines_decode oneSwapTx hReturns).trans hDebug
  refine ⟨hDebug, hRelease, ?_⟩
  intro hAll
  obtain ⟨infos, hValue, hMatch⟩ := hAll oneSwapTx [.swap oneSwap] 0 rfl .release
  obtain rfl : [] = infos := by
    rw [hRelease] at hValue
    injection hValue
  have hLength := hMatch.length_eq
  simp [Command.swap?] at hLength

end SovereignShadow.Ports.RouterCalldata
