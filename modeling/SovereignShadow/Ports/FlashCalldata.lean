import SovereignShadow.Ports.ShadowBot
import SovereignShadow.Verified.Abi

/-!
# The calldata of the flash-loan calls

Port of the memory writes of `_initBalancerFlash` and `_initAaveFlash`: what lies in the
region that each passes to `call`.

Both put the selector in the low bytes of a whole word and then write the first argument
over it, so the region starts with four zero bytes.  Behind them the Balancer arguments
are laid out as the ABI says.  The Aave head has seven words, but the arrays are laid out
behind six: the `assets` offset points at the referral code, and the length of `amounts`
is written over the last token.

## Main results

* `initBalancerFlash_eq`, `initAaveFlash_eq` — the regions, byte by byte.
* `initBalancerFlash_ne` — the Balancer region is not the encoding of its call.
* `decode_initAaveFlash` — what the Aave arguments decode to: no assets.
* `decode_initAaveFlash_ne` — so they are not those of the payload.
-/

namespace SovereignShadow.Ports.FlashCalldata

open SovereignShadow.Verified.Bytes
open SovereignShadow.Verified.Abi
open SovereignShadow.Ports.Models
open SovereignShadow.Ports.Evm
open SovereignShadow.Ports.GhostPayload
open SovereignShadow.Ports.ShadowBot

/-! ## The routines -/

/-- `mstore`. -/
def mstore (m : ByteMem) (p : Nat) (word : U256) : ByteMem := store m p (wordBytes word.toNat)

/-- `mload(0x40)`. -/
def freePointer (m : ByteMem) : Nat := (loadWord m 0x40).toNat

/-- A loop over the loans: `value(dataPtr)` is stored at `dst`, which moves on by a word,
and `dataPtr` by a loan. -/
def copyColumn (value : Nat → U256) : ByteMem → Nat → Nat → Nat → ByteMem
  | m, _, _, 0 => m
  | m, dst, dataPtr, n + 1 =>
      copyColumn value (mstore m dst (value dataPtr)) (dst + 0x20) (dataPtr + 52) n

/-- `shr(96, calldataload(dataPtr))`. -/
def loadToken (data : CalldataSlice) (dataPtr : Nat) : U256 :=
  shr96 (loadWord data.calldata dataPtr)

/-- `calldataload(dataPtr)`. -/
def loadAmount (data : CalldataSlice) (dataPtr : Nat) : U256 := loadWord data.calldata dataPtr

/-- The region that `_initBalancerFlash` passes to `call`. -/
def initBalancerFlash (self : Address) (memory : ByteMem) (data : CalldataSlice)
    (loansLen : Nat) : List UInt8 :=
  let ptr := freePointer memory
  let m := mstore memory ptr 0xab512f51
  let m := mstore m (ptr + 0x04) (addressWord self)
  let m := mstore m (ptr + 0x24) 0x80
  let amountsOff := 0x80 + (0x20 + loansLen * 0x20)
  let m := mstore m (ptr + 0x44) (BitVec.ofNat 256 amountsOff)
  let userDataOff := amountsOff + (0x20 + loansLen * 0x20)
  let m := mstore m (ptr + 0x64) (BitVec.ofNat 256 userDataOff)
  let m := mstore m (ptr + 0x84) (BitVec.ofNat 256 loansLen)
  let m := copyColumn (loadToken data) m (ptr + 0xa4) (data.offset + 34) loansLen
  let m := mstore m (ptr + (amountsOff + 0x04)) (BitVec.ofNat 256 loansLen)
  let m := copyColumn (loadAmount data) m (ptr + (amountsOff + 0x24)) (data.offset + 54) loansLen
  let m := mstore m (ptr + (userDataOff + 0x04)) (BitVec.ofNat 256 data.length)
  let m := store m (ptr + (userDataOff + 0x24)) data.bytes
  slice m ptr (userDataOff + (0x24 + data.length))

/-- The region that `_initAaveFlash` passes to `call`. -/
def initAaveFlash (self : Address) (memory : ByteMem) (data : CalldataSlice)
    (loansLen : Nat) : List UInt8 :=
  let ptr := freePointer memory
  let m := mstore memory ptr 0x0b69324d
  let m := mstore m (ptr + 0x04) (addressWord self)
  let m := mstore m (ptr + 0x24) 0xc0
  let amountsOff := 0xc0 + (0x20 + loansLen * 0x20)
  let m := mstore m (ptr + 0x44) (BitVec.ofNat 256 amountsOff)
  let modesOff := amountsOff + (0x20 + loansLen * 0x20)
  let m := mstore m (ptr + 0x64) (BitVec.ofNat 256 modesOff)
  let m := mstore m (ptr + 0x84) (addressWord self)
  let paramsOff := modesOff + (0x20 + loansLen * 0x20)
  let m := mstore m (ptr + 0xa4) (BitVec.ofNat 256 paramsOff)
  let m := mstore m (ptr + 0xc4) 0
  let m := mstore m (ptr + 0xe4) (BitVec.ofNat 256 loansLen)
  let m := copyColumn (loadToken data) m (ptr + 0x104) (data.offset + 34) loansLen
  let m := mstore m (ptr + (amountsOff + 0x04)) (BitVec.ofNat 256 loansLen)
  let m := copyColumn (loadAmount data) m (ptr + (amountsOff + 0x24)) (data.offset + 54) loansLen
  let m := mstore m (ptr + (modesOff + 0x04)) (BitVec.ofNat 256 loansLen)
  let m := mstore m (ptr + (paramsOff + 0x04)) (BitVec.ofNat 256 data.length)
  let m := store m (ptr + (paramsOff + 0x24)) data.bytes
  slice m ptr (paramsOff + (0x24 + data.length))

/-! ## Runs of words -/

def words (ws : List U256) : List UInt8 := (ws.map BitVec.toNat).flatMap wordBytes

@[simp] theorem words_length (ws : List U256) : (words ws).length = 32 * ws.length := by
  rw [words, flatMap_wordBytes_length, List.length_map]

@[simp] theorem words_append (ws ws' : List U256) : words (ws ++ ws') = words ws ++ words ws' := by
  simp [words]

/-- The memory with four zero bytes and the words `ws` from the free pointer on. -/
def Laid (m₀ m : ByteMem) (ptr : Nat) (ws : List U256) : Prop :=
  Written m₀ m ptr (List.replicate 4 0 ++ words ws)

section Runs

variable {m₀ m : ByteMem} {ptr : Nat} {ws : List U256}

/-- The first argument overwrites the selector. -/
theorem laid_selector (m₀ : ByteMem) (ptr : Nat) (selector : U256)
    (hSelector : (wordBytes selector.toNat).take 4 = List.replicate 4 0) (word : U256) :
    Laid m₀ (mstore (mstore m₀ ptr selector) (ptr + 0x04) word) ptr [word] := by
  have hStore := @Written.store _ _ _ 4 (wordBytes word.toNat) _
    (Written.first m₀ ptr (wordBytes selector.toNat)) (by simp) (by simp)
  rw [hSelector] at hStore
  simpa [Laid, words, mstore] using hStore

/-- A store inside the run or at its end cuts it there. -/
theorem laid_mstore_at (h : Laid m₀ m ptr ws) {q k : Nat} (hq : q = ptr + (4 + 32 * k))
    (hk : k ≤ ws.length) (hEnd : ws.length ≤ k + 1) (word : U256) :
    Laid m₀ (mstore m q word) ptr (ws.take k ++ [word]) := by
  have hStore := @Written.store _ _ _ (4 + 32 * k) (wordBytes word.toNat) _ h
    (by simp; omega) (by simp; omega)
  have hSplit : words ws = words (ws.take k) ++ words (ws.drop k) := by
    rw [← words_append, List.take_append_drop]
  have hCut : (List.replicate 4 (0 : UInt8) ++ words ws).take (4 + 32 * k) =
      List.replicate 4 0 ++ words (ws.take k) := by
    rw [hSplit, ← List.append_assoc]
    apply List.take_left'
    simp only [List.length_append, List.length_replicate, words_length, List.length_take]
    omega
  rw [hCut, ← hq] at hStore
  simpa [Laid, words, mstore, List.append_assoc] using hStore

theorem laid_mstore (h : Laid m₀ m ptr ws) {q : Nat} (hq : q = ptr + (4 + 32 * ws.length))
    (word : U256) : Laid m₀ (mstore m q word) ptr (ws ++ [word]) := by
  have hStore := laid_mstore_at h hq le_rfl (Nat.le_succ _) word
  rwa [List.take_length] at hStore

/-- The values that a loop over the loans stores. -/
def column (value : Nat → U256) : Nat → Nat → List U256
  | _, 0 => []
  | dataPtr, n + 1 => value dataPtr :: column value (dataPtr + 52) n

theorem laid_column (value : Nat → U256) (h : Laid m₀ m ptr ws) {q : Nat}
    (hq : q = ptr + (4 + 32 * ws.length)) (dataPtr n : Nat) :
    Laid m₀ (copyColumn value m q dataPtr n) ptr (ws ++ column value dataPtr n) := by
  induction n generalizing m q ws dataPtr with
  | zero =>
      rw [column, List.append_nil]
      exact h
  | succ n ih =>
      have hStep := ih (laid_mstore h hq (value dataPtr))
        (show q + 0x20 = _ by rw [List.length_append, List.length_singleton]; omega) (dataPtr + 52)
      rwa [List.append_assoc] at hStep

/-- Words that are not stored to, where the memory is zero. -/
theorem laid_zeros (h : Laid m₀ m ptr ws) (n : Nat)
    (hZero : ∀ i, ptr ≤ i → m₀ i = 0) : Laid m₀ m ptr (ws ++ List.replicate n 0) := by
  have hHeld : Holds m₀ (ptr + (List.replicate 4 (0 : UInt8) ++ words ws).length)
      (words (List.replicate n 0)) := by
    have hWords : words (List.replicate n 0) = List.replicate (32 * n) 0 := by
      have hZeroWord : wordBytes 0 = List.replicate 32 0 := by decide
      rw [words, List.map_replicate]
      induction n with
      | zero => rfl
      | succ n ih =>
          rw [List.replicate_succ, List.flatMap_cons, ih, Nat.mul_add, Nat.add_comm,
            List.replicate_add]
          exact congrArg (· ++ _) hZeroWord
    rw [hWords]
    intro i hi
    rw [hZero _ (by omega), List.getElem_replicate]
  have hSkip := Written.skip h hHeld
  rwa [List.append_assoc, ← words_append] at hSkip

end Runs

/-! ## Columns -/

theorem readLoanTokens_eq (data : CalldataSlice) (dataPtr n : Nat) :
    readLoanTokens (loadWord data.calldata) dataPtr n = column (loadToken data) dataPtr n := by
  induction n generalizing dataPtr with
  | zero => rfl
  | succ n ih => rw [readLoanTokens, ih, column, loadToken]

theorem readLoanAmounts_eq (data : CalldataSlice) (dataPtr n : Nat) :
    readLoanAmounts (loadWord data.calldata) dataPtr n = column (loadAmount data) dataPtr n := by
  induction n generalizing dataPtr with
  | zero => rfl
  | succ n ih => rw [readLoanAmounts, ih, column, loadAmount]

@[simp] theorem column_length (value : Nat → U256) (dataPtr n : Nat) :
    (column value dataPtr n).length = n := by
  induction n generalizing dataPtr with
  | zero => rfl
  | succ n ih => rw [column, List.length_cons, ih]

/-! ## The regions -/

@[simp] theorem bytes_length (data : CalldataSlice) : data.bytes.length = data.length := by
  simp [CalldataSlice.bytes]

/-- The words of the Balancer region behind its first four bytes. -/
def balancerWords (self : Address) (data : CalldataSlice) (n : Nat) : List U256 :=
  [addressWord self, 0x80, BitVec.ofNat 256 (0x80 + (0x20 + n * 0x20)),
    BitVec.ofNat 256 (0x80 + (0x20 + n * 0x20) + (0x20 + n * 0x20)), BitVec.ofNat 256 n] ++
    column (loadToken data) (data.offset + 34) n ++ [BitVec.ofNat 256 n] ++
    column (loadAmount data) (data.offset + 54) n ++ [BitVec.ofNat 256 data.length]

theorem initBalancerFlash_eq (self : Address) (memory : ByteMem) (data : CalldataSlice)
    (n : Nat) : initBalancerFlash self memory data n =
      List.replicate 4 0 ++ words (balancerWords self data n) ++ data.bytes := by
  have hSelf := laid_selector memory (freePointer memory) 0xab512f51
    (by decide) (addressWord self)
  have hTokensOff := laid_mstore hSelf (q := freePointer memory + 0x24) rfl 0x80
  have hAmountsOff := laid_mstore hTokensOff (q := freePointer memory + 0x44) rfl
    (BitVec.ofNat 256 (0x80 + (0x20 + n * 0x20)))
  have hUserDataOff := laid_mstore hAmountsOff (q := freePointer memory + 0x64) rfl
    (BitVec.ofNat 256 (0x80 + (0x20 + n * 0x20) + (0x20 + n * 0x20)))
  have hLength := laid_mstore hUserDataOff (q := freePointer memory + 0x84) rfl
    (BitVec.ofNat 256 n)
  have hTokens := laid_column (loadToken data) hLength (q := freePointer memory + 0xa4) rfl
    (data.offset + 34) n
  have hAmountsLength := laid_mstore hTokens
    (q := freePointer memory + (0x80 + (0x20 + n * 0x20) + 0x04))
    (by simp; omega) (BitVec.ofNat 256 n)
  have hAmounts := laid_column (loadAmount data) hAmountsLength
    (q := freePointer memory + (0x80 + (0x20 + n * 0x20) + 0x24))
    (by simp; omega) (data.offset + 54) n
  have hDataLength := laid_mstore hAmounts
    (q := freePointer memory + (0x80 + (0x20 + n * 0x20) + (0x20 + n * 0x20) + 0x04))
    (by simp; omega) (BitVec.ofNat 256 data.length)
  have hData := Written.append hDataLength
    (q := freePointer memory + (0x80 + (0x20 + n * 0x20) + (0x20 + n * 0x20) + 0x24))
    (by simp; omega) data.bytes
  exact hData.slice (by simp; omega)

/-- The seven words of the Aave head. -/
def aaveHead (self : Address) (n : Nat) : List U256 :=
  [addressWord self, 0xc0, BitVec.ofNat 256 (0xc0 + (0x20 + n * 0x20)),
    BitVec.ofNat 256 (0xc0 + (0x20 + n * 0x20) + (0x20 + n * 0x20)), addressWord self,
    BitVec.ofNat 256 (0xc0 + (0x20 + n * 0x20) + (0x20 + n * 0x20) + (0x20 + n * 0x20)), 0]

/-- What is left of the length and the tokens: the last word is overwritten. -/
def aaveAssets (data : CalldataSlice) (n : Nat) : List U256 :=
  (BitVec.ofNat 256 n :: column (loadToken data) (data.offset + 34) n).take n

@[simp] theorem aaveHead_length (self : Address) (n : Nat) : (aaveHead self n).length = 7 := rfl

@[simp] theorem aaveAssets_length (data : CalldataSlice) (n : Nat) :
    (aaveAssets data n).length = n := by
  simp [aaveAssets]

/-- The words of the Aave region behind its first four bytes. -/
def aaveWords (self : Address) (data : CalldataSlice) (n : Nat) : List U256 :=
  aaveHead self n ++ aaveAssets data n ++
    [BitVec.ofNat 256 n] ++ column (loadAmount data) (data.offset + 54) n ++
    [BitVec.ofNat 256 n] ++ List.replicate n 0 ++ [BitVec.ofNat 256 data.length]

theorem initAaveFlash_eq (self : Address) {memory : ByteMem} (data : CalldataSlice) (n : Nat)
    (hZero : ∀ i, freePointer memory ≤ i → memory i = 0) :
    initAaveFlash self memory data n =
      List.replicate 4 0 ++ words (aaveWords self data n) ++ data.bytes := by
  have hSelf := laid_selector memory (freePointer memory) 0x0b69324d
    (by decide) (addressWord self)
  have hAssetsOff := laid_mstore hSelf (q := freePointer memory + 0x24) rfl 0xc0
  have hAmountsOff := laid_mstore hAssetsOff (q := freePointer memory + 0x44) rfl
    (BitVec.ofNat 256 (0xc0 + (0x20 + n * 0x20)))
  have hModesOff := laid_mstore hAmountsOff (q := freePointer memory + 0x64) rfl
    (BitVec.ofNat 256 (0xc0 + (0x20 + n * 0x20) + (0x20 + n * 0x20)))
  have hOnBehalfOf := laid_mstore hModesOff (q := freePointer memory + 0x84) rfl
    (addressWord self)
  have hParamsOff := laid_mstore hOnBehalfOf (q := freePointer memory + 0xa4) rfl
    (BitVec.ofNat 256 (0xc0 + (0x20 + n * 0x20) + (0x20 + n * 0x20) + (0x20 + n * 0x20)))
  have hReferral := laid_mstore hParamsOff (q := freePointer memory + 0xc4) rfl 0
  have hLength := laid_mstore hReferral (q := freePointer memory + 0xe4) rfl
    (BitVec.ofNat 256 n)
  have hTokens := laid_column (loadToken data) hLength (q := freePointer memory + 0x104) rfl
    (data.offset + 34) n
  -- The length of `amounts` goes to the word before the end of the tokens.
  have hAmountsLength := laid_mstore_at hTokens
    (q := freePointer memory + (0xc0 + (0x20 + n * 0x20) + 0x04)) (k := 7 + n)
    (by omega) (by simp; omega) (by simp; omega) (BitVec.ofNat 256 n)
  have hCut : ([addressWord self] ++ [0xc0] ++ [BitVec.ofNat 256 (0xc0 + (0x20 + n * 0x20))] ++
      [BitVec.ofNat 256 (0xc0 + (0x20 + n * 0x20) + (0x20 + n * 0x20))] ++ [addressWord self] ++
      [BitVec.ofNat 256 (0xc0 + (0x20 + n * 0x20) + (0x20 + n * 0x20) + (0x20 + n * 0x20))] ++
      [0] ++ [BitVec.ofNat 256 n] ++ column (loadToken data) (data.offset + 34) n).take (7 + n) =
        aaveHead self n ++ aaveAssets data n := by
    rw [Nat.add_comm]
    rfl
  rw [hCut] at hAmountsLength
  have hAmounts := laid_column (loadAmount data) hAmountsLength
    (q := freePointer memory + (0xc0 + (0x20 + n * 0x20) + 0x24))
    (by simp; omega) (data.offset + 54) n
  have hModesLength := laid_mstore hAmounts
    (q := freePointer memory + (0xc0 + (0x20 + n * 0x20) + (0x20 + n * 0x20) + 0x04))
    (by simp; omega) (BitVec.ofNat 256 n)
  have hModes := laid_zeros hModesLength n hZero
  have hDataLength := laid_mstore hModes
    (q := freePointer memory + (0xc0 + (0x20 + n * 0x20) + (0x20 + n * 0x20) +
      (0x20 + n * 0x20) + 0x04))
    (by simp; omega) (BitVec.ofNat 256 data.length)
  have hData := Written.append hDataLength
    (q := freePointer memory + (0xc0 + (0x20 + n * 0x20) + (0x20 + n * 0x20) +
      (0x20 + n * 0x20) + 0x24))
    (by simp; omega) data.bytes
  exact hData.slice (by simp; omega)

/-! ## The Balancer call -/

/-- The arguments of `flashLoan(address,address[],uint256[],bytes)`. -/
def balancerArguments (self : Address) (data : CalldataSlice) (n : Nat) : List Value :=
  let loans := initBalancerFlashLoans data.calldata data.offset n
  [.word self.toNat, .words (loans.1.map BitVec.toNat), .words (loans.2.map BitVec.toNat),
    .bytes data.bytes]

theorem addressWord_toNat (a : Address) : (addressWord a).toNat = a.toNat := by
  rw [addressWord, BitVec.toNat_setWidth, Nat.mod_eq_of_lt]
  exact a.isLt.trans (by norm_num)

/-- All but the selector and the last padding is the encoding of the arguments. -/
theorem initBalancerFlash_arguments (self : Address) (memory : ByteMem) {data : CalldataSlice}
    {n : Nat} (hn : n < 256) (hLength : data.length < 2 ^ 256) :
    initBalancerFlash self memory data n ++ padding data.length =
      List.replicate 4 0 ++ encodeTuple (balancerArguments self data n) := by
  have hNat : ∀ k, k < 2 ^ 256 → (BitVec.ofNat 256 k).toNat = k := by
    intro k hk
    rw [BitVec.toNat_ofNat, Nat.mod_eq_of_lt hk]
  have hSmall : n < 2 ^ 256 := hn.trans (by norm_num)
  have hAmounts : 0x80 + (0x20 + n * 0x20) < 2 ^ 256 :=
    (show _ < 2 ^ 20 by omega).trans (by norm_num)
  have hUserData : 0x80 + (0x20 + n * 0x20) + (0x20 + n * 0x20) < 2 ^ 256 :=
    (show _ < 2 ^ 20 by omega).trans (by norm_num)
  have hColumn : 32 * n = n * 32 := Nat.mul_comm 32 n
  rw [initBalancerFlash_eq]
  simp [-List.length_flatMap, balancerWords, words, balancerArguments, encodeTuple, heads,
    Value.tail, initBalancerFlashLoans, readLoanTokens_eq, readLoanAmounts_eq, addressWord_toNat,
    hNat _ hSmall, hNat _ hAmounts, hNat _ hUserData, hNat _ hLength, hColumn]

/-- **The region is never the encoding of the call**: its selector is zero. -/
theorem initBalancerFlash_ne (self : Address) (memory : ByteMem) (data : CalldataSlice)
    (n : Nat) : initBalancerFlash self memory data n ≠
      encodeBE 4 0xab512f51 ++ encodeTuple (balancerArguments self data n) := by
  intro hEq
  rw [initBalancerFlash_eq, List.append_assoc] at hEq
  have hHead := congrArg (List.take 4) hEq
  rw [List.take_left' (List.length_replicate ..), List.take_left' (encodeBE_length 4 _)] at hHead
  exact absurd hHead (by decide)

/-! ## The Aave call -/

/-- The types of `flashLoan(address,address[],uint256[],uint256[],address,bytes,uint16)`. -/
def aaveTypes : List Ty :=
  [.word 160, .words 160, .words 256, .words 256, .word 160, .bytes, .word 16]

/-- What the arguments should be. -/
def aaveArguments (self : Address) (data : CalldataSlice) (n : Nat) : List Value :=
  let loans := initAaveFlashLoans data.calldata data.offset n
  [.word self.toNat, .words (loans.1.map BitVec.toNat), .words (loans.2.map BitVec.toNat),
    .words (List.replicate n 0), .word self.toNat, .bytes data.bytes, .word 0]

/-- The argument area of a region, decoded. -/
def decodeArguments (tys : List Ty) (region : List UInt8) : Option (List Value) :=
  decodeTuple (ofList (region.drop 4)) 0 (region.length - 4) tys

section Words

variable {m : ByteMem} {pre mid post : List U256} {rest : List UInt8}

theorem holds_words (h : Holds m 0 (words (pre ++ mid ++ post) ++ rest)) :
    Holds m (32 * pre.length) (words mid) := by
  rw [words_append, words_append, Holds.append_iff, Holds.append_iff, Holds.append_iff] at h
  have hMid := h.1.1.2
  rwa [words_length, Nat.zero_add] at hMid

theorem holds_tail (h : Holds m 0 (words (pre ++ mid) ++ rest)) :
    Holds m (32 * pre.length) (words mid ++ rest) := by
  rw [words_append, List.append_assoc, Holds.append_iff] at h
  have hTail := h.2
  rwa [words_length, Nat.zero_add] at hTail

theorem readBE_words {ws : List U256} {i : Nat} {w : U256} (hw : ws[i]? = some w)
    (h : Holds m 0 (words ws ++ rest)) : readBE m (32 * i) 32 = w.toNat := by
  obtain ⟨hi, rfl⟩ := List.getElem?_eq_some_iff.mp hw
  have hSplit : ws = ws.take i ++ [ws[i]] ++ ws.drop (i + 1) := by
    rw [List.append_assoc, List.singleton_append, ← List.drop_eq_getElem_cons hi,
      List.take_append_drop]
  rw [hSplit] at h
  have hWord := holds_words h
  rw [List.length_take, Nat.min_eq_left hi.le] at hWord
  simp only [words, List.map_cons, List.map_nil, List.flatMap_cons, List.flatMap_nil,
    List.append_nil] at hWord
  exact readBE_wordBytes hWord ws[i].isLt

end Words

section Decode

variable {self : Address} {memory : ByteMem} {data : CalldataSlice} {n : Nat}
  (hZero : ∀ i, freePointer memory ≤ i → memory i = 0)
include hZero

/-- The argument area carries the words and the payload. -/
theorem holds_arguments : Holds (ofList ((initAaveFlash self memory data n).drop 4)) 0
    (words (aaveWords self data n) ++ data.bytes) := by
  rw [initAaveFlash_eq self data n hZero, List.append_assoc,
    List.drop_left' (List.length_replicate ..)]
  have hList := holds_ofList [] (words (aaveWords self data n) ++ data.bytes) []
  simpa using hList

theorem arguments_length : (initAaveFlash self memory data n).length - 4 =
    32 * (10 + 3 * n) + data.length := by
  rw [initAaveFlash_eq self data n hZero]
  simp [aaveWords]
  omega

/-- The `assets` offset points at the referral code, which reads as the length zero. -/
theorem decode_assets :
    decodeComponent (ofList ((initAaveFlash self memory data n).drop 4)) 0
      ((initAaveFlash self memory data n).length - 4) 32 (.words 160) = some (.words []) := by
  have hHeld := @holds_arguments self memory data n hZero
  have hOffset := readBE_words (i := 1) (w := 0xc0) rfl hHeld
  have hReferral := readBE_words (i := 6) (w := 0) rfl hHeld
  have hSize := @arguments_length self memory data n hZero
  have hOffsetNat : (0xc0 : U256).toNat = 192 := rfl
  have hReferralNat : (0 : U256).toNat = 0 := rfl
  rw [hOffsetNat] at hOffset
  rw [hReferralNat] at hReferral
  simp only [decodeComponent, Nat.zero_add]
  rw [show (32 : Nat) = 32 * 1 from rfl, hOffset, decodeWords]
  simp only [Nat.zero_add]
  rw [show (192 : Nat) = 32 * 6 from rfl, hReferral, if_neg (by omega)]
  rfl

/-- The array behind the words `pre`, its length word first. -/
theorem decode_array {pre mid post : List U256}
    (hWords : aaveWords self data n = pre ++ (BitVec.ofNat 256 mid.length :: mid) ++ post)
    (hMid : mid.length < 256) {bits : Nat} (hBits : bits ≤ 256)
    (hFit : ∀ w ∈ mid, w.toNat < 2 ^ bits) {offset : Nat} (hOffset : offset = 32 * pre.length) :
    decodeWords (ofList ((initAaveFlash self memory data n).drop 4)) 0
      ((initAaveFlash self memory data n).length - 4) bits offset =
        some (.words (mid.map BitVec.toNat)) := by
  have hHeld := @holds_arguments self memory data n hZero
  have hSize := @arguments_length self memory data n hZero
  have hCount : (aaveWords self data n).length = 10 + 3 * n := by simp [aaveWords]; omega
  rw [hWords] at hHeld hCount
  simp only [List.length_append, List.length_cons] at hCount
  have hLength : (BitVec.ofNat 256 mid.length).toNat = mid.length := by
    rw [BitVec.toNat_ofNat, Nat.mod_eq_of_lt (hMid.trans (by norm_num))]
  have hMidHeld := holds_words hHeld
  rw [← hOffset] at hMidHeld
  rw [hSize]
  apply decodeWords_eq hBits
  · rw [Nat.zero_add, List.length_map]
    simpa [words, hLength] using hMidHeld
  · intro x hx
    obtain ⟨w, hw, rfl⟩ := List.mem_map.mp hx
    exact hFit w hw
  · rw [List.length_map]
    exact hMid.trans (by norm_num)
  · rw [List.length_map]
    omega

/-- The payload comes back from behind the words. -/
theorem decode_params (hLength : data.length < 2 ^ 256) :
    decodeBytes (ofList ((initAaveFlash self memory data n).drop 4)) 0
      ((initAaveFlash self memory data n).length - 4)
      (0xc0 + (0x20 + n * 0x20) + (0x20 + n * 0x20) + (0x20 + n * 0x20)) =
        some (.bytes data.bytes) := by
  have hTail := holds_tail (@holds_arguments self memory data n hZero)
  have hDataLength : (BitVec.ofNat 256 data.length).toNat = data.length := by
    rw [BitVec.toNat_ofNat, Nat.mod_eq_of_lt hLength]
  have hOffset : 0xc0 + (0x20 + n * 0x20) + (0x20 + n * 0x20) + (0x20 + n * 0x20) =
      32 * (aaveHead self n ++ aaveAssets data n ++ [BitVec.ofNat 256 n] ++
        column (loadAmount data) (data.offset + 54) n ++ [BitVec.ofNat 256 n] ++
        List.replicate n 0).length := by
    simp
    omega
  rw [@arguments_length self memory data n hZero]
  apply decodeBytes_eq
  · rw [Nat.zero_add, bytes_length, hOffset]
    simpa [words, hDataLength] using hTail
  · rwa [bytes_length]
  · rw [bytes_length]
    omega

/-- What the Aave arguments decode to: all as meant, but no assets. -/
theorem decode_initAaveFlash (hn : n < 256) (hLength : data.length < 2 ^ 256) :
    decodeArguments aaveTypes (initAaveFlash self memory data n) =
      some [.word self.toNat, .words [],
        .words ((initAaveFlashLoans data.calldata data.offset n).2.map BitVec.toNat),
        .words (List.replicate n 0), .word self.toNat, .bytes data.bytes, .word 0] := by
  have hHeld := @holds_arguments self memory data n hZero
  have hSize := @arguments_length self memory data n hZero
  have hNat : ∀ k, k < 2 ^ 20 → (BitVec.ofNat 256 k).toNat = k := by
    intro k hk
    rw [BitVec.toNat_ofNat, Nat.mod_eq_of_lt (hk.trans (by norm_num))]
  have hReceiver := readBE_words (i := 0) (w := addressWord self) rfl hHeld
  have hOnBehalfOf := readBE_words (i := 4) (w := addressWord self) rfl hHeld
  have hReferral := readBE_words (i := 6) (w := 0) rfl hHeld
  have hAmountsOff := readBE_words (i := 2) rfl hHeld
  have hModesOff := readBE_words (i := 3) rfl hHeld
  have hParamsOff := readBE_words (i := 5) rfl hHeld
  rw [addressWord_toNat] at hReceiver hOnBehalfOf
  rw [hNat _ (by omega)] at hAmountsOff hModesOff hParamsOff
  have hZeros : ∀ w ∈ List.replicate n (0 : U256), w.toNat < 2 ^ 256 := fun w _ => w.isLt
  have hAmountsFit : ∀ w ∈ column (loadAmount data) (data.offset + 54) n, w.toNat < 2 ^ 256 :=
    fun w _ => w.isLt
  have hAmounts := @decode_array self memory data n hZero (aaveHead self n ++ aaveAssets data n)
    (column (loadAmount data) (data.offset + 54) n)
    ([BitVec.ofNat 256 n] ++ List.replicate n 0 ++ [BitVec.ofNat 256 data.length])
    (by simp [aaveWords]) (by simpa using hn) _ le_rfl hAmountsFit _
    (show 0xc0 + (0x20 + n * 0x20) = _ by simp; omega)
  have hModes := @decode_array self memory data n hZero (aaveHead self n ++ aaveAssets data n ++
      [BitVec.ofNat 256 n] ++ column (loadAmount data) (data.offset + 54) n)
    (List.replicate n 0) [BitVec.ofNat 256 data.length] (by simp [aaveWords]) (by simpa using hn) _
    le_rfl hZeros _ (show 0xc0 + (0x20 + n * 0x20) + (0x20 + n * 0x20) = _ by simp; omega)
  have hParams := @decode_params self memory data n hZero hLength
  have hReferralNat : (0 : U256).toNat = 0 := rfl
  rw [hReferralNat] at hReferral
  have hSelf : self.toNat < 2 ^ 160 := self.isLt
  have hAssets := @decode_assets self memory data n hZero
  have hHead : ¬ (initAaveFlash self memory data n).length - 4 < 32 * aaveTypes.length := by
    rw [hSize]
    simp only [aaveTypes, List.length_cons, List.length_nil]
    omega
  unfold decodeArguments decodeTuple
  rw [if_neg hHead]
  simp only [aaveTypes, decodeFrom, Nat.zero_add, Nat.reduceAdd, hAssets, Option.bind_eq_bind,
    Option.bind_some]
  simp only [decodeComponent, Nat.zero_add]
  norm_num at hReceiver hAmountsOff hModesOff hOnBehalfOf hParamsOff hReferral
  rw [hReceiver, hAmountsOff, hModesOff, hOnBehalfOf, hParamsOff, hReferral, hAmounts, hModes,
    hParams, if_pos hSelf, if_pos (by norm_num)]
  simp [initAaveFlashLoans, readLoanAmounts_eq]

/-- **The Aave arguments are never those of the payload.** -/
theorem decode_initAaveFlash_ne (hn : 0 < n) :
    decodeArguments aaveTypes (initAaveFlash self memory data n) ≠
      some (aaveArguments self data n) := by
  intro hEq
  unfold decodeArguments decodeTuple at hEq
  split at hEq
  · exact absurd hEq (by simp)
  · obtain ⟨receiver, _, hEq⟩ := Option.bind_eq_some_iff.mp hEq
    obtain ⟨values, hValues, hEq⟩ := Option.bind_eq_some_iff.mp hEq
    obtain ⟨assets, hAssets, hValues⟩ := Option.bind_eq_some_iff.mp hValues
    obtain ⟨later, _, hValues⟩ := Option.bind_eq_some_iff.mp hValues
    rw [Nat.zero_add, decode_assets hZero] at hAssets
    obtain rfl := Option.some.inj hAssets
    obtain rfl := Option.some.inj hValues
    have hSecond := congrArg (fun vs => vs.bind fun vs => vs[1]?) hEq
    have hTokens : ([] : List Nat) = (column (loadToken data) (data.offset + 34) n).map
        BitVec.toNat := by
      rw [← readLoanTokens_eq]
      exact Value.words.inj (Option.some.inj hSecond)
    have hLength := congrArg List.length hTokens
    rw [List.length_map, column_length, List.length_nil] at hLength
    omega

end Decode

/-! ## A payload of one loan -/

/-- Fresh memory, its free pointer at `0x80`. -/
def freshMemory : ByteMem := fun i => if i = 0x5f then 0x80 else 0

theorem freshMemory_zero (i : Nat) (hi : freePointer freshMemory ≤ i) : freshMemory i = 0 := by
  have hPointer : freePointer freshMemory = 0x80 := by decide
  rw [hPointer] at hi
  exact if_neg (by omega)

/-- No minimal profit, one loan of 5 of the token `0xA`, no hops. -/
def oneLoan : CalldataSlice where
  calldata := ofList (List.replicate 33 0 ++ [1] ++ encodeLoan (0xA, 5) ++ [0])
  offset := 0
  length := 87

theorem not_initBalancerFlash_oneLoan : ¬ initBalancerFlash 0x99 freshMemory oneLoan 1 =
    encodeBE 4 0xab512f51 ++ encodeTuple (balancerArguments 0x99 oneLoan 1) := by
  decide

theorem not_decode_initAaveFlash_oneLoan :
    ¬ decodeArguments aaveTypes (initAaveFlash 0x99 freshMemory oneLoan 1) =
      some (aaveArguments 0x99 oneLoan 1) := by
  rw [decode_initAaveFlash freshMemory_zero (by decide) (by decide)]
  intro hEq
  have hSecond := congrArg (fun vs => vs.bind fun vs => vs[1]?) hEq
  have hTokens := Value.words.inj (Option.some.inj hSecond)
  have hLength := congrArg List.length hTokens
  revert hLength
  decide

theorem decode_initAaveFlash_ne_oneLoan :
    decodeArguments aaveTypes (initAaveFlash 0x99 freshMemory oneLoan 1) ≠
      some (aaveArguments 0x99 oneLoan 1) :=
  decode_initAaveFlash_ne freshMemory_zero Nat.one_pos

end SovereignShadow.Ports.FlashCalldata
