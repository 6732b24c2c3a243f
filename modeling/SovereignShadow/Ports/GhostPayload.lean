import SovereignShadow.Ports.Evm

/-!
# The packed payload, read on chain

`ShadowBot` decodes the bytes of `encode_ghost_multi` by hand: the dispatch
bytes in `_initiateExecution`, the loan records in `_initBalancerFlash` and
`_initAaveFlash`, the hop records in `_executeArbitrageHopsCalldata` and
`_executeArbitrageHops`.  The four readers differ only in where they load words
from, so each is one generic walk over a loader, instantiated under its own
name.  The module proves that every reader recovers the encoder's records.
-/

namespace SovereignShadow.Ports.GhostPayload

open SovereignShadow.Verified.Bytes
open SovereignShadow.Ports.Models
open SovereignShadow.Ports.Evm

/-! ## Readers -/

/-- The Yul locals of one hop: `pool`, `tokenOut`, `dexType`, `zfo`, `isStable`. -/
structure HopWords where
  pool : U256
  tokenOut : U256
  dexType : Nat
  zfo : Nat
  isStable : Nat
  deriving DecidableEq, Repr

/-- One iteration of the decode loop at `currentHop`. -/
def readHop (load : Nat → U256) (currentHop : Nat) : HopWords :=
  let word := load (currentHop + 40)
  { pool := shr96 (load currentHop)
    tokenOut := shr96 (load (currentHop + 20))
    dexType := byteOf 0 word
    zfo := byteOf 1 word
    isStable := byteOf 2 word }

/-- `hopsLen` iterations, `currentHop` advancing by 43. -/
def readHops (load : Nat → U256) : Nat → Nat → List HopWords
  | _, 0 => []
  | currentHop, hopsLen + 1 =>
      readHop load currentHop :: readHops load (currentHop + 43) hopsLen

/-- The decode loop over a payload whose first byte is at `content`. -/
def decodeHops (load : Nat → U256) (content : Nat) : List HopWords :=
  let loansLen := byteOf 1 (load (content + 32))
  let hopsPtr := content + 34 + loansLen * 52
  let hopsLen := byteOf 0 (load hopsPtr)
  readHops load (hopsPtr + 1) hopsLen

/-- `_executeArbitrageHopsCalldata`: the payload is the calldata slice at `dataOffset`. -/
def executeArbitrageHopsCalldata (calldata : ByteMem) (dataOffset : Nat) : List HopWords :=
  decodeHops (loadWord calldata) dataOffset

/-- `_executeArbitrageHops`: `data` points at the length word of a memory array. -/
def executeArbitrageHops (memory : ByteMem) (data : Nat) : List HopWords :=
  decodeHops (loadWord memory) (data + 0x20)

/-- `lenderId` and `loansLen` of `_initiateExecution`. -/
def initiateExecution (calldata : ByteMem) (dataOffset : Nat) : Nat × Nat :=
  let word := loadWord calldata (dataOffset + 32)
  (byteOf 0 word, byteOf 1 word)

/-- First loan loop: `shr(96, calldataload(dataPtr))`, `dataPtr` advancing by 52. -/
def readLoanTokens (load : Nat → U256) : Nat → Nat → List U256
  | _, 0 => []
  | dataPtr, n + 1 => shr96 (load dataPtr) :: readLoanTokens load (dataPtr + 52) n

/-- Second loan loop: `calldataload(dataPtr)`, `dataPtr` advancing by 52. -/
def readLoanAmounts (load : Nat → U256) : Nat → Nat → List U256
  | _, 0 => []
  | dataPtr, n + 1 => load dataPtr :: readLoanAmounts load (dataPtr + 52) n

/-- The token and amount columns that `_initBalancerFlash` copies into its call. -/
def initBalancerFlashLoans (calldata : ByteMem) (dataOffset loansLen : Nat) :
    List U256 × List U256 :=
  (readLoanTokens (loadWord calldata) (dataOffset + 34) loansLen,
    readLoanAmounts (loadWord calldata) (dataOffset + 54) loansLen)

/-- `_initAaveFlash` runs the same two loops. -/
def initAaveFlashLoans (calldata : ByteMem) (dataOffset loansLen : Nat) :
    List U256 × List U256 :=
  (readLoanTokens (loadWord calldata) (dataOffset + 34) loansLen,
    readLoanAmounts (loadWord calldata) (dataOffset + 54) loansLen)

/-- `minProfit`: `calldataload(params.offset)` on the Aave path. -/
def minProfitCalldata (calldata : ByteMem) (dataOffset : Nat) : U256 :=
  loadWord calldata dataOffset

/-- `minProfit`: `mload(add(userData, 32))` on the Balancer path. -/
def minProfitMemory (memory : ByteMem) (userData : Nat) : U256 :=
  loadWord memory (userData + 32)

/-! ## Reading back one record -/

/-- What the decode loop should see for a hop. -/
def hopWords (hop : Hop) : HopWords where
  pool := addressWord hop.pool
  tokenOut := addressWord hop.tokenOut
  dexType := hop.dexType.toU8.toNat
  zfo := (boolByte hop.zeroForOne).toNat
  isStable := (boolByte hop.isStable).toNat

theorem readHop_encodeHop {m : ByteMem} {p : Nat} {hop : Hop}
    (h : Holds m p (encodeHop hop)) : readHop (loadWord m) p = hopWords hop := by
  rw [encodeHop, Holds.append_iff, Holds.append_iff] at h
  obtain ⟨⟨hPool, hToken⟩, hFlags⟩ := h
  simp only [List.length_append, addressBytes_length, Nat.reduceAdd] at hToken hFlags
  have hFlag : ∀ i (hi : i < 3),
      byteOf i (loadWord m (p + 40)) =
        ([hop.dexType.toU8, boolByte hop.zeroForOne, boolByte hop.isStable].get ⟨i, hi⟩).toNat := by
    intro i hi
    rw [byteOf_loadWord m (p + 40) i (by omega), hFlags i hi]
    rfl
  simp only [readHop, hopWords, shr96_loadWord hPool, shr96_loadWord hToken,
    hFlag 0 (by decide), hFlag 1 (by decide), hFlag 2 (by decide)]
  rfl

theorem readHops_flatMap {m : ByteMem} (hops : List Hop) :
    ∀ p, Holds m p (hops.flatMap encodeHop) →
      readHops (loadWord m) p hops.length = hops.map hopWords := by
  induction hops with
  | nil => intro p _; rfl
  | cons hop rest ih =>
      intro p h
      rw [List.flatMap_cons, Holds.append_iff, encodeHop_length] at h
      rw [List.length_cons, readHops, readHop_encodeHop h.1, ih _ h.2, List.map_cons]

theorem readLoanTokens_flatMap {m : ByteMem} (loans : List (Address × U256)) :
    ∀ p, Holds m p (loans.flatMap encodeLoan) →
      readLoanTokens (loadWord m) p loans.length =
        loans.map fun loan => addressWord loan.1 := by
  induction loans with
  | nil => intro p _; rfl
  | cons loan rest ih =>
      intro p h
      rw [List.flatMap_cons, Holds.append_iff, encodeLoan_length] at h
      obtain ⟨hLoan, hRest⟩ := h
      rw [encodeLoan, Holds.append_iff] at hLoan
      rw [List.length_cons, readLoanTokens, shr96_loadWord hLoan.1, ih _ hRest,
        List.map_cons]

theorem readLoanAmounts_flatMap {m : ByteMem} (loans : List (Address × U256)) :
    ∀ p, Holds m p (loans.flatMap encodeLoan) →
      readLoanAmounts (loadWord m) (p + 20) loans.length =
        loans.map fun loan => loan.2 := by
  induction loans with
  | nil => intro p _; rfl
  | cons loan rest ih =>
      intro p h
      rw [List.flatMap_cons, Holds.append_iff, encodeLoan_length] at h
      obtain ⟨hLoan, hRest⟩ := h
      rw [encodeLoan, Holds.append_iff, addressBytes_length] at hLoan
      have hTail := ih (p + 52) hRest
      rw [show p + 52 + 20 = p + 20 + 52 by omega] at hTail
      rw [List.length_cons, readLoanAmounts, loadWord_u256 hLoan.2, hTail,
        List.map_cons]

/-! ## Reading back the whole payload -/

/-- The sections of an encoded payload and where they start. -/
structure PayloadAt (m : ByteMem) (p : Nat) (path : ArbitragePath)
    (loans : List (Address × U256)) (minProfit : U256) : Prop where
  minProfitAt : Holds m p (u256Bytes minProfit)
  lenderAt : m (p + 32) = path.lender.id
  loansLenAt : m (p + 33) = UInt8.ofNat loans.length
  loansAt : Holds m (p + 34) (loans.flatMap encodeLoan)
  hopsLenAt : m (p + 34 + 52 * loans.length) = UInt8.ofNat path.hops.length
  hopsAt : Holds m (p + 34 + 52 * loans.length + 1) (path.hops.flatMap encodeHop)

theorem PayloadAt.of_holds {m : ByteMem} {p : Nat} {path : ArbitragePath}
    {loans : List (Address × U256)} {minProfit : U256}
    (h : Holds m p (path.encodeGhostMulti loans minProfit)) :
    PayloadAt m p path loans minProfit := by
  rw [ArbitragePath.encodeGhostMulti, Holds.append_iff, Holds.append_iff,
    Holds.append_iff] at h
  obtain ⟨⟨⟨hMin, hIds⟩, hLoans⟩, hHops⟩ := h
  simp only [List.length_append, u256Bytes_length, List.length_cons, List.length_nil,
    flatMap_encodeLoan_length, Nat.reduceAdd] at hIds hLoans hHops
  rw [encodeHops, ← List.singleton_append, Holds.append_iff, Holds.singleton] at hHops
  rw [show p + (34 + 52 * loans.length) = p + 34 + 52 * loans.length by omega] at hHops
  exact
    { minProfitAt := hMin
      lenderAt := by simpa using hIds 0 (by simp)
      loansLenAt := by simpa using hIds 1 (by simp)
      loansAt := hLoans
      hopsLenAt := hHops.1
      hopsAt := hHops.2 }

private theorem byte_length {n : Nat} (h : n < 256) : (UInt8.ofNat n).toNat = n := by
  simpa using h

theorem PayloadAt.lenderByte {m : ByteMem} {p : Nat} {path : ArbitragePath}
    {loans : List (Address × U256)} {minProfit : U256}
    (h : PayloadAt m p path loans minProfit) :
    byteOf 0 (loadWord m (p + 32)) = path.lender.id.toNat := by
  rw [byteOf_loadWord m (p + 32) 0 (by decide), Nat.add_zero, h.lenderAt]

theorem PayloadAt.loansLenByte {m : ByteMem} {p : Nat} {path : ArbitragePath}
    {loans : List (Address × U256)} {minProfit : U256}
    (h : PayloadAt m p path loans minProfit) (hLoans : loans.length < 256) :
    byteOf 1 (loadWord m (p + 32)) = loans.length := by
  rw [byteOf_loadWord m (p + 32) 1 (by decide), h.loansLenAt, byte_length hLoans]

theorem PayloadAt.decodeHops_eq {m : ByteMem} {p : Nat} {path : ArbitragePath}
    {loans : List (Address × U256)} {minProfit : U256}
    (h : PayloadAt m p path loans minProfit)
    (hLoans : loans.length < 256) (hHops : path.hops.length < 256) :
    decodeHops (loadWord m) p = path.hops.map hopWords := by
  have hPtr : p + 34 + loans.length * 52 = p + 34 + 52 * loans.length := by omega
  have hLen : byteOf 0 (loadWord m (p + 34 + 52 * loans.length)) = path.hops.length := by
    rw [byteOf_loadWord _ _ 0 (by decide), Nat.add_zero, h.hopsLenAt, byte_length hHops]
  simp only [decodeHops, h.loansLenByte hLoans, hPtr, hLen]
  exact readHops_flatMap path.hops _ h.hopsAt

/-- **Encoder and decoders agree.**  Wherever the payload lies in calldata and
wherever it lies in memory, whatever surrounds it, every reader of `ShadowBot`
recovers exactly what the encoder was given. -/
theorem ghost_payload_read_back (path : ArbitragePath) (loans : List (Address × U256))
    (minProfit : U256) (hLoans : loans.length < 256) (hHops : path.hops.length < 256)
    (pre post : List UInt8) (memory : ByteMem) (data : Nat)
    (hData : Holds memory (data + 0x20) (path.encodeGhostMulti loans minProfit)) :
    let calldata := ofList (pre ++ path.encodeGhostMulti loans minProfit ++ post)
    executeArbitrageHopsCalldata calldata pre.length = path.hops.map hopWords ∧
      executeArbitrageHops memory data = path.hops.map hopWords ∧
      initiateExecution calldata pre.length = (path.lender.id.toNat, loans.length) ∧
      initBalancerFlashLoans calldata pre.length loans.length =
        (loans.map fun loan => addressWord loan.1, loans.map fun loan => loan.2) ∧
      initAaveFlashLoans calldata pre.length loans.length =
        (loans.map fun loan => addressWord loan.1, loans.map fun loan => loan.2) ∧
      minProfitCalldata calldata pre.length = minProfit ∧
      minProfitMemory memory data = minProfit := by
  intro calldata
  have hCall : PayloadAt calldata pre.length path loans minProfit :=
    .of_holds (holds_ofList pre _ post)
  have hMem : PayloadAt memory (data + 0x20) path loans minProfit := .of_holds hData
  have hTokens := readLoanTokens_flatMap loans _ hCall.loansAt
  have hAmounts := readLoanAmounts_flatMap loans _ hCall.loansAt
  rw [show pre.length + 34 + 20 = pre.length + 54 by omega] at hAmounts
  refine ⟨hCall.decodeHops_eq hLoans hHops, hMem.decodeHops_eq hLoans hHops, ?_, ?_, ?_,
    loadWord_u256 hCall.minProfitAt, loadWord_u256 hMem.minProfitAt⟩
  · simp only [initiateExecution, hCall.lenderByte, hCall.loansLenByte hLoans]
  · rw [initBalancerFlashLoans, hTokens, hAmounts]
  · rw [initAaveFlashLoans, hTokens, hAmounts]

/-- A two-hop path with distinct flags in every record. -/
def samplePath : ArbitragePath where
  hops :=
    [{ pool := 0x11, poolAddress := 0x11, tokenIn := 0xA, tokenOut := 0xB,
       dexType := .uniswapV3, dexName := .uniswapV3, zeroForOne := true, isStable := false },
     { pool := 0x22, poolAddress := 0x22, tokenIn := 0xB, tokenOut := 0xA,
       dexType := .aerodrome, dexName := .aerodrome, zeroForOne := false, isStable := true }]
  loans := [(0xA, 1000)]
  lender := .aaveV3

/-- The sample payload, sent after a 4-byte selector and copied to memory at `0x80`. -/
theorem samplePath_read_back :
    let payload := samplePath.encodeGhostMulti [(0xA, 1000)] 7
    let calldata := ofList ([0x64, 0xd7, 0xf1, 0xc8] ++ payload ++ [])
    let memory := ofList (List.replicate 0xa0 0 ++ payload ++ [])
    executeArbitrageHopsCalldata calldata 4 = samplePath.hops.map hopWords ∧
      executeArbitrageHops memory 0x80 = samplePath.hops.map hopWords ∧
      initiateExecution calldata 4 = (1, 1) ∧
      initBalancerFlashLoans calldata 4 1 = ([addressWord 0xA], [1000]) ∧
      initAaveFlashLoans calldata 4 1 = ([addressWord 0xA], [1000]) ∧
      minProfitCalldata calldata 4 = 7 ∧
      minProfitMemory memory 0x80 = 7 :=
  ghost_payload_read_back samplePath [(0xA, 1000)] 7 (by decide) (by decide)
    [0x64, 0xd7, 0xf1, 0xc8] [] _ 0x80
    (holds_ofList (List.replicate 0xa0 0) (samplePath.encodeGhostMulti [(0xA, 1000)] 7) [])

end SovereignShadow.Ports.GhostPayload
