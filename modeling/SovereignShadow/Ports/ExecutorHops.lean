import SovereignShadow.Ports.Constants
import SovereignShadow.Ports.ExecutorContract
import SovereignShadow.Ports.GhostPayload

/-!
# The hop records, read by `Executor`

The encoder writes a hop in 43 bytes, the last one for the stability.  The loop of
`Executor.receiveFlashLoan` walks the records in steps of 42, so at hop `i` it is `i` bytes
behind.  One hop is read as it was written.  From the second hop on the loop reads the
encoder's fields only where every byte of a record happens to be the one `i` places
before it.

## Main results

* `runHops_eq_runReads` — the loop is a run over its reads.
* `readsBack_iff` — for which hops the loop reads what the encoder wrote.
* `second_of_repeats` — then the second hop's pool is its own output token.
* `readTurns_packed` — the loop reads records that are packed in 42 bytes.
-/

namespace SovereignShadow.Ports.ExecutorHops

open SovereignShadow.Verified.Bytes
open SovereignShadow.Verified.Callback.Prog
open SovereignShadow.Ports.Models
open SovereignShadow.Ports.Constants
open SovereignShadow.Ports.Evm
open SovereignShadow.Ports.Chain
open SovereignShadow.Ports.GhostPayload
open SovereignShadow.Ports.ExecutorContract

/-! ## Reads -/

/-- The Yul locals of one turn of the loop, with the token that the next turn pays with. -/
structure HopRead where
  pool : U256
  tokenOut : U256
  dexType : Nat
  zeroForOne : Nat
  recipient : U256
  deriving DecidableEq, Repr

/-- What the loop reads in turn `i`. -/
def readTurn (self : Address) (data : UserData) (i : Nat) : HopRead :=
  let hopPtr := data.pathDataPtr + 1 + i * 42
  let flagsWord := loadWord data.memory (hopPtr + 40)
  { pool := shr96 (loadWord data.memory hopPtr)
    tokenOut := shr96 (loadWord data.memory (hopPtr + 20))
    dexType := byteOf 0 flagsWord
    zeroForOne := byteOf 1 flagsWord
    recipient :=
      if i + 1 < data.hops then shr96 (loadWord data.memory (hopPtr + 42))
      else addressWord self }

/-- The loop on what it reads. -/
def runReads (ptr : Nat) : List HopRead → U256 → U256 → Script Unit
  | [], _, _ => pure ()
  | read :: rest, amountIn, tokenIn => do
      callOrRevert (.tstore read.pool)
      let amountOut ←
        if read.dexType = 0 then swapV2 read.pool read.recipient read.zeroForOne amountIn ptr
        else swapV3 read.pool read.recipient read.zeroForOne amountIn tokenIn ptr
      runReads ptr rest amountOut read.tokenOut

/-- **The loop is a run over its reads.** -/
theorem runHops_eq_runReads (self : Address) (data : UserData) (ptr left i : Nat)
    (amountIn tokenIn : U256) :
    runHops self data ptr left i amountIn tokenIn =
      runReads ptr ((List.range' i left).map (readTurn self data)) amountIn tokenIn := by
  induction left generalizing i amountIn tokenIn with
  | zero => rfl
  | succ left ih =>
      rw [runHops, List.range'_succ, List.map_cons, runReads]
      simp only [ih]
      rfl

/-! ## What the encoder wrote -/

/-- The loop reads the hops: each one's pool, output token, type and direction, and before
the last one the next hop's pool for recipient. -/
def ReadsBack (self : Address) (data : UserData) (hops : List Hop) : Prop :=
  data.hops = hops.length ∧
    ∀ i hop, hops[i]? = some hop →
      (readTurn self data i).pool = addressWord hop.pool ∧
        (readTurn self data i).tokenOut = addressWord hop.tokenOut ∧
        (readTurn self data i).dexType = hop.dexType.toU8.toNat ∧
        (readTurn self data i).zeroForOne = (boolByte hop.zeroForOne).toNat ∧
        ∀ next, hops[i + 1]? = some next →
          (readTurn self data i).recipient = addressWord next.pool

/-- Each data byte of the `i`-th record is the byte `i` places before it. -/
def Repeats (hops : List Hop) : Prop :=
  ∀ i, i < hops.length → ∀ j, j < 42 →
    ofList (hops.flatMap encodeHop) (43 * i + j) = ofList (hops.flatMap encodeHop) (42 * i + j)

/-- The records lie one after another. -/
theorem holds_encodeHop {m : ByteMem} {hops : List Hop} {p : Nat}
    (h : Holds m p (hops.flatMap encodeHop)) {i : Nat} {hop : Hop} (hHop : hops[i]? = some hop) :
    Holds m (p + 43 * i) (encodeHop hop) := by
  induction hops generalizing p i with
  | nil => simp at hHop
  | cons first rest ih =>
      rw [List.flatMap_cons, Holds.append_iff, encodeHop_length] at h
      cases i with
      | zero =>
          obtain rfl := Option.some.inj hHop
          exact h.1
      | succ i =>
          have hRest := ih h.2 hHop
          rw [show p + 43 + 43 * i = p + 43 * (i + 1) by omega] at hRest
          exact hRest

theorem flatMap_encodeHop_length (hops : List Hop) :
    (hops.flatMap encodeHop).length = 43 * hops.length := by
  induction hops with
  | nil => rfl
  | cons hop rest ih =>
      rw [List.flatMap_cons, List.length_append, encodeHop_length, ih, List.length_cons]
      omega

/-- Two records that are read alike have the same 42 bytes. -/
theorem fields_eq_iff {m : ByteMem} {p p' : Nat} :
    (shr96 (loadWord m p) = shr96 (loadWord m p') ∧
      shr96 (loadWord m (p + 20)) = shr96 (loadWord m (p' + 20)) ∧
      byteOf 0 (loadWord m (p + 40)) = byteOf 0 (loadWord m (p' + 40)) ∧
      byteOf 1 (loadWord m (p + 40)) = byteOf 1 (loadWord m (p' + 40))) ↔
      ∀ j, j < 42 → m (p + j) = m (p' + j) := by
  rw [shr96_loadWord_eq_iff, shr96_loadWord_eq_iff, byteOf_loadWord m _ 0 (by decide),
    byteOf_loadWord m _ 0 (by decide), byteOf_loadWord m _ 1 (by decide),
    byteOf_loadWord m _ 1 (by decide), UInt8.toNat_inj, UInt8.toNat_inj]
  constructor
  · intro ⟨hPool, hToken, hType, hDirection⟩ j hj
    by_cases hLow : j < 20
    · exact hPool j hLow
    · by_cases hHigh : j < 40
      · have hCell := hToken (j - 20) (by omega)
        rw [show p + 20 + (j - 20) = p + j by omega,
          show p' + 20 + (j - 20) = p' + j by omega] at hCell
        exact hCell
      · obtain rfl | rfl : j = 40 ∨ j = 41 := by omega
        · exact hType
        · exact hDirection
  · intro h
    refine ⟨fun j hj => h j (by omega), ?_, h 40 (by decide), h 41 (by decide)⟩
    intro j hj
    rw [Nat.add_assoc, Nat.add_assoc]
    exact h (20 + j) (by omega)

section Reading

variable {data : UserData} {hops : List Hop}
  (hPath : Holds data.memory data.pathDataPtr (encodeHops hops))
include hPath

theorem hops_of_holds (hCount : hops.length < 256) : data.hops = hops.length := by
  rw [encodeHops, ← List.singleton_append, Holds.append_iff, Holds.singleton] at hPath
  rw [UserData.hops, byteOf_loadWord _ _ 0 (by decide), Nat.add_zero, hPath.1]
  simpa using hCount

theorem records_of_holds : Holds data.memory (data.pathDataPtr + 1) (hops.flatMap encodeHop) := by
  rw [encodeHops, ← List.singleton_append, Holds.append_iff] at hPath
  exact hPath.2

/-- Turn `i` reads the `i`-th hop's fields where its bytes are those of the record. -/
theorem readTurn_eq_iff (self : Address) {i : Nat} {hop : Hop} (hHop : hops[i]? = some hop) :
    ((readTurn self data i).pool = addressWord hop.pool ∧
      (readTurn self data i).tokenOut = addressWord hop.tokenOut ∧
      (readTurn self data i).dexType = hop.dexType.toU8.toNat ∧
      (readTurn self data i).zeroForOne = (boolByte hop.zeroForOne).toNat) ↔
      ∀ j, j < 42 → ofList (hops.flatMap encodeHop) (42 * i + j) =
        ofList (hops.flatMap encodeHop) (43 * i + j) := by
  have hRecords := records_of_holds hPath
  have hIndex : i < hops.length := (List.getElem?_eq_some_iff.mp hHop).1
  have hWritten := readHop_encodeHop (holds_encodeHop hRecords hHop)
  have hCell : ∀ k, k < 43 * hops.length →
      data.memory (data.pathDataPtr + 1 + k) = ofList (hops.flatMap encodeHop) k := by
    intro k hk
    have hLength : k < (hops.flatMap encodeHop).length := by
      rw [flatMap_encodeHop_length]
      exact hk
    rw [hRecords k hLength, ofList, List.getD_eq_getElem _ _ hLength]
  show ((readTurn self data i).pool = (hopWords hop).pool ∧
    (readTurn self data i).tokenOut = (hopWords hop).tokenOut ∧
    (readTurn self data i).dexType = (hopWords hop).dexType ∧
    (readTurn self data i).zeroForOne = (hopWords hop).zfo) ↔ _
  rw [← hWritten]
  apply (@fields_eq_iff data.memory (data.pathDataPtr + 1 + i * 42)
    (data.pathDataPtr + 1 + 43 * i)).trans
  apply forall₂_congr
  intro j hj
  rw [Nat.add_assoc, Nat.add_assoc _ (43 * i), hCell _ (by omega), hCell _ (by omega),
    Nat.mul_comm i 42]

end Reading

/-- **The exact condition.**  `Executor` reads the encoder's hops if and only if each data
byte of the `i`-th record is the byte `i` places before it, as it is for a single hop. -/
theorem readsBack_iff (self : Address) (data : UserData) (hops : List Hop)
    (hCount : hops.length < 256)
    (hPath : Holds data.memory data.pathDataPtr (encodeHops hops)) :
    ReadsBack self data hops ↔ Repeats hops := by
  have hHops := hops_of_holds hPath hCount
  constructor
  · intro ⟨_, hReads⟩ i hi j hj
    have hHop : hops[i]? = some hops[i] := List.getElem?_eq_getElem hi
    obtain ⟨hPool, hToken, hType, hDirection, _⟩ := hReads i hops[i] hHop
    have hCells := (readTurn_eq_iff hPath self hHop).mp ⟨hPool, hToken, hType, hDirection⟩
    exact (hCells j hj).symm
  · intro hRepeats
    have hFields : ∀ i hop, hops[i]? = some hop → _ := fun i hop hHop =>
      (readTurn_eq_iff hPath self hHop).mpr fun j hj =>
        (hRepeats i (List.getElem?_eq_some_iff.mp hHop).1 j hj).symm
    refine ⟨hHops, ?_⟩
    intro i hop hHop
    obtain ⟨hPool, hToken, hType, hDirection⟩ := hFields i hop hHop
    refine ⟨hPool, hToken, hType, hDirection, ?_⟩
    intro next hNext
    -- the recipient is the pool that the next turn reads
    have hMore : i + 1 < data.hops := by
      rw [hHops]
      exact (List.getElem?_eq_some_iff.mp hNext).1
    have hRecipient : (readTurn self data i).recipient = (readTurn self data (i + 1)).pool := by
      simp only [readTurn, if_pos hMore]
      rw [show data.pathDataPtr + 1 + (i + 1) * 42 = data.pathDataPtr + 1 + i * 42 + 42 by omega]
    rw [hRecipient]
    exact (hFields (i + 1) next hNext).1

/-- With a second hop, its pool and its output token are then one address, spelt by the first
hop's stability byte. -/
theorem second_of_repeats {first second : Hop} {rest : List Hop}
    (hRepeats : Repeats (first :: second :: rest)) :
    second.pool = second.tokenOut ∧
      addressBytes second.pool = List.replicate 20 (boolByte first.isStable) := by
  let bytes := ofList ((first :: second :: rest).flatMap encodeHop)
  have hRecords : Holds bytes 0 ((first :: second :: rest).flatMap encodeHop) := by
    have hList := holds_ofList [] ((first :: second :: rest).flatMap encodeHop) []
    simpa [bytes] using hList
  have hFirst := holds_encodeHop hRecords (i := 0) rfl
  have hSecond := holds_encodeHop hRecords (i := 1) rfl
  rw [encodeHop, Holds.append_iff] at hFirst hSecond
  have hStability : bytes 42 = boolByte first.isStable := by
    have hFlag := hFirst.2 2 (by simp)
    simpa using hFlag
  have hRun : ∀ j, j < 42 → bytes (43 + j) = boolByte first.isStable := by
    intro j
    induction j with
    | zero => exact fun hj => (hRepeats 1 (by simp) 0 hj).trans hStability
    | succ j ih =>
        intro hj
        have hStep := hRepeats 1 (by simp) (j + 1) hj
        rw [show 42 * 1 + (j + 1) = 43 + j by omega] at hStep
        exact hStep.trans (ih (by omega))
  rw [Holds.append_iff, addressBytes_length] at hSecond
  have hPool : readBE bytes 43 20 = second.pool.toNat :=
    hSecond.1.1.readBE_eq (by simpa using second.pool.isLt)
  have hToken : readBE bytes 63 20 = second.tokenOut.toNat :=
    hSecond.1.2.readBE_eq (by simpa using second.tokenOut.isLt)
  constructor
  · apply BitVec.eq_of_toNat_eq
    rw [← hPool, ← hToken]
    apply readBE_congr
    intro i hi
    rw [hRun i (by omega), show 63 + i = 43 + (20 + i) by omega, hRun (20 + i) (by omega)]
  · apply List.ext_getElem
    · simp
    · intro i hi hi'
      rw [← hSecond.1.1 i hi, List.getElem_replicate]
      rw [addressBytes_length] at hi
      exact hRun i (by omega)

/-! ## Packed records -/

/-- A hop as the contract packs it. -/
structure PackedHop where
  pool : Address
  tokenOut : Address
  dexType : UInt8
  zeroForOne : Bool
  deriving DecidableEq, Repr

/-- `abi.encodePacked(pool, tokenOut, dexType, zeroForOne)`. -/
def packHop (hop : PackedHop) : List UInt8 :=
  addressBytes hop.pool ++ addressBytes hop.tokenOut ++ [hop.dexType, boolByte hop.zeroForOne]

/-- The hop count and the records. -/
def packPath (hops : List PackedHop) : List UInt8 :=
  UInt8.ofNat hops.length :: hops.flatMap packHop

/-- Where a hop sends its output: to the pool after it, or to the contract. -/
def recipientOf (self : Address) : List PackedHop → Address
  | [] => self
  | next :: _ => next.pool

/-- What the loop is to read of the packed hops. -/
def packedReads (self : Address) : List PackedHop → List HopRead
  | [] => []
  | hop :: rest =>
      { pool := addressWord hop.pool
        tokenOut := addressWord hop.tokenOut
        dexType := hop.dexType.toNat
        zeroForOne := (boolByte hop.zeroForOne).toNat
        recipient := addressWord (recipientOf self rest) } :: packedReads self rest

theorem packHop_length (hop : PackedHop) : (packHop hop).length = 42 := by
  simp [packHop]

/-- The records from turn `i` on are read as they were packed. -/
theorem readTurns_records (self : Address) {data : UserData} {hops : List PackedHop} {i : Nat}
    (hCount : i + hops.length = data.hops)
    (hRecords : Holds data.memory (data.pathDataPtr + 1 + i * 42) (hops.flatMap packHop)) :
    (List.range' i hops.length).map (readTurn self data) = packedReads self hops := by
  induction hops generalizing i with
  | nil => rfl
  | cons hop rest ih =>
      rw [List.flatMap_cons, Holds.append_iff, packHop_length] at hRecords
      obtain ⟨hHop, hRest⟩ := hRecords
      rw [show data.pathDataPtr + 1 + i * 42 + 42 = data.pathDataPtr + 1 + (i + 1) * 42 by
        omega] at hRest
      rw [packHop, Holds.append_iff, Holds.append_iff, List.length_append, addressBytes_length,
        addressBytes_length] at hHop
      obtain ⟨⟨hPool, hToken⟩, hFlags⟩ := hHop
      have hType : data.memory (data.pathDataPtr + 1 + i * 42 + 40 + 0) = hop.dexType :=
        hFlags 0 (by simp)
      have hDirection : data.memory (data.pathDataPtr + 1 + i * 42 + 40 + 1) =
          boolByte hop.zeroForOne := hFlags 1 (by simp)
      have hRecipient : (if i + 1 < data.hops then
          shr96 (loadWord data.memory (data.pathDataPtr + 1 + i * 42 + 42))
          else addressWord self) = addressWord (recipientOf self rest) := by
        cases rest with
        | nil =>
            rw [if_neg (by rw [← hCount]; simp)]
            rfl
        | cons next more =>
            rw [List.flatMap_cons, Holds.append_iff, packHop, Holds.append_iff,
              Holds.append_iff] at hRest
            rw [if_pos (by rw [← hCount]; simp), show data.pathDataPtr + 1 + i * 42 + 42 =
              data.pathDataPtr + 1 + (i + 1) * 42 by omega, shr96_loadWord hRest.1.1.1]
            rfl
      rw [List.length_cons, List.range'_succ, List.map_cons, packedReads]
      congr 1
      · simp only [readTurn, shr96_loadWord hPool, shr96_loadWord hToken, hRecipient,
          byteOf_loadWord data.memory _ 0 (by decide), byteOf_loadWord data.memory _ 1 (by decide)]
        rw [hType, hDirection]
      · rw [List.length_cons] at hCount
        exact ih (by omega) hRest

/-- **Packed paths are read as they were packed.** -/
theorem readTurns_packed (self : Address) {data : UserData} {hops : List PackedHop}
    (hCount : hops.length < 256) (hPath : Holds data.memory data.pathDataPtr (packPath hops)) :
    data.hops = hops.length ∧
      (List.range' 0 data.hops).map (readTurn self data) = packedReads self hops := by
  rw [packPath, ← List.singleton_append, Holds.append_iff, Holds.singleton] at hPath
  have hHops : data.hops = hops.length := by
    rw [UserData.hops, byteOf_loadWord _ _ 0 (by decide), Nat.add_zero, hPath.1]
    simpa using hCount
  refine ⟨hHops, ?_⟩
  have hTurns := readTurns_records self (i := 0) ((Nat.zero_add _).trans hHops.symm) hPath.2
  rw [hHops]
  exact hTurns

/-! ## Samples -/

/-- The loan's token and the hops, after the length word, which the loop does not read. -/
def sampleData (hops : List Hop) : UserData where
  memory := ofList (List.replicate 32 0 ++ addressBytes tokenWeth ++ encodeHops hops ++ [])
  pointer := 0

theorem sampleData_holds (hops : List Hop) :
    Holds (sampleData hops).memory (sampleData hops).pathDataPtr (encodeHops hops) := by
  have hList := holds_ofList (List.replicate 32 0 ++ addressBytes tokenWeth) (encodeHops hops) []
  rw [List.length_append, List.length_replicate, addressBytes_length] at hList
  exact hList

/-- WETH to USDC over a V3 pool. -/
def sampleHop : Hop where
  pool := 0x11
  poolAddress := 0x11
  tokenIn := tokenWeth
  tokenOut := tokenUsdc
  dexType := .uniswapV3
  dexName := .uniswapV3
  zeroForOne := true
  isStable := false

/-- A single hop is read as it was written. -/
theorem sampleHop_readsBack : ReadsBack 0xEE (sampleData [sampleHop]) [sampleHop] := by
  apply (readsBack_iff 0xEE (sampleData [sampleHop]) [sampleHop] (by decide)
    (sampleData_holds [sampleHop])).mpr
  intro i hi j _
  obtain rfl : i = 0 := by simpa using hi
  rfl

/-- **Two hops.**  The pools of ordinary hops are not their output tokens. -/
theorem not_readsBack :
    ¬ ∀ (self : Address) (data : UserData) (hops : List Hop), 1 ≤ hops.length →
      hops.length ≤ 255 → (∀ hop ∈ hops, hop.dexType = .uniswapV2 ∨ hop.dexType = .uniswapV3) →
        Holds data.memory data.pathDataPtr (encodeHops hops) → ReadsBack self data hops := by
  intro hAll
  have hReads := hAll 0xEE (sampleData [sampleHop, sampleHop]) [sampleHop, sampleHop]
    (by decide) (by decide) (by decide) (sampleData_holds _)
  obtain ⟨hPool, _⟩ := hReads.2 1 sampleHop rfl
  revert hPool
  decide

end SovereignShadow.Ports.ExecutorHops
