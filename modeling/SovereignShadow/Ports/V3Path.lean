import SovereignShadow.Ports.RouterCalldata
import SovereignShadow.Verified.WhileLoop

/-!
# Packed V3 paths

Port of `fast_decode_v3_path` of `utils.rs`.  A path is an address, a fee of three bytes, an
address, and so on.  The loop reads 43 bytes and goes on by 23, so the second address of one
hop is the first address of the next.

## Main results

* `decodes_windows` — the hops of any byte string, read at every 23rd byte.
* `windows_packed` — those of a packed path are its own.
* `fastDecodeV3Path_spec` — what the loop returns, for packed paths and for any bytes.
-/

namespace SovereignShadow.Ports.V3Path

open SovereignShadow.Verified.Bytes
open SovereignShadow.Verified.WhileLoop
open SovereignShadow.Ports.Models
open SovereignShadow.Ports.UniversalDecoder
open SovereignShadow.Ports.RouterCalldata
open SovereignShadow.Ports.RouterCalldata.SwapPath

/-! ## The loop -/

abbrev Hop := Address × Nat × Address

structure PathDecoding where
  decoded : List Hop
  i : Nat

section Loop

variable (path : List UInt8)

/-- `Address::from_slice(&path[lo..hi])`, which panics where the slice is not of 20 bytes. -/
def addressFromSlice (lo hi : Nat) : Option Address :=
  if lo ≤ hi ∧ hi ≤ path.length ∧ hi - lo = 20 then
    some (BitVec.ofNat 160 (beNat ((path.drop lo).take (hi - lo))))
  else none

/-- `u32::from_be_bytes([0, path[i+20], path[i+21], path[i+22]])`. -/
def feeAfter (i : Nat) : Option Nat := do
  let high ← path[i + 20]?
  let middle ← path[i + 21]?
  let low ← path[i + 22]?
  some (beNat [0, high, middle, low])

/-- One iteration; `none` is a panic. -/
def decodeHop (s : PathDecoding) : Option PathDecoding := do
  let tokenA ← addressFromSlice path s.i (s.i + 20)
  let fee ← feeAfter path s.i
  let tokenB ← addressFromSlice path (s.i + 23) (s.i + 43)
  some { decoded := s.decoded ++ [(tokenA, fee, tokenB)], i := s.i + 23 }

/-- `while i + 43 <= path.len()`. -/
def pathLoop : Loop PathDecoding where
  guard s := decide (s.i + 43 ≤ path.length)
  body := decodeHop path

/-- At most `fuel` tests of the guard: `none` where the loop is still running, `some none`
where it panicked. -/
def fastDecodeV3Path (fuel : Nat) : Option (Option (List Hop)) :=
  if path.length < 43 then some (some [])
  else (run (pathLoop path) fuel { decoded := [], i := 0 }).map
    (Option.map PathDecoding.decoded)

/-- The call comes to an end and returns `hops`. -/
def Decodes (hops : List Hop) : Prop :=
  ∃ m, ∀ fuel, m ≤ fuel → fastDecodeV3Path path fuel = some (some hops)

end Loop

/-- The packed path from `first` on. -/
def packed (first : Address) (hops : List (BitVec 24 × Address)) : List UInt8 :=
  addressBytes first ++ hops.flatMap packedHop

/-- The hops of a path, each from the address before it. -/
def triples : Address → List (BitVec 24 × Address) → List Hop
  | _, [] => []
  | first, (fee, next) :: rest => (first, fee.toNat, next) :: triples next rest

/-- The second address of a hop is the first one of the next. -/
def Chained (hops : List Hop) : Prop := hops.IsChain fun hop next => hop.2.2 = next.1

/-! ## One hop -/

section Hop

variable (path : List UInt8)

/-- The hop that is read at `i`. -/
def hopAt (i : Nat) : Hop :=
  (addressAt path i, beNat ((path.drop (i + 20)).take 3), addressAt path (i + 23))

/-- The hops that are read at every 23rd byte. -/
def windows (n : Nat) : List Hop := (List.range n).map fun k => hopAt path (23 * k)

theorem windows_succ (n : Nat) :
    windows path (n + 1) = windows path n ++ [hopAt path (23 * n)] := by
  rw [windows, windows, List.range_succ, List.map_append, List.map_singleton]

theorem windows_length (n : Nat) : (windows path n).length = n := by
  rw [windows, List.length_map, List.length_range]

variable {path}

theorem addressFromSlice_eq {i : Nat} (h : i + 20 ≤ path.length) :
    addressFromSlice path i (i + 20) = some (addressAt path i) := by
  rw [addressFromSlice, if_pos ⟨by omega, h, by omega⟩, Nat.add_sub_cancel_left, addressAt]

/-- A leading zero byte does not count. -/
theorem beNat_zero_cons (bytes : List UInt8) : beNat (0 :: bytes) = beNat bytes := by
  have hSplit := readBE_add (ofList (0 :: bytes)) 0 1 bytes.length
  have hZero : readBE (ofList (0 :: bytes)) 0 1 = 0 := by simp [ofList]
  have hRest : readBE (ofList (0 :: bytes)) 1 bytes.length =
      readBE (ofList bytes) 0 bytes.length :=
    readBE_congr fun k _ => by simp [ofList, Nat.add_comm 1 k]
  rw [beNat, List.length_cons, Nat.add_comm, hSplit, hZero, Nat.zero_mul, Nat.zero_add,
    Nat.zero_add, hRest, beNat]

theorem feeAfter_eq {i : Nat} (h : i + 23 ≤ path.length) :
    feeAfter path i = some (beNat ((path.drop (i + 20)).take 3)) := by
  have hThree : (path.drop (i + 20)).take 3 = [path[i + 20], path[i + 21], path[i + 22]] := by
    rw [List.drop_eq_getElem_cons (by omega), List.drop_eq_getElem_cons (by omega),
      List.drop_eq_getElem_cons (by omega)]
    rfl
  rw [feeAfter, List.getElem?_eq_getElem (by omega), List.getElem?_eq_getElem (by omega),
    List.getElem?_eq_getElem (by omega), hThree]
  exact congrArg some (beNat_zero_cons _)

theorem decodeHop_eq {s : PathDecoding} (h : s.i + 43 ≤ path.length) :
    decodeHop path s = some { decoded := s.decoded ++ [hopAt path s.i], i := s.i + 23 } := by
  have hSecond := @addressFromSlice_eq path (s.i + 23) (by omega)
  rw [decodeHop, addressFromSlice_eq (by omega), feeAfter_eq (by omega), hSecond]
  rfl

end Hop

/-! ## The whole loop -/

/-- The hops so far, and an address left to start the next one. -/
structure DecodingInv (path : List UInt8) (s : PathDecoding) : Prop where
  position : s.i = 23 * s.decoded.length
  hops : s.decoded = windows path s.decoded.length
  room : s.i + 20 ≤ path.length

theorem decodingInv_step {path : List UInt8} {s : PathDecoding} (h : DecodingInv path s)
    (hGuard : s.i + 43 ≤ path.length) :
    DecodingInv path { decoded := s.decoded ++ [hopAt path s.i], i := s.i + 23 } where
  position := by
    have hPosition := h.position
    rw [List.length_append, List.length_singleton]
    show s.i + 23 = 23 * (s.decoded.length + 1)
    omega
  hops := by
    rw [List.length_append, List.length_singleton, windows_succ, ← h.hops, h.position]
  room := by
    show s.i + 23 + 20 ≤ path.length
    omega

/-- One turn of the loop gives a state, keeps the invariant and comes closer to the end. -/
theorem body_step {path : List UInt8} {s : PathDecoding} (h : DecodingInv path s)
    (hGuard : (pathLoop path).guard s = true) :
    ∃ s', (pathLoop path).body s = some s' ∧ DecodingInv path s' ∧
      path.length - s'.i < path.length - s.i := by
  have hRoom : s.i + 43 ≤ path.length := of_decide_eq_true hGuard
  have hCloser : path.length - (s.i + 23) < path.length - s.i := by omega
  exact ⟨_, decodeHop_eq hRoom, decodingInv_step h hRoom, hCloser⟩

/-- At the end of the loop there is no room for another hop. -/
theorem count_at_end {path : List UInt8} {t : PathDecoding} (h : DecodingInv path t)
    (hEnd : (pathLoop path).guard t = false) :
    (path.length - 20) / 23 = t.decoded.length := by
  have hLast : ¬ t.i + 43 ≤ path.length := of_decide_eq_false hEnd
  have hPosition := h.position
  have hRoom := h.room
  rw [Nat.div_eq_iff (by norm_num)]
  omega

/-- **What the loop returns.**  On any bytes it ends without a panic. -/
theorem decodes_windows (path : List UInt8) :
    Decodes path (windows path ((path.length - 20) / 23)) := by
  by_cases hShort : path.length < 43
  · have hNone : (path.length - 20) / 23 = 0 := Nat.div_eq_of_lt (by omega)
    refine ⟨0, fun fuel _ => ?_⟩
    rw [fastDecodeV3Path, if_pos hShort, hNone]
    rfl
  · have hFirst : 0 + 20 ≤ path.length := by omega
    have hStart : DecodingInv path { decoded := [], i := 0 } := ⟨rfl, rfl, hFirst⟩
    obtain ⟨t, ⟨m, hRun⟩, hInv, hEnd⟩ := exists_returns (DecodingInv path)
      (fun s => path.length - s.i) (fun _ => body_step) hStart
    refine ⟨m, fun fuel hFuel => ?_⟩
    rw [fastDecodeV3Path, if_neg hShort, hRun fuel hFuel, count_at_end hInv hEnd, ← hInv.hops]
    rfl

theorem windows_chained (path : List UInt8) (n : Nat) : Chained (windows path n) := by
  rw [Chained, windows, List.isChain_map, List.isChain_range]
  intro k _
  rfl

/-! ## Packed paths -/

theorem packed_length (first : Address) (hops : List (BitVec 24 × Address)) :
    (packed first hops).length = 20 + 23 * hops.length := by
  have hHop : ∀ hop : BitVec 24 × Address, (packedHop hop).length = 23 := by
    intro hop
    rw [packedHop, List.length_append, addressBytes, encodeBE_length, encodeBE_length]
  rw [packed, List.length_append, addressBytes, encodeBE_length, List.length_flatMap]
  simp [hHop, Nat.mul_comm]

theorem address_piece {path : List UInt8} {p : Nat} {a : Address}
    (h : addressBytes a <+: path.drop p) : addressAt path p = a := by
  have hTake := take_drop_piece h
  rw [addressBytes, encodeBE_length] at hTake
  rw [addressAt, hTake, beNat_encodeBE, Nat.mod_eq_of_lt (a.isLt.trans_eq (by norm_num)),
    ofNat_toNat]

theorem fee_piece {path : List UInt8} {p : Nat} {fee : BitVec 24}
    (h : encodeBE 3 fee.toNat <+: path.drop p) :
    beNat ((path.drop p).take 3) = fee.toNat := by
  have hTake := take_drop_piece h
  rw [encodeBE_length] at hTake
  rw [hTake, beNat_encodeBE, Nat.mod_eq_of_lt (fee.isLt.trans_eq (by norm_num))]

/-- The hops of a packed path that lies at `p`. -/
theorem hops_packed {path : List UInt8} (hops : List (BitVec 24 × Address)) (first : Address)
    (p : Nat) (h : packed first hops <+: path.drop p) :
    (List.range hops.length).map (fun k => hopAt path (p + 23 * k)) = triples first hops := by
  induction hops generalizing first p with
  | nil => rfl
  | cons hop rest ih =>
      have hWhole : addressBytes first ++ (encodeBE 3 hop.1.toNat ++ packed hop.2 rest) <+:
          path.drop p := by
        simpa only [packed, packedHop, List.flatMap_cons, List.append_assoc] using h
      have hFirst := prefix_drop_append hWhole
      have hFee := prefix_drop_append hFirst.2
      rw [addressBytes, encodeBE_length] at hFee
      rw [encodeBE_length] at hFee
      have hNext : addressBytes hop.2 <+: path.drop (p + 23) :=
        (List.prefix_append _ _).trans hFee.2
      have hHop : hopAt path p = (first, hop.1.toNat, hop.2) := by
        rw [hopAt, address_piece hFirst.1, fee_piece hFee.1, address_piece hNext]
      have hRest := ih hop.2 (p + 23) hFee.2
      rw [List.length_cons, List.range_succ_eq_map, List.map_cons, List.map_map, triples,
        ← hRest, Nat.mul_zero, Nat.add_zero, hHop]
      congr 1
      refine List.map_congr_left fun k _ => ?_
      show hopAt path (p + 23 * (k + 1)) = hopAt path (p + 23 + 23 * k)
      congr 1
      omega

theorem windows_packed (first : Address) (hops : List (BitVec 24 × Address)) :
    windows (packed first hops) hops.length = triples first hops := by
  have hHops := hops_packed hops first 0 (List.prefix_rfl : packed first hops <+: _)
  simp only [Nat.zero_add] at hHops
  exact hHops

/-- **Path decoding.**  A packed path of one hop or more gives exactly its hops.  Any byte
string at all is decoded without a panic, to as many hops as it has room for, and each hop
starts where the one before it ends. -/
theorem fastDecodeV3Path_spec :
    (∀ (first : Address) (hop : BitVec 24 × Address) (rest : List (BitVec 24 × Address)),
      Decodes (packed first (hop :: rest)) (triples first (hop :: rest))) ∧
    ∀ path : List UInt8, ∃ hops, Decodes path hops ∧
      hops.length = (path.length - 20) / 23 ∧ Chained hops := by
  constructor
  · intro first hop rest
    have hDecodes := decodes_windows (packed first (hop :: rest))
    have hCount : ((packed first (hop :: rest)).length - 20) / 23 = (hop :: rest).length := by
      rw [packed_length, Nat.add_sub_cancel_left, Nat.mul_div_cancel_left _ (by norm_num)]
    rw [hCount, windows_packed] at hDecodes
    exact hDecodes
  · intro path
    exact ⟨_, decodes_windows path, windows_length path _, windows_chained path _⟩

/-- A path of one hop, with ten bytes too many. -/
example :
    fastDecodeV3Path (packed 0x4200000000000000000000000000000000000006
        [(500, 0x833589fCD6eDb6E08f4c7C32D4f71b54bdA02913)] ++ List.replicate 10 0) 2 =
      some (some [(0x4200000000000000000000000000000000000006, 500,
        0x833589fCD6eDb6E08f4c7C32D4f71b54bdA02913)]) := by decide +kernel

end SovereignShadow.Ports.V3Path
