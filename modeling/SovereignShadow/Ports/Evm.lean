import SovereignShadow.Ports.Models

/-!
# EVM words

The word-level primitives that the Yul blocks of the two contracts use: loads
from calldata or memory, `byte` and `shr`.  Calldata reads past its end give
zero bytes and memory reads give whatever lies there, so both are reads of a
`ByteMem`.  Pointers are `Nat`: calldata and memory are far smaller than
`2 ^ 256` bytes.
-/

namespace SovereignShadow.Ports.Evm

open SovereignShadow.Verified.Bytes
open SovereignShadow.Ports.Models

/-- `calldataload(p)` / `mload(p)`: the 32-byte big-endian word at `p`. -/
def loadWord (m : ByteMem) (p : Nat) : U256 := BitVec.ofNat 256 (readBE m p 32)

/-- `byte(i, word)`: byte `i` counted from the most significant end. -/
def byteOf (i : Nat) (word : U256) : Nat := word.toNat / 256 ^ (31 - i) % 256

/-- `shr(96, word)`: the address in the top 20 bytes. -/
def shr96 (word : U256) : U256 := word >>> 96

/-- The word of an address. -/
def addressWord (a : Address) : U256 := a.setWidth 256

theorem loadWord_toNat (m : ByteMem) (p : Nat) : (loadWord m p).toNat = readBE m p 32 := by
  have h := readBE_lt m p 32
  rw [loadWord, BitVec.toNat_ofNat]
  exact Nat.mod_eq_of_lt (by simpa using h)

theorem byteOf_loadWord (m : ByteMem) (p i : Nat) (hi : i < 32) :
    byteOf i (loadWord m p) = (m (p + i)).toNat := by
  rw [byteOf, loadWord_toNat]
  exact readBE_byte m p 32 i hi

theorem shr96_loadWord_toNat (m : ByteMem) (p : Nat) :
    (shr96 (loadWord m p)).toNat = readBE m p 20 := by
  have htop : readBE m p 32 / 256 ^ 12 = readBE m p 20 := readBE_div_pow m p 20 12
  rw [shr96, BitVec.toNat_ushiftRight, loadWord_toNat, Nat.shiftRight_eq_div_pow, ← htop]
  norm_num

/-- A 20-byte field at `p`, extracted from the overrunning 32-byte word. -/
theorem shr96_loadWord {m : ByteMem} {p : Nat} {a : Address}
    (h : Holds m p (addressBytes a)) : shr96 (loadWord m p) = addressWord a := by
  have hfield : readBE m p 20 = a.toNat := h.readBE_eq (by simpa using a.isLt)
  have hlt : a.toNat < 2 ^ 256 := a.isLt.trans (by decide)
  apply BitVec.eq_of_toNat_eq
  rw [shr96_loadWord_toNat, hfield, addressWord, BitVec.toNat_setWidth, Nat.mod_eq_of_lt hlt]

/-- Two 20-byte fields are the same word only if they are the same bytes. -/
theorem shr96_loadWord_eq_iff {m m' : ByteMem} {p p' : Nat} :
    shr96 (loadWord m p) = shr96 (loadWord m' p') ↔
      ∀ i, i < 20 → m (p + i) = m' (p' + i) := by
  rw [← BitVec.toNat_inj, shr96_loadWord_toNat, shr96_loadWord_toNat, readBE_eq_iff]

/-- A 32-byte field is the word itself. -/
theorem loadWord_u256 {m : ByteMem} {p : Nat} {x : U256}
    (h : Holds m p (u256Bytes x)) : loadWord m p = x := by
  apply BitVec.eq_of_toNat_eq
  rw [loadWord_toNat]
  exact h.readBE_eq (by simpa using x.isLt)

end SovereignShadow.Ports.Evm
