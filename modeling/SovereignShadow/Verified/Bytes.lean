import Mathlib

/-!
# Big-endian fields of a byte memory

A byte memory is a total function `Nat → UInt8`.  A calldata area, a memory
area or a slice padded with zeros are all such functions, so one set of lemmas
serves every reader.  The module gives the big-endian value of a run of cells
(`readBE`), the fixed-width encoder (`encodeBE`) and the predicate that a memory
carries a given byte list at a position (`Holds`), and proves that a field that
was encoded is read back, also through a wider word that overruns it.

## Main results

* `readBE_add` — a wide read splits into its leading and trailing fields.
* `Holds.append_iff` — the fields of a concatenation lie one after another.
* `Holds.readBE_encodeBE` — an encoded field is read back.
* `encodeBE_append` — two encodings side by side are the encoding of one number.
* `prefix_drop_append` — the same for the pieces of a list.
* `readBE_div_pow`, `readBE_byte` — the leading field and any single byte of a
  word, as a shift or a byte selection extracts them.
-/

namespace SovereignShadow.Verified.Bytes

/-- A byte memory: every cell has a value. -/
abbrev ByteMem := Nat → UInt8

/-- The big-endian value of the `w` cells from `p` on. -/
def readBE (m : ByteMem) (p : Nat) : Nat → Nat
  | 0 => 0
  | w + 1 => readBE m p w * 256 + (m (p + w)).toNat

/-- The `w`-byte big-endian encoding of `x`, high bytes beyond `w` dropped. -/
def encodeBE : Nat → Nat → List UInt8
  | 0, _ => []
  | w + 1, x => encodeBE w (x / 256) ++ [UInt8.ofNat (x % 256)]

/-- The memory carries the bytes `bs` from `p` on. -/
def Holds (m : ByteMem) (p : Nat) (bs : List UInt8) : Prop :=
  ∀ i (h : i < bs.length), m (p + i) = bs[i]

/-- The zero-extended memory of a byte list. -/
def ofList (bs : List UInt8) : ByteMem := fun i => bs.getD i 0

@[simp] theorem encodeBE_length (w x : Nat) : (encodeBE w x).length = w := by
  induction w generalizing x with
  | zero => rfl
  | succ w ih => simp [encodeBE, ih]

theorem readBE_lt (m : ByteMem) (p w : Nat) : readBE m p w < 256 ^ w := by
  induction w with
  | zero => simp [readBE]
  | succ w ih =>
      have hb : (m (p + w)).toNat < 256 := (m (p + w)).toNat_lt
      rw [readBE, Nat.pow_succ]
      omega

/-- A read of `v + w` cells is its leading `v` cells followed by the next `w`. -/
theorem readBE_add (m : ByteMem) (p v w : Nat) :
    readBE m p (v + w) = readBE m p v * 256 ^ w + readBE m (p + v) w := by
  induction w with
  | zero => simp [readBE]
  | succ w ih =>
      rw [← Nat.add_assoc, readBE, ih, readBE, Nat.pow_succ, Nat.add_assoc p v w]
      ring

/-- Shifting a wide word down leaves its leading field. -/
theorem readBE_div_pow (m : ByteMem) (p v w : Nat) :
    readBE m p (v + w) / 256 ^ w = readBE m p v := by
  have hpos : 0 < 256 ^ w := Nat.pow_pos (by decide)
  rw [readBE_add, Nat.mul_comm, Nat.mul_add_div hpos,
    Nat.div_eq_of_lt (readBE_lt m (p + v) w), Nat.add_zero]

@[simp] theorem readBE_one (m : ByteMem) (p : Nat) : readBE m p 1 = (m p).toNat := by
  simp [readBE]

/-- Byte `i` of a `w`-byte word is the cell at `p + i`. -/
theorem readBE_byte (m : ByteMem) (p w i : Nat) (hi : i < w) :
    readBE m p w / 256 ^ (w - 1 - i) % 256 = (m (p + i)).toNat := by
  have hw : w = (i + 1) + (w - 1 - i) := by omega
  have hdiv : readBE m p w / 256 ^ (w - 1 - i) = readBE m p (i + 1) := by
    conv_lhs => rw [hw]
    have : (i + 1) + (w - 1 - i) - 1 - i = w - 1 - i := by omega
    rw [this]
    exact readBE_div_pow m p (i + 1) (w - 1 - i)
  have hb : (m (p + i)).toNat < 256 := (m (p + i)).toNat_lt
  rw [hdiv, readBE]
  omega

theorem readBE_congr {m m' : ByteMem} {p p' w : Nat}
    (h : ∀ i, i < w → m (p + i) = m' (p' + i)) : readBE m p w = readBE m' p' w := by
  induction w with
  | zero => rfl
  | succ w ih =>
      rw [readBE, readBE, ih fun i hi => h i (by omega), h w (by omega)]

/-- A field determines its cells. -/
theorem readBE_eq_iff {m m' : ByteMem} {p p' w : Nat} :
    readBE m p w = readBE m' p' w ↔ ∀ i, i < w → m (p + i) = m' (p' + i) := by
  constructor
  · intro h i hi
    have hByte := readBE_byte m p w i hi
    rw [h, readBE_byte m' p' w i hi] at hByte
    exact UInt8.toNat_inj.mp hByte.symm
  · exact readBE_congr

theorem encodeBE_add (v w x : Nat) :
    encodeBE (v + w) x = encodeBE v (x / 256 ^ w) ++ encodeBE w x := by
  induction w generalizing x with
  | zero => simp [encodeBE]
  | succ w ih =>
      rw [← Nat.add_assoc, encodeBE, ih, encodeBE, List.append_assoc, Nat.div_div_eq_div_mul,
        ← Nat.pow_succ']

theorem encodeBE_mod (w x : Nat) : encodeBE w (x % 256 ^ w) = encodeBE w x := by
  induction w generalizing x with
  | zero => rfl
  | succ w ih =>
      have hHigh : x % 256 ^ (w + 1) / 256 = x / 256 % 256 ^ w := by
        rw [Nat.pow_succ', Nat.mod_mul_right_div_self]
      have hLow : x % 256 ^ (w + 1) % 256 = x % 256 := by
        rw [Nat.pow_succ', Nat.mod_mul_right_mod]
      rw [encodeBE, encodeBE, hHigh, hLow, ih]

/-- Two encodings side by side are one. -/
theorem encodeBE_append (v w a b : Nat) :
    encodeBE v a ++ encodeBE w b = encodeBE (v + w) (a * 256 ^ w + b % 256 ^ w) := by
  have hPos : 0 < 256 ^ w := Nat.pow_pos (by norm_num)
  have hHigh : (a * 256 ^ w + b % 256 ^ w) / 256 ^ w = a := by
    rw [Nat.add_comm, Nat.add_mul_div_right _ _ hPos, Nat.div_eq_of_lt (Nat.mod_lt b hPos),
      Nat.zero_add]
  have hLow : (a * 256 ^ w + b % 256 ^ w) % 256 ^ w = b % 256 ^ w := by
    rw [Nat.mul_add_mod_self_right, Nat.mod_mod]
  rw [encodeBE_add, hHigh, ← encodeBE_mod w (a * 256 ^ w + b % 256 ^ w), hLow, encodeBE_mod]

/-! ## Memories that carry a byte list -/

theorem Holds.append_iff (m : ByteMem) (p : Nat) (xs ys : List UInt8) :
    Holds m p (xs ++ ys) ↔ Holds m p xs ∧ Holds m (p + xs.length) ys := by
  constructor
  · intro h
    constructor
    · intro i hi
      have hlt : i < (xs ++ ys).length := by simp; omega
      rw [h i hlt, List.getElem_append_left hi]
    · intro i hi
      have hlt : xs.length + i < (xs ++ ys).length := by simp; omega
      rw [Nat.add_assoc, h (xs.length + i) hlt,
        List.getElem_append_right (by omega)]
      simp
  · rintro ⟨hx, hy⟩ i hi
    by_cases hlt : i < xs.length
    · rw [hx i hlt, List.getElem_append_left hlt]
    · have hge : xs.length ≤ i := Nat.le_of_not_lt hlt
      have hlen : i - xs.length < ys.length := by
        simp at hi
        omega
      have hcell := hy (i - xs.length) hlen
      rw [show p + xs.length + (i - xs.length) = p + i by omega] at hcell
      rw [hcell, List.getElem_append_right hge]

theorem Holds.singleton (m : ByteMem) (p : Nat) (b : UInt8) :
    Holds m p [b] ↔ m p = b := by
  constructor
  · intro h
    simpa using h 0 (by simp)
  · intro h i hi
    have : i = 0 := by simpa using hi
    subst this
    simpa using h

/-- An encoded field is read back, reduced to its width. -/
theorem Holds.readBE_encodeBE {m : ByteMem} {p w x : Nat}
    (h : Holds m p (encodeBE w x)) : readBE m p w = x % 256 ^ w := by
  induction w generalizing x with
  | zero => simp [readBE, Nat.mod_one]
  | succ w ih =>
      rw [encodeBE, Holds.append_iff, encodeBE_length, Holds.singleton] at h
      rw [readBE, ih h.1, h.2, Nat.pow_succ', Nat.mod_mul]
      have hb : (UInt8.ofNat (x % 256)).toNat = x % 256 := by
        simp
      rw [hb]
      ring

/-- A field that fits its width is read back unchanged. -/
theorem Holds.readBE_eq {m : ByteMem} {p w x : Nat}
    (h : Holds m p (encodeBE w x)) (hx : x < 256 ^ w) : readBE m p w = x := by
  rw [h.readBE_encodeBE, Nat.mod_eq_of_lt hx]

/-- The zero-extended memory of a list carries every piece of the list. -/
theorem holds_ofList (pre bs post : List UInt8) :
    Holds (ofList (pre ++ bs ++ post)) pre.length bs := by
  intro i hi
  have hlt : pre.length + i < (pre ++ bs ++ post).length := by simp; omega
  simp [ofList, List.getD_eq_getElem?_getD, List.getElem?_append, hi]

/-! ## Pieces of a list -/

/-- A list that starts with two pieces carries the second one behind the first. -/
theorem prefix_drop_append {α : Type} {data xs ys : List α} {p : Nat}
    (h : xs ++ ys <+: data.drop p) :
    xs <+: data.drop p ∧ ys <+: data.drop (p + xs.length) := by
  obtain ⟨post, hData⟩ := h
  constructor
  · exact ⟨ys ++ post, by rw [← hData, List.append_assoc]⟩
  · exact ⟨post, by rw [← List.drop_drop, ← hData, List.append_assoc, List.drop_left]⟩

/-- Two pieces side by side are one. -/
theorem append_piece {α : Type} {data xs ys : List α} {p : Nat} (hx : xs <+: data.drop p)
    (hy : ys <+: data.drop (p + xs.length)) : xs ++ ys <+: data.drop p := by
  obtain ⟨post, hData⟩ := hx
  rw [← List.drop_drop, ← hData, List.drop_left] at hy
  rw [← hData]
  exact (List.prefix_append_right_inj xs).mpr hy

theorem take_drop_piece {α : Type} {data xs : List α} {p : Nat} (h : xs <+: data.drop p) :
    (data.drop p).take xs.length = xs :=
  (List.prefix_iff_eq_take.mp h).symm

theorem le_length_piece {α : Type} {data xs : List α} {p : Nat} (h : xs <+: data.drop p)
    (hPos : 0 < xs.length) : p + xs.length ≤ data.length := by
  have hLength := h.length_le
  rw [List.length_drop] at hLength
  omega

end SovereignShadow.Verified.Bytes
