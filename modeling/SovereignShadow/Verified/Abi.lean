import SovereignShadow.Verified.Memory

/-!
# Contract ABI tuples

Tuples of words, arrays of words and byte strings: a head of one word for each
component, which is the word itself or the offset of the component's tail, and the tails
one after another.  The decoder follows the offsets wherever they point, checks that the
tails lie inside the buffer and that every word fits its type.

## Main results

* `decodeWords_eq`, `decodeBytes_eq` — a tail that is held at its offset is decoded.
* `words_at` — where the words of an array lie.
* `bytesArrayTail_at` — where the strings of a `bytes[]` lie.
-/

namespace SovereignShadow.Verified.Abi

open SovereignShadow.Verified.Bytes

/-- A component of a tuple. -/
inductive Value where
  | word (x : ℕ)
  | words (xs : List ℕ)
  | bytes (bs : List UInt8)
  deriving DecidableEq, Repr

def wordBytes (x : ℕ) : List UInt8 := encodeBE 32 x

@[simp] theorem wordBytes_length (x : ℕ) : (wordBytes x).length = 32 := encodeBE_length 32 x

@[simp] theorem flatMap_wordBytes_length (xs : List ℕ) :
    (xs.flatMap wordBytes).length = 32 * xs.length := by
  induction xs with
  | nil => rfl
  | cons x xs ih =>
      rw [List.flatMap_cons, List.length_append, ih, wordBytes_length, List.length_cons]
      omega

/-! ## Encoding -/

/-- Zeros up to a whole number of words. -/
def padding (n : ℕ) : List UInt8 := List.replicate ((32 - n % 32) % 32) 0

/-- What a component puts behind the head. -/
def Value.tail : Value → List UInt8
  | .word _ => []
  | .words xs => wordBytes xs.length ++ xs.flatMap wordBytes
  | .bytes bs => wordBytes bs.length ++ bs ++ padding bs.length

/-- The head, with the next tail at `offset`. -/
def heads : ℕ → List Value → List UInt8
  | _, [] => []
  | offset, .word x :: rest => wordBytes x ++ heads offset rest
  | offset, .words xs :: rest =>
      wordBytes offset ++ heads (offset + (Value.words xs).tail.length) rest
  | offset, .bytes bs :: rest =>
      wordBytes offset ++ heads (offset + (Value.bytes bs).tail.length) rest

theorem heads_length (offset : ℕ) (values : List Value) :
    (heads offset values).length = 32 * values.length := by
  induction values generalizing offset with
  | nil => rfl
  | cons value rest ih =>
      cases value with
      | word x =>
          rw [heads, List.length_append, wordBytes_length, ih, List.length_cons]
          omega
      | words xs =>
          rw [heads, List.length_append, wordBytes_length, ih, List.length_cons]
          omega
      | bytes bs =>
          rw [heads, List.length_append, wordBytes_length, ih, List.length_cons]
          omega

def encodeTuple (values : List Value) : List UInt8 :=
  heads (32 * values.length) values ++ values.flatMap Value.tail

/-- The words of an array lie one after another. -/
theorem words_at {data : List UInt8} {xs : List ℕ} {p k x : ℕ}
    (h : xs.flatMap wordBytes <+: data.drop p) (hk : xs[k]? = some x) :
    wordBytes x <+: data.drop (p + 32 * k) := by
  induction xs generalizing p k with
  | nil => simp at hk
  | cons first rest ih =>
      rw [List.flatMap_cons] at h
      have hSplit := prefix_drop_append h
      cases k with
      | zero =>
          rw [← show first = x from Option.some.inj hk]
          exact hSplit.1
      | succ k =>
          have hRest := hSplit.2
          rw [wordBytes_length] at hRest
          have hNext := ih hRest hk
          rw [show p + 32 * (k + 1) = p + 32 + 32 * k by omega]
          exact hNext

/-! ## Decoding -/

/-- The type of a component; words have a width in bits. -/
inductive Ty where
  | word (bits : ℕ)
  | words (bits : ℕ)
  | bytes
  deriving DecidableEq, Repr

/-- The next `n` words from `p` on. -/
def readWords (m : ByteMem) (bits : ℕ) : ℕ → ℕ → Option (List ℕ)
  | _, 0 => some []
  | p, n + 1 =>
      if readBE m p 32 < 2 ^ bits then
        (readWords m bits (p + 32) n).map (readBE m p 32 :: ·)
      else none

section Decode

variable (m : ByteMem) (base size : ℕ)

/-- The array whose tail is at `offset`. -/
def decodeWords (bits offset : ℕ) : Option Value :=
  let n := readBE m (base + offset) 32
  if size < offset + 32 ∨ size < offset + 32 + 32 * n then none
  else (readWords m bits (base + offset + 32) n).map .words

/-- The byte string whose tail is at `offset`. -/
def decodeBytes (offset : ℕ) : Option Value :=
  let n := readBE m (base + offset) 32
  if size < offset + 32 ∨ size < offset + 32 + n then none
  else some (.bytes (slice m (base + offset + 32) n))

/-- The component whose head word is at `head`. -/
def decodeComponent (head : ℕ) : Ty → Option Value
  | .word bits =>
      if readBE m (base + head) 32 < 2 ^ bits then some (.word (readBE m (base + head) 32))
      else none
  | .words bits => decodeWords m base size bits (readBE m (base + head) 32)
  | .bytes => decodeBytes m base size (readBE m (base + head) 32)

def decodeFrom : ℕ → List Ty → Option (List Value)
  | _, [] => some []
  | head, ty :: rest => do
      let value ← decodeComponent m base size head ty
      let values ← decodeFrom (head + 32) rest
      some (value :: values)

/-- The tuple in the `size` bytes from `base` on. -/
def decodeTuple (tys : List Ty) : Option (List Value) :=
  if size < 32 * tys.length then none else decodeFrom m base size 0 tys

end Decode

/-! ## What is held is decoded -/

section Held

variable {m : ByteMem} {base size : ℕ}

theorem readBE_wordBytes {p x : ℕ} (h : Holds m p (wordBytes x)) (hx : x < 2 ^ 256) :
    readBE m p 32 = x :=
  h.readBE_eq (by norm_num; norm_num at hx; exact hx)

theorem readWords_eq {bits : ℕ} (hBits : bits ≤ 256) {xs : List ℕ} {p : ℕ}
    (h : Holds m p (xs.flatMap wordBytes)) (hFit : ∀ x ∈ xs, x < 2 ^ bits) :
    readWords m bits p xs.length = some xs := by
  induction xs generalizing p with
  | nil => rfl
  | cons x xs ih =>
      rw [List.flatMap_cons, Holds.append_iff, wordBytes_length] at h
      rw [List.forall_mem_cons] at hFit
      have hWord : x < 2 ^ 256 := hFit.1.trans_le (Nat.pow_le_pow_right (by norm_num) hBits)
      rw [List.length_cons, readWords, readBE_wordBytes h.1 hWord, if_pos hFit.1, ih h.2 hFit.2]
      rfl

theorem decodeWords_eq {bits : ℕ} (hBits : bits ≤ 256) {xs : List ℕ} {offset : ℕ}
    (h : Holds m (base + offset) (wordBytes xs.length ++ xs.flatMap wordBytes))
    (hFit : ∀ x ∈ xs, x < 2 ^ bits) (hLength : xs.length < 2 ^ 256)
    (hSize : offset + 32 + 32 * xs.length ≤ size) :
    decodeWords m base size bits offset = some (.words xs) := by
  rw [Holds.append_iff, wordBytes_length] at h
  have hRead := readBE_wordBytes h.1 hLength
  simp only [decodeWords, hRead]
  rw [if_neg (by omega), readWords_eq hBits h.2 hFit]
  rfl

theorem decodeBytes_eq {bs : List UInt8} {offset : ℕ}
    (h : Holds m (base + offset) (wordBytes bs.length ++ bs)) (hLength : bs.length < 2 ^ 256)
    (hSize : offset + 32 + bs.length ≤ size) :
    decodeBytes m base size offset = some (.bytes bs) := by
  rw [Holds.append_iff, wordBytes_length] at h
  have hRead := readBE_wordBytes h.1 hLength
  simp only [decodeBytes, hRead]
  rw [if_neg (by omega), h.2.slice]

end Held

/-! ## Arrays of byte strings -/

/-- The tail of a `bytes[]`: the length, and the strings as a tuple of their own, whose
offsets are counted from behind the length. -/
def bytesArrayTail (bss : List (List UInt8)) : List UInt8 :=
  wordBytes bss.length ++ encodeTuple (bss.map .bytes)

/-- The room that the first `k` strings take. -/
def tailsSize (bss : List (List UInt8)) (k : ℕ) : ℕ :=
  ((bss.take k).map fun bs => (Value.bytes bs).tail.length).sum

/-- The offset of the `k`-th string. -/
def tailStart (bss : List (List UInt8)) (k : ℕ) : ℕ := 32 * bss.length + tailsSize bss k

theorem tailsSize_succ (bs : List UInt8) (rest : List (List UInt8)) (k : ℕ) :
    tailsSize (bs :: rest) (k + 1) = (Value.bytes bs).tail.length + tailsSize rest k := by
  simp [tailsSize]

section Strings

variable {data : List UInt8} {bss : List (List UInt8)} {k : ℕ} {bs : List UInt8}

theorem heads_bytes {p offset : ℕ} (h : heads offset (bss.map .bytes) <+: data.drop p)
    (hk : bss[k]? = some bs) :
    wordBytes (offset + tailsSize bss k) <+: data.drop (p + 32 * k) := by
  induction bss generalizing p offset k with
  | nil => simp at hk
  | cons first rest ih =>
      obtain ⟨hFirst, hRest⟩ := prefix_drop_append h
      cases k with
      | zero => exact hFirst
      | succ k =>
          rw [wordBytes_length] at hRest
          have hNext := ih hRest hk
          rw [tailsSize_succ, ← Nat.add_assoc, show p + 32 * (k + 1) = p + 32 + 32 * k by omega]
          exact hNext

theorem tails_bytes {p : ℕ} (h : (bss.map Value.bytes).flatMap Value.tail <+: data.drop p)
    (hk : bss[k]? = some bs) :
    (Value.bytes bs).tail <+: data.drop (p + tailsSize bss k) := by
  induction bss generalizing p k with
  | nil => simp at hk
  | cons first rest ih =>
      rw [List.map_cons, List.flatMap_cons] at h
      obtain ⟨hFirst, hRest⟩ := prefix_drop_append h
      cases k with
      | zero =>
          obtain rfl := Option.some.inj hk
          exact hFirst
      | succ k =>
          rw [tailsSize_succ, ← Nat.add_assoc]
          exact ih hRest hk

/-- **The strings of an array** lie at their offsets. -/
theorem bytesArrayTail_at {p : ℕ} (h : bytesArrayTail bss <+: data.drop p)
    (hk : bss[k]? = some bs) :
    wordBytes (tailStart bss k) <+: data.drop (p + 32 + 32 * k) ∧
      (Value.bytes bs).tail <+: data.drop (p + 32 + tailStart bss k) := by
  have hTuple := (prefix_drop_append h).2
  rw [wordBytes_length, encodeTuple, List.length_map] at hTuple
  obtain ⟨hHeads, hTails⟩ := prefix_drop_append hTuple
  rw [heads_length, List.length_map] at hTails
  refine ⟨heads_bytes hHeads hk, ?_⟩
  rw [tailStart, ← Nat.add_assoc]
  exact tails_bytes hTails hk

end Strings

end SovereignShadow.Verified.Abi
