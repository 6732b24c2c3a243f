import SovereignShadow.Verified.Bytes

/-!
# Writing a byte memory

A byte string stored at a position, and memories filled from one position on by a run
of stores.  `Written m₀ m p bs` says that `m` is `m₀` with `bs` written from `p` on and
nothing behind it; a store that starts inside the run and ends behind it cuts the run
and goes on from there.

## Main results

* `Written.store` — a store at or before the end of the run.
* `Written.skip` — cells that are left as they were.
* `Written.slice` — what is read back.
-/

namespace SovereignShadow.Verified.Bytes

/-- The memory after the bytes `bs` are stored at `p`. -/
def store (m : ByteMem) (p : Nat) (bs : List UInt8) : ByteMem :=
  fun i => if p ≤ i then (bs[i - p]?).getD (m i) else m i

/-- The `n` cells from `p` on. -/
def slice (m : ByteMem) (p n : Nat) : List UInt8 := (List.range n).map fun i => m (p + i)

theorem store_before (m : ByteMem) {p i : Nat} (bs : List UInt8) (h : i < p) :
    store m p bs i = m i := by
  rw [store, if_neg (by omega)]

theorem store_after (m : ByteMem) {p i : Nat} {bs : List UInt8} (h : p + bs.length ≤ i) :
    store m p bs i = m i := by
  rw [store, if_pos (by omega), List.getElem?_eq_none (by omega), Option.getD_none]

theorem store_at (m : ByteMem) (p : Nat) {bs : List UInt8} {i : Nat} (h : i < bs.length) :
    store m p bs (p + i) = bs[i] := by
  rw [store, if_pos (by omega), Nat.add_sub_cancel_left, List.getElem?_eq_getElem h,
    Option.getD_some]

theorem Holds.slice {m : ByteMem} {p : Nat} {bs : List UInt8} (h : Holds m p bs) :
    slice m p bs.length = bs := by
  apply List.ext_getElem
  · simp [Bytes.slice]
  · intro i _ hi
    simp [Bytes.slice, h i hi]

/-! ## Runs of stores -/

/-- The memory `m` is `m₀` with `bs` written from `p` on. -/
structure Written (m₀ m : ByteMem) (p : Nat) (bs : List UInt8) : Prop where
  holds : Holds m p bs
  behind : ∀ i, p + bs.length ≤ i → m i = m₀ i

namespace Written

variable {m₀ m : ByteMem} {p k : Nat} {bs xs : List UInt8}

theorem first (m₀ : ByteMem) (p : Nat) (bs : List UInt8) :
    Written m₀ (Bytes.store m₀ p bs) p bs where
  holds _ hi := store_at m₀ p hi
  behind _ hi := store_after m₀ hi

/-- **A store** at the cell `k` of the run that reaches its end. -/
theorem store (h : Written m₀ m p xs) (hk : k ≤ xs.length) (hEnd : xs.length ≤ k + bs.length) :
    Written m₀ (Bytes.store m (p + k) bs) p (xs.take k ++ bs) where
  holds := by
    have hCut : (xs.take k).length = k := by simp [hk]
    rw [Holds.append_iff, hCut]
    constructor
    · intro i hi
      rw [hCut] at hi
      rw [store_before m bs (by omega), h.holds i (by omega), List.getElem_take]
    · intro i hi
      exact store_at m (p + k) hi
  behind i hi := by
    simp only [List.length_append, List.length_take, Nat.min_eq_left hk] at hi
    rw [store_after m (by omega)]
    exact h.behind i (by omega)

/-- A store at the end of the run. -/
theorem append (h : Written m₀ m p xs) {q : Nat} (hq : q = p + xs.length) (bs : List UInt8) :
    Written m₀ (Bytes.store m q bs) p (xs ++ bs) := by
  have hStore : Written m₀ (Bytes.store m (p + xs.length) bs) p (xs.take xs.length ++ bs) :=
    h.store le_rfl (by omega)
  rwa [List.take_length, ← hq] at hStore

/-- Cells that are not stored to belong to the run by what they held. -/
theorem skip (h : Written m₀ m p xs) (hHeld : Holds m₀ (p + xs.length) bs) :
    Written m₀ m p (xs ++ bs) where
  holds := by
    rw [Holds.append_iff]
    refine ⟨h.holds, fun i hi => ?_⟩
    rw [h.behind _ (by omega)]
    exact hHeld i hi
  behind i hi := by
    rw [List.length_append] at hi
    exact h.behind i (by omega)

theorem slice (h : Written m₀ m p bs) {n : Nat} (hn : n = bs.length) : Bytes.slice m p n = bs := by
  rw [hn]
  exact h.holds.slice

end Written

end SovereignShadow.Verified.Bytes
