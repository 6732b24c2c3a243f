import Mathlib

/-!
# Chunks of a list

`chunks n l` is `l` cut into pieces of `n`, the last of them shorter where `n` does not divide
the length: piece `i` starts at `n * i`.

## Main results

* `flatten_chunks` — the pieces make up the list, in order.
* `mem_chunks_length` — no piece is empty, and none is longer than `n`.
-/

namespace SovereignShadow.Verified.Chunks

variable {α : Type*}

def chunks (n : ℕ) (l : List α) : List (List α) :=
  (List.range ((l.length + n - 1) / n)).map fun i => (l.drop (n * i)).take n

theorem flatten_take (n : ℕ) (l : List α) (k : ℕ) :
    ((List.range k).map fun i => (l.drop (n * i)).take n).flatten = l.take (n * k) := by
  induction k with
  | zero => simp
  | succ k ih =>
      rw [List.range_succ, List.map_append, List.flatten_append, ih, List.map_singleton,
        List.flatten_singleton, Nat.mul_succ, List.take_add]

variable {n : ℕ} (hn : 0 < n)
include hn

/-- The pieces make up the list. -/
theorem flatten_chunks (l : List α) : (chunks n l).flatten = l := by
  have hEnough : l.length ≤ n * ((l.length + n - 1) / n) := by
    have hMod := Nat.div_add_mod (l.length + n - 1) n
    have hLt := Nat.mod_lt (l.length + n - 1) hn
    omega
  rw [chunks, flatten_take, List.take_of_length_le hEnough]

theorem mem_chunks_length {l chunk : List α} (h : chunk ∈ chunks n l) :
    0 < chunk.length ∧ chunk.length ≤ n := by
  obtain ⟨i, hi, rfl⟩ := List.mem_map.mp h
  have hStart : n * i < l.length := by
    have hLast : n * (i + 1) ≤ l.length + n - 1 :=
      (Nat.mul_le_mul_left n (List.mem_range.mp hi)).trans (Nat.mul_div_le _ _)
    rw [Nat.mul_succ] at hLast
    omega
  rw [List.length_take, List.length_drop]
  omega

end SovereignShadow.Verified.Chunks
