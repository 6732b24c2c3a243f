import Mathlib

/-!
# Compressed rows

A table of rows stored as one flat list and the list of the rows' starts, with the total
length as a sentinel: row `u` is the slice between the starts `u` and `u + 1`.

## Main results

* `starts_mono`, `starts_last` — the starts do not decrease and end at the total length.
* `slice_starts` — the slice between two starts is the row.
-/

namespace SovereignShadow.Verified.CompressedRows

variable {α : Type*}

/-- The starts of `rows` from the offset `n` on, and the offset after the last row. -/
def starts : List (List α) → ℕ → List ℕ
  | [], n => [n]
  | row :: rows, n => n :: starts rows (n + row.length)

theorem starts_length (rows : List (List α)) (n : ℕ) :
    (starts rows n).length = rows.length + 1 := by
  induction rows generalizing n with
  | nil => rfl
  | cons row rows ih => simp [starts, ih]

theorem starts_first (rows : List (List α)) (n : ℕ) : (starts rows n)[0]? = some n := by
  cases rows with
  | nil => rfl
  | cons row rows => rfl

theorem le_of_mem_starts {rows : List (List α)} {n k : ℕ} (h : k ∈ starts rows n) : n ≤ k := by
  induction rows generalizing n with
  | nil =>
      rw [starts, List.mem_singleton] at h
      omega
  | cons row rows ih =>
      rcases List.mem_cons.mp h with rfl | hRest
      · exact le_rfl
      · have hStep := ih hRest
        omega

theorem mem_starts_le {rows : List (List α)} {n k : ℕ} (h : k ∈ starts rows n) :
    k ≤ n + rows.flatten.length := by
  induction rows generalizing n with
  | nil => exact (List.mem_singleton.mp h).le
  | cons row rows ih =>
      rw [List.flatten_cons, List.length_append]
      rcases List.mem_cons.mp h with rfl | hRest
      · omega
      · have hStep := ih hRest
        omega

theorem starts_mono (rows : List (List α)) (n : ℕ) : (starts rows n).Pairwise (· ≤ ·) := by
  induction rows generalizing n with
  | nil => exact List.pairwise_singleton _ _
  | cons row rows ih =>
      apply List.Pairwise.cons _ (ih _)
      intro k hk
      have hStep := le_of_mem_starts hk
      omega

theorem starts_last (rows : List (List α)) (n : ℕ) :
    (starts rows n)[rows.length]? = some (n + rows.flatten.length) := by
  induction rows generalizing n with
  | nil => rfl
  | cons row rows ih =>
      show (starts rows (n + row.length))[rows.length]? = _
      rw [ih, List.flatten_cons, List.length_append, Nat.add_assoc]

/-- **A slice is a row.** -/
theorem slice_starts {rows : List (List α)} {u : ℕ} {row : List α} (h : rows[u]? = some row)
    (n : ℕ) : ∃ lo, (starts rows n)[u]? = some (n + lo) ∧
      (starts rows n)[u + 1]? = some (n + lo + row.length) ∧
        (rows.flatten.drop lo).take row.length = row := by
  induction rows generalizing u n with
  | nil => exact absurd h (by simp)
  | cons first rows ih =>
      cases u with
      | zero =>
          obtain rfl := Option.some.inj h
          refine ⟨0, rfl, starts_first rows (n + first.length), ?_⟩
          rw [List.drop_zero, List.flatten_cons, List.take_left]
      | succ u =>
          obtain ⟨lo, hLo, hHi, hSlice⟩ := ih h (n + first.length)
          refine ⟨first.length + lo, ?_, ?_, ?_⟩
          · show (starts rows (n + first.length))[u]? = _
            rw [hLo, Nat.add_assoc]
          · show (starts rows (n + first.length))[u + 1]? = _
            rw [hHi, Nat.add_assoc n]
          · rw [List.flatten_cons, List.drop_append, List.drop_eq_nil_of_le (by omega),
              Nat.add_sub_cancel_left, List.nil_append]
            exact hSlice

end SovereignShadow.Verified.CompressedRows
