import Mathlib

/-!
# Fixed bitmaps of 64-bit words

A bitmap is a vector of `n` words; bit `i` is bit `i % 64` of word `i / 64`.  The three
operations fail on a word outside the vector.  `Marks b s` says that the set bits of `b`
are the numbers in `s`, and is what a caller reasons with.

## Main results

* `Marks.test` — a test in range decides membership.
* `Marks.mark` — marking inserts.
* `unmark_mark` — unmarking takes back the marking of a clear bit.
-/

namespace SovereignShadow.Verified.Bitmap

abbrev Words (n : ℕ) := Vector (BitVec 64) n

variable {n : ℕ}

/-- The word with bit `i` alone. -/
def bitMask (i : ℕ) : BitVec 64 := 1#64 <<< (i % 64)

def test (b : Words n) (i : ℕ) : Option Bool :=
  (b[i / 64]?).map fun word => word.getLsbD (i % 64)

def mark (b : Words n) (i : ℕ) : Option (Words n) :=
  (b[i / 64]?).map fun word => b.setIfInBounds (i / 64) (word ||| bitMask i)

def unmark (b : Words n) (i : ℕ) : Option (Words n) :=
  (b[i / 64]?).map fun word => b.setIfInBounds (i / 64) (word &&& ~~~ bitMask i)

/-- The set bits of `b` are the numbers in `s`. -/
def Marks (b : Words n) (s : Finset ℕ) : Prop := ∀ i, test b i = some true ↔ i ∈ s

/-! ## Masks -/

theorem getLsbD_bitMask {i j : ℕ} :
    (bitMask i).getLsbD j = decide (j = i % 64) := by
  unfold bitMask
  rw [← BitVec.twoPow_eq, BitVec.getLsbD_twoPow]
  have hi : i % 64 < 64 := Nat.mod_lt i (by norm_num)
  simp [hi, eq_comm]

/-- A clear bit can be set and cleared again. -/
theorem clear_set_word {word : BitVec 64} {i : ℕ} (hClear : word.getLsbD (i % 64) = false) :
    (word ||| bitMask i) &&& ~~~ bitMask i = word := by
  apply BitVec.eq_of_getLsbD_eq
  intro j hj
  rw [BitVec.getLsbD_and, BitVec.getLsbD_or, BitVec.getLsbD_not, getLsbD_bitMask]
  by_cases hSame : j = i % 64
  · simp [hSame, hClear]
  · simp [hSame, hj]

/-! ## Range -/

theorem getElem?_of_lt (b : Words n) {i : ℕ} (hi : i / 64 < n) :
    b[i / 64]? = some b[i / 64] := Vector.getElem?_eq_getElem hi

theorem test_eq_none (b : Words n) {i : ℕ} : test b i = none ↔ ¬ i / 64 < n := by
  unfold test
  rw [Option.map_eq_none_iff, Vector.getElem?_eq_none_iff, not_lt]

theorem mark_eq_none (b : Words n) {i : ℕ} : mark b i = none ↔ ¬ i / 64 < n := by
  unfold mark
  rw [Option.map_eq_none_iff, Vector.getElem?_eq_none_iff, not_lt]

theorem exists_mark (b : Words n) {i : ℕ} (hi : i / 64 < n) : ∃ b', mark b i = some b' := by
  unfold mark
  rw [getElem?_of_lt b hi]
  exact ⟨_, rfl⟩

/-! ## Marked sets -/

theorem marks_zero : Marks (Vector.replicate n 0#64) ∅ := by
  intro i
  unfold test
  rw [Vector.getElem?_replicate]
  split <;> simp

theorem Marks.test {b : Words n} {s : Finset ℕ} (h : Marks b s) {i : ℕ} (hi : i / 64 < n) :
    Bitmap.test b i = some (decide (i ∈ s)) := by
  cases hTest : Bitmap.test b i with
  | none => exact absurd hi ((test_eq_none b).mp hTest)
  | some bit =>
      cases bit with
      | true => rw [decide_eq_true ((h i).mp hTest)]
      | false =>
          have hOut : i ∉ s := by
            intro hIn
            rw [(h i).mpr hIn] at hTest
            exact absurd hTest (by decide)
          rw [decide_eq_false hOut]

/-- Every bitmap marks a set. -/
theorem exists_marks (b : Words n) : ∃ s, Marks b s := by
  refine ⟨(Finset.range (64 * n)).filter fun i => Bitmap.test b i = some true, fun i => ?_⟩
  rw [Finset.mem_filter, Finset.mem_range]
  refine ⟨fun hTest => ⟨?_, hTest⟩, fun h => h.2⟩
  by_contra hFar
  have hOut : ¬ i / 64 < n := by omega
  rw [(test_eq_none b).mpr hOut] at hTest
  exact absurd hTest (by simp)

/-- **Marking inserts.** -/
theorem Marks.mark {b b' : Words n} {s : Finset ℕ} {i : ℕ} (h : Marks b s)
    (hMark : mark b i = some b') : Marks b' (insert i s) := by
  have hi : i / 64 < n := by
    by_contra hNot
    rw [(mark_eq_none b).mpr hNot] at hMark
    exact absurd hMark (by simp)
  unfold Bitmap.mark at hMark
  rw [getElem?_of_lt b hi] at hMark
  obtain rfl := Option.some.inj hMark
  intro j
  rw [Finset.mem_insert, ← h j]
  unfold Bitmap.test
  rw [Vector.getElem?_setIfInBounds]
  by_cases hWord : i / 64 = j / 64
  · -- the same word: only bit `i % 64` changes
    have hBit : j % 64 = i % 64 ↔ j = i := by omega
    rw [if_pos hWord, if_pos hi, ← hWord, getElem?_of_lt b hi]
    simp [getLsbD_bitMask, hBit, or_comm]
  · have hNe : j ≠ i := by
      rintro rfl
      exact hWord rfl
    rw [if_neg hWord]
    simp [hNe]

/-- **Unmarking restores.** -/
theorem unmark_mark {b b' : Words n} {i : ℕ} (hClear : test b i = some false)
    (hMark : mark b i = some b') : unmark b' i = some b := by
  have hi : i / 64 < n := by
    by_contra hNot
    rw [(test_eq_none b).mpr hNot] at hClear
    exact absurd hClear (by simp)
  unfold mark at hMark
  unfold test at hClear
  rw [getElem?_of_lt b hi] at hMark hClear
  obtain rfl := Option.some.inj hMark
  unfold unmark
  rw [Vector.getElem?_setIfInBounds_self_of_lt hi, Option.map_some,
    Vector.setIfInBounds_setIfInBounds, clear_set_word (Option.some.inj hClear)]
  congr 1
  apply Vector.ext
  intro j hj
  rw [Vector.getElem_setIfInBounds]
  split
  · next hSame => subst hSame; rfl
  · rfl

end SovereignShadow.Verified.Bitmap
