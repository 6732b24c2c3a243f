import Mathlib

/-!
# Order statistics

The entry at an index of a sorted list, by counting: it satisfies a predicate that is closed
downwards exactly if more entries than its index do.

## Main results

* `sorted_iff` — the entry at an index.
* `median_between` — a majority pins the median down.
-/

namespace SovereignShadow.Verified.OrderStatistic

variable {α : Type*} {le : α → α → Bool}

/-- Every entry below one that satisfies `p` does so too. -/
def Down (le : α → α → Bool) (p : α → Bool) : Prop := ∀ a b, le a b = true → p b = true → p a = true

/-- **The entry at an index.** -/
theorem sorted_iff {p : α → Bool} (hDown : Down le p) {l : List α}
    (hSorted : l.Pairwise fun a b => le a b = true) {k : ℕ} {m : α} (hm : l[k]? = some m) :
    p m = true ↔ k < l.countP p := by
  induction l generalizing k with
  | nil => exact absurd hm (by simp)
  | cons first rest ih =>
      rw [List.pairwise_cons] at hSorted
      cases k with
      | zero =>
          rw [List.getElem?_cons_zero] at hm
          obtain rfl := Option.some.inj hm
          rw [List.countP_pos_iff]
          constructor
          · intro h
            exact ⟨first, List.mem_cons_self, h⟩
          · rintro ⟨other, hMem, h⟩
            rcases List.mem_cons.mp hMem with rfl | hRest
            · exact h
            · exact hDown first other (hSorted.1 other hRest) h
      | succ k =>
          rw [List.getElem?_cons_succ] at hm
          rw [ih hSorted.2 hm, List.countP_cons]
          by_cases hFirst : p first = true
          · rw [if_pos hFirst]
            omega
          · have hNone : rest.countP p = 0 := by
              rw [List.countP_eq_zero]
              intro other hMem h
              exact hFirst (hDown first other (hSorted.1 other hMem) h)
            rw [if_neg hFirst, hNone]
            omega

section Merged

variable (hTrans : ∀ a b c, le a b = true → le b c = true → le a c = true)
  (hTotal : ∀ a b, (le a b || le b a) = true)
include hTrans hTotal

theorem mergeSort_iff {p : α → Bool} (hDown : Down le p) {l : List α} {k : ℕ} {m : α}
    (hm : (l.mergeSort le)[k]? = some m) : p m = true ↔ k < l.countP p := by
  rw [sorted_iff hDown (List.pairwise_mergeSort hTrans hTotal l) hm,
    (List.mergeSort_perm l le).countP_eq]

/-- **A majority** between two downward-closed predicates, that satisfies the larger one and not
the smaller one, has the median among it. -/
theorem median_between {below upTo : α → Bool} (hBelow : Down le below) (hUpTo : Down le upTo)
    {l : List α} {m : α} (hm : (l.mergeSort le)[l.length / 2]? = some m)
    (hMajority : l.length < 2 * l.countP fun a => upTo a && !below a) :
    below m = false ∧ upTo m = true := by
  have hUp : l.countP (fun a => upTo a && !below a) ≤ l.countP upTo :=
    List.countP_mono_left fun a _ h => (Bool.and_eq_true_iff.mp h).1
  have hApart : l.countP (fun a => upTo a && !below a) + l.countP below ≤ l.length := by
    rw [List.length_eq_countP_add_countP below, Nat.add_comm]
    apply Nat.add_le_add_left
    apply List.countP_mono_left
    intro a _ h
    have hNot := (Bool.and_eq_true_iff.mp h).2
    simpa using hNot
  constructor
  · rw [Bool.eq_false_iff, ne_eq, mergeSort_iff hTrans hTotal hBelow hm]
    omega
  · rw [mergeSort_iff hTrans hTotal hUpTo hm]
    omega

end Merged

end SovereignShadow.Verified.OrderStatistic
