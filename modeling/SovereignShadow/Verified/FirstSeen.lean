import Mathlib

/-!
# Deduplication of a stream by a key

`firstSeen` keeps an item if no earlier one, and no one before the stream, had its key.
So what is kept of a key is the first item that has it, and every other item stands or
falls with that one.

## Main results

* `mem_firstSeen_iff` — the items that are kept are the first of their keys.
* `exists_firstWith` — every key of the stream has a first item.
-/

namespace SovereignShadow.Verified.FirstSeen

universe u v

variable {α : Type u} {κ : Type v} [DecidableEq κ] (key : α → κ)

/-- The items of the stream whose keys are not among those seen before. -/
def firstSeen : Finset κ → List α → List α
  | _, [] => []
  | seen, x :: rest =>
      if key x ∈ seen then firstSeen seen rest
      else x :: firstSeen (insert (key x) seen) rest

/-- The first item of the stream with the key. -/
def firstWith (k : κ) (items : List α) : Option α := items.find? fun x => key x = k

@[simp] theorem firstSeen_nil (seen : Finset κ) : firstSeen key seen [] = [] := rfl

variable {key}

theorem firstWith_cons_self (x : α) (rest : List α) :
    firstWith key (key x) (x :: rest) = some x := by simp [firstWith]

theorem firstWith_cons_ne {k : κ} {x : α} (hne : key x ≠ k) (rest : List α) :
    firstWith key k (x :: rest) = firstWith key k rest := by simp [firstWith, hne]

theorem key_of_firstWith {k : κ} {items : List α} {x : α} (h : firstWith key k items = some x) :
    key x = k := by
  have hKey := List.find?_some h
  exact of_decide_eq_true hKey

/-- **What is kept.** -/
theorem mem_firstSeen_iff {seen : Finset κ} {items : List α} {x : α} :
    x ∈ firstSeen key seen items ↔
      key x ∉ seen ∧ firstWith key (key x) items = some x := by
  induction items generalizing seen with
  | nil => simp [firstWith]
  | cons head rest ih =>
      rw [firstSeen]
      by_cases hSeen : key head ∈ seen
      · rw [if_pos hSeen, ih]
        apply and_congr_right
        intro hNew
        have hne : key head ≠ key x := by
          intro hSame
          exact hNew (hSame ▸ hSeen)
        rw [firstWith_cons_ne hne]
      · rw [if_neg hSeen, List.mem_cons, ih, Finset.mem_insert, not_or]
        by_cases hSame : key head = key x
        · rw [← hSame, firstWith_cons_self, Option.some.injEq]
          constructor
          · intro h
            rcases h with rfl | h
            · exact ⟨hSeen, rfl⟩
            · exact absurd rfl h.1.1
          · intro h
            exact .inl h.2.symm
        · rw [firstWith_cons_ne hSame]
          constructor
          · intro h
            rcases h with rfl | h
            · exact absurd rfl hSame
            · exact ⟨h.1.2, h.2⟩
          · intro h
            exact .inr ⟨⟨fun h' => hSame h'.symm, h.1⟩, h.2⟩

/-- A key of the stream has a first item. -/
theorem exists_firstWith {items : List α} {x : α} (hx : x ∈ items) :
    ∃ first ∈ items, firstWith key (key x) items = some first := by
  cases hFirst : firstWith key (key x) items with
  | none =>
      have hNone := List.find?_eq_none.mp hFirst x hx
      simp at hNone
  | some first => exact ⟨first, List.mem_of_find?_eq_some hFirst, rfl⟩

end SovereignShadow.Verified.FirstSeen
