import Mathlib.Data.Finset.Basic
import Mathlib.Logic.Function.Basic

/-!
# Tables with retention

A table from keys to values takes two operations: `put` stores a value under a key, and
`retain` drops every key outside a set.  After any sequence of them a key holds the value
that was last put there, unless a retention since then has dropped it.

## Main results

* `lookup_iff` — what a key holds after a sequence of operations.
-/

namespace SovereignShadow.Verified.RetainedTable

universe u v

variable {κ : Type u} {ν : Type v} [DecidableEq κ]

inductive Op (κ : Type u) (ν : Type v) where
  | put (key : κ) (value : ν)
  | retain (keep : Finset κ)

def Op.apply (table : κ → Option ν) : Op κ ν → κ → Option ν
  | .put key value => Function.update table key (some value)
  | .retain keep => fun key => if key ∈ keep then table key else none

/-- The table after a sequence of operations on an empty one. -/
def after (ops : List (Op κ ν)) : κ → Option ν := ops.foldl Op.apply fun _ => none

/-- The operation leaves what the key holds. -/
def Op.Leaves (key : κ) : Op κ ν → Prop
  | .put other _ => other ≠ key
  | .retain keep => key ∈ keep

theorem after_snoc (ops : List (Op κ ν)) (op : Op κ ν) :
    after (ops ++ [op]) = op.apply (after ops) := by
  rw [after, List.foldl_append]
  rfl

/-- One operation. -/
theorem apply_iff {table : κ → Option ν} {op : Op κ ν} {key : κ} {value : ν} :
    op.apply table key = some value ↔
      op = .put key value ∨ op.Leaves key ∧ table key = some value := by
  cases op with
  | put other stored =>
      by_cases hKey : other = key
      · subst hKey
        simp [Op.apply, Op.Leaves]
      · simp [Op.apply, Op.Leaves, hKey, Function.update_of_ne (Ne.symm hKey)]
  | retain keep =>
      by_cases hKeep : key ∈ keep
      · simp [Op.apply, Op.Leaves, hKeep]
      · simp [Op.apply, Op.Leaves, hKeep]

/-- **Last put, never dropped.** -/
theorem lookup_iff {ops : List (Op κ ν)} {key : κ} {value : ν} :
    after ops key = some value ↔
      ∃ earlier later, ops = earlier ++ .put key value :: later ∧
        ∀ op ∈ later, op.Leaves key := by
  induction ops using List.reverseRecOn with
  | nil => simp [after]
  | append_singleton ops op ih =>
      rw [after_snoc, apply_iff, ih]
      constructor
      · rintro (rfl | ⟨hLeaves, earlier, later, rfl, hLater⟩)
        · exact ⟨ops, [], rfl, by simp⟩
        · refine ⟨earlier, later ++ [op], by simp, ?_⟩
          intro op' hMem
          rcases List.mem_append.mp hMem with hOld | hNew
          · exact hLater op' hOld
          · rw [List.mem_singleton.mp hNew]
            exact hLeaves
      · rintro ⟨earlier, later, hSplit, hLater⟩
        rcases List.eq_nil_or_concat later with rfl | ⟨later, last, rfl⟩
        · obtain ⟨-, hLast⟩ := List.append_inj' hSplit rfl
          exact Or.inl (List.cons.inj hLast).1
        · rw [List.concat_eq_append, ← List.cons_append, ← List.append_assoc] at hSplit
          obtain ⟨hOps, hLast⟩ := List.append_inj' hSplit rfl
          obtain rfl := (List.cons.inj hLast).1
          refine Or.inr ⟨hLater op (by simp), earlier, later, hOps, ?_⟩
          exact fun op' hMem => hLater op' (by simp [hMem])

end SovereignShadow.Verified.RetainedTable
