import Mathlib

/-!
# Powers from a table of squares

A power `b ^ t` with `b < 1` is read off a table of the `b ^ (2 ^ k)`, as the product of
the entries at the set bits of `t`.  `truncated` forms the product in integers over a
fixed scale, rounding down after every factor; `exact` forms it in rationals.

## Main results

* `truncated_le`, `exact_sub_le` — the rounding loses at most one unit for each entry.
* `exact_succ_le` — one more is a factor of at most `q`, checked on the table alone.
* `prod_le_exact` — no power is below the product of the table.
-/

namespace SovereignShadow.Verified.PowerTable

variable (scale : ℕ)

/-- One entry, for the lowest bit of `t`. -/
def scaleBy (c t r : ℕ) : ℕ := if t % 2 = 1 then r * c / scale else r

def truncated : List ℕ → ℕ → ℕ → ℕ
  | [], _, r => r
  | c :: rest, t, r => truncated rest (t / 2) (scaleBy scale c t r)

/-- The factor that an entry contributes. -/
def factor (c t : ℕ) : ℚ := if t % 2 = 1 then c / scale else 1

def exact : List ℕ → ℕ → ℚ
  | [], _ => 1
  | c :: rest, t => factor scale c t * exact rest (t / 2)

/-- Every entry is at most `q` times the product of those before it. -/
def Decreases : ℚ → List ℕ → Prop
  | _, [] => True
  | q, c :: rest => (c : ℚ) / scale ≤ q ∧ Decreases (q * (c / scale)) rest

instance decidableDecreases : (q : ℚ) → (table : List ℕ) → Decidable (Decreases scale q table)
  | _, [] => .isTrue trivial
  | q, c :: rest =>
      have := decidableDecreases (q * (c / scale)) rest
      inferInstanceAs (Decidable (_ ∧ _))

variable {scale} {table : List ℕ} (hFits : ∀ c ∈ table, c ≤ scale)

theorem factor_nonneg (c t : ℕ) : 0 ≤ factor scale c t := by
  unfold factor
  split
  · positivity
  · norm_num

theorem factor_le_one {c : ℕ} (h : c ≤ scale) (t : ℕ) : factor scale c t ≤ 1 := by
  unfold factor
  split
  · exact div_le_one_of_le₀ (Nat.cast_le.mpr h) (Nat.cast_nonneg _)
  · exact le_rfl

theorem le_factor {c : ℕ} (h : c ≤ scale) (t : ℕ) : (c : ℚ) / scale ≤ factor scale c t := by
  unfold factor
  split
  · exact le_rfl
  · exact div_le_one_of_le₀ (Nat.cast_le.mpr h) (Nat.cast_nonneg _)

theorem exact_nonneg (table : List ℕ) (t : ℕ) : 0 ≤ exact scale table t := by
  induction table generalizing t with
  | nil => exact zero_le_one
  | cons c rest ih => exact mul_nonneg (factor_nonneg c t) (ih (t / 2))

include hFits in
theorem exact_le_one (t : ℕ) : exact scale table t ≤ 1 := by
  induction table generalizing t with
  | nil => exact le_rfl
  | cons c rest ih =>
      rw [List.forall_mem_cons] at hFits
      exact mul_le_one₀ (factor_le_one hFits.1 t) (exact_nonneg rest _) (ih hFits.2 _)

include hFits in
theorem prod_le_exact (t : ℕ) :
    (table.map fun c : ℕ => (c : ℚ) / scale).prod ≤ exact scale table t := by
  induction table generalizing t with
  | nil => exact le_rfl
  | cons c rest ih =>
      rw [List.forall_mem_cons] at hFits
      rw [List.map_cons, List.prod_cons]
      apply mul_le_mul (le_factor hFits.1 t) (ih hFits.2 _) _ (factor_nonneg c t)
      apply List.prod_nonneg
      intro x hx
      obtain ⟨c', _, rfl⟩ := List.mem_map.mp hx
      positivity

/-! ## Rounding -/

theorem scaleBy_bounds (hScale : 0 < scale) (c t r : ℕ) :
    (scaleBy scale c t r : ℚ) ≤ r * factor scale c t ∧
      r * factor scale c t - 1 ≤ (scaleBy scale c t r : ℚ) := by
  unfold scaleBy factor
  by_cases hBit : t % 2 = 1
  · have hPos : (0 : ℚ) < scale := Nat.cast_pos.mpr hScale
    have hFloor : r * c / scale * scale ≤ r * c := Nat.div_mul_le_self _ _
    have hNext : r * c < (r * c / scale + 1) * scale := by
      rw [← Nat.div_lt_iff_lt_mul hScale]
      exact Nat.lt_succ_self _
    have hFloor : ((r * c / scale : ℕ) : ℚ) * scale ≤ r * c := by exact_mod_cast hFloor
    have hNext : (r * c : ℚ) < ((r * c / scale : ℕ) + 1) * scale := by exact_mod_cast hNext
    rw [if_pos hBit, if_pos hBit, ← mul_div_assoc, le_div_iff₀ hPos, sub_le_iff_le_add,
      div_le_iff₀ hPos]
    exact ⟨hFloor, hNext.le⟩
  · rw [if_neg hBit, if_neg hBit, mul_one]
    exact ⟨le_rfl, sub_le_self _ zero_le_one⟩

theorem truncated_le (hScale : 0 < scale) (table : List ℕ) (t r : ℕ) :
    (truncated scale table t r : ℚ) ≤ r * exact scale table t := by
  induction table generalizing t r with
  | nil => simp [truncated, exact]
  | cons c rest ih =>
      calc (truncated scale (c :: rest) t r : ℚ)
          ≤ scaleBy scale c t r * exact scale rest (t / 2) := ih _ _
        _ ≤ r * factor scale c t * exact scale rest (t / 2) :=
            mul_le_mul_of_nonneg_right (scaleBy_bounds hScale c t r).1 (exact_nonneg rest _)
        _ = r * exact scale (c :: rest) t := mul_assoc _ _ _

include hFits in
theorem exact_sub_le (hScale : 0 < scale) (t r : ℕ) :
    r * exact scale table t - table.length ≤ (truncated scale table t r : ℚ) := by
  induction table generalizing t r with
  | nil => simp [truncated, exact]
  | cons c rest ih =>
      rw [List.forall_mem_cons] at hFits
      have hOne := exact_le_one hFits.2 (t / 2)
      have hHead := mul_le_mul_of_nonneg_right (scaleBy_bounds hScale c t r).2
        (@exact_nonneg scale rest (t / 2))
      have hUnfold : r * exact scale (c :: rest) t =
          r * factor scale c t * exact scale rest (t / 2) := (mul_assoc _ _ _).symm
      rw [hUnfold, List.length_cons, Nat.cast_succ]
      calc r * factor scale c t * exact scale rest (t / 2) - (rest.length + 1)
          ≤ (r * factor scale c t - 1) * exact scale rest (t / 2) - rest.length := by linarith
        _ ≤ scaleBy scale c t r * exact scale rest (t / 2) - rest.length :=
            sub_le_sub_right hHead _
        _ ≤ truncated scale (c :: rest) t r := ih hFits.2 _ _

/-! ## One more -/

include hFits in
/-- Adding one clears a run of low bits and sets the bit after them. -/
theorem exact_succ_le {q : ℚ} (h : Decreases scale q table) {t : ℕ}
    (ht : t + 1 < 2 ^ table.length) :
    exact scale table (t + 1) ≤ q * exact scale table t := by
  induction table generalizing q t with
  | nil => simp at ht
  | cons c rest ih =>
      rw [List.forall_mem_cons] at hFits
      have hNonneg := @exact_nonneg scale rest
      rw [List.length_cons, pow_succ] at ht
      by_cases hBit : t % 2 = 1
      · have hSucc : (t + 1) / 2 = t / 2 + 1 := by omega
        have hClear : ¬ (t + 1) % 2 = 1 := by omega
        have hRest := ih hFits.2 h.2 (t := t / 2) (by omega)
        rw [exact, exact, factor, factor, if_neg hClear, if_pos hBit, hSucc, one_mul]
        calc exact scale rest (t / 2 + 1) ≤ q * (c / scale) * exact scale rest (t / 2) := hRest
          _ = q * (c / scale * exact scale rest (t / 2)) := mul_assoc _ _ _
      · have hSame : (t + 1) / 2 = t / 2 := by omega
        have hSet : (t + 1) % 2 = 1 := by omega
        rw [exact, exact, factor, factor, if_pos hSet, if_neg hBit, hSame, one_mul]
        exact mul_le_mul_of_nonneg_right h.1 (hNonneg _)

end SovereignShadow.Verified.PowerTable
