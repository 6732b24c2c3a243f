import Mathlib

/-!
# While loops whose body may panic

A loop is a guard and a body; a body that gives nothing is a panic.  `Reaches` relates a
state to the states that the guard is tested in, and `run` executes the loop with a bound
on its iterations.

## Main results

* `Reaches.invariant` — an invariant that every allowed iteration keeps.
* `exists_run` — a measure that falls from one iteration to the next ends the loop.
* `exists_returns` — with an invariant under which no body panics, the loop returns.
* `reaches_of_run` — what a run returns is reached, and fails the guard.
-/

namespace SovereignShadow.Verified.WhileLoop

universe u

structure Loop (σ : Type u) where
  guard : σ → Bool
  body : σ → Option σ

variable {σ : Type u}

/-- The states in which the guard is tested, from `s` on. -/
inductive Reaches (loop : Loop σ) (s : σ) : σ → Prop
  | refl : Reaches loop s s
  | step {t t' : σ} : Reaches loop s t → loop.guard t = true → loop.body t = some t' →
      Reaches loop s t'

/-- At most `n` tests of the guard: `none` where the loop is still running, `some none`
where it panicked. -/
def run (loop : Loop σ) : ℕ → σ → Option (Option σ)
  | 0, _ => none
  | n + 1, s =>
      if loop.guard s then
        match loop.body s with
        | none => some none
        | some s' => run loop n s'
      else some (some s)

variable {loop : Loop σ}

theorem Reaches.head {s t u : σ} (hGuard : loop.guard s = true) (hBody : loop.body s = some t)
    (h : Reaches loop t u) : Reaches loop s u := by
  induction h with
  | refl => exact .step .refl hGuard hBody
  | step _ hGuard' hBody' ih => exact .step ih hGuard' hBody'

/-- A loop that stops after its first iteration. -/
theorem run_once {s t : σ} (hGuard : loop.guard s = true) (hBody : loop.body s = some t)
    (hStop : ¬ loop.guard t = true) : run loop 2 s = some (some t) := by
  rw [run, if_pos hGuard, hBody]
  show run loop 1 t = some (some t)
  rw [run, if_neg hStop]

/-- Behind the first state lies what its iteration reaches. -/
theorem Reaches.eq_or_reaches {s t u : σ} (hBody : loop.body s = some t)
    (h : Reaches loop s u) : u = s ∨ Reaches loop t u := by
  induction h with
  | refl => exact .inl rfl
  | step _ hGuard' hBody' ih =>
      rcases ih with rfl | hReach
      · obtain rfl := Option.some.inj (hBody'.symm.trans hBody)
        exact .inr .refl
      · exact .inr (hReach.step hGuard' hBody')

theorem Reaches.eq_of_stop {t u : σ} (hStop : loop.guard t = false) (h : Reaches loop t u) :
    u = t := by
  induction h with
  | refl => rfl
  | step _ hGuard' _ ih =>
      rw [ih, hStop] at hGuard'
      cases hGuard'

theorem Reaches.eq_or_eq {s t u : σ} (hBody : loop.body s = some t)
    (hStop : loop.guard t = false) (h : Reaches loop s u) : u = s ∨ u = t :=
  (h.eq_or_reaches hBody).imp_right (·.eq_of_stop hStop)

/-- **Invariant rule.**  The iterations that the run makes may be assumed to be allowed. -/
theorem Reaches.invariant (Inv Ok : σ → Prop) {s : σ}
    (hBody : ∀ t t', Inv t → loop.guard t = true → Ok t → loop.body t = some t' → Inv t')
    (hStart : Inv s) (hOk : ∀ t, Reaches loop s t → loop.guard t = true → Ok t) {t : σ}
    (h : Reaches loop s t) : Inv t := by
  induction h with
  | refl => exact hStart
  | step hReach hGuard hStep ih => exact hBody _ _ ih hGuard (hOk _ hReach hGuard) hStep

/-- **Measure rule.**  The measure falls between two iterations; the last one need not
lower it. -/
theorem exists_run (Inv : σ → Prop) (measure : σ → ℕ)
    (hBody : ∀ t t', Inv t → loop.guard t = true → loop.body t = some t' →
      loop.guard t' = true → measure t' < measure t)
    {s : σ} (hInv : ∀ t, Reaches loop s t → Inv t) : ∃ n r, run loop n s = some r := by
  suffices h : ∀ m s, measure s < m → (∀ t, Reaches loop s t → Inv t) →
      ∃ n r, run loop n s = some r from h (measure s + 1) s (Nat.lt_succ_self _) hInv
  intro m
  induction m with
  | zero =>
      intro s hMeasure
      exact absurd hMeasure (Nat.not_lt_zero _)
  | succ m ih =>
      intro s hMeasure hInv
      by_cases hGuard : loop.guard s = true
      · cases hStep : loop.body s with
        | none => exact ⟨1, none, by rw [run, if_pos hGuard, hStep]⟩
        | some s' =>
            by_cases hGuard' : loop.guard s' = true
            · have hFall := hBody s s' (hInv s .refl) hGuard hStep hGuard'
              obtain ⟨n, r, hRun⟩ := ih s' (by omega) fun t ht =>
                hInv t (ht.head hGuard hStep)
              refine ⟨n + 1, r, ?_⟩
              rw [run, if_pos hGuard, hStep]
              exact hRun
            · exact ⟨2, some s', run_once hGuard hStep hGuard'⟩
      · exact ⟨1, some s, by rw [run, if_neg hGuard]⟩

/-- The loop comes to an end in `t`, with every bound that is large enough. -/
def Returns (loop : Loop σ) (s t : σ) : Prop := ∃ m, ∀ n, m ≤ n → run loop n s = some (some t)

/-- **Total correctness.**  An invariant under which the body does not panic, and a measure
that it lowers. -/
theorem exists_returns (Inv : σ → Prop) (measure : σ → ℕ)
    (hBody : ∀ t, Inv t → loop.guard t = true →
      ∃ t', loop.body t = some t' ∧ Inv t' ∧ measure t' < measure t)
    {s : σ} (hStart : Inv s) : ∃ t, Returns loop s t ∧ Inv t ∧ loop.guard t = false := by
  suffices h : ∀ m s, measure s < m → Inv s →
      ∃ t, Returns loop s t ∧ Inv t ∧ loop.guard t = false from
    h (measure s + 1) s (Nat.lt_succ_self _) hStart
  intro m
  induction m with
  | zero =>
      intro s hMeasure
      exact absurd hMeasure (Nat.not_lt_zero _)
  | succ m ih =>
      intro s hMeasure hInv
      by_cases hGuard : loop.guard s = true
      · obtain ⟨s', hStep, hInv', hFall⟩ := hBody s hInv hGuard
        obtain ⟨t, ⟨bound, hRun⟩, hEnd⟩ := ih s' (by omega) hInv'
        refine ⟨t, ⟨bound + 1, fun n hn => ?_⟩, hEnd⟩
        obtain ⟨n, rfl⟩ := Nat.exists_eq_add_of_le' (Nat.le_of_add_left_le hn)
        rw [run, if_pos hGuard, hStep]
        exact hRun n (by omega)
      · refine ⟨s, ⟨1, fun n hn => ?_⟩, hInv, by simpa using hGuard⟩
        obtain ⟨n, rfl⟩ := Nat.exists_eq_add_of_le' hn
        rw [run, if_neg hGuard]

theorem reaches_of_run {n : ℕ} {s t : σ} (h : run loop n s = some (some t)) :
    Reaches loop s t ∧ loop.guard t = false := by
  induction n generalizing s with
  | zero => exact absurd h (by simp [run])
  | succ n ih =>
      rw [run] at h
      by_cases hGuard : loop.guard s = true
      · rw [if_pos hGuard] at h
        cases hStep : loop.body s with
        | none => simp [hStep] at h
        | some s' =>
            rw [hStep] at h
            obtain ⟨hReach, hEnd⟩ := ih h
            exact ⟨hReach.head hGuard hStep, hEnd⟩
      · rw [if_neg hGuard] at h
        obtain rfl : s = t := by simpa using h
        exact ⟨.refl, by simpa using hGuard⟩

end SovereignShadow.Verified.WhileLoop
