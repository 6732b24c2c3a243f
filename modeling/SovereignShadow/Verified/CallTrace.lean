import SovereignShadow.Verified.Callback

/-!
# Traces of programs that call

The queries that a program makes when each is answered by a given function of the query
and the world, in order, with the program's result.

## Main results

* `exec_bind`, `exec_bind_none` — the trace of a sequence is the traces of its parts.
* `result_bind` — the result of a sequence, whether or not its first part returns.
* `Asks.bind`, `Asks.exec` — what all queries of a program satisfy, whatever the answers.
-/

namespace SovereignShadow.Verified.Callback

variable {Q A R S W : Type} {answer : Q → W → A × W}

/-- The queries made, and the result and the world after it, or `none` for a revert. -/
def exec (answer : Q → W → A × W) : Prog Q A R → W → List Q × Option (R × W)
  | .ret r, w => ([], some (r, w))
  | .revert, _ => ([], none)
  | .ask q next, w =>
      let rest := exec answer (next (answer q w).1) (answer q w).2
      (q :: rest.1, rest.2)

@[simp] theorem exec_pure (r : R) (w : W) :
    exec answer (pure r : Prog Q A R) w = ([], some (r, w)) := rfl

theorem exec_query {q : Q} {w : W} {a : A} {w' : W} (hAnswer : answer q w = (a, w')) :
    exec answer (Prog.query q : Prog Q A A) w = ([q], some (a, w')) := by
  simp [Prog.query, exec, hAnswer]

theorem exec_require {c : Prop} [Decidable c] (h : c) (w : W) :
    exec answer (Prog.require c : Prog Q A Unit) w = ([], some ((), w)) := by
  rw [Prog.require, if_pos h]
  rfl

theorem exec_require_not {c : Prop} [Decidable c] (h : ¬ c) (w : W) :
    exec answer (Prog.require c : Prog Q A Unit) w = ([], none) := by
  rw [Prog.require, if_neg h]
  rfl

/-- **Sequencing**, where the first part returns. -/
theorem exec_bind {p : Prog Q A R} {f : R → Prog Q A S} {w w' : W} {qs : List Q} {r : R}
    (h : exec answer p w = (qs, some (r, w'))) :
    exec answer (p >>= f) w = (qs ++ (exec answer (f r) w').1, (exec answer (f r) w').2) := by
  show exec answer (p.bind f) w = _
  induction p generalizing w qs with
  | ret r₀ =>
      simp only [exec, Prod.mk.injEq, Option.some.injEq] at h
      obtain ⟨rfl, rfl, rfl⟩ := h
      rfl
  | revert => simp [exec] at h
  | ask q next ih =>
      simp only [exec, Prod.mk.injEq] at h
      obtain ⟨rfl, hResult⟩ := h
      have hNext := ih (answer q w).1 (w := (answer q w).2) (Prod.ext rfl hResult)
      simp only [Prog.bind, exec, hNext]
      rfl

/-- Sequencing, where the first part reverts. -/
theorem exec_bind_none {p : Prog Q A R} {f : R → Prog Q A S} {w : W} {qs : List Q}
    (h : exec answer p w = (qs, none)) : exec answer (p >>= f) w = (qs, none) := by
  show exec answer (p.bind f) w = _
  induction p generalizing w qs with
  | ret r₀ => simp [exec] at h
  | revert =>
      simp only [exec, Prod.mk.injEq, and_true] at h
      exact h ▸ rfl
  | ask q next ih =>
      simp only [exec, Prod.mk.injEq] at h
      obtain ⟨rfl, hResult⟩ := h
      have hNext := ih (answer q w).1 (w := (answer q w).2) (Prod.ext rfl hResult)
      simp only [Prog.bind, exec, hNext]

theorem exec_bind_fst {p : Prog Q A R} {f : R → Prog Q A S} {w w' : W} {qs : List Q} {r : R}
    (h : exec answer p w = (qs, some (r, w'))) :
    (exec answer (p >>= f) w).1 = qs ++ (exec answer (f r) w').1 := by
  rw [exec_bind h]

/-- A query whose answer is checked. -/
theorem exec_guarded {q : Q} {w : W} {a : A} {w' : W} (hAnswer : answer q w = (a, w'))
    (check : A → Prop) [DecidablePred check] (h : check a) :
    exec answer (Prog.query q >>= fun a => Prog.require (check a)) w = ([q], some ((), w')) := by
  rw [exec_bind (exec_query hAnswer), exec_require h]
  rfl

/-- A query whose answer is checked and read. -/
theorem exec_checked {q : Q} {w : W} {a : A} {w' : W} (hAnswer : answer q w = (a, w'))
    (check : A → Prop) [DecidablePred check] (read : A → R) (h : check a) :
    exec answer (Prog.query q >>= fun a => Prog.require (check a) >>= fun _ => pure (read a)) w =
      ([q], some (read a, w')) := by
  rw [exec_bind (exec_query hAnswer), exec_bind (exec_require h w')]
  rfl

/-! ## Results -/

/-- The result of a run and the world after it, without the trace. -/
def result (answer : Q → W → A × W) (p : Prog Q A R) (w : W) : Option (R × W) :=
  (exec answer p w).2

theorem result_pure (r : R) (w : W) :
    result answer (pure r : Prog Q A R) w = some (r, w) := rfl

theorem result_query (q : Q) (w : W) :
    result answer (Prog.query q : Prog Q A A) w = some (answer q w) := rfl

theorem result_require (c : Prop) [Decidable c] (w : W) :
    result answer (Prog.require c : Prog Q A Unit) w = if c then some ((), w) else none := by
  by_cases h : c
  · rw [result, exec_require h, if_pos h]
  · rw [result, exec_require_not h, if_neg h]

theorem result_bind (p : Prog Q A R) (f : R → Prog Q A S) (w : W) :
    result answer (p >>= f) w =
      (result answer p w).bind fun after => result answer (f after.1) after.2 := by
  unfold result
  cases hFirst : exec answer p w with
  | mk qs ended =>
      cases ended with
      | none => rw [exec_bind_none hFirst, Option.bind_none]
      | some after => rw [exec_bind hFirst, Option.bind_some]

/-- A query whose answer is checked only. -/
theorem result_guarded (q : Q) (check : A → Prop) [DecidablePred check] (w : W) :
    result answer (Prog.query q >>= fun a => Prog.require (check a)) w =
      if check (answer q w).1 then some ((), (answer q w).2) else none := by
  rw [result_bind, result_query, Option.bind_some, result_require]

/-! ## All queries of a program -/

/-- Every query that the program can come to satisfies `P`, and every result `Post`. -/
def Asks (P : Q → Prop) (Post : R → Prop) : Prog Q A R → Prop
  | .ret r => Post r
  | .revert => True
  | .ask q next => P q ∧ ∀ a, Asks P Post (next a)

section Asks

variable {P : Q → Prop} {Post : R → Prop} {Post' : S → Prop}

theorem Asks.weaken {Weak : R → Prop} {p : Prog Q A R} (hp : Asks P Post p)
    (hPost : ∀ r, Post r → Weak r) : Asks P Weak p := by
  induction p with
  | ret r => exact hPost r hp
  | revert => trivial
  | ask q next ih => exact ⟨hp.1, fun a => ih a (hp.2 a)⟩

/-- **Sequencing.** -/
theorem Asks.bind {p : Prog Q A R} {f : R → Prog Q A S} (hp : Asks P Post p)
    (hf : ∀ r, Post r → Asks P Post' (f r)) : Asks P Post' (p >>= f) := by
  show Asks P Post' (p.bind f)
  induction p with
  | ret r => exact hf r hp
  | revert => trivial
  | ask q next ih => exact ⟨hp.1, fun a => ih a (hp.2 a)⟩

theorem Asks.exec {p : Prog Q A R} (h : Asks P Post p) (answer : Q → W → A × W) (w : W) :
    ∀ q ∈ (exec answer p w).1, P q := by
  induction p generalizing w with
  | ret r => exact nofun
  | revert => exact nofun
  | ask q next ih =>
      intro q' hq'
      rcases List.mem_cons.mp hq' with rfl | hLater
      · exact h.1
      · exact ih _ (h.2 _) _ q' hLater

end Asks

end SovereignShadow.Verified.Callback
