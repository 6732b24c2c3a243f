import Mathlib

/-!
# Programs that call into unknown code

A program runs alone between its calls.  Each call is a query: some are answered
by code whose behaviour is known, some are static calls of unknown code (any
answer, no effect), and the rest hand control to unknown code, which may change
the world by any step of an environment relation before it answers.

The unknown code may itself call back, and be called back again, down to any
depth.  `foreignAt` closes a `turn` (one call into the program, itself run
against the environment of the level below) and the environment's own moves
under that nesting.

## Main results

* `runs_bind` — a run of a sequence is a run of each part.
* `runs_require` — a failed check has no run.
* `foreignAt_subset` — **custody rule**: a reflexive and transitive relation that
  contains the moves, and every turn against an environment that it contains,
  contains whatever foreign code can do at any depth.
-/

namespace SovereignShadow.Verified.Callback

open Relation

variable {Q A R S W : Type}

/-! ## Programs -/

/-- A program: it returns, reverts, or asks and goes on with the answer. -/
inductive Prog (Q A R : Type) where
  | ret (r : R)
  | revert
  | ask (q : Q) (next : A → Prog Q A R)

namespace Prog

/-- Sequencing; a revert ends the whole program. -/
def bind : Prog Q A R → (R → Prog Q A S) → Prog Q A S
  | ret r, f => f r
  | revert, _ => revert
  | ask q next, f => ask q fun a => (next a).bind f

instance : Monad (Prog Q A) where
  pure := ret
  bind := bind

/-- A single query. -/
def query (q : Q) : Prog Q A A := ask q ret

/-- Go on only if `c` holds. -/
def require (c : Prop) [Decidable c] : Prog Q A Unit := if c then ret () else revert

end Prog

/-! ## Runs -/

/-- How a query is served in a given world. -/
inductive Service (W A : Type) where
  /-- Known code: this answer, and this world after it. -/
  | known (a : A) (w : W)
  /-- A static call of unknown code. -/
  | view
  /-- A call of unknown code. -/
  | free

/-- `p` can run from `w`, return `r` and leave `w'`, when unknown code moves the
world by `F`. -/
def Runs (service : Q → W → Service W A) (F : W → W → Prop) :
    Prog Q A R → W → R → W → Prop
  | .ret r₀, w, r, w' => r = r₀ ∧ w' = w
  | .revert, _, _, _ => False
  | .ask q next, w, r, w' =>
      match service q w with
      | .known a w₁ => Runs service F (next a) w₁ r w'
      | .view => ∃ a, Runs service F (next a) w r w'
      | .free => ∃ a w₁, F w w₁ ∧ Runs service F (next a) w₁ r w'

section Runs

variable {service : Q → W → Service W A} {F : W → W → Prop}

@[simp] theorem runs_pure {r₀ r : R} {w w' : W} :
    Runs service F (pure r₀ : Prog Q A R) w r w' ↔ r = r₀ ∧ w' = w := Iff.rfl

@[simp] theorem runs_revert {r : R} {w w' : W} :
    ¬ Runs service F (.revert : Prog Q A R) w r w' := id

theorem runs_bind {p : Prog Q A R} {f : R → Prog Q A S} {w w' : W} {s : S} :
    Runs service F (p >>= f) w s w' ↔
      ∃ r w₁, Runs service F p w r w₁ ∧ Runs service F (f r) w₁ s w' := by
  change Runs service F (p.bind f) w s w' ↔ _
  induction p generalizing w with
  | ret r₀ => simp [Prog.bind, Runs]
  | revert => simp [Prog.bind, Runs]
  | ask q next ih =>
      simp only [Prog.bind, Runs]
      cases service q w with
      | known a w₁ => exact ih a
      | view =>
          simp only [ih]
          constructor
          · rintro ⟨a, r, w₁, hp, hf⟩
            exact ⟨r, w₁, ⟨a, hp⟩, hf⟩
          · rintro ⟨r, w₁, ⟨a, hp⟩, hf⟩
            exact ⟨a, r, w₁, hp, hf⟩
      | free =>
          simp only [ih]
          constructor
          · rintro ⟨a, w₂, hF, r, w₁, hp, hf⟩
            exact ⟨r, w₁, ⟨a, w₂, hF, hp⟩, hf⟩
          · rintro ⟨r, w₁, ⟨a, w₂, hF, hp⟩, hf⟩
            exact ⟨a, w₂, hF, r, w₁, hp, hf⟩

/-- A query to known code has one run. -/
theorem runs_query_known {q : Q} {w : W} {a : A} {w₁ : W} (h : service q w = .known a w₁)
    {r : A} {w' : W} : Runs service F (.query q) w r w' ↔ r = a ∧ w' = w₁ := by
  simp [Prog.query, Runs, h]

/-- A static call leaves the world. -/
theorem runs_query_view {q : Q} {w : W} (h : service q w = .view) {r : A} {w' : W} :
    Runs service F (.query q) w r w' ↔ w' = w := by
  simp [Prog.query, Runs, h]

/-- A call of unknown code is a step of the environment. -/
theorem runs_query_free {q : Q} {w : W} (h : service q w = .free) {r : A} {w' : W} :
    Runs service F (.query q) w r w' ↔ F w w' := by
  simp [Prog.query, Runs, h]

@[simp] theorem runs_require {c : Prop} [Decidable c] {r : Unit} {w w' : W} :
    Runs service F (Prog.require c : Prog Q A Unit) w r w' ↔ c ∧ w' = w := by
  by_cases hc : c <;> simp [Prog.require, hc, Runs]

/-- A check and what follows it. -/
theorem runs_require_bind {c : Prop} [Decidable c] {f : Unit → Prog Q A S} {s : S}
    {w w' : W} :
    Runs service F (Prog.require c >>= f) w s w' ↔ c ∧ Runs service F (f ()) w s w' := by
  rw [runs_bind]
  constructor
  · rintro ⟨r, w₁, hguard, hf⟩
    obtain ⟨hc, rfl⟩ := runs_require.mp hguard
    exact ⟨hc, hf⟩
  · rintro ⟨hc, hf⟩
    exact ⟨(), w, runs_require.mpr ⟨hc, rfl⟩, hf⟩

end Runs

/-! ## Foreign code -/

/-- What foreign code can do to the world with at most `n` nested levels of calls
into the program: its own moves, and turns against the level below. -/
def foreignAt (turn : (W → W → Prop) → W → W → Prop) (move : W → W → Prop) :
    Nat → W → W → Prop
  | 0 => ReflTransGen move
  | n + 1 => ReflTransGen fun w w' => move w w' ∨ turn (foreignAt turn move n) w w'

/-- A reflexive and transitive relation absorbs a sequence of its own steps. -/
theorem reflTransGen_subset {step R : W → W → Prop} (hrefl : ∀ w, R w w)
    (htrans : ∀ {w w₁ w₂}, R w w₁ → R w₁ w₂ → R w w₂)
    (hstep : ∀ {w w'}, step w w' → R w w') {w w' : W} (h : ReflTransGen step w w') :
    R w w' := by
  induction h with
  | refl => exact hrefl w
  | tail _ hlast ih => exact htrans ih (hstep hlast)

/-- **Custody rule.** -/
theorem foreignAt_subset {turn : (W → W → Prop) → W → W → Prop}
    {move R : W → W → Prop} (hrefl : ∀ w, R w w)
    (htrans : ∀ {w w₁ w₂}, R w w₁ → R w₁ w₂ → R w w₂)
    (hmove : ∀ {w w'}, move w w' → R w w')
    (hturn : ∀ {F : W → W → Prop}, (∀ {w w'}, F w w' → R w w') →
      ∀ {w w'}, turn F w w' → R w w')
    (n : Nat) {w w' : W} (h : foreignAt turn move n w w') : R w w' := by
  induction n generalizing w w' with
  | zero => exact reflTransGen_subset hrefl htrans hmove h
  | succ n ih =>
      refine reflTransGen_subset hrefl htrans (fun hstep => ?_) h
      rcases hstep with hstep | hstep
      · exact hmove hstep
      · exact hturn ih hstep

/-- One turn against the level below is foreign behaviour. -/
theorem foreignAt_turn {turn : (W → W → Prop) → W → W → Prop} {move : W → W → Prop}
    {n : Nat} {w w' : W} (h : turn (foreignAt turn move n) w w') :
    foreignAt turn move (n + 1) w w' :=
  ReflTransGen.single (Or.inr h)

end SovereignShadow.Verified.Callback
