import SovereignShadow.Verified.Callback

/-!
# What a program asks

`Asked P p` says that every query of `p` satisfies `P`, whatever the replies are.  `Stuck` says
that `p` does not complete where the queries that satisfy `P` are refused.

## Main results

* `asked_bind`, `stuck_bind` — both follow the sequencing of programs.
* `stuck_ask` — a query that is refused, and whose refusal reverts.
-/

namespace SovereignShadow.Verified.Callback

open Prog

variable {Q A R S : Type}

/-- Every query satisfies `P`. -/
def Asked (P : Q → Prop) : Prog Q A R → Prop
  | .ret _ => True
  | .revert => True
  | .ask q next => P q ∧ ∀ a, Asked P (next a)

section Asked

variable {P : Q → Prop}

theorem asked_pure (r : R) : Asked P (pure r : Prog Q A R) := trivial

theorem asked_bind {p : Prog Q A R} {f : R → Prog Q A S} (hp : Asked P p)
    (hf : ∀ r, Asked P (f r)) : Asked P (p >>= f) := by
  show Asked P (p.bind f)
  induction p with
  | ret r => exact hf r
  | revert => trivial
  | ask q next ih => exact ⟨hp.1, fun a => ih a (hp.2 a)⟩

theorem asked_query {q : Q} (h : P q) : Asked P (Prog.query q : Prog Q A A) := ⟨h, fun _ => trivial⟩

theorem asked_require (c : Prop) [Decidable c] : Asked P (Prog.require c : Prog Q A Unit) := by
  unfold Prog.require
  split <;> trivial

end Asked

/-! ## Refusals -/

/-- The queries that satisfy `P` get a reply that is not `ok`, and leave the world. -/
def Refuses {W : Type} (service : Q → W → Service W A) (P : Q → Prop) (ok : A → Bool) : Prop :=
  ∀ q w, P q → ∃ a, service q w = .known a w ∧ ok a = false

/-- No run of the program completes. -/
def Stuck {W : Type} (service : Q → W → Service W A) (F : W → W → Prop) (p : Prog Q A R) : Prop :=
  ∀ w r w', ¬ Runs service F p w r w'

section Stuck

variable {W : Type} {service : Q → W → Service W A} {F : W → W → Prop} {P : Q → Prop}
  {ok : A → Bool}

theorem stuck_bind {p : Prog Q A R} (hp : Stuck service F p) (f : R → Prog Q A S) :
    Stuck service F (p >>= f) := by
  intro w s w' hRuns
  obtain ⟨r, w₁, hFirst, -⟩ := runs_bind.mp hRuns
  exact hp w r w₁ hFirst

theorem stuck_rest (p : Prog Q A R) {f : R → Prog Q A S} (hf : ∀ r, Stuck service F (f r)) :
    Stuck service F (p >>= f) := by
  intro w s w' hRuns
  obtain ⟨r, w₁, -, hRest⟩ := runs_bind.mp hRuns
  exact hf r w₁ s w' hRest

theorem stuck_require {c : Prop} [Decidable c] {f : Unit → Prog Q A S}
    (hf : c → Stuck service F (f ())) : Stuck service F (Prog.require c >>= f) := by
  intro w s w' hRuns
  obtain ⟨hc, hRest⟩ := runs_require_bind.mp hRuns
  exact hf hc w s w' hRest

/-- **A refused query**, after which the program requires a reply that is `ok`. -/
theorem stuck_ask (hRefuses : Refuses service P ok) {q : Q} (hq : P q)
    {f : A → Prog Q A S} (hf : ∀ a, ok a = false → Stuck service F (f a)) :
    Stuck service F (Prog.query q >>= f) := by
  intro w s w' hRuns
  obtain ⟨a, w₁, hFirst, hRest⟩ := runs_bind.mp hRuns
  obtain ⟨refusal, hService, hRefusal⟩ := hRefuses q w hq
  obtain ⟨rfl, rfl⟩ := (runs_query_known hService).mp hFirst
  exact hf a hRefusal w₁ s w' hRest

end Stuck

end SovereignShadow.Verified.Callback
