import Mathlib

/-!
# Runs of a process that may end

A process takes one input at a time; a step gives an output and either a next
state or the end of the process.  The module gives the outputs of a run and
rules about them, each from a condition on one step:

* `outputs_forall` — every output satisfies a predicate, by an invariant.
* `outputs_history` — every output satisfies a predicate on it and the outputs before it, by
  an invariant of these and the state.
* `outputs_throughout` — the same for a run from its start.
* `outputs_count` — the numbers that the outputs emit are consecutive, when
  every step emits the numbers from its state's counter on.
* `outputs_pairwise` — outputs of different steps own different keys, when
  every step owns only keys that its state has not claimed, and claims them.
-/

namespace SovereignShadow.Verified.Runs

universe u v w

variable {σ : Type u} {ι : Type v} {ο : Type w}

/-- What one step leaves. -/
structure Step (σ : Type u) (ο : Type w) where
  output : ο
  next : Option σ

/-- The outputs of the process on `inputs`, up to its end. -/
def outputs (step : σ → ι → Step σ ο) : σ → List ι → List ο
  | _, [] => []
  | s, i :: rest =>
      (step s i).output :: match (step s i).next with
        | none => []
        | some s' => outputs step s' rest

/-- The inputs that the run consumes all satisfy `Ok` in the state that meets them. -/
def Allowed (step : σ → ι → Step σ ο) (Ok : σ → ι → Prop) : σ → List ι → Prop
  | _, [] => True
  | s, i :: rest =>
      Ok s i ∧ ∀ s', (step s i).next = some s' → Allowed step Ok s' rest

theorem allowed_of_forall {step : σ → ι → Step σ ο} {Ok : σ → ι → Prop} {inputs : List ι}
    (h : ∀ i ∈ inputs, ∀ s, Ok s i) (s : σ) : Allowed step Ok s inputs := by
  induction inputs generalizing s with
  | nil => trivial
  | cons i rest ih =>
      rw [List.forall_mem_cons] at h
      exact ⟨h.1 s, fun s' _ => ih h.2 s'⟩

/-- **Invariant rule.** -/
theorem outputs_forall {step : σ → ι → Step σ ο} {Ok : σ → ι → Prop} (Inv : σ → Prop)
    {P : ο → Prop}
    (hstep : ∀ s i, Inv s → Ok s i →
      P (step s i).output ∧ ∀ s', (step s i).next = some s' → Inv s')
    {s : σ} (hs : Inv s) {inputs : List ι} (hOk : Allowed step Ok s inputs) :
    ∀ o ∈ outputs step s inputs, P o := by
  induction inputs generalizing s with
  | nil => simp [outputs]
  | cons i rest ih =>
      obtain ⟨hP, hInv⟩ := hstep s i hs hOk.1
      rw [outputs, List.forall_mem_cons]
      refine ⟨hP, ?_⟩
      cases hnext : (step s i).next with
      | none => simp
      | some s' => exact ih (hInv s' hnext) (hOk.2 s' hnext)

/-- **History rule.**  The invariant may speak of the outputs so far, and so may what holds
of the next one. -/
theorem outputs_history {step : σ → ι → Step σ ο} {Ok : σ → ι → Prop}
    (Inv : List ο → σ → Prop) {P : List ο → ο → Prop}
    (hstep : ∀ past s i, Inv past s → Ok s i →
      P past (step s i).output ∧
        ∀ s', (step s i).next = some s' → Inv (past ++ [(step s i).output]) s')
    {past : List ο} {s : σ} (hs : Inv past s) {inputs : List ι}
    (hOk : Allowed step Ok s inputs) {before after : List ο} {o : ο}
    (hSplit : outputs step s inputs = before ++ o :: after) : P (past ++ before) o := by
  induction inputs generalizing past s before with
  | nil => simp [outputs] at hSplit
  | cons i rest ih =>
      obtain ⟨hP, hInv⟩ := hstep past s i hs hOk.1
      rw [outputs] at hSplit
      cases before with
      | nil =>
          rw [List.append_nil, ← (List.cons.inj hSplit).1]
          exact hP
      | cons first before =>
          obtain ⟨rfl, hRest⟩ := List.cons.inj hSplit
          cases hnext : (step s i).next with
          | none => simp [hnext] at hRest
          | some s' =>
              rw [hnext] at hRest
              have hLater := ih (hInv s' hnext) (hOk.2 s' hnext) hRest
              rw [List.append_assoc] at hLater
              exact hLater

/-- Every output satisfies `P` after the outputs before it. -/
def Throughout (P : List ο → ο → Prop) (os : List ο) : Prop :=
  ∀ before o later, os = before ++ o :: later → P before o

/-- The history rule, from the start of a run. -/
theorem outputs_throughout {step : σ → ι → Step σ ο} {Ok : σ → ι → Prop}
    (Inv : List ο → σ → Prop) {P : List ο → ο → Prop}
    (hstep : ∀ past s i, Inv past s → Ok s i →
      P past (step s i).output ∧
        ∀ s', (step s i).next = some s' → Inv (past ++ [(step s i).output]) s')
    {s : σ} (hs : Inv [] s) {inputs : List ι} (hOk : Allowed step Ok s inputs) :
    Throughout P (outputs step s inputs) := by
  intro before o later hSplit
  have hHolds := outputs_history Inv hstep hs hOk hSplit
  rw [List.nil_append] at hHolds
  exact hHolds

/-- The outputs show the inputs up to the end, in order. -/
theorem outputs_map_prefix {step : σ → ι → Step σ ο} {κ : Type*} {shown : ο → κ} {key : ι → κ}
    (hShown : ∀ s i, shown (step s i).output = key i) (s : σ) (inputs : List ι) :
    (outputs step s inputs).map shown <+: inputs.map key := by
  induction inputs generalizing s with
  | nil => simp [outputs]
  | cons i rest ih =>
      rw [outputs, List.map_cons, List.map_cons, hShown, List.prefix_cons_inj]
      cases (step s i).next with
      | none => simp
      | some s' => exact ih s'

/-- **Counter rule.**  `At s c` says that state `s` stands at number `c`. -/
theorem outputs_count {step : σ → ι → Step σ ο} {Ok : σ → ι → Prop} (At : σ → Nat → Prop)
    {κ : Type*} {number : Nat → κ} {emit : ο → List κ}
    (hstep : ∀ s i c, At s c → Ok s i → ∃ k,
      emit (step s i).output = (List.range' c k).map number ∧
        ∀ s', (step s i).next = some s' → At s' (c + k))
    {s : σ} {c : Nat} (hs : At s c) {inputs : List ι} (hOk : Allowed step Ok s inputs) :
    ∃ k, (outputs step s inputs).flatMap emit = (List.range' c k).map number := by
  induction inputs generalizing s c with
  | nil => exact ⟨0, by simp [outputs]⟩
  | cons i rest ih =>
      obtain ⟨k, hemit, hnext⟩ := hstep s i c hs hOk.1
      rw [outputs, List.flatMap_cons, hemit]
      cases hs' : (step s i).next with
      | none => exact ⟨k, by simp⟩
      | some s' =>
          obtain ⟨k', hrest⟩ := ih (hnext s' hs') (hOk.2 s' hs')
          refine ⟨k + k', ?_⟩
          rw [hrest, ← List.map_append, List.range'_append_1]

/-- A step's claims, and those before it, stay claimed in every later state, and
later outputs own only keys unclaimed at their own step. -/
private theorem outputs_avoid {step : σ → ι → Step σ ο} {Ok : σ → ι → Prop} {κ : Type*}
    {Claimed : σ → κ → Prop} {Owns : ο → κ → Prop}
    (hfresh : ∀ s i k, Ok s i → Owns (step s i).output k → ¬ Claimed s k)
    (hkeep : ∀ s i s' k, Ok s i → (step s i).next = some s' → Claimed s k → Claimed s' k)
    {s : σ} {inputs : List ι} (hOk : Allowed step Ok s inputs) {k : κ} (hk : Claimed s k) :
    ∀ o ∈ outputs step s inputs, ¬ Owns o k := by
  induction inputs generalizing s with
  | nil => simp [outputs]
  | cons i rest ih =>
      rw [outputs, List.forall_mem_cons]
      refine ⟨fun hOwn => hfresh s i k hOk.1 hOwn hk, ?_⟩
      cases hnext : (step s i).next with
      | none => simp
      | some s' => exact ih (hOk.2 s' hnext) (hkeep s i s' k hOk.1 hnext hk)

/-- **Ledger rule.**  Outputs of different steps own disjoint sets of keys. -/
theorem outputs_pairwise {step : σ → ι → Step σ ο} {Ok : σ → ι → Prop} {κ : Type*}
    (Claimed : σ → κ → Prop) {Owns : ο → κ → Prop}
    (hfresh : ∀ s i k, Ok s i → Owns (step s i).output k → ¬ Claimed s k)
    (hkeep : ∀ s i s' k, Ok s i → (step s i).next = some s' → Claimed s k → Claimed s' k)
    (hclaim : ∀ s i s' k, Ok s i → (step s i).next = some s' →
      Owns (step s i).output k → Claimed s' k)
    (s : σ) {inputs : List ι} (hOk : Allowed step Ok s inputs) :
    (outputs step s inputs).Pairwise fun o o' => ∀ k, Owns o k → ¬ Owns o' k := by
  induction inputs generalizing s with
  | nil => simp [outputs]
  | cons i rest ih =>
      rw [outputs]
      cases hnext : (step s i).next with
      | none => simp
      | some s' =>
          refine List.Pairwise.cons ?_ (ih s' (hOk.2 s' hnext))
          intro o' ho' k hOwn
          exact outputs_avoid hfresh hkeep (hOk.2 s' hnext)
            (hclaim s i s' k hOk.1 hnext hOwn) o' ho'

end SovereignShadow.Verified.Runs
