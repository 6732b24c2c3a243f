import Mathlib

/-!
# Checked machine arithmetic in two builds

A function over machine words can end in three ways: it gives a value, it gives
nothing (the `None` of an optional result, propagated by `?`), or it panics.
Arithmetic on 64-bit words depends on the build: a debug build panics on
overflow, a release build wraps.  Slicing panics in both.

The module gives the outcome monad, the build-dependent word operations, and
the two notions the developments use: an outcome `Returns` when it does not
panic, and a release outcome `Refines` a debug outcome when it agrees with it
wherever the debug build returns.

## Main results

* `Outcome.returns_bind` — where a sequence can panic.
* `returns_uadd_bind`, `yields_uadd_bind` — a debug addition splits off its
  bound.
* `collectEach_forall₂_iff` — when a collecting loop gives one value for each expected item.
* `Refines.bind`, `refines_uadd`, `refines_collectEach` — refinement is
  compositional, so a debug build that returns fixes the release result.
-/

namespace SovereignShadow.Verified.Checked

/-- The two overflow regimes. -/
inductive Build where
  | debug | release
  deriving DecidableEq, Repr

inductive Outcome (α : Type) where
  | value (a : α)
  | none
  | panic
  deriving DecidableEq, Repr

/-- The number of values of a machine word. -/
abbrev M : Nat := 2 ^ 64

namespace Outcome

variable {α β : Type}

def bind : Outcome α → (α → Outcome β) → Outcome β
  | value a, f => f a
  | none, _ => none
  | panic, _ => panic

instance : Monad Outcome where
  pure := value
  bind := bind

@[simp] theorem pure_eq (a : α) : (pure a : Outcome α) = value a := rfl

@[simp] theorem value_bind (a : α) (f : α → Outcome β) : value a >>= f = f a := rfl

@[simp] theorem none_bind (f : α → Outcome β) : (none : Outcome α) >>= f = none := rfl

@[simp] theorem panic_bind (f : α → Outcome β) : (panic : Outcome α) >>= f = panic := rfl

/-- A sequence that gives a value gave one in its first part. -/
theorem bind_eq_value {x : Outcome α} {f : α → Outcome β} {b : β} (h : x >>= f = value b) :
    ∃ a, x = value a ∧ f a = value b := by
  cases x with
  | value a => exact ⟨a, rfl, h⟩
  | none => cases h
  | panic => cases h

/-- `unwrap_or`. -/
def unwrapOr (d : α) : Outcome α → Outcome α
  | value a => value a
  | none => value d
  | panic => panic

/-- `into_iter().collect()` on an optional result. -/
def collect : Outcome α → Outcome (List α)
  | value a => value [a]
  | none => value []
  | panic => panic

/-- A loop that pushes what each body gives; `continue` is a body that gives
nothing, and a panic anywhere ends the loop. -/
def collectEach (f : α → Outcome β) : List α → Outcome (List β)
  | [] => value []
  | a :: rest => do
      let here ← (f a).collect
      let later ← collectEach f rest
      value (here ++ later)

/-! ## Returning -/

/-- The outcome is not a panic. -/
def Returns (x : Outcome α) : Prop := x ≠ panic

/-- The outcome is a value. -/
def Yields (x : Outcome α) : Prop := ∃ a, x = value a

instance (x : Outcome α) : Decidable x.Returns :=
  match x with
  | value _ => isTrue nofun
  | none => isTrue nofun
  | panic => isFalse fun h => h rfl

@[simp] theorem returns_value (a : α) : (value a).Returns := nofun

@[simp] theorem returns_none : (none : Outcome α).Returns := nofun

@[simp] theorem not_returns_panic : ¬ (panic : Outcome α).Returns := fun h => h rfl

@[simp] theorem yields_value (a : α) : (value a).Yields := ⟨a, rfl⟩

@[simp] theorem not_yields_panic : ¬ (panic : Outcome α).Yields := nofun

theorem Yields.returns {x : Outcome α} (h : x.Yields) : x.Returns := by
  obtain ⟨a, rfl⟩ := h
  exact returns_value a

/-- A sequence returns when its head does and, on a value, its tail does. -/
theorem returns_bind (x : Outcome α) (f : α → Outcome β) :
    (x >>= f).Returns ↔ x.Returns ∧ ∀ a, x = value a → (f a).Returns := by
  cases x with
  | value a => simp
  | none => simp
  | panic => simp

theorem yields_bind (x : Outcome α) (f : α → Outcome β) :
    (x >>= f).Yields ↔ ∃ a, x = value a ∧ (f a).Yields := by
  cases x with
  | value a => simp
  | none => simp [Yields]
  | panic => simp

@[simp] theorem yields_collect (x : Outcome α) : x.collect.Yields ↔ x.Returns := by
  cases x with
  | value a => simp [collect]
  | none => simp [collect]
  | panic => simp [collect]

/-- A collecting loop ends with a list exactly when no body panics. -/
@[simp] theorem yields_collectEach (f : α → Outcome β) (items : List α) :
    (collectEach f items).Yields ↔ ∀ a ∈ items, (f a).Returns := by
  induction items with
  | nil => simp [collectEach]
  | cons a rest ih =>
      have hHead := yields_collect (f a)
      rw [collectEach, yields_bind, List.forall_mem_cons, ← ih, ← hHead]
      constructor
      · rintro ⟨here, hHere, hTail⟩
        obtain ⟨later, hLater, -⟩ := (yields_bind _ _).mp hTail
        exact ⟨⟨here, hHere⟩, later, hLater⟩
      · rintro ⟨⟨here, hHere⟩, later, hLater⟩
        exact ⟨here, hHere, (yields_bind _ _).mpr ⟨later, hLater, yields_value _⟩⟩

theorem collectEach_ne_none (f : α → Outcome β) (items : List α) :
    collectEach f items ≠ none := by
  induction items with
  | nil => simp [collectEach]
  | cons a rest ih =>
      rw [collectEach]
      cases f a <;> cases hRest : collectEach f rest <;> simp_all [collect]

theorem returns_collectEach (f : α → Outcome β) (items : List α) :
    (collectEach f items).Returns ↔ ∀ a ∈ items, (f a).Returns := by
  rw [← yields_collectEach]
  constructor
  · intro hr
    cases hx : collectEach f items with
    | value out => exact yields_value out
    | none => exact absurd hx (collectEach_ne_none f items)
    | panic => exact absurd hx hr
  · exact Yields.returns

/-- `unwrap_or` turns a computation that returns into a value. -/
theorem yields_unwrapOr (d : α) (x : Outcome α) : (x.unwrapOr d).Yields ↔ x.Returns := by
  cases x with
  | value a => simp [unwrapOr]
  | none => simp [unwrapOr]
  | panic => simp [unwrapOr]

/-! ## Loops that give what is expected -/

variable {γ : Type}

/-- What a body has to give for an item: a value for an expected one, nothing otherwise. -/
def Gives (R : β → γ → Prop) (x : Outcome β) : Option γ → Prop
  | some c => ∃ b, x = value b ∧ R b c
  | .none => x = none

section Expected

variable {R : β → γ → Prop} {f : α → Outcome β} {expected : α → Option γ}

theorem collectEach_map {δ : Type} (g : δ → α) (items : List δ) :
    collectEach f (items.map g) = collectEach (fun d => f (g d)) items := by
  induction items with
  | nil => rfl
  | cons d rest ih => rw [List.map_cons, collectEach, ih, collectEach]

theorem collectEach_cons_value {a : α} {rest : List α} {out : List β} :
    collectEach f (a :: rest) = value out ↔
      ∃ here later, (f a).collect = value here ∧ collectEach f rest = value later ∧
        out = here ++ later := by
  rw [collectEach]
  cases (f a).collect with
  | value here =>
      cases collectEach f rest with
      | value later => simp [eq_comm]
      | none => simp
      | panic => simp
  | none => simp
  | panic => simp

/-- A loop whose bodies give values for expected items only gives at most those. -/
theorem length_collectEach_le {items : List α}
    (hOnly : ∀ a ∈ items, expected a = .none → ∀ b, f a ≠ value b) {out : List β}
    (h : collectEach f items = value out) :
    out.length ≤ (items.filterMap expected).length := by
  induction items generalizing out with
  | nil =>
      obtain rfl : [] = out := by simpa [collectEach] using h
      exact Nat.zero_le _
  | cons a rest ih =>
      obtain ⟨here, later, hHere, hLater, rfl⟩ := collectEach_cons_value.mp h
      rw [List.forall_mem_cons] at hOnly
      have hRest := ih hOnly.2 hLater
      rw [List.length_append, List.filterMap_cons]
      cases hBody : f a with
      | value b =>
          rw [hBody] at hHere
          obtain rfl : [b] = here := by simpa [collect] using hHere
          cases hExpected : expected a with
          | none => exact absurd hBody (hOnly.1 hExpected b)
          | some c =>
              simp only [List.length_cons, List.length_nil]
              omega
      | none =>
          rw [hBody] at hHere
          obtain rfl : [] = here := by simpa [collect] using hHere
          cases expected a with
          | none => simpa using hRest
          | some c =>
              simp only [List.length_cons, List.length_nil]
              omega
      | panic =>
          rw [hBody] at hHere
          exact absurd hHere (by simp [collect])

/-- **A collecting loop gives what is expected** if and only if each body does. -/
theorem collectEach_forall₂_iff {items : List α}
    (hOnly : ∀ a ∈ items, expected a = .none → ∀ b, f a ≠ value b) :
    (∃ out, collectEach f items = value out ∧
        List.Forall₂ R out (items.filterMap expected)) ↔
      ∀ a ∈ items, Gives R (f a) (expected a) := by
  induction items with
  | nil => simp [collectEach]
  | cons a rest ih =>
      rw [List.forall_mem_cons] at hOnly
      rw [List.forall_mem_cons, ← ih hOnly.2, List.filterMap_cons]
      constructor
      · intro ⟨out, hOut, hMatch⟩
        obtain ⟨here, later, hHere, hLater, rfl⟩ := collectEach_cons_value.mp hOut
        have hCount := length_collectEach_le hOnly.2 hLater
        cases hBody : f a with
        | value b =>
            rw [hBody] at hHere
            obtain rfl : [b] = here := by simpa [collect] using hHere
            cases hExpected : expected a with
            | none => exact absurd hBody (hOnly.1 hExpected b)
            | some c =>
                rw [hExpected] at hMatch
                obtain ⟨hHead, hTail⟩ := List.forall₂_cons.mp hMatch
                exact ⟨⟨b, rfl, hHead⟩, later, hLater, hTail⟩
        | none =>
            rw [hBody] at hHere
            obtain rfl : [] = here := by simpa [collect] using hHere
            cases hExpected : expected a with
            | none =>
                rw [hExpected] at hMatch
                exact ⟨rfl, later, hLater, hMatch⟩
            | some c =>
                -- one value too few
                rw [hExpected] at hMatch
                have hLength := hMatch.length_eq
                simp only [List.nil_append, List.length_cons] at hLength
                omega
        | panic =>
            rw [hBody] at hHere
            exact absurd hHere (by simp [collect])
      · intro ⟨hBody, later, hLater, hMatch⟩
        cases hExpected : expected a with
        | none =>
            rw [hExpected] at hBody
            refine ⟨later, ?_, hMatch⟩
            exact collectEach_cons_value.mpr ⟨[], later, by rw [hBody]; rfl, hLater, rfl⟩
        | some c =>
            rw [hExpected] at hBody
            obtain ⟨b, hValue, hHead⟩ := hBody
            refine ⟨b :: later, ?_, .cons hHead hMatch⟩
            exact collectEach_cons_value.mpr ⟨[b], later, by rw [hValue]; rfl, hLater, rfl⟩

end Expected

end Outcome

open Outcome

variable {α β : Type}

theorem returns_ite {p : Prop} [Decidable p] {x y : Outcome α} :
    (if p then x else y).Returns ↔ (p → x.Returns) ∧ (¬ p → y.Returns) := by
  split <;> simp_all

theorem yields_ite {p : Prop} [Decidable p] {x y : Outcome α} :
    (if p then x else y).Yields ↔ (p → x.Yields) ∧ (¬ p → y.Yields) := by
  split <;> simp_all

/-! ## Word operations -/

/-- The result of an unbounded operation, reduced as the build reduces it. -/
def word (build : Build) (n : Nat) : Outcome Nat :=
  if n < M then .value n
  else match build with
    | .debug => .panic
    | .release => .value (n % M)

/-- `a + b` on words. -/
def uadd (build : Build) (a b : Nat) : Outcome Nat := word build (a + b)

/-- `a * b` on words. -/
def umul (build : Build) (a b : Nat) : Outcome Nat := word build (a * b)

/-- `&data[lo..hi]`. -/
def slice (data : List α) (lo hi : Nat) : Outcome (List α) :=
  if lo ≤ hi ∧ hi ≤ data.length then .value ((data.drop lo).take (hi - lo)) else .panic

/-- `data.get(lo..hi)`. -/
def getRange (data : List α) (lo hi : Nat) : Outcome (List α) :=
  if lo ≤ hi ∧ hi ≤ data.length then .value ((data.drop lo).take (hi - lo)) else .none

theorem word_debug_value_iff (n a : Nat) : word .debug n = .value a ↔ n < M ∧ n = a := by
  unfold word
  split <;> simp_all

theorem word_debug_returns (n : Nat) : (word .debug n).Returns ↔ n < M := by
  unfold word
  split <;> simp_all

theorem returns_word_bind (n : Nat) (f : Nat → Outcome β) :
    (word .debug n >>= f).Returns ↔ n < M ∧ (f n).Returns := by
  rw [returns_bind, word_debug_returns]
  constructor
  · rintro ⟨hlt, hf⟩
    exact ⟨hlt, hf n ((word_debug_value_iff n n).mpr ⟨hlt, rfl⟩)⟩
  · rintro ⟨hlt, hf⟩
    refine ⟨hlt, fun a ha => ?_⟩
    rw [← ((word_debug_value_iff n a).mp ha).2]
    exact hf

theorem yields_word_bind (n : Nat) (f : Nat → Outcome β) :
    (word .debug n >>= f).Yields ↔ n < M ∧ (f n).Yields := by
  rw [yields_bind]
  constructor
  · rintro ⟨a, ha, hf⟩
    obtain ⟨hlt, rfl⟩ := (word_debug_value_iff n a).mp ha
    exact ⟨hlt, hf⟩
  · rintro ⟨hlt, hf⟩
    exact ⟨n, (word_debug_value_iff n n).mpr ⟨hlt, rfl⟩, hf⟩

/-- A debug addition that returns is exact, and it returns below the word size. -/
theorem returns_uadd_bind (a b : Nat) (f : Nat → Outcome β) :
    (uadd .debug a b >>= f).Returns ↔ a + b < M ∧ (f (a + b)).Returns :=
  returns_word_bind (a + b) f

theorem returns_umul_bind (a b : Nat) (f : Nat → Outcome β) :
    (umul .debug a b >>= f).Returns ↔ a * b < M ∧ (f (a * b)).Returns :=
  returns_word_bind (a * b) f

theorem yields_uadd_bind (a b : Nat) (f : Nat → Outcome β) :
    (uadd .debug a b >>= f).Yields ↔ a + b < M ∧ (f (a + b)).Yields :=
  yields_word_bind (a + b) f

theorem uadd_of_lt (build : Build) {a b : Nat} (h : a + b < M) :
    uadd build a b = .value (a + b) := if_pos h

theorem umul_of_lt (build : Build) {a b : Nat} (h : a * b < M) :
    umul build a b = .value (a * b) := if_pos h

theorem slice_of_le {data : List α} {lo hi : Nat} (hlo : lo ≤ hi) (hhi : hi ≤ data.length) :
    slice data lo hi = .value ((data.drop lo).take (hi - lo)) := by
  rw [slice, if_pos ⟨hlo, hhi⟩]

theorem slice_length_le {data part : List α} {lo hi : Nat} (h : slice data lo hi = .value part) :
    part.length ≤ data.length := by
  unfold slice at h
  split_ifs at h with hInside
  rw [← Outcome.value.inj h, List.length_take, List.length_drop]
  omega

/-! ## Release refines debug -/

/-- `y` agrees with `x` wherever `x` returns. -/
def Refines (x y : Outcome α) : Prop := x.Returns → y = x

theorem Refines.refl (x : Outcome α) : Refines x x := fun _ => rfl

theorem Refines.bind {x y : Outcome α} {f g : α → Outcome β} (hxy : Refines x y)
    (hfg : ∀ a, Refines (f a) (g a)) : Refines (x >>= f) (y >>= g) := by
  intro hr
  obtain ⟨hx, hf⟩ := (returns_bind x f).mp hr
  rw [hxy hx]
  cases x with
  | value a => exact hfg a (hf a rfl)
  | none => rfl
  | panic => exact absurd rfl hx

theorem Refines.ite {p : Prop} [Decidable p] {x y x' y' : Outcome α} (hx : Refines x x')
    (hy : Refines y y') : Refines (if p then x else y) (if p then x' else y') := by
  split
  · exact hx
  · exact hy

theorem refines_word (n : Nat) : Refines (word .debug n) (word .release n) := by
  intro hr
  have hlt := (word_debug_returns n).mp hr
  simp [word, hlt]

theorem refines_uadd (a b : Nat) : Refines (uadd .debug a b) (uadd .release a b) :=
  refines_word (a + b)

theorem refines_umul (a b : Nat) : Refines (umul .debug a b) (umul .release a b) :=
  refines_word (a * b)

theorem Refines.unwrapOr {x y : Outcome α} (d : α) (h : Refines x y) :
    Refines (x.unwrapOr d) (y.unwrapOr d) := by
  intro hr
  cases x with
  | value a => rw [h (returns_value a)]
  | none => rw [h returns_none]
  | panic => exact absurd rfl hr

theorem Refines.collect {x y : Outcome α} (h : Refines x y) :
    Refines x.collect y.collect := by
  intro hr
  cases x with
  | value a => rw [h (returns_value a)]
  | none => rw [h returns_none]
  | panic => exact absurd rfl hr

theorem refines_collectEach {f g : α → Outcome β} (h : ∀ a, Refines (f a) (g a))
    (items : List α) : Refines (collectEach f items) (collectEach g items) := by
  induction items with
  | nil => exact .refl _
  | cons a rest ih => exact (h a).collect.bind fun _ => ih.bind fun _ => .refl _

end SovereignShadow.Verified.Checked
