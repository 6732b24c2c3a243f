import Mathlib

/-!
# Broadcast with lag

A broadcast channel keeps the last `capacity` values that were sent.  A reader has a place of its
own.  Where it stands behind the oldest value kept, its next receive reports the lag instead of
a value.  The reader here ends at that: it is the loop `while let Ok(value) = recv()`.

## Main results

* `Follows.receive`, `Follows.send` — the reader has handled a prefix of what was sent since it
  subscribed, while it goes on and after its end.
* `receive_closed` — it ends if and only if it receives when it is overrun.
-/

namespace SovereignShadow.Verified.Broadcast

variable {τ : Type*}

structure Reader (τ : Type*) where
  place : ℕ
  /-- History: the values received. -/
  handled : List τ
  closed : Bool

/-- A reader sees what is sent after it subscribes. -/
def subscribe (sent : List τ) : Reader τ where
  place := sent.length
  handled := []
  closed := false

/-- The value at the reader's place is no longer kept. -/
def Overrun (capacity : ℕ) (sent : List τ) (r : Reader τ) : Prop :=
  r.place + capacity < sent.length

instance (capacity : ℕ) (sent : List τ) (r : Reader τ) : Decidable (Overrun capacity sent r) :=
  inferInstanceAs (Decidable (_ < _))

/-- `recv`, in the loop; without a value the reader goes on waiting. -/
def Reader.receive (capacity : ℕ) (sent : List τ) (r : Reader τ) : Reader τ × Option τ :=
  if r.closed then (r, none)
  else if Overrun capacity sent r then ({ r with closed := true }, none)
  else
    match sent[r.place]? with
    | none => (r, none)
    | some value => ({ r with place := r.place + 1, handled := r.handled ++ [value] }, some value)

/-- The reader has handled the first values sent after the `start`-th. -/
structure Follows (start : ℕ) (sent : List τ) (r : Reader τ) : Prop where
  place : r.place = start + r.handled.length
  handled : r.handled <+: sent.drop start

section Reader

variable {start capacity : ℕ} {sent : List τ} {r : Reader τ}

theorem Follows.subscribe (sent : List τ) : Follows sent.length sent (subscribe sent) where
  place := rfl
  handled := List.nil_prefix

/-- **Step lemma**, more is sent. -/
theorem Follows.send (h : Follows start sent r) (more : List τ) :
    Follows start (sent ++ more) r where
  place := h.place
  handled := by
    refine h.handled.trans ?_
    rw [List.drop_append]
    exact List.prefix_append _ _

/-- What a receive does: nothing, the end, or the next value. -/
theorem receive_cases (capacity : ℕ) (sent : List τ) (r : Reader τ) :
    (r.receive capacity sent = (r, none) ∧ (r.closed = true ∨ ¬ Overrun capacity sent r)) ∨
      (r.closed = false ∧ Overrun capacity sent r ∧
        r.receive capacity sent = ({ r with closed := true }, none)) ∨
      ∃ value, r.closed = false ∧ ¬ Overrun capacity sent r ∧ sent[r.place]? = some value ∧
        r.receive capacity sent =
          ({ r with place := r.place + 1, handled := r.handled ++ [value] }, some value) := by
  unfold Reader.receive
  cases hClosed : r.closed with
  | true => exact .inl ⟨rfl, .inl rfl⟩
  | false =>
      rw [if_neg (by decide)]
      by_cases hOver : Overrun capacity sent r
      · rw [if_pos hOver]
        exact .inr (.inl ⟨rfl, hOver, rfl⟩)
      · rw [if_neg hOver]
        cases hValue : sent[r.place]? with
        | none => exact .inl ⟨rfl, .inr hOver⟩
        | some value => exact .inr (.inr ⟨value, rfl, hOver, rfl, rfl⟩)

/-- **Step lemma**, a receive. -/
theorem Follows.receive (h : Follows start sent r) :
    Follows start sent (r.receive capacity sent).1 := by
  rcases receive_cases capacity sent r with ⟨hSame, -⟩ | ⟨-, -, hEnd⟩ | ⟨value, -, -, hValue, hNext⟩
  · rw [hSame]
    exact h
  · rw [hEnd]
    exact ⟨h.place, h.handled⟩
  · rw [hNext]
    constructor
    · show r.place + 1 = start + (r.handled ++ [value]).length
      rw [List.length_append, List.length_singleton, h.place, Nat.add_assoc]
    · obtain ⟨rest, hRest⟩ := h.handled
      have hHead : rest[0]? = some value := by
        rw [h.place, ← List.getElem?_drop, ← hRest, List.getElem?_append_right le_rfl,
          Nat.sub_self] at hValue
        exact hValue
      cases rest with
      | nil => cases hHead
      | cons first others =>
          obtain rfl := Option.some.inj hHead
          exact ⟨others, by rw [← hRest, List.append_assoc]; rfl⟩

/-- **The end.**  A receive ends an open reader if and only if it is overrun. -/
theorem receive_closed :
    (r.receive capacity sent).1.closed = true ↔ r.closed = true ∨ Overrun capacity sent r := by
  rcases receive_cases capacity sent r with
    ⟨hSame, hQuiet⟩ | ⟨hOpen, hOver, hEnd⟩ | ⟨value, hOpen, hKept, -, hNext⟩
  · rw [hSame]
    constructor
    · exact .inl
    · rintro (hClosed | hOver)
      · exact hClosed
      · exact hQuiet.resolve_right (not_not_intro hOver)
  · rw [hEnd]
    exact ⟨fun _ => .inr hOver, fun _ => rfl⟩
  · rw [hNext]
    constructor
    · exact .inl
    · rintro (hClosed | hOver)
      · exact hClosed
      · exact absurd hOver hKept

/-- A reader that is closed or overrun handles nothing. -/
theorem receive_handled (h : r.closed = true ∨ Overrun capacity sent r) :
    (r.receive capacity sent).1.handled = r.handled ∧
      (r.receive capacity sent).1.place = r.place ∧ (r.receive capacity sent).2 = none := by
  rcases receive_cases capacity sent r with ⟨hSame, -⟩ | ⟨-, -, hEnd⟩ | ⟨_, hOpen, hKept, -⟩
  · rw [hSame]
    exact ⟨rfl, rfl, rfl⟩
  · rw [hEnd]
    exact ⟨rfl, rfl, rfl⟩
  · rcases h with hClosed | hOver
    · rw [hOpen] at hClosed
      cases hClosed
    · exact absurd hOver hKept

/-- An overrun reader stays so while more is sent. -/
theorem Overrun.send (h : Overrun capacity sent r) (more : List τ) :
    Overrun capacity (sent ++ more) r := by
  unfold Overrun at h ⊢
  rw [List.length_append]
  omega

end Reader

end SovereignShadow.Verified.Broadcast
