import Mathlib

/-!
# Instructions with immediates

A program is a list of units.  A unit read as an instruction may be followed by immediates,
as many as its `width` says; they are skipped and the unit behind them is the next
instruction.  The last instruction's immediates may be cut short.

The instruction stream keeps the instructions at their positions and forgets the
immediates.  Two programs with one stream differ in their immediates only.

## Main results

* `streamFrom_fill` — immediates can be replaced without changing the stream.
* `fill_eq_self` — a program without immediates is fixed by its stream.
* `instructions_sublist` — the instructions occur in every program of the stream, in order.
* `sublist_instructions` — what occurs between filled immediates occurs in the instructions.
-/

namespace SovereignShadow.Verified.Immediates

variable {α : Type*} {width : α → ℕ}

/-- The stream behind an instruction of which `skip` immediates are left. -/
def streamFrom (width : α → ℕ) : ℕ → List α → List (Option α)
  | _, [] => []
  | 0, unit :: rest => some unit :: streamFrom width (width unit) rest
  | skip + 1, _ :: rest => none :: streamFrom width skip rest

/-- The instruction stream of a program. -/
def stream (width : α → ℕ) (code : List α) : List (Option α) := streamFrom width 0 code

/-- The program of a stream with all immediates equal. -/
def fill (filler : α) (s : List (Option α)) : List α := s.map (·.getD filler)

/-- The instructions of a stream, in order. -/
def instructions (s : List (Option α)) : List α := s.reduceOption

theorem length_streamFrom (skip : ℕ) (code : List α) :
    (streamFrom width skip code).length = code.length := by
  induction code generalizing skip with
  | nil => rfl
  | cons unit rest ih =>
      cases skip with
      | zero => exact congrArg Nat.succ (ih (width unit))
      | succ skip => exact congrArg Nat.succ (ih skip)

theorem length_eq {code code' : List α} (h : stream width code = stream width code') :
    code.length = code'.length := by
  have hLength := congrArg List.length h
  rwa [stream, stream, length_streamFrom, length_streamFrom] at hLength

theorem streamFrom_fill (filler : α) (skip : ℕ) (code : List α) :
    streamFrom width skip (fill filler (streamFrom width skip code)) =
      streamFrom width skip code := by
  induction code generalizing skip with
  | nil => rfl
  | cons unit rest ih =>
      cases skip with
      | zero => exact congrArg (some unit :: ·) (ih (width unit))
      | succ skip => exact congrArg (none :: ·) (ih skip)

theorem stream_fill (filler : α) (code : List α) :
    stream width (fill filler (stream width code)) = stream width code :=
  streamFrom_fill filler 0 code

theorem fill_streamFrom_eq_self (filler : α) {skip : ℕ} {code : List α}
    (hNone : none ∉ streamFrom width skip code) :
    fill filler (streamFrom width skip code) = code := by
  induction code generalizing skip with
  | nil => rfl
  | cons unit rest ih =>
      cases skip with
      | zero =>
          rw [streamFrom, List.mem_cons, not_or] at hNone
          exact congrArg (unit :: ·) (ih hNone.2)
      | succ skip => exact absurd List.mem_cons_self hNone

theorem fill_eq_self (filler : α) {code : List α} (hNone : none ∉ stream width code) :
    fill filler (stream width code) = code :=
  fill_streamFrom_eq_self filler hNone

theorem mem_fill {filler : α} {s : List (Option α)} (hNone : none ∈ s) : filler ∈ fill filler s :=
  List.mem_map.mpr ⟨none, hNone, rfl⟩

theorem instructions_streamFrom_sublist (skip : ℕ) (code : List α) :
    (instructions (streamFrom width skip code)).Sublist code := by
  induction code generalizing skip with
  | nil => exact .slnil
  | cons unit rest ih =>
      cases skip with
      | zero => exact (ih (width unit)).cons_cons unit
      | succ skip => exact (ih skip).cons unit

theorem instructions_sublist (code : List α) :
    (instructions (stream width code)).Sublist code :=
  instructions_streamFrom_sublist 0 code

/-- A pattern without the filler skips the filled immediates. -/
theorem sublist_instructions {filler : α} {s : List (Option α)} {pattern : List α}
    (h : pattern.Sublist (fill filler s)) (hFiller : filler ∉ pattern) :
    pattern.Sublist (instructions s) := by
  induction s generalizing pattern with
  | nil => exact h
  | cons slot s ih =>
      cases slot with
      | some unit =>
          change pattern.Sublist (unit :: fill filler s) at h
          change pattern.Sublist (unit :: instructions s)
          cases h with
          | cons _ hRest => exact (ih hRest hFiller).cons unit
          | cons_cons _ hRest =>
              exact (ih hRest (fun hMem => hFiller (List.mem_cons_of_mem unit hMem))).cons_cons unit
      | none =>
          change pattern.Sublist (filler :: fill filler s) at h
          cases h with
          | cons _ hRest => exact ih hRest hFiller
          | cons_cons _ hRest => exact absurd List.mem_cons_self hFiller

end SovereignShadow.Verified.Immediates
