import Mathlib

/-!
# Tasks under a semaphore

A server starts a task only if it can take a permit without waiting; a task gives its permit
back when it ends.  Tasks end in any order.  A request that finds no permit is dropped.

The history variables `started` and `ended` list the tasks in the order of their starts and of
their ends.

## Main results

* `Held.tryStart`, `Held.finish` — permits and running tasks add up, and every started task has
  ended or is running.
* `InOrder.tryStart`, `InOrder.finish` — under one permit tasks end in the order of their starts.
-/

namespace SovereignShadow.Verified.Permits

variable {τ : Type*} {n : ℕ}

structure Server (τ : Type*) where
  permits : ℕ
  running : List τ
  started : List τ
  ended : List τ

namespace Server

def initial (τ : Type*) (n : ℕ) : Server τ where
  permits := n
  running := []
  started := []
  ended := []

/-- `try_acquire`, and a task that holds the permit. -/
def tryStart (s : Server τ) (task : τ) : Server τ :=
  match s.permits with
  | 0 => s
  | left + 1 =>
      { s with permits := left, running := s.running ++ [task], started := s.started ++ [task] }

/-- The end of a running task, which drops its permit. -/
def finish (s : Server τ) (task : ℕ) : Server τ :=
  match s.running[task]? with
  | none => s
  | some done =>
      { s with
        permits := s.permits + 1
        running := s.running.eraseIdx task
        ended := s.ended ++ [done] }

variable {s : Server τ}

theorem tryStart_busy (h : s.permits = 0) (task : τ) : s.tryStart task = s := by
  rw [tryStart, h]

theorem tryStart_free {left : ℕ} (h : s.permits = left + 1) (task : τ) :
    s.tryStart task =
      { s with
        permits := left, running := s.running ++ [task], started := s.started ++ [task] } := by
  rw [tryStart, h]

theorem finish_none {task : ℕ} (h : s.running[task]? = none) : s.finish task = s := by
  rw [finish, h]

theorem finish_some {task : ℕ} {done : τ} (h : s.running[task]? = some done) :
    s.finish task =
      { s with
        permits := s.permits + 1
        running := s.running.eraseIdx task
        ended := s.ended ++ [done] } := by
  rw [finish, h]

/-- Starts are those of before, and this one if it got a permit. -/
theorem tryStart_started (s : Server τ) (task : τ) :
    (s.tryStart task).started = s.started ∨ (s.tryStart task).started = s.started ++ [task] := by
  cases h : s.permits with
  | zero => exact .inl (by rw [tryStart_busy h])
  | succ left => exact .inr (by rw [tryStart_free h])

theorem tryStart_ended (s : Server τ) (task : τ) : (s.tryStart task).ended = s.ended := by
  cases h : s.permits with
  | zero => rw [tryStart_busy h]
  | succ left => rw [tryStart_free h]

end Server

open Server

/-! ## The invariants -/

/-- Of `n` permits those that are not left are held, one by each running task. -/
structure Held (n : ℕ) (s : Server τ) : Prop where
  total : s.permits + s.running.length = n
  fates : s.started.Perm (s.ended ++ s.running)

/-- Under one permit. -/
structure InOrder (s : Server τ) : Prop where
  total : s.permits + s.running.length = 1
  order : s.started = s.ended ++ s.running

variable {s : Server τ}

/-- **Step lemma**, the start. -/
theorem Held.tryStart (hs : Held n s) (task : τ) : Held n (s.tryStart task) := by
  cases h : s.permits with
  | zero =>
      rw [tryStart_busy h]
      exact hs
  | succ left =>
      rw [tryStart_free h]
      have hTotal := hs.total
      constructor
      · show left + (s.running ++ [task]).length = n
        rw [List.length_append, List.length_singleton]
        omega
      · show (s.started ++ [task]).Perm (s.ended ++ (s.running ++ [task]))
        rw [← List.append_assoc]
        exact hs.fates.append_right [task]

/-- **Step lemma**, the end of any of the running tasks. -/
theorem Held.finish (hs : Held n s) (task : ℕ) : Held n (s.finish task) := by
  cases h : s.running[task]? with
  | none =>
      rw [finish_none h]
      exact hs
  | some done =>
      rw [finish_some h]
      obtain ⟨hTask, hDone⟩ := List.getElem?_eq_some_iff.mp h
      have hTotal := hs.total
      constructor
      · show s.permits + 1 + (s.running.eraseIdx task).length = n
        rw [List.length_eraseIdx_of_lt hTask]
        omega
      · show s.started.Perm (s.ended ++ [done] ++ s.running.eraseIdx task)
        have hSplit : (done :: s.running.eraseIdx task).Perm s.running := by
          rw [← hDone]
          exact List.getElem_cons_eraseIdx_perm hTask
        rw [List.append_assoc]
        exact hs.fates.trans (hSplit.symm.append_left s.ended)

theorem InOrder.held (hs : InOrder s) : Held 1 s where
  total := hs.total
  fates := hs.order ▸ .refl _

theorem InOrder.initial : InOrder (Server.initial τ 1) where
  total := rfl
  order := rfl

theorem InOrder.tryStart (hs : InOrder s) (task : τ) : InOrder (s.tryStart task) where
  total := (hs.held.tryStart task).total
  order := by
    cases h : s.permits with
    | zero =>
        rw [tryStart_busy h]
        exact hs.order
    | succ left =>
        rw [tryStart_free h]
        show s.started ++ [task] = s.ended ++ (s.running ++ [task])
        rw [hs.order, List.append_assoc]

/-- The only running task is the last one that started. -/
theorem InOrder.finish (hs : InOrder s) (task : ℕ) : InOrder (s.finish task) where
  total := (hs.held.finish task).total
  order := by
    cases h : s.running[task]? with
    | none =>
        rw [finish_none h]
        exact hs.order
    | some done =>
        rw [finish_some h]
        obtain ⟨hTask, hDone⟩ := List.getElem?_eq_some_iff.mp h
        have hTotal := hs.total
        obtain ⟨only, hOnly⟩ := List.length_eq_one_iff.mp (show s.running.length = 1 by omega)
        have hFirst : task = 0 := by omega
        subst hFirst
        show s.started = s.ended ++ [done] ++ s.running.eraseIdx 0
        have hRest : s.running.eraseIdx 0 = [] := by rw [hOnly]; rfl
        have hRunning : s.running = [done] := by
          rw [← hDone]
          simp only [hOnly, List.getElem_cons_zero]
        rw [hs.order, hRest, hRunning, List.append_nil]

end SovereignShadow.Verified.Permits
