import Mathlib

/-!
# Tasks that wait

A task is a function that other tasks of its kind may overtake at its await points.  It
accesses a shared state, a read and a write at a time, waits for replies, and returns or
panics.  Between two await points it is not interrupted.

A pool is the shared state and the tasks that wait.  The module gives the discipline of a
flag that a task takes at its start: the task that finds it clear keeps it set at every await
point and clears it before it ends, any other ends at once.

## Main results

* `advance_keeps`, `advance_ends` — what a disciplined task does up to its next await point.
* `owned_step` — one step of a pool, the step lemma of the invariant `Owned`.
* `owned_run` — in every run at most one task waits, and the flag is set while one does.
-/

namespace SovereignShadow.Verified.Tasks

/-- `access` replaces the state and goes on with the old one. -/
inductive Task (σ : Type) {Req : Type} (Reply : Req → Type) (α : Type) where
  | ret (a : α)
  | panic
  | access (write : σ → σ) (next : σ → Task σ Reply α)
  | await (request : Req) (resume : Reply request → Task σ Reply α)

variable {σ Req α β : Type} {Reply : Req → Type}

namespace Task

def bind : Task σ Reply α → (α → Task σ Reply β) → Task σ Reply β
  | ret a, f => f a
  | panic, _ => panic
  | access write next, f => access write fun s => (next s).bind f
  | await request resume, f => await request fun reply => (resume reply).bind f

instance : Monad (Task σ Reply) where
  pure := ret
  bind := bind

@[simp] theorem pure_eq (a : α) : (pure a : Task σ Reply α) = ret a := rfl

@[simp] theorem ret_bind (a : α) (f : α → Task σ Reply β) : ret a >>= f = f a := rfl

@[simp] theorem panic_bind (f : α → Task σ Reply β) : panic >>= f = panic := rfl

@[simp] theorem access_bind (write : σ → σ) (next : σ → Task σ Reply α)
    (f : α → Task σ Reply β) :
    access write next >>= f = access write fun s => next s >>= f := rfl

@[simp] theorem await_bind (request : Req) (resume : Reply request → Task σ Reply α)
    (f : α → Task σ Reply β) :
    await request resume >>= f = await request fun reply => resume reply >>= f := rfl

protected theorem bind_assoc {γ : Type} (task : Task σ Reply α) (f : α → Task σ Reply β)
    (g : β → Task σ Reply γ) : task >>= f >>= g = task >>= fun a => f a >>= g := by
  induction task with
  | ret a => rfl
  | panic => rfl
  | access write next ih => exact congrArg (access write) (funext ih)
  | await request resume ih => exact congrArg (await request) (funext ih)

/-- A write whose old state does not matter. -/
def modify (write : σ → σ) : Task σ Reply Unit := access write fun _ => ret ()

/-- A result that may be missing, where that is a panic. -/
def ofOption : Option α → Task σ Reply α
  | some a => ret a
  | none => panic

def ask (request : Req) : Task σ Reply (Reply request) := await request ret

end Task

/-- A task at an await point. -/
structure Waiting (σ : Type) {Req : Type} (Reply : Req → Type) (α : Type) where
  request : Req
  resume : Reply request → Task σ Reply α

inductive Status (σ : Type) {Req : Type} (Reply : Req → Type) (α : Type) where
  | waiting (task : Waiting σ Reply α)
  | returned (a : α)
  | panicked

def Status.inProgress : Status σ Reply α → List (Waiting σ Reply α)
  | .waiting task => [task]
  | _ => []

/-- Up to the next await point, or to the end. -/
def Task.advance : Task σ Reply α → σ → σ × Status σ Reply α
  | .ret a, s => (s, .returned a)
  | .panic, s => (s, .panicked)
  | .access write next, s => (next s).advance (write s)
  | .await request resume, s => (s, .waiting { request, resume })

/-- What a task asks for, in an environment that answers every request. -/
def Task.requests (answer : (request : Req) → Reply request) : Task σ Reply α → σ → List Req
  | .ret _, _ => []
  | .panic, _ => []
  | .access write next, s => (next s).requests answer (write s)
  | .await request resume, s => request :: (resume (answer request)).requests answer s

/-! ## Pools -/

structure Pool (σ : Type) {Req : Type} (Reply : Req → Type) (α : Type) where
  shared : σ
  waiting : List (Waiting σ Reply α)

/-- The flag, the tasks that may be called, the replies that may come, and whether a panic
unwinds only its task or ends the process. -/
structure Rules (σ : Type) {Req : Type} (Reply : Req → Type) (α : Type) where
  held : σ → Bool
  Calls : Task σ Reply α → Prop
  Replies : (request : Req) → Reply request → Prop
  unwinds : Bool

/-- The process goes on after the status. -/
def Rules.GoesOn (rules : Rules σ Reply α) : Status σ Reply α → Prop
  | .panicked => rules.unwinds = true
  | _ => True

/-- A call, a reply to a task that waits, or anything else that leaves the flag alone. -/
inductive Step (rules : Rules σ Reply α) : Pool σ Reply α → Pool σ Reply α → Prop
  | call {p : Pool σ Reply α} (task : Task σ Reply α) (hCall : rules.Calls task)
      (hOn : rules.GoesOn (task.advance p.shared).2) :
      Step rules p
        { shared := (task.advance p.shared).1
          waiting := p.waiting ++ (task.advance p.shared).2.inProgress }
  | reply {s : σ} {before after : List (Waiting σ Reply α)} {task : Waiting σ Reply α}
      (reply : Reply task.request) (hReply : rules.Replies task.request reply)
      (hOn : rules.GoesOn ((task.resume reply).advance s).2) :
      Step rules { shared := s, waiting := before ++ task :: after }
        { shared := ((task.resume reply).advance s).1
          waiting := before ++ ((task.resume reply).advance s).2.inProgress ++ after }
  | other {s s' : σ} {waiting : List (Waiting σ Reply α)}
      (hHeld : rules.held s' = rules.held s) :
      Step rules { shared := s, waiting := waiting } { shared := s', waiting := waiting }

abbrev Run (rules : Rules σ Reply α) : Pool σ Reply α → Pool σ Reply α → Prop :=
  Relation.ReflTransGen (Step rules)

/-- A call on a pool where no task waits. -/
theorem Step.call_idle {rules : Rules σ Reply α} {task : Task σ Reply α} {s s' : σ}
    {status : Status σ Reply α} (hCall : rules.Calls task)
    (hAdvance : task.advance s = (s', status)) (hOn : rules.GoesOn status) :
    Step rules { shared := s, waiting := [] }
      { shared := s', waiting := status.inProgress } := by
  have hStep := @Step.call _ _ _ _ rules { shared := s, waiting := [] } task hCall
    (by rw [hAdvance]; exact hOn)
  rw [hAdvance] at hStep
  exact hStep

/-- A reply to the only task that waits. -/
theorem Step.reply_only {rules : Rules σ Reply α} {request : Req}
    {resume : Reply request → Task σ Reply α} {s s' : σ} {status : Status σ Reply α}
    (reply : Reply request) (hReply : rules.Replies request reply)
    (hAdvance : (resume reply).advance s = (s', status)) (hOn : rules.GoesOn status) :
    Step rules { shared := s, waiting := [{ request, resume }] }
      { shared := s', waiting := status.inProgress } := by
  have hStep := @Step.reply _ _ _ _ rules s [] [] { request, resume } reply hReply
    (by rw [hAdvance]; exact hOn)
  rw [hAdvance, List.nil_append, List.nil_append, List.append_nil] at hStep
  exact hStep

/-- The pool after its only task has had `n` answers. -/
def Pool.drive (answer : (request : Req) → Reply request) : ℕ → Pool σ Reply α → Pool σ Reply α
  | 0, p => p
  | n + 1, p =>
      match p.waiting with
      | [task] =>
          let next := (task.resume (answer task.request)).advance p.shared
          Pool.drive answer n { shared := next.1, waiting := next.2.inProgress }
      | _ => p

theorem goesOn_of_unwinds {rules : Rules σ Reply α} (hUnwinds : rules.unwinds = true)
    (status : Status σ Reply α) : rules.GoesOn status := by
  cases status with
  | waiting task => trivial
  | returned a => trivial
  | panicked => exact hUnwinds

theorem run_drive {rules : Rules σ Reply α} (hUnwinds : rules.unwinds = true)
    {answer : (request : Req) → Reply request}
    (hAnswer : ∀ request, rules.Replies request (answer request)) (n : ℕ)
    (p : Pool σ Reply α) : Run rules p (p.drive answer n) := by
  induction n generalizing p with
  | zero => exact .refl
  | succ n ih =>
      unfold Pool.drive
      split
      · rename_i task hTask
        obtain ⟨shared, waiting⟩ := p
        obtain rfl : waiting = [task] := hTask
        exact .head (Step.reply_only (answer task.request) (hAnswer _) rfl
          (goesOn_of_unwinds hUnwinds _)) (ih _)
      · exact .refl

/-! ## The discipline of a flag -/

section Discipline

variable (rules : Rules σ Reply α)

/-- The task ends without waiting, and leaves the flag as it is. -/
def Ends (flag : Bool) : Task σ Reply α → Prop
  | .ret _ => True
  | .panic => True
  | .access write next => ∀ s, rules.held s = flag →
      rules.held (write s) = flag ∧ Ends flag (next s)
  | .await _ _ => False

/-- The task, whose flag is set, clears it just before it ends. -/
def Keeps : Task σ Reply α → Prop
  | .ret _ => False
  | .panic => rules.unwinds = false
  | .access write next => ∀ s, rules.held s = true →
      if rules.held (write s) = true then Keeps (next s) else Ends rules false (next s)
  | .await request resume => ∀ reply, rules.Replies request reply → Keeps (resume reply)

/-- The task takes the flag first, and ends if it was set. -/
def Takes : Task σ Reply α → Prop
  | .access write next => ∀ s, rules.held (write s) = true ∧
      if rules.held s = true then Ends rules true (next s) else Keeps rules (next s)
  | _ => False

/-- A part of a task, which never clears the flag. -/
def Stays : Task σ Reply β → Prop
  | .ret _ => True
  | .panic => rules.unwinds = false
  | .access write next => ∀ s, rules.held s = true →
      rules.held (write s) = true ∧ Stays (next s)
  | .await request resume => ∀ reply, rules.Replies request reply → Stays (resume reply)

section Rules

variable {rules}

/-- An access that leaves the flag set. -/
theorem keeps_access {write : σ → σ} {next : σ → Task σ Reply α}
    (hKept : ∀ s, rules.held s = true → rules.held (write s) = true)
    (hNext : ∀ s, rules.held s = true → Keeps rules (next s)) :
    Keeps rules (.access write next) := by
  intro s hHeld
  rw [if_pos (hKept s hHeld)]
  exact hNext s hHeld

/-- The last access of the flag. -/
theorem keeps_release {write : σ → σ} {next : σ → Task σ Reply α}
    (hClear : ∀ s, rules.held (write s) = false) (hEnds : ∀ s, Ends rules false (next s)) :
    Keeps rules (.access write next) := by
  intro s _
  rw [if_neg (by rw [hClear s]; decide)]
  exact hEnds s

/-- A result that is missing only where a panic ends the process. -/
theorem keeps_ofOption {x : Option β} {next : β → Task σ Reply α}
    (hSome : rules.unwinds = true → x ≠ none) (hNext : ∀ b, x = some b → Keeps rules (next b)) :
    Keeps rules (Task.ofOption x >>= next) := by
  cases x with
  | some b => exact hNext b rfl
  | none =>
      show rules.unwinds = false
      exact Bool.eq_false_of_not_eq_true fun hUnwinds => hSome hUnwinds rfl

/-- A part that never clears the flag, and what follows it. -/
theorem keeps_bind {task : Task σ Reply β} {f : β → Task σ Reply α} (hTask : Stays rules task)
    (hNext : ∀ b, Keeps rules (f b)) : Keeps rules (task >>= f) := by
  induction task with
  | ret b => exact hNext b
  | panic => exact hTask
  | access write next ih =>
      exact keeps_access (fun s hHeld => (hTask s hHeld).1) fun s hHeld =>
        ih s (hTask s hHeld).2
  | await request resume ih => exact fun reply hReply => ih reply (hTask reply hReply)

/-- A task that takes the flag with its first access. -/
theorem takes_access {write : σ → σ} {next : σ → Task σ Reply α}
    (hSet : ∀ s, rules.held (write s) = true)
    (hBusy : ∀ s, rules.held s = true → Ends rules true (next s))
    (hFree : ∀ s, rules.held s = false → Keeps rules (next s)) :
    Takes rules (.access write next) := by
  intro s
  refine ⟨hSet s, ?_⟩
  split_ifs with hHeld
  · exact hBusy s hHeld
  · exact hFree s (Bool.eq_false_of_not_eq_true hHeld)

end Rules

/-- No task waits and the flag is clear, or one waits and holds it. -/
inductive Owned : Pool σ Reply α → Prop
  | free {s : σ} (hFree : rules.held s = false) : Owned { shared := s, waiting := [] }
  | taken {s : σ} {task : Waiting σ Reply α} (hHeld : rules.held s = true)
      (hKeeps : ∀ reply, rules.Replies task.request reply → Keeps rules (task.resume reply)) :
      Owned { shared := s, waiting := [task] }

variable {rules}

theorem advance_ends {task : Task σ Reply α} {flag : Bool} (h : Ends rules flag task) {s : σ}
    (hFlag : rules.held s = flag) :
    rules.held (task.advance s).1 = flag ∧ (task.advance s).2.inProgress = [] := by
  induction task generalizing s with
  | ret a => exact ⟨hFlag, rfl⟩
  | panic => exact ⟨hFlag, rfl⟩
  | access write next ih =>
      have hNext := h s hFlag
      exact ih s hNext.2 hNext.1
  | await request resume _ => exact h.elim

/-- Up to its next await point the task that holds the flag keeps it, or it ends with the flag
clear. -/
theorem advance_keeps {task : Task σ Reply α} (h : Keeps rules task) {s : σ}
    (hHeld : rules.held s = true) (hOn : rules.GoesOn (task.advance s).2) :
    Owned rules
      { shared := (task.advance s).1, waiting := (task.advance s).2.inProgress } := by
  induction task generalizing s with
  | ret a => exact h.elim
  | panic =>
      have hUnwinds : rules.unwinds = true := hOn
      have hAborts : rules.unwinds = false := h
      exact absurd (hUnwinds.symm.trans hAborts) (by decide)
  | access write next ih =>
      have hNext := h s hHeld
      by_cases hKept : rules.held (write s) = true
      · rw [if_pos hKept] at hNext
        exact ih s hNext hKept hOn
      · rw [if_neg hKept] at hNext
        have hEnds := advance_ends hNext (Bool.eq_false_of_not_eq_true hKept)
        show Owned rules ⟨((next s).advance (write s)).1,
          ((next s).advance (write s)).2.inProgress⟩
        rw [hEnds.2]
        exact .free hEnds.1
  | await request resume _ => exact .taken hHeld h

/-- A call on a pool whose flag is clear, or set. -/
theorem advance_takes {task : Task σ Reply α} (h : Takes rules task) (s : σ) :
    (rules.held s = true →
      rules.held (task.advance s).1 = true ∧ (task.advance s).2.inProgress = []) ∧
    (rules.held s = false → rules.GoesOn (task.advance s).2 →
      Owned rules
        { shared := (task.advance s).1, waiting := (task.advance s).2.inProgress }) := by
  cases task with
  | access write next =>
      have hTakes := h s
      constructor
      · intro hHeld
        rw [if_pos hHeld] at hTakes
        exact advance_ends hTakes.2 hTakes.1
      · intro hFree hOn
        rw [if_neg (by rw [hFree]; decide)] at hTakes
        exact advance_keeps hTakes.2 hTakes.1 hOn
  | ret a => exact h.elim
  | panic => exact h.elim
  | await request resume => exact h.elim

/-- **Step lemma.** -/
theorem owned_step (hCalls : ∀ task, rules.Calls task → Takes rules task)
    {p q : Pool σ Reply α} (hStep : Step rules p q) (h : Owned rules p) : Owned rules q := by
  cases hStep with
  | call task hCall hOn =>
      have hTakes := advance_takes (hCalls task hCall) p.shared
      cases h with
      | free hFree => exact hTakes.2 hFree hOn
      | taken hHeld hKeeps =>
          have hBusy := hTakes.1 hHeld
          rw [hBusy.2, List.append_nil]
          exact .taken hBusy.1 hKeeps
  | @reply s before after task reply hReply hOn =>
      -- the task that waits is the only one
      generalize hList : before ++ task :: after = waiting at h
      cases h with
      | free => simp at hList
      | taken hHeld hKeeps =>
          have hOnly := List.append_eq_singleton_iff.mp hList
          simp only [List.cons_ne_nil, and_false, or_false, List.cons.injEq] at hOnly
          obtain ⟨rfl, rfl, rfl⟩ := hOnly
          rw [List.nil_append, List.append_nil]
          exact advance_keeps (hKeeps reply hReply) hHeld hOn
  | other hHeld =>
      cases h with
      | free hFree => exact .free (hHeld.trans hFree)
      | taken hTaken hKeeps => exact .taken (hHeld.trans hTaken) hKeeps

/-- **Run lemma.** -/
theorem owned_run (hCalls : ∀ task, rules.Calls task → Takes rules task)
    {p q : Pool σ Reply α} (hRun : Run rules p q) (h : Owned rules p) : Owned rules q := by
  induction hRun with
  | refl => exact h
  | tail _ hStep ih => exact owned_step hCalls hStep ih

/-- What the invariant says of the tasks that wait. -/
theorem Owned.exclusive {p : Pool σ Reply α} (h : Owned rules p) :
    p.waiting.length ≤ 1 ∧ (rules.held p.shared = true ↔ p.waiting ≠ []) := by
  cases h with
  | free hFree => exact ⟨by simp, by simp [hFree]⟩
  | taken hHeld _ => exact ⟨by simp, by simp [hHeld]⟩

end Discipline

end SovereignShadow.Verified.Tasks
