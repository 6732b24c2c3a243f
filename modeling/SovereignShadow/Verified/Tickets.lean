import SovereignShadow.Verified.Tasks

/-!
# Numbered items

A counter hands out numbers.  An item carries the number that was drawn for it; a number whose
item is never sent is lost.  A ledger takes sent items in the order of the numbers, and takes
none before the item of every smaller number.

The second part is for tasks that draw their numbers from a shared counter: between two await
points such a task sends the items of the numbers that it draws, some of them over an outbox
and the last one perhaps with the request it waits on.

## Main results

* `Orderly.issue`, `Orderly.take` — the ledger holds a prefix of what was sent.
* `Orderly.stuck` — a lost number stops the ledger.
* `Numbering.call_sends`, `Numbering.answer_sends` — a turn of a pool sends an item for each
  number that it draws, in order.
-/

namespace SovereignShadow.Verified.Tickets

open SovereignShadow.Verified.Tasks

variable {τ ν : Type}

/-! ## The ledger -/

structure Book (τ ν : Type) where
  /-- The numbers that were handed out, in order. -/
  drawn : List ν
  sent : List τ
  taken : List τ

/-- What is sent has numbers of its own, in order, and the ledger has taken the first of it,
with no number left out. -/
structure Orderly (number : τ → ν) (b : Book τ ν) : Prop where
  sent : (b.sent.map number).Sublist b.drawn
  taken : b.taken <+: b.sent
  inOrder : b.taken.map number <+: b.drawn

section Ledger

variable {number : τ → ν} {b : Book τ ν}

theorem Orderly.initial : Orderly number { drawn := [], sent := [], taken := [] } where
  sent := .slnil
  taken := List.prefix_rfl
  inOrder := List.prefix_rfl

/-- **Step lemma**, new numbers with the items of some of them. -/
theorem Orderly.issue (h : Orderly number b) {more : List ν} {items : List τ}
    (hItems : (items.map number).Sublist more) :
    Orderly number { b with drawn := b.drawn ++ more, sent := b.sent ++ items } where
  sent := by
    show ((b.sent ++ items).map number).Sublist (b.drawn ++ more)
    rw [List.map_append]
    exact h.sent.append hItems
  taken := h.taken.trans (List.prefix_append b.sent items)
  inOrder := h.inOrder.trans (List.prefix_append b.drawn more)

/-- The numbers, split at the next one of the ledger. -/
theorem Orderly.split (h : Orderly number b) {n : ν}
    (hNext : b.drawn[b.taken.length]? = some n) :
    ∃ after, b.drawn = b.taken.map number ++ n :: after := by
  obtain ⟨later, hLater⟩ := h.inOrder
  rw [← hLater, List.getElem?_append_right (by rw [List.length_map]), List.length_map,
    Nat.sub_self] at hNext
  cases later with
  | nil => cases hNext
  | cons first after =>
      obtain rfl := Option.some.inj hNext
      exact ⟨after, hLater.symm⟩

/-- The item of the next number is the first one that was sent and not taken. -/
theorem Orderly.next_sent (h : Orderly number b) (hNodup : b.drawn.Nodup) {item : τ}
    (hSent : item ∈ b.sent) (hNext : b.drawn[b.taken.length]? = some (number item)) :
    b.taken ++ [item] <+: b.sent := by
  obtain ⟨after, hDrawn⟩ := h.split hNext
  obtain ⟨rest, hRest⟩ := h.taken
  have hNumbers : (rest.map number).Sublist (number item :: after) := by
    have hAll := h.sent
    rw [← hRest, hDrawn, List.map_append, List.append_sublist_append_left] at hAll
    exact hAll
  rw [hDrawn, List.nodup_append] at hNodup
  obtain ⟨-, hLater, hApart⟩ := hNodup
  have hMem : item ∈ rest := by
    rw [← hRest] at hSent
    rcases List.mem_append.mp hSent with hTaken | hMem
    · exact absurd rfl
        (hApart (number item) (List.mem_map_of_mem hTaken) (number item) List.mem_cons_self)
    · exact hMem
  cases rest with
  | nil => cases hMem
  | cons first others =>
      -- were the item further back, its number would come twice
      have hOthers : (others.map number).Sublist after := by
        rw [List.map_cons] at hNumbers
        rcases List.sublist_cons_iff.mp hNumbers with hSkip | ⟨_, hKeep, hTail⟩
        · exact (List.sublist_cons_self _ _).trans hSkip
        · obtain ⟨-, rfl⟩ := List.cons.inj hKeep
          exact hTail
      have hFirst : item = first := by
        rcases List.mem_cons.mp hMem with hHead | hOther
        · exact hHead
        · exact absurd (hOthers.subset (List.mem_map_of_mem hOther))
            (List.nodup_cons.mp hLater).1
      exact ⟨others, by rw [← hRest, hFirst, List.append_assoc]; rfl⟩

/-- **Step lemma**, the ledger takes the item of the next number. -/
theorem Orderly.take (h : Orderly number b) (hNodup : b.drawn.Nodup) {item : τ}
    (hSent : item ∈ b.sent) (hNext : b.drawn[b.taken.length]? = some (number item)) :
    Orderly number { b with taken := b.taken ++ [item] } where
  sent := h.sent
  taken := h.next_sent hNodup hSent hNext
  inOrder := by
    obtain ⟨after, hDrawn⟩ := h.split hNext
    show (b.taken ++ [item]).map number <+: b.drawn
    rw [List.map_append, List.map_singleton]
    exact ⟨after, by rw [hDrawn, List.append_assoc]; rfl⟩

/-- **A lost number stops the ledger** before its place. -/
theorem Orderly.stuck (h : Orderly number b) {i : ℕ} {n : ν} (hDrawn : b.drawn[i]? = some n)
    (hLost : n ∉ b.sent.map number) : b.taken.length ≤ i := by
  by_contra hPast
  have hTaken : (b.taken.map number)[i]? = some n := by
    obtain ⟨later, hLater⟩ := h.inOrder
    rw [← hLater, List.getElem?_append_left (by rw [List.length_map]; omega)] at hDrawn
    exact hDrawn
  have hMem : n ∈ b.taken.map number := List.mem_of_getElem? hTaken
  exact hLost ((h.taken.sublist.map number).subset hMem)

/-- What was lost stays lost. -/
theorem lost_issue {more : List ν} {items : List τ} {n : ν}
    (hNodup : (b.drawn ++ more).Nodup) (hItems : (items.map number).Sublist more)
    (hDrawn : n ∈ b.drawn) (hLost : n ∉ b.sent.map number) :
    n ∉ (b.sent ++ items).map number := by
  rw [List.map_append, List.mem_append]
  rintro (hSent | hItem)
  · exact hLost hSent
  · exact (List.nodup_append.mp hNodup).2.2 n hDrawn n (hItems.subset hItem) rfl

end Ledger

/-! ## Tasks -/

/-- Where a task draws its numbers, where it leaves its items, and which request carries one. -/
structure Numbering (σ Req τ ν : Type) where
  counter : σ → ν
  succ : ν → ν
  succ_ne : ∀ n, succ n ≠ n
  outbox : σ → List τ
  carried : Req → Option τ
  number : τ → ν
  /-- The state, with the counter at a number and the outbox empty. -/
  load : ν → σ → σ
  counter_load : ∀ n s, counter (load n s) = n
  outbox_load : ∀ n s, outbox (load n s) = []

namespace Numbering

variable {σ Req α β : Type} {Reply : Req → Type} (N : Numbering σ Req τ ν)

/-- The task leaves the counter and the outbox alone, draws one number, or sends the item of the
number `pending` that it has drawn. -/
def Sends : Option ν → Task σ Reply α → Prop
  | pending, .ret _ => pending = none
  | pending, .panic => pending = none
  | pending, .access write next => ∀ s,
      (N.counter (write s) = N.counter s ∧ N.outbox (write s) = N.outbox s ∧
        Sends pending (next s)) ∨
      (pending = none ∧ N.counter (write s) = N.succ (N.counter s) ∧
        N.outbox (write s) = N.outbox s ∧ Sends (some (N.counter s)) (next s)) ∨
      ∃ item, pending = some (N.number item) ∧ N.counter (write s) = N.counter s ∧
        N.outbox (write s) = N.outbox s ++ [item] ∧ Sends none (next s)
  | pending, .await request resume =>
      pending = (N.carried request).map N.number ∧ ∀ reply, Sends none (resume reply)

section Rules

variable {N} {pending : Option ν}

/-- An access that has to do with neither. -/
theorem sends_access {write : σ → σ} {next : σ → Task σ Reply α}
    (hCounter : ∀ s, N.counter (write s) = N.counter s)
    (hOutbox : ∀ s, N.outbox (write s) = N.outbox s) (hNext : ∀ s, N.Sends pending (next s)) :
    N.Sends pending (.access write next) :=
  fun s => .inl ⟨hCounter s, hOutbox s, hNext s⟩

theorem sends_draw {write : σ → σ} {next : σ → Task σ Reply α}
    (hCounter : ∀ s, N.counter (write s) = N.succ (N.counter s))
    (hOutbox : ∀ s, N.outbox (write s) = N.outbox s)
    (hNext : ∀ s, N.Sends (some (N.counter s)) (next s)) : N.Sends none (.access write next) :=
  fun s => .inr (.inl ⟨rfl, hCounter s, hOutbox s, hNext s⟩)

theorem sends_ofOption {x : Option β} {next : β → Task σ Reply α}
    (hNext : ∀ b, N.Sends none (next b)) : N.Sends none (Task.ofOption x >>= next) := by
  cases x with
  | some b => exact hNext b
  | none => exact (rfl : (none : Option ν) = none)

theorem sends_bind {task : Task σ Reply β} {f : β → Task σ Reply α}
    (hTask : N.Sends pending task) (hNext : ∀ b, N.Sends none (f b)) :
    N.Sends pending (task >>= f) := by
  induction task generalizing pending with
  | ret b =>
      obtain rfl : pending = none := hTask
      exact hNext b
  | panic => exact hTask
  | access write next ih =>
      intro s
      rcases hTask s with ⟨hCounter, hOutbox, hRest⟩ | ⟨hNone, hCounter, hOutbox, hRest⟩ |
        ⟨item, hSome, hCounter, hOutbox, hRest⟩
      · exact .inl ⟨hCounter, hOutbox, ih s hRest⟩
      · exact .inr (.inl ⟨hNone, hCounter, hOutbox, ih s hRest⟩)
      · exact .inr (.inr ⟨item, hSome, hCounter, hOutbox, ih s hRest⟩)
  | await request resume ih => exact ⟨hTask.1, fun reply => ih reply (hTask.2 reply)⟩

end Rules

/-- The item of the request that a task waits on. -/
def onRequest : Status σ Reply α → List τ
  | .waiting task => (N.carried task.request).toList
  | .returned _ => []
  | .panicked => []

/-- Every task that waits goes on as the rules say. -/
def Waits (waiting : List (Waiting σ Reply α)) : Prop :=
  ∀ task ∈ waiting, ∀ reply, N.Sends none (task.resume reply)

section Segments

variable [DecidableEq ν]

/-- How many numbers a task draws up to its next await point. -/
def draws : Task σ Reply α → σ → ℕ
  | .ret _, _ => 0
  | .panic, _ => 0
  | .access write next, s =>
      (if N.counter (write s) = N.counter s then 0 else 1) + draws (next s) (write s)
  | .await _ _, _ => 0

/-- **Up to its next await point** a task sends an item for each number that it draws, in
order, and first the item of the number that it had drawn before. -/
theorem advance_sends {task : Task σ Reply α} {pending : Option ν} (h : N.Sends pending task)
    (s : σ) :
    ∃ items,
      N.outbox (task.advance s).1 ++ N.onRequest (task.advance s).2 = N.outbox s ++ items ∧
        items.map N.number =
          pending.toList ++ List.iterate N.succ (N.counter s) (N.draws task s) ∧
        N.counter (task.advance s).1 = N.succ^[N.draws task s] (N.counter s) ∧
        N.Waits (task.advance s).2.inProgress := by
  induction task generalizing pending s with
  | ret a =>
      obtain rfl : pending = none := h
      exact ⟨[], rfl, rfl, rfl, fun _ hTask => absurd hTask List.not_mem_nil⟩
  | panic =>
      obtain rfl : pending = none := h
      exact ⟨[], rfl, rfl, rfl, fun _ hTask => absurd hTask List.not_mem_nil⟩
  | access write next ih =>
      rcases h s with ⟨hCounter, hOutbox, hRest⟩ | ⟨rfl, hCounter, hOutbox, hRest⟩ |
        ⟨item, rfl, hCounter, hOutbox, hRest⟩
      · have hDraws : N.draws (.access write next) s = N.draws (next s) (write s) := by
          rw [draws, if_pos hCounter, Nat.zero_add]
        have hNext := ih s hRest (write s)
        rw [hCounter, hOutbox, ← hDraws] at hNext
        exact hNext
      · have hDraws : N.draws (.access write next) s = N.draws (next s) (write s) + 1 := by
          rw [draws, if_neg (hCounter ▸ N.succ_ne _), Nat.add_comm]
        obtain ⟨items, hItems, hNumbers, hEnd, hWaits⟩ := ih s hRest (write s)
        rw [hCounter] at hNumbers hEnd
        rw [hOutbox] at hItems
        rw [hDraws]
        exact ⟨items, hItems, hNumbers, hEnd, hWaits⟩
      · have hDraws : N.draws (.access write next) s = N.draws (next s) (write s) := by
          rw [draws, if_pos hCounter, Nat.zero_add]
        obtain ⟨items, hItems, hNumbers, hEnd, hWaits⟩ := ih s hRest (write s)
        rw [hCounter, ← hDraws] at hNumbers hEnd
        rw [hOutbox, List.append_assoc] at hItems
        refine ⟨item :: items, hItems, ?_, hEnd, hWaits⟩
        rw [List.map_cons, hNumbers]
        rfl
  | await request resume _ =>
      obtain ⟨rfl, hResume⟩ := h
      refine ⟨(N.carried request).toList, rfl, ?_, rfl, ?_⟩
      · cases N.carried request <;> rfl
      · intro task hTask reply
        obtain rfl := List.mem_singleton.mp hTask
        exact hResume reply

/-! ## Turns of a pool -/

/-- What a turn leaves: the pool, the items that it sends, the counter, and whether it
panicked. -/
structure Turn (σ : Type) {Req : Type} (Reply : Req → Type) (α τ ν : Type) where
  pool : Pool σ Reply α
  items : List τ
  counter : ν
  draws : ℕ
  panicked : Bool

/-- The turn of a task, which stands between the tasks `before` and `after`. -/
def turn (s : σ) (n : ν) (before after : List (Waiting σ Reply α)) (task : Task σ Reply α) :
    Turn σ Reply α τ ν :=
  let ran := task.advance (N.load n s)
  { pool := { shared := ran.1, waiting := before ++ ran.2.inProgress ++ after }
    items := N.outbox ran.1 ++ N.onRequest ran.2
    counter := N.counter ran.1
    draws := N.draws task (N.load n s)
    panicked := match ran.2 with
      | .panicked => true
      | .waiting _ | .returned _ => false }

/-- A call. -/
def call (p : Pool σ Reply α) (n : ν) (task : Task σ Reply α) : Turn σ Reply α τ ν :=
  N.turn p.shared n p.waiting [] task

/-- A reply to the `i`-th task that waits, if there is one. -/
def answer (p : Pool σ Reply α) (n : ν) (i : ℕ) (reply : (request : Req) → Reply request) :
    Turn σ Reply α τ ν :=
  match p.waiting[i]? with
  | none => { pool := p, items := [], counter := n, draws := 0, panicked := false }
  | some task =>
      N.turn p.shared n (p.waiting.take i) (p.waiting.drop (i + 1))
        (task.resume (reply task.request))

/-- The items have the numbers that were drawn, from `n` on. -/
structure Fair (n : ν) (t : Turn σ Reply α τ ν) : Prop where
  numbers : t.items.map N.number = List.iterate N.succ n t.draws
  counter : t.counter = N.succ^[t.draws] n
  waits : N.Waits t.pool.waiting

variable {N}

theorem turn_sends {task : Task σ Reply α} (h : N.Sends none task) {s : σ} {n : ν}
    {before after : List (Waiting σ Reply α)} (hBefore : N.Waits before) (hAfter : N.Waits after) :
    N.Fair n (N.turn s n before after task) := by
  obtain ⟨items, hItems, hNumbers, hCounter, hWaits⟩ := N.advance_sends h (N.load n s)
  rw [N.outbox_load, List.nil_append] at hItems
  rw [N.counter_load] at hNumbers hCounter
  constructor
  · show (N.outbox _ ++ N.onRequest _).map N.number = _
    rw [hItems]
    exact hNumbers
  · exact hCounter
  · intro waiting hMem
    rcases List.mem_append.mp hMem with hFirst | hLast
    · rcases List.mem_append.mp hFirst with hOld | hNew
      · exact hBefore waiting hOld
      · exact hWaits waiting hNew
    · exact hAfter waiting hLast

theorem call_sends {p : Pool σ Reply α} (hPool : N.Waits p.waiting) {task : Task σ Reply α}
    (h : N.Sends none task) (n : ν) : N.Fair n (N.call p n task) :=
  turn_sends h hPool fun _ hTask => absurd hTask List.not_mem_nil

theorem answer_sends {p : Pool σ Reply α} (hPool : N.Waits p.waiting) (n : ν) (i : ℕ)
    (reply : (request : Req) → Reply request) : N.Fair n (N.answer p n i reply) := by
  unfold answer
  split
  · exact ⟨rfl, rfl, hPool⟩
  · rename_i task hTask
    refine turn_sends (hPool task (List.mem_of_getElem? hTask) _) ?_ ?_
    · exact fun other hOther => hPool other (List.mem_of_mem_take hOther)
    · exact fun other hOther => hPool other (List.mem_of_mem_drop hOther)

end Segments

end Numbering

end SovereignShadow.Verified.Tickets
