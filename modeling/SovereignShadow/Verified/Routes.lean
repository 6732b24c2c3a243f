import Mathlib

/-!
# Routes through a graph whose reads may fail

A graph here is given by partial reads: the edges that leave a vertex, the key of an
edge, and the label and end of an edge taken from a vertex; a `none` is a read out of
range.  A route to a target takes edges with keys that are all different and none of
them avoided, and meets the target only at its end.

`routes` lists the labels of every route of at most `n` edges, in the order in which a
backtracking search meets them, and fails exactly when that search would read out of
range.  `foldlM_eq_mapM` is the rule that turns a loop with a stack and an accumulator
into this list.

## Main results

* `Route.fresh` — a route takes no key twice.
* `mem_routes` — the list holds the routes of at most `n` edges, and no others.
* `routes_nodup` — each once, when labels tell edges apart.
* `exists_routes` — nothing fails on a part of the graph that reads stay in.
* `routes_mapLabel` — relabelling the edges relabels the routes.
* `Matches.routes_eq` — two tables of one graph have the same routes.
* `foldlM_eq_mapM` — a loop of pushes is the list of what it pushes.
-/

namespace SovereignShadow.Verified.Routes

universe u

/-- Vertices `V`, edges `E`, keys `K` and labels `H`. -/
structure Graph (V E K H : Type u) where
  out : V → Option (List E)
  key : E → Option K
  follow : V → E → Option (H × V)

variable {V E K H : Type u} [DecidableEq K]

/-- What the search lists for the edge `e` of `v`; `go` lists what lies beyond it. -/
def branch [DecidableEq V] (G : Graph V E K H) (target : V)
    (go : Finset K → V → Option (List (List H))) (avoid : Finset K) (v : V) (e : E) :
    Option (List (List H)) := do
  let k ← G.key e
  if k ∈ avoid then some []
  else do
    let (label, u) ← G.follow v e
    if u = target then some [[label]]
    else do
      let rest ← go (insert k avoid) u
      some (rest.map (label :: ·))

/-- The routes of at most `n` edges from `v`. -/
def routes [DecidableEq V] (G : Graph V E K H) (target : V) :
    ℕ → Finset K → V → Option (List (List H))
  | 0, _, _ => some []
  | n + 1, avoid, v => do
      let es ← G.out v
      let found ← es.mapM (branch G target (routes G target n) avoid v)
      some found.flatten

/-- A route from `v` to the target, by its labels and keys. -/
inductive Route (G : Graph V E K H) (target : V) : Finset K → V → List H → List K → Prop
  | last {avoid v es e k label} (hOut : G.out v = some es) (hMem : e ∈ es)
      (hKey : G.key e = some k) (hFree : k ∉ avoid)
      (hFollow : G.follow v e = some (label, target)) :
      Route G target avoid v [label] [k]
  | step {avoid v es e k label u labels keys} (hOut : G.out v = some es) (hMem : e ∈ es)
      (hKey : G.key e = some k) (hFree : k ∉ avoid)
      (hFollow : G.follow v e = some (label, u)) (hOn : u ≠ target)
      (hRest : Route G target (insert k avoid) u labels keys) :
      Route G target avoid v (label :: labels) (k :: keys)

/-! ## Lists of partial results -/

theorem mapM_eq_some {α β : Type u} {f : α → Option β} {xs : List α} {ys : List β} :
    xs.mapM f = some ys ↔ List.Forall₂ (fun x y => f x = some y) xs ys := by
  induction xs generalizing ys with
  | nil => simp [eq_comm]
  | cons x xs ih =>
      rw [List.mapM_cons, List.forall₂_cons_left_iff]
      simp only [Option.bind_eq_bind, Option.pure_def, Option.bind_eq_some_iff, Option.some.injEq]
      constructor
      · rintro ⟨y, hy, rest, hRest, rfl⟩
        exact ⟨y, rest, hy, ih.mp hRest, rfl⟩
      · rintro ⟨y, rest, hy, hRest, rfl⟩
        exact ⟨y, hy, rest, ih.mpr hRest, rfl⟩

/-- What a list of partial lists holds comes from one of them. -/
theorem mem_flatten_of_mapM {α β : Type u} {f : α → Option (List β)} {xs : List α}
    {parts : List (List β)} (h : xs.mapM f = some parts) {y : β} :
    y ∈ parts.flatten ↔ ∃ x ∈ xs, ∃ part, f x = some part ∧ y ∈ part := by
  rw [mapM_eq_some] at h
  induction h with
  | nil => simp
  | cons hx _ ih =>
      rw [List.flatten_cons, List.mem_append, ih]
      simp [hx]

/-- Every part is there. -/
theorem exists_part_of_mapM {α β : Type u} {f : α → Option β} {xs : List α} {ys : List β}
    (h : xs.mapM f = some ys) {x : α} (hx : x ∈ xs) : ∃ y, f x = some y := by
  rw [mapM_eq_some] at h
  induction h with
  | nil => exact absurd hx (by simp)
  | cons hy _ ih =>
      rcases List.mem_cons.mp hx with rfl | hRest
      · exact ⟨_, hy⟩
      · exact ih hRest

theorem exists_mapM {α β : Type u} {f : α → Option β} {xs : List α}
    (h : ∀ x ∈ xs, ∃ y, f x = some y) : ∃ ys, xs.mapM f = some ys := by
  induction xs with
  | nil => exact ⟨[], rfl⟩
  | cons x xs ih =>
      rw [List.forall_mem_cons] at h
      obtain ⟨y, hy⟩ := h.1
      obtain ⟨ys, hys⟩ := ih h.2
      exact ⟨y :: ys, by simp [List.mapM_cons, hy, hys]⟩

theorem mapM_map {α β γ : Type u} {f : α → Option β} {g : α → Option γ} {r : β → γ}
    (h : ∀ x, g x = (f x).map r) (xs : List α) : xs.mapM g = (xs.mapM f).map (List.map r) := by
  induction xs with
  | nil => rfl
  | cons x xs ih =>
      rw [List.mapM_cons, List.mapM_cons, h, ih]
      cases f x with
      | none => rfl
      | some y =>
          cases xs.mapM f with
          | none => rfl
          | some ys => rfl

theorem exists_of_forall₂_right {α β : Type u} {R : α → β → Prop} {xs : List α} {ys : List β}
    (h : List.Forall₂ R xs ys) {y : β} (hy : y ∈ ys) : ∃ x ∈ xs, R x y := by
  induction h with
  | nil => exact absurd hy (by simp)
  | cons hR _ ih =>
      rcases List.mem_cons.mp hy with rfl | hRest
      · exact ⟨_, List.mem_cons_self, hR⟩
      · obtain ⟨x, hx, hxy⟩ := ih hRest
        exact ⟨x, List.mem_cons_of_mem _ hx, hxy⟩

/-- Different arguments, unrelated results. -/
theorem pairwise_of_forall₂ {α β : Type u} {R : α → β → Prop} {S : β → β → Prop}
    {xs : List α} {ys : List β} (h : List.Forall₂ R xs ys) (hNodup : xs.Nodup)
    (hS : ∀ x x' y y', R x y → R x' y' → x ≠ x' → S y y') : ys.Pairwise S := by
  induction h with
  | nil => exact List.Pairwise.nil
  | @cons x y xs ys hR hRest ih =>
      rw [List.nodup_cons] at hNodup
      refine List.Pairwise.cons (fun y' hy' => ?_) (ih hNodup.2)
      obtain ⟨x', hx', hR'⟩ := exists_of_forall₂_right hRest hy'
      exact hS x x' y y' hR hR' fun hSame => hNodup.1 (hSame ▸ hx')

/-! ## The list of routes -/

section Branch

variable [DecidableEq V] {G : Graph V E K H} {target v : V} {avoid : Finset K} {e : E} {k : K}
  {label : H} {go : Finset K → V → Option (List (List H))}

/-- An avoided edge lists nothing. -/
theorem branch_avoided (hKey : G.key e = some k) (hAvoid : k ∈ avoid) :
    branch G target go avoid v e = some [] := by
  simp [branch, hKey, hAvoid]

/-- An edge to the target lists itself. -/
theorem branch_last (hKey : G.key e = some k) (hFree : k ∉ avoid)
    (hFollow : G.follow v e = some (label, target)) :
    branch G target go avoid v e = some [[label]] := by
  simp [branch, hKey, hFree, hFollow]

/-- Any other edge is put before what lies beyond it. -/
theorem branch_on {u : V} (hKey : G.key e = some k) (hFree : k ∉ avoid)
    (hFollow : G.follow v e = some (label, u)) (hOn : u ≠ target) :
    branch G target go avoid v e =
      (go (insert k avoid) u).map fun rest => rest.map (label :: ·) := by
  simp only [branch, hKey, hFollow, if_neg hFree, if_neg hOn, Option.bind_eq_bind,
    Option.bind_some]
  cases go (insert k avoid) u <;> rfl

end Branch

theorem mem_branch [DecidableEq V] {G : Graph V E K H} {target v : V} {avoid : Finset K} {e : E}
    {go : Finset K → V → Option (List (List H))} {part : List (List H)}
    (h : branch G target go avoid v e = some part) {labels : List H} :
    labels ∈ part ↔ ∃ k label u, G.key e = some k ∧ k ∉ avoid ∧
      G.follow v e = some (label, u) ∧
        (u = target ∧ labels = [label] ∨
          u ≠ target ∧ ∃ rest, go (insert k avoid) u = some rest ∧
            ∃ tail ∈ rest, label :: tail = labels) := by
  obtain ⟨k, hKey, hBranch⟩ := Option.bind_eq_some_iff.mp h
  by_cases hAvoid : k ∈ avoid
  · rw [branch_avoided hKey hAvoid] at h
    obtain rfl := Option.some.inj h
    simp [hKey, hAvoid]
  · rw [if_neg hAvoid] at hBranch
    obtain ⟨⟨label, u⟩, hFollow, _⟩ := Option.bind_eq_some_iff.mp hBranch
    by_cases hEnd : u = target
    · subst hEnd
      rw [branch_last hKey hAvoid hFollow] at h
      obtain rfl := Option.some.inj h
      simp [hKey, hAvoid, hFollow]
    · rw [branch_on hKey hAvoid hFollow hEnd] at h
      obtain ⟨rest, hRest, rfl⟩ := Option.map_eq_some_iff.mp h
      simp [hKey, hAvoid, hFollow, hEnd, hRest]

/-- A branch lists no route twice when what lies beyond it does not. -/
theorem branch_nodup [DecidableEq V] {G : Graph V E K H} {target v : V} {avoid : Finset K}
    {e : E} {go : Finset K → V → Option (List (List H))} {part : List (List H)}
    (hGo : ∀ {avoid u rest}, go avoid u = some rest → rest.Nodup)
    (h : branch G target go avoid v e = some part) : part.Nodup := by
  obtain ⟨k, hKey, hBranch⟩ := Option.bind_eq_some_iff.mp h
  by_cases hAvoid : k ∈ avoid
  · rw [branch_avoided hKey hAvoid] at h
    obtain rfl := Option.some.inj h
    exact List.nodup_nil
  · rw [if_neg hAvoid] at hBranch
    obtain ⟨⟨label, u⟩, hFollow, _⟩ := Option.bind_eq_some_iff.mp hBranch
    by_cases hEnd : u = target
    · subst hEnd
      rw [branch_last hKey hAvoid hFollow] at h
      obtain rfl := Option.some.inj h
      exact List.nodup_singleton _
    · rw [branch_on hKey hAvoid hFollow hEnd] at h
      obtain ⟨rest, hRest, rfl⟩ := Option.map_eq_some_iff.mp h
      exact (hGo hRest).map (List.cons_injective)

/-- The first edge of a route, and what is left of it. -/
theorem route_iff {G : Graph V E K H} {target v : V} {avoid : Finset K} {labels : List H} :
    (∃ keys, Route G target avoid v labels keys) ↔
      ∃ es, G.out v = some es ∧ ∃ e ∈ es, ∃ k label u, G.key e = some k ∧ k ∉ avoid ∧
        G.follow v e = some (label, u) ∧
          (u = target ∧ labels = [label] ∨
            u ≠ target ∧ ∃ tail, (∃ keys, Route G target (insert k avoid) u tail keys) ∧
              label :: tail = labels) := by
  constructor
  · rintro ⟨keys, hRoute⟩
    cases hRoute with
    | @last _ _ es e k label hOut hMem hKey hFree hFollow =>
        exact ⟨es, hOut, e, hMem, k, label, target, hKey, hFree, hFollow, Or.inl ⟨rfl, rfl⟩⟩
    | @step _ _ es e k label u tail keys hOut hMem hKey hFree hFollow hOn hRest =>
        exact ⟨es, hOut, e, hMem, k, label, u, hKey, hFree, hFollow,
          Or.inr ⟨hOn, tail, ⟨keys, hRest⟩, rfl⟩⟩
  · rintro ⟨es, hOut, e, hMem, k, label, u, hKey, hFree, hFollow,
      ⟨rfl, rfl⟩ | ⟨hOn, tail, ⟨keys, hRest⟩, rfl⟩⟩
    · exact ⟨[k], .last hOut hMem hKey hFree hFollow⟩
    · exact ⟨k :: keys, .step hOut hMem hKey hFree hFollow hOn hRest⟩

/-- A route takes no key twice, and none that is avoided. -/
theorem Route.fresh {G : Graph V E K H} {target v : V} {avoid : Finset K} {labels : List H}
    {keys : List K} (h : Route G target avoid v labels keys) :
    keys.Nodup ∧ ∀ k ∈ keys, k ∉ avoid := by
  induction h with
  | last _ _ _ hFree _ => exact ⟨List.nodup_singleton _, by simpa using hFree⟩
  | step _ _ _ hFree _ _ _ ih =>
      obtain ⟨hNodup, hRest⟩ := ih
      refine ⟨List.nodup_cons.mpr ⟨fun hAgain => hRest _ hAgain (Finset.mem_insert_self _ _),
        hNodup⟩, List.forall_mem_cons.mpr ⟨hFree, fun k hk hOld => ?_⟩⟩
      exact hRest k hk (Finset.mem_insert_of_mem hOld)

/-- **Sound and complete.** -/
theorem mem_routes [DecidableEq V] {G : Graph V E K H} {target : V} {n : ℕ} {avoid : Finset K}
    {v : V} {found : List (List H)} (h : routes G target n avoid v = some found) {labels : List H} :
    labels ∈ found ↔ labels.length ≤ n ∧ ∃ keys, Route G target avoid v labels keys := by
  induction n generalizing avoid v found labels with
  | zero =>
      obtain rfl := Option.some.inj h
      simp only [List.not_mem_nil, Nat.le_zero, List.length_eq_zero_iff, false_iff]
      rintro ⟨rfl, keys, hRoute⟩
      cases hRoute
  | succ n ih =>
      obtain ⟨es, hOut, h⟩ := Option.bind_eq_some_iff.mp h
      obtain ⟨parts, hParts, h⟩ := Option.bind_eq_some_iff.mp h
      obtain rfl := Option.some.inj h
      rw [mem_flatten_of_mapM hParts, route_iff]
      constructor
      · rintro ⟨e, hMem, part, hPart, hLabels⟩
        obtain ⟨k, label, u, hKey, hFree, hFollow, hCase⟩ := (mem_branch hPart).mp hLabels
        refine ⟨?_, es, hOut, e, hMem, k, label, u, hKey, hFree, hFollow, ?_⟩
        · rcases hCase with ⟨_, rfl⟩ | ⟨_, rest, hRest, tail, hTail, rfl⟩
          · simp
          · have hShort := ((ih hRest).mp hTail).1
            simpa using hShort
        · rcases hCase with hEnd | ⟨hOn, rest, hRest, tail, hTail, rfl⟩
          · exact Or.inl hEnd
          · exact Or.inr ⟨hOn, tail, ((ih hRest).mp hTail).2, rfl⟩
      · rintro ⟨hShort, es', hOut', e, hMem, k, label, u, hKey, hFree, hFollow, hCase⟩
        obtain rfl : es = es' := Option.some.inj (hOut.symm.trans hOut')
        -- the search got through every edge, this one included
        obtain ⟨part, hPart⟩ := exists_part_of_mapM hParts hMem
        refine ⟨e, hMem, part, hPart, (mem_branch hPart).mpr ?_⟩
        refine ⟨k, label, u, hKey, hFree, hFollow, ?_⟩
        rcases hCase with hEnd | ⟨hOn, tail, hRoute, rfl⟩
        · exact Or.inl hEnd
        · rw [branch_on hKey hFree hFollow hOn] at hPart
          obtain ⟨rest, hRest, _⟩ := Option.map_eq_some_iff.mp hPart
          have hLen : tail.length ≤ n := by simpa using hShort
          exact Or.inr ⟨hOn, rest, hRest, tail, (ih hRest).mpr ⟨hLen, hRoute⟩, rfl⟩

/-! ## Totality -/

/-- The search stays among the vertices of `Good` and reads in range there. -/
theorem exists_routes [DecidableEq V] {G : Graph V E K H} {target : V} (Good : V → Prop)
    (hGood : ∀ v, Good v → ∃ es, G.out v = some es ∧ ∀ e ∈ es, ∃ k, G.key e = some k ∧
      ∃ label u, G.follow v e = some (label, u) ∧ Good u)
    (n : ℕ) {avoid : Finset K} {v : V} (hv : Good v) :
    ∃ found, routes G target n avoid v = some found := by
  induction n generalizing avoid v with
  | zero => exact ⟨[], rfl⟩
  | succ n ih =>
      obtain ⟨es, hOut, hEdges⟩ := hGood v hv
      have hParts : ∃ parts,
          es.mapM (branch G target (routes G target n) avoid v) = some parts := by
        apply exists_mapM
        intro e he
        obtain ⟨k, hKey, label, u, hFollow, hu⟩ := hEdges e he
        by_cases hAvoid : k ∈ avoid
        · exact ⟨[], branch_avoided hKey hAvoid⟩
        · by_cases hEnd : u = target
          · subst hEnd
            exact ⟨[[label]], branch_last hKey hAvoid hFollow⟩
          · obtain ⟨rest, hRest⟩ := @ih (insert k avoid) u hu
            rw [branch_on hKey hAvoid hFollow hEnd, hRest]
            exact ⟨_, rfl⟩
      obtain ⟨parts, hParts⟩ := hParts
      exact ⟨parts.flatten, by simp [routes, hOut, hParts]⟩

/-! ## Each route once -/

/-- The labels of a part begin with the label of its edge. -/
theorem routes_nodup [DecidableEq V] {G : Graph V E K H} {target : V}
    (hOut : ∀ v es, G.out v = some es → es.Nodup)
    (hLabel : ∀ v e e' label u u', G.follow v e = some (label, u) →
      G.follow v e' = some (label, u') → e = e')
    {n : ℕ} {avoid : Finset K} {v : V} {found : List (List H)}
    (h : routes G target n avoid v = some found) : found.Nodup := by
  induction n generalizing avoid v found with
  | zero =>
      obtain rfl := Option.some.inj h
      exact List.nodup_nil
  | succ n ih =>
      obtain ⟨es, hEs, h⟩ := Option.bind_eq_some_iff.mp h
      obtain ⟨parts, hParts, h⟩ := Option.bind_eq_some_iff.mp h
      obtain rfl := Option.some.inj h
      rw [mapM_eq_some] at hParts
      rw [List.nodup_flatten]
      constructor
      · intro part hPart
        obtain ⟨e, _, hBranch⟩ := exists_of_forall₂_right hParts hPart
        exact branch_nodup (fun hRest => ih hRest) hBranch
      · apply pairwise_of_forall₂ hParts (hOut v es hEs)
        intro e e' part part' hBranch hBranch' hNe labels hIn hIn'
        obtain ⟨_, label, u, _, _, hFollow, hCase⟩ := (mem_branch hBranch).mp hIn
        obtain ⟨_, label', u', _, _, hFollow', hCase'⟩ := (mem_branch hBranch').mp hIn'
        have hHead : labels.head? = some label := by
          rcases hCase with ⟨_, rfl⟩ | ⟨_, _, _, _, _, rfl⟩ <;> rfl
        have hHead' : labels.head? = some label' := by
          rcases hCase' with ⟨_, rfl⟩ | ⟨_, _, _, _, _, rfl⟩ <;> rfl
        obtain rfl : label = label' := Option.some.inj (hHead.symm.trans hHead')
        exact hNe (hLabel v e e' label u u' hFollow hFollow')

/-! ## Other labels -/

/-- The same graph with its labels read by `f`. -/
def Graph.mapLabel {H' : Type u} (G : Graph V E K H) (f : H → H') : Graph V E K H' where
  out := G.out
  key := G.key
  follow v e := (G.follow v e).map fun next => (f next.1, next.2)

theorem routes_mapLabel [DecidableEq V] {H' : Type u} (G : Graph V E K H) (f : H → H')
    (target : V) {n : ℕ} {avoid : Finset K} {v : V} :
    routes (G.mapLabel f) target n avoid v =
      (routes G target n avoid v).map (List.map (List.map f)) := by
  induction n generalizing avoid v with
  | zero => rfl
  | succ n ih =>
      have hBranch : ∀ e, branch (G.mapLabel f) target (routes (G.mapLabel f) target n) avoid v e =
          (branch G target (routes G target n) avoid v e).map (List.map (List.map f)) := by
        intro e
        cases hKey : G.key e with
        | none => simp [branch, Graph.mapLabel, hKey]
        | some k =>
            by_cases hAvoid : k ∈ avoid
            · simp [branch, Graph.mapLabel, hKey, hAvoid]
            · cases hFollow : G.follow v e with
              | none => simp [branch, Graph.mapLabel, hKey, hAvoid, hFollow]
              | some next =>
                  obtain ⟨label, u⟩ := next
                  have hKey' : (G.mapLabel f).key e = some k := hKey
                  have hFollow' : (G.mapLabel f).follow v e = some (f label, u) := by
                    simp [Graph.mapLabel, hFollow]
                  by_cases hEnd : u = target
                  · subst hEnd
                    rw [branch_last hKey' hAvoid hFollow', branch_last hKey hAvoid hFollow]
                    rfl
                  · rw [branch_on hKey' hAvoid hFollow' hEnd, branch_on hKey hAvoid hFollow hEnd,
                      ih]
                    cases routes G target n (insert k avoid) u with
                    | none => rfl
                    | some rest => simp [Function.comp_def]
      cases hOut : G.out v with
      | none => simp [routes, Graph.mapLabel, hOut]
      | some es =>
          have hOut' : (G.mapLabel f).out v = some es := hOut
          simp only [routes, hOut, hOut', Option.bind_eq_bind, Option.bind_some]
          rw [mapM_map hBranch]
          generalize es.mapM (branch G target (routes G target n) avoid v) = found
          cases found with
          | none => rfl
          | some parts => simp [List.map_flatten]

/-! ## Other tables -/

theorem mapM_eq_of_forall₂ {α α' β : Type u} {f : α → Option β} {g : α' → Option β}
    {xs : List α} {ys : List α'} (h : List.Forall₂ (fun x y => f x = g y) xs ys) :
    xs.mapM f = ys.mapM g := by
  induction h with
  | nil => rfl
  | cons hHead _ ih => rw [List.mapM_cons, List.mapM_cons, hHead, ih]

section Matches

variable {V' E' K' : Type u} [DecidableEq K'] (G : Graph V E K H) (G' : Graph V' E' K' H)
  (R : V → V' → Prop) (S : K → K' → Prop)

/-- The edges have one label, and their keys and ends stand for each other. -/
def SameEdge (v : V) (v' : V') (e : E) (e' : E') : Prop :=
  ∃ k k' label u u', G.key e = some k ∧ G'.key e' = some k' ∧ S k k' ∧
    G.follow v e = some (label, u) ∧ G'.follow v' e' = some (label, u') ∧ R u u'

/-- Two tables of one graph: `R` says which vertices stand for each other, `S` which keys. -/
structure Matches : Prop where
  out : ∀ {v v'}, R v v' → ∃ es es', G.out v = some es ∧ G'.out v' = some es' ∧
    List.Forall₂ (SameEdge G G' R S v v') es es'
  vertex : ∀ {u u' v v'}, R u u' → R v v' → (u = v ↔ u' = v')
  key : ∀ {k k' l l'}, S k k' → S l l' → (k = l ↔ k' = l')

variable {G G' R S}

/-- The avoided keys of the one table stand for those of the other. -/
def SameKeys (S : K → K' → Prop) (avoid : Finset K) (avoid' : Finset K') : Prop :=
  ∀ k k', S k k' → (k ∈ avoid ↔ k' ∈ avoid')

theorem Matches.insert (h : Matches G G' R S) {avoid : Finset K} {avoid' : Finset K'}
    (hAvoid : SameKeys S avoid avoid') {k : K} {k' : K'} (hk : S k k') :
    SameKeys S (Insert.insert k avoid) (Insert.insert k' avoid') := by
  intro l l' hl
  rw [Finset.mem_insert, Finset.mem_insert, h.key hl hk, hAvoid l l' hl]

/-- Matching edges list the same. -/
theorem Matches.branch_eq [DecidableEq V] [DecidableEq V'] (h : Matches G G' R S)
    {target : V} {target' : V'} (hTarget : R target target')
    {go : Finset K → V → Option (List (List H))} {go' : Finset K' → V' → Option (List (List H))}
    (hGo : ∀ {avoid avoid' u u'}, SameKeys S avoid avoid' → R u u' → go avoid u = go' avoid' u')
    {avoid : Finset K} {avoid' : Finset K'} (hAvoid : SameKeys S avoid avoid') {v : V} {v' : V'}
    {e : E} {e' : E'} (hEdge : SameEdge G G' R S v v' e e') :
    branch G target go avoid v e = branch G' target' go' avoid' v' e' := by
  obtain ⟨k, k', label, u, u', hKey, hKey', hk, hFollow, hFollow', hu⟩ := hEdge
  by_cases hFree : k ∈ avoid
  · rw [branch_avoided hKey hFree, branch_avoided hKey' ((hAvoid k k' hk).mp hFree)]
  · have hFree' : k' ∉ avoid' := fun hIn => hFree ((hAvoid k k' hk).mpr hIn)
    by_cases hEnd : u = target
    · have hEnd' := (h.vertex hu hTarget).mp hEnd
      subst hEnd hEnd'
      rw [branch_last hKey hFree hFollow, branch_last hKey' hFree' hFollow']
    · have hEnd' : u' ≠ target' := fun hEq => hEnd ((h.vertex hu hTarget).mpr hEq)
      rw [branch_on hKey hFree hFollow hEnd, branch_on hKey' hFree' hFollow' hEnd',
        hGo (h.insert hAvoid hk) hu]

/-- **Two tables of one graph** have the same routes. -/
theorem Matches.routes_eq [DecidableEq V] [DecidableEq V'] (h : Matches G G' R S)
    {target : V} {target' : V'} (hTarget : R target target') (n : ℕ) {avoid : Finset K}
    {avoid' : Finset K'} (hAvoid : SameKeys S avoid avoid') {v : V} {v' : V'} (hv : R v v') :
    routes G target n avoid v = routes G' target' n avoid' v' := by
  induction n generalizing avoid avoid' v v' with
  | zero => rfl
  | succ n ih =>
      obtain ⟨es, es', hOut, hOut', hEdges⟩ := h.out hv
      have hBranches : List.Forall₂ (fun e e' => branch G target (routes G target n) avoid v e =
          branch G' target' (routes G' target' n) avoid' v' e') es es' :=
        hEdges.imp fun e e' hEdge => h.branch_eq hTarget (fun hKeys hu => ih hKeys hu) hAvoid hEdge
      simp only [routes, hOut, hOut', Option.bind_eq_bind, Option.bind_some]
      rw [mapM_eq_of_forall₂ hBranches]

end Matches

/-! ## Loops with an accumulator -/

/-- A loop whose step pushes what `g` gives pushes, in the end, what `g` gives over the
whole list.  `P` holds of the state at every turn. -/
theorem foldlM_eq_mapM {σ α β : Type u} {f : σ → α → Option σ} {g : α → Option (List β)}
    {push : σ → List β → σ} (P : σ → Prop) (hStep : ∀ s x, P s → f s x = (g x).map (push s))
    (hKeep : ∀ s ys, P s → P (push s ys)) (hNil : ∀ s, push s [] = s)
    (hAppend : ∀ s ys zs, push (push s ys) zs = push s (ys ++ zs)) (xs : List α) {s : σ}
    (hs : P s) : xs.foldlM f s = (xs.mapM g).map fun parts => push s parts.flatten := by
  induction xs generalizing s with
  | nil => simp [hNil]
  | cons x xs ih =>
      rw [List.foldlM_cons, List.mapM_cons, hStep s x hs]
      cases hx : g x with
      | none => rfl
      | some ys =>
          show xs.foldlM f (push s ys) = _
          rw [ih (hKeep s ys hs)]
          cases hRest : xs.mapM g with
          | none => rfl
          | some parts =>
              show some (push (push s ys) parts.flatten) = some (push s (ys :: parts).flatten)
              rw [hAppend, List.flatten_cons]

end SovereignShadow.Verified.Routes
