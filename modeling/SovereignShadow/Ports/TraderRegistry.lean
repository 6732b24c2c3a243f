import SovereignShadow.Ports.StateMirror
import SovereignShadow.Ports.StateSimulator
import SovereignShadow.Verified.ClearedSet

/-!
# The trader registry

Port of `record_trader` of `state_mirror.rs`, over whole runs.  A pool's traders are kept in
a set that is cleared when it has more than a hundred members.  So the competition score
counts the distinct traders of a pool up to the hundred and first, which sets it to zero.

## Main results

* `registry_eq` — the set of a pool after a run, from the traders recorded for it.
* `score_of_few` — up to a hundred traders, the score is their number.
* `countsTraders_iff` — when the score is the capped count after every call, and congestion
  stays.
-/

namespace SovereignShadow.Ports.TraderRegistry

open SovereignShadow.Ports.Models
open SovereignShadow.Ports.Constants
open SovereignShadow.Ports.Mirror
open SovereignShadow.Ports.StateSimulator
open SovereignShadow.Verified.ClearedSet

/-- The size that a set of traders may have. -/
def maxTraders : ℕ := 100

/-- `record_trader`. -/
def recordTrader (mirror : StateMirror) (pool trader : Address) : StateMirror :=
  if trader = 0 then mirror
  else
    let entry := insert trader ((mirror.traderRegistry pool).getD ∅)
    { mirror with
      traderRegistry := Function.update mirror.traderRegistry pool
        (some (if entry.card > maxTraders then ∅ else entry)) }

/-! ## Runs -/

/-- The arguments of a call, the pool and the trader. -/
abbrev Call := Address × Address

def run (mirror : StateMirror) (calls : List Call) : StateMirror :=
  calls.foldl (fun mirror call => recordTrader mirror call.1 call.2) mirror

/-- The non-zero traders recorded for a pool, in order. -/
def tradersOf (pool : Address) (calls : List Call) : List Address :=
  (calls.filter fun call => call.1 = pool ∧ call.2 ≠ 0).map Prod.snd

/-- The number of distinct non-zero traders recorded for a pool. -/
def distinctTraders (pool : Address) (calls : List Call) : ℕ :=
  (tradersOf pool calls).toFinset.card

variable {mirror : StateMirror} {pool : Address}

theorem run_snoc (calls : List Call) (call : Call) :
    run mirror (calls ++ [call]) = recordTrader (run mirror calls) call.1 call.2 := by
  rw [run, List.foldl_append]
  rfl

theorem tradersOf_snoc (calls : List Call) (call : Call) :
    tradersOf pool (calls ++ [call]) =
      if call.1 = pool ∧ call.2 ≠ 0 then tradersOf pool calls ++ [call.2]
      else tradersOf pool calls := by
  rw [tradersOf, List.filter_append, List.map_append, ← tradersOf, List.filter_singleton]
  by_cases hCounts : call.1 = pool ∧ call.2 ≠ 0
  · rw [if_pos hCounts, decide_eq_true hCounts]
    rfl
  · rw [if_neg hCounts, decide_eq_false hCounts]
    exact List.append_nil _

/-- A call that does not count leaves the pool's set. -/
theorem recordTrader_of_not {trader pool' : Address} (h : ¬ (pool' = pool ∧ trader ≠ 0)) :
    (recordTrader mirror pool' trader).traderRegistry pool = mirror.traderRegistry pool := by
  unfold recordTrader
  split
  case isTrue => rfl
  case isFalse hTrader =>
    have hPool : pool ≠ pool' := fun hEq => h ⟨hEq.symm, hTrader⟩
    exact Function.update_of_ne hPool _ _

theorem recordTrader_self {trader : Address} (hTrader : trader ≠ 0) :
    (recordTrader mirror pool trader).traderRegistry pool =
      some (record maxTraders ((mirror.traderRegistry pool).getD ∅) trader) := by
  rw [recordTrader, if_neg hTrader]
  exact Function.update_self ..

/-- **The set of a pool.**  A run leaves what the cleared set stores of the pool's traders. -/
theorem registry_eq (hNew : mirror.traderRegistry pool = none) (calls : List Call) :
    ((run mirror calls).traderRegistry pool).getD ∅ =
      stored maxTraders (tradersOf pool calls) := by
  induction calls using List.reverseRecOn with
  | nil =>
      rw [show run mirror [] = mirror from rfl, hNew]
      rfl
  | append_singleton calls call ih =>
      rw [run_snoc, tradersOf_snoc]
      by_cases hCounts : call.1 = pool ∧ call.2 ≠ 0
      · obtain ⟨rfl, hTrader⟩ := hCounts
        rw [if_pos ⟨rfl, hTrader⟩, recordTrader_self hTrader, stored_snoc, ih]
        rfl
      · rw [if_neg hCounts, recordTrader_of_not hCounts, ih]

theorem score_eq (hNew : mirror.traderRegistry pool = none) (calls : List Call) :
    (run mirror calls).getCompetitionScore pool =
      (stored maxTraders (tradersOf pool calls)).card := by
  rw [← registry_eq hNew, StateMirror.getCompetitionScore]
  cases (run mirror calls).traderRegistry pool with
  | none => rfl
  | some traders => rfl

theorem score_of_few (hNew : mirror.traderRegistry pool = none) {calls : List Call}
    (hFew : distinctTraders pool calls ≤ maxTraders) :
    (run mirror calls).getCompetitionScore pool = distinctTraders pool calls := by
  rw [score_eq hNew, stored_eq hFew, distinctTraders]

/-! ## Congestion -/

/-- After every call the score is the capped number of distinct traders, and a pool that is
congested stays so. -/
structure CountsTraders (mirror : StateMirror) (pool : Address) (calls : List Call) : Prop where
  score : ∀ past, past <+: calls → (run mirror past).getCompetitionScore pool =
    min (distinctTraders pool past) maxTraders
  congestion : ∀ maxBots ≤ maxTraders, ∀ past later, past <+: later → later <+: calls →
    (run mirror past).isCongested pool maxBots → (run mirror later).isCongested pool maxBots

theorem distinctTraders_mono {past later : List Call} (h : past <+: later) :
    distinctTraders pool past ≤ distinctTraders pool later := by
  obtain ⟨rest, rfl⟩ := h
  apply Finset.card_le_card
  intro trader hTrader
  rw [List.mem_toFinset] at hTrader ⊢
  rw [tradersOf, List.filter_append, List.map_append]
  exact List.mem_append_left _ hTrader

/-- A score that is right after every call is that of at most a hundred traders: the first
one beyond would have cleared the set. -/
theorem few_of_score (hNew : mirror.traderRegistry pool = none) {calls : List Call}
    (hScore : ∀ past, past <+: calls → (run mirror past).getCompetitionScore pool =
      min (distinctTraders pool past) maxTraders) :
    distinctTraders pool calls ≤ maxTraders := by
  induction calls using List.reverseRecOn with
  | nil => exact Nat.zero_le _
  | append_singleton calls call ih =>
      have hFew := ih fun past hPast => hScore past (hPast.trans (List.prefix_append _ _))
      by_contra hMany
      have hWhole := hScore _ (List.prefix_refl _)
      rw [score_eq hNew] at hWhole
      rw [distinctTraders] at hFew hMany hWhole
      rw [tradersOf_snoc] at hMany hWhole
      split at hMany
      case isTrue hCounts =>
        rw [if_pos hCounts, stored_snoc_of_lt hFew (not_le.mp hMany),
          min_eq_right (not_le.mp hMany).le] at hWhole
        cases hWhole
      case isFalse => exact hMany hFew

/-- **Congestion.**  From a pool without traders, the score is the capped number of distinct
traders after every call, and congestion stays, if and only if there are at most a hundred
of them. -/
theorem countsTraders_iff (mirror : StateMirror) (pool : Address) (calls : List Call)
    (hNew : mirror.traderRegistry pool = none) :
    CountsTraders mirror pool calls ↔ distinctTraders pool calls ≤ 100 := by
  constructor
  · exact fun hCounts => few_of_score hNew hCounts.score
  · intro hFew
    have hPast : ∀ past, past <+: calls → (run mirror past).getCompetitionScore pool =
        distinctTraders pool past := fun past hPrefix =>
      score_of_few hNew ((distinctTraders_mono hPrefix).trans hFew)
    constructor
    · intro past hPrefix
      have hLe : distinctTraders pool past ≤ maxTraders :=
        (distinctTraders_mono hPrefix).trans hFew
      rw [hPast past hPrefix, min_eq_left hLe]
    · intro maxBots _ past later hPrefix hLater hCongested
      have hBots := of_decide_eq_true hCongested
      rw [hPast past (hPrefix.trans hLater)] at hBots
      apply decide_eq_true
      rw [hPast later hLater]
      exact hBots.trans (distinctTraders_mono hPrefix)

/-- A mirror that has seen nothing. -/
def freshMirror : StateMirror where
  pools := fun _ => none
  traderRegistry := fun _ => none

theorem countsTraders_iff_example : freshMirror.traderRegistry 0x22 = none ∧
    CountsTraders freshMirror 0x22 [(0x22, 1), (0x22, 2), (0x22, 1)] := by
  refine ⟨rfl, ?_⟩
  exact (countsTraders_iff freshMirror 0x22 _ rfl).mpr (by decide)

/-- The traders 1 to 101. -/
def crowd : List Call := (List.range' 1 101).map fun n => (0x22, BitVec.ofNat 160 n)

/-- The pool is congested at every threshold up to 100 before the last trader, and at none
but zero behind it. -/
theorem not_countsTraders :
    (run freshMirror (crowd.take 100)).isCongested 0x22 100 = true ∧
      (run freshMirror crowd).isCongested 0x22 1 = false ∧
      (run freshMirror crowd).getCompetitionScore 0x22 = 0 ∧
      distinctTraders 0x22 crowd = 101 ∧ ¬ CountsTraders freshMirror 0x22 crowd := by
  have hBefore : (run freshMirror (crowd.take 100)).isCongested 0x22 100 = true := by
    decide +kernel
  have hScore : (run freshMirror crowd).getCompetitionScore 0x22 = 0 := by decide +kernel
  have hDistinct : distinctTraders 0x22 crowd = 101 := by decide +kernel
  refine ⟨hBefore, by rw [StateMirror.isCongested, hScore]; rfl, hScore, hDistinct, ?_⟩
  intro hCounts
  have hCapped := hCounts.score crowd (List.prefix_refl _)
  rw [hScore, hDistinct] at hCapped
  cases hCapped

end SovereignShadow.Ports.TraderRegistry
