import SovereignShadow.Ports.V2Quote

/-!
# The two quotes of a path

`get_path_output` looks every pool up in the mirror, hop by hop;
`get_path_output_with_states` is handed the states.  Where the mirror holds those states
the two are one function.  A path of constant-product pools quotes what the integers say
for every input, however large: the reserves alone bound the 512-bit products.

## Main results

* `withStates_eq_quoteHops` — the two quotes agree.
* `pathOutput_eq_pathQuote` — the quote of any input over bounded reserves.
* `path_quotes` — agreement, monotonicity and the bound by the last reserve.
-/

namespace SovereignShadow.Ports.PathQuotes

open SovereignShadow.Verified.ConstantProduct
open SovereignShadow.Ports.Models
open SovereignShadow.Ports.Mirror
open SovereignShadow.Ports.MathEngine
open SovereignShadow.Ports.OptimalInput
open SovereignShadow.Ports.V2Quote (InRange)

section

variable (stableOutput : U256 → U256 → U256 → Option U256)

/-- The loop of `get_path_output`. -/
def quoteHops (mirror : StateMirror) : List Hop → U256 → Option U256
  | [], currentAmount => some currentAmount
  | hop :: hops, currentAmount =>
      if currentAmount = 0 then some 0
      else
        match mirror.getPoolData hop.poolAddress with
        | none => some 0
        | some poolState => do
            let out ← hopOutput stableOutput hop currentAmount poolState
            quoteHops mirror hops out

/-- `get_path_output`. -/
def getPathOutput (path : Path) (inputAmount : U256) (mirror : StateMirror) : Option U256 :=
  quoteHops stableOutput mirror path.hops inputAmount

/-- The mirror holds these states for the pools of the hops. -/
def Mirrors (mirror : StateMirror) (hops : List Hop) (states : List PoolState) : Prop :=
  List.Forall₂ (fun hop state => mirror.getPoolData hop.poolAddress = some state) hops states

/-- **The two quotes agree**, on stable pools and early exits too. -/
theorem withStates_eq_quoteHops {mirror : StateMirror} {hops : List Hop}
    {states : List PoolState} (h : Mirrors mirror hops states) (x : U256) :
    getPathOutputWithStates stableOutput hops x states =
      quoteHops stableOutput mirror hops x := by
  unfold Mirrors at h
  induction h generalizing x with
  | nil => rfl
  | @cons hop state hops states hState _ ih =>
      rw [getPathOutputWithStates, quoteHops, hState]
      by_cases hZero : x = 0
      · rw [if_pos hZero, if_pos hZero]
      · rw [if_neg hZero, if_neg hZero]
        exact Option.bind_congr fun out _ => ih out

end

/-! ## Constant-product paths -/

section Path

variable (stableOutput : U256 → U256 → U256 → Option U256)
variable {hops : List Hop} {states : List PoolState}
  (hHops : List.Forall₂ ConstantProductHop hops states)
  (hReserves : ∀ state ∈ states, InRange state)
include hHops hReserves

theorem marketsOf_inRange :
    ∀ m ∈ marketsOf hops states, Stocked m ∧ m.2 < 2 ^ 128 := by
  induction hHops with
  | nil => simp [marketsOf]
  | @cons hop state hops states _ _ ih =>
      rw [List.forall_mem_cons] at hReserves
      rw [marketsOf, List.zipWith_cons_cons, List.forall_mem_cons]
      exact ⟨hReserves.1.market hop, ih hReserves.2⟩

/-- **The quote of a path**, of any input. -/
theorem pathOutput_eq_pathQuote (x : U256) :
    ∃ out, getPathOutputWithStates stableOutput hops x states = some out ∧
      out.toNat = pathQuote (marketsOf hops states) x.toNat := by
  have hMarkets := marketsOf_inRange hHops hReserves
  have hStocked := fun m hm => (hMarkets m hm).1
  exact pathOutput_toNat stableOutput hHops hStocked (unwrapped_of_lt hStocked
    (fun m hm => (hMarkets m hm).2.trans (by norm_num)) x.isLt)

end Path

/-- The last pool keeps some of its reserve. -/
theorem pathQuote_lt_last {markets : List Market} (h : ∀ m ∈ markets, Stocked m) {m : Market}
    (hLast : markets.getLast? = some m) (x : ℕ) : pathQuote markets x < m.2 := by
  obtain ⟨before, rfl⟩ := List.getLast?_eq_some_iff.mp hLast
  have hStocked := h m (by simp)
  rw [pathQuote, List.foldl_append]
  exact quote_lt (by norm_num) hStocked.1 hStocked.2 _

/-- **Path quotes.**  The quote from fetched states is the quote from the mirror; over
constant-product pools it does not fall with the input, and it stays below the reserve it
draws on last. -/
theorem path_quotes (stableOutput : U256 → U256 → U256 → Option U256) (path : Path)
    (states : List PoolState) :
    (∀ mirror, Mirrors mirror path.hops states → ∀ x,
        getPathOutputWithStates stableOutput path.hops x states =
          getPathOutput stableOutput path x mirror) ∧
      (List.Forall₂ ConstantProductHop path.hops states →
        (∀ state ∈ states, InRange state) →
        ∃ quoted : U256 → U256,
          (∀ x, getPathOutputWithStates stableOutput path.hops x states = some (quoted x)) ∧
            (∀ x y, x ≤ y → quoted x ≤ quoted y) ∧
            ∀ hop state, (path.hops.zip states).getLast? = some (hop, state) →
              ∀ x, quoted x < (reservesFor state hop.zeroForOne).2) := by
  refine ⟨fun mirror h x => withStates_eq_quoteHops stableOutput h x, fun hHops hReserves => ?_⟩
  have hStocked := fun m hm => (marketsOf_inRange hHops hReserves m hm).1
  choose quoted hSome hQuote using pathOutput_eq_pathQuote stableOutput hHops hReserves
  refine ⟨quoted, hSome, fun x y hxy => ?_, fun hop state hLast x => ?_⟩
  · rw [BitVec.le_def, hQuote, hQuote]
    exact pathQuote_mono hStocked (BitVec.le_def.mp hxy)
  · have hMarket : (marketsOf path.hops states).getLast? = some (marketOf hop state) := by
      rw [marketsOf, ← List.map_uncurry_zip_eq_zipWith, List.getLast?_map, hLast]
      rfl
    rw [BitVec.lt_def, hQuote]
    exact pathQuote_lt_last hStocked hMarket x.toNat

end SovereignShadow.Ports.PathQuotes
