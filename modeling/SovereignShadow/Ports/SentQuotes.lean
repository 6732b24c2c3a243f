import SovereignShadow.Ports.GenuineCycles
import SovereignShadow.Ports.OptimalInput

/-!
# What a sent opportunity promises

`process_event` searches the whole graph, V3 pools included, but `get_path_output_with_states`
prices only two kinds of hop; any other quotes zero.  So what is sent swaps at V2 and
Aerodrome pools alone, each with both reserves there.  Its input and its profit are one quote:
on the states that the task has fetched, the input comes back with the profit on top.

## Main results

* `priced_of_output` — a path that quotes more than nothing has only priced hops.
* `sizePath_quote` — both sizing branches return the profit of a quote.
* `sent_quote` — the promise of every opportunity that an event sends.
-/

namespace SovereignShadow.Ports.SentQuotes

open SovereignShadow.Ports.Models
open SovereignShadow.Ports.Mirror
open SovereignShadow.Ports.MathEngine
open SovereignShadow.Ports.OptimalInput
open SovereignShadow.Ports.Detector
open SovereignShadow.Ports.GenuineCycles

/-! ## Priced hops -/

/-- A hop of a kind that is quoted, at a pool with both reserves. -/
structure Priced (hop : Hop) (state : PoolState) : Prop where
  dexType : hop.dexType = .uniswapV2 ∨ hop.dexType = .aerodrome
  reserves0 : state.reserves0 ≠ 0
  reserves1 : state.reserves1 ≠ 0

variable {stableOutput : U256 → U256 → U256 → Option U256}

theorem reserves_of_v2 {amountIn : U256} {state : PoolState} {zeroForOne : Bool}
    (h : getV2Output amountIn state zeroForOne ≠ 0) :
    state.reserves0 ≠ 0 ∧ state.reserves1 ≠ 0 := by
  by_contra hEmpty
  exact h (if_neg hEmpty)

theorem reserves_of_aerodrome {amountIn out : U256} {state : PoolState} {zeroForOne : Bool}
    (h : getAerodromeOutput stableOutput amountIn state zeroForOne = some out) (hOut : out ≠ 0) :
    state.reserves0 ≠ 0 ∧ state.reserves1 ≠ 0 := by
  unfold getAerodromeOutput at h
  by_cases hStable : state.isStable
  · simp only [hStable, not_true_eq_false, if_false] at h
    by_cases hEmpty : amountIn = 0 ∨ (reservesFor state zeroForOne).1 = 0 ∨
        (reservesFor state zeroForOne).2 = 0
    · rw [if_pos hEmpty] at h
      exact absurd (Option.some.inj h).symm hOut
    · simp only [not_or] at hEmpty
      unfold reservesFor at hEmpty
      cases zeroForOne
      · exact ⟨hEmpty.2.2, hEmpty.2.1⟩
      · exact hEmpty.2
  · rw [if_pos hStable] at h
    rw [← Option.some.inj h] at hOut
    exact reserves_of_v2 hOut

/-- One hop that quotes more than nothing. -/
theorem priced_of_hopOutput {hop : Hop} {amountIn out : U256} {state : PoolState}
    (h : hopOutput stableOutput hop amountIn state = some out) (hOut : out ≠ 0) :
    Priced hop state := by
  unfold hopOutput at h
  cases hType : hop.dexType with
  | uniswapV2 =>
      simp only [hType] at h
      rw [← Option.some.inj h] at hOut
      obtain ⟨h0, h1⟩ := reserves_of_v2 hOut
      exact ⟨Or.inl hType, h0, h1⟩
  | aerodrome =>
      simp only [hType] at h
      obtain ⟨h0, h1⟩ := reserves_of_aerodrome h hOut
      exact ⟨Or.inr hType, h0, h1⟩
  | uniswapV3 =>
      simp only [hType] at h
      exact absurd (Option.some.inj h).symm hOut
  | maverickV2 =>
      simp only [hType] at h
      exact absurd (Option.some.inj h).symm hOut

theorem getPathOutput_zero (hops : List Hop) (states : List PoolState) :
    getPathOutputWithStates stableOutput hops 0 states = some 0 := by
  cases hops with
  | nil => rfl
  | cons hop rest => exact if_pos rfl

/-- A path that quotes more than nothing has only priced hops. -/
theorem priced_of_output {hops : List Hop} {amountIn out : U256} {states : List PoolState}
    (h : getPathOutputWithStates stableOutput hops amountIn states = some out) (hOut : out ≠ 0)
    (hLength : states.length = hops.length) : List.Forall₂ Priced hops states := by
  induction hops generalizing amountIn states with
  | nil =>
      rw [List.length_nil, List.length_eq_zero_iff] at hLength
      rw [hLength]
      exact .nil
  | cons hop rest ih =>
      cases states with
      | nil => exact absurd hLength (by simp)
      | cons state later =>
          unfold getPathOutputWithStates at h
          split at h
          · exact absurd (Option.some.inj h).symm hOut
          · obtain ⟨mid, hHop, hRest⟩ := Option.bind_eq_some_iff.mp h
            have hMid : mid ≠ 0 := by
              rintro rfl
              rw [getPathOutput_zero] at hRest
              exact hOut (Option.some.inj hRest).symm
            exact .cons (priced_of_hopOutput hHop hMid) (ih hRest (Nat.succ.inj hLength))

/-! ## The sizing -/

/-- On these states the input quotes itself and the profit. -/
def Quotes (stableOutput : U256 → U256 → U256 → Option U256) (hops : List Hop)
    (states : List PoolState) (input profit : U256) : Prop :=
  ∃ out, getPathOutputWithStates stableOutput hops input states = some out ∧
    out.toNat = input.toNat + profit.toNat

theorem saturatingSub_pos {a b c : U256} (h : saturatingSub a b = c) (hPos : 0 < c.toNat) :
    a.toNat = b.toNat + c.toNat := by
  unfold saturatingSub at h
  split at h
  · rename_i hLe
    rw [← h, BitVec.toNat_sub_of_le hLe]
    have hNat := BitVec.le_def.mp hLe
    omega
  · rw [← h] at hPos
    exact absurd hPos (by simp)

theorem quotes_of_sub {hops : List Hop} {states : List PoolState} {input out profit : U256}
    (hOut : getPathOutputWithStates stableOutput hops input states = some out)
    (hProfit : saturatingSub out input = profit) (hPos : 0 < profit.toNat) :
    Quotes stableOutput hops states input profit :=
  ⟨out, hOut, saturatingSub_pos hProfit hPos⟩

/-- **Both sizing branches** return the profit of a quote. -/
theorem sizePath_quote {env : Environment} {mirror : StateMirror} {hops : List Hop}
    {states : List PoolState} {input profit : U256}
    (h : sizePath env mirror hops states = some (input, profit)) (hPos : 0 < profit.toNat) :
    Quotes env.stableOutput hops states input profit := by
  unfold sizePath at h
  split at h
  · obtain ⟨optIn, -, h⟩ := Option.bind_eq_some_iff.mp h
    obtain ⟨out, hOut, h⟩ := Option.bind_eq_some_iff.mp h
    obtain ⟨rfl, hProfit⟩ := Prod.mk.inj (Option.some.inj h)
    exact quotes_of_sub hOut hProfit hPos
  · unfold optimalCycleInput findOptimalInput at h
    obtain ⟨fC, -, h⟩ := Option.bind_eq_some_iff.mp h
    obtain ⟨fD, -, h⟩ := Option.bind_eq_some_iff.mp h
    obtain ⟨s, -, h⟩ := Option.bind_eq_some_iff.mp h
    obtain ⟨maxProfit, hMax, h⟩ := Option.bind_eq_some_iff.mp h
    split at h
    · obtain ⟨-, rfl⟩ := Prod.mk.inj (Option.some.inj h)
      exact absurd hPos (by simp)
    · obtain ⟨rfl, rfl⟩ := Prod.mk.inj (Option.some.inj h)
      obtain ⟨out, hOut, hProfit⟩ := Option.bind_eq_some_iff.mp hMax
      have hProfit := Option.some.inj hProfit
      unfold toI256OrZero at hProfit
      split at hProfit
      · exact quotes_of_sub hOut hProfit hPos
      · rw [← hProfit] at hPos
        exact absurd hPos (by simp)

/-! ## What is sent -/

/-- The promise of an opportunity on the states `states` of its hops. -/
structure Promise (env : Environment) (det : ArbitrageDetector) (opp : Opportunity)
    (states : List PoolState) : Prop where
  quotes : Quotes env.stableOutput opp.path.hops states opp.inputAmount opp.expectedProfit
  floor : det.config.minProfitWei < opp.expectedProfit
  priced : List.Forall₂ Priced opp.path.hops states

theorem evaluatePath_promise {env : Environment} {det : ArbitrageDetector} {event : SwapEvent}
    {hops : List Hop} {sent : List Opportunity} (h : evaluatePath env det event hops = some sent)
    {opp : Opportunity} (hMem : opp ∈ sent) :
    Promise env det opp (walkStates det event opp.path.hops) := by
  unfold evaluatePath at h
  simp only at h
  by_cases hAll : (walkStates det event hops).length = hops.length
  · unfold walkStates at hAll
    rw [if_neg (not_not.mpr hAll)] at h
    obtain ⟨first, -, h⟩ := Option.bind_eq_some_iff.mp h
    obtain ⟨⟨optimalIn, profit⟩, hSize, h⟩ := Option.bind_eq_some_iff.mp h
    simp only at h
    split at h
    · rename_i hFloor
      obtain rfl := Option.some.inj h
      obtain rfl := List.mem_singleton.mp hMem
      have hPos : 0 < profit.toNat := Nat.zero_lt_of_lt (BitVec.lt_def.mp hFloor)
      have hQuotes := sizePath_quote hSize hPos
      obtain ⟨out, hOut, hNat⟩ := hQuotes
      have hNonzero : out ≠ 0 := by
        rintro rfl
        have hZero : (0 : U256).toNat = 0 := rfl
        omega
      exact ⟨⟨out, hOut, hNat⟩, hFloor, priced_of_output hOut hNonzero hAll⟩
    · rw [← Option.some.inj h] at hMem
      exact absurd hMem (by simp)
  · unfold walkStates at hAll
    rw [if_pos hAll] at h
    rw [← Option.some.inj h] at hMem
    exact absurd hMem (by simp)

theorem runTask_promise {env : Environment} {det : ArbitrageDetector} {event : SwapEvent}
    {task : SearchTask} {opp : Opportunity} (h : opp ∈ runTask env det event task) :
    Promise env det opp (walkStates det event opp.path.hops) := by
  unfold runTask at h
  split at h
  · exact absurd h (by simp)
  · obtain ⟨_, _, _, _, _, sent, hSent, hMem⟩ := mem_sendPaths.mp h
    exact evaluatePath_promise hSent hMem

/-- **What a sent opportunity promises.** -/
theorem sent_quote (env : Environment) (det : ArbitrageDetector) (event : SwapEvent) :
    ∀ opp ∈ processEvent env det event,
      Promise env det opp (walkStates det event opp.path.hops) := by
  intro opp hOpp
  obtain ⟨task, -, hSent⟩ := List.mem_flatMap.mp hOpp
  exact runTask_promise hSent

/-- The cycle through one pool that the sample event sends. -/
theorem sent_quote_sample :
    ∃ opp ∈ processEvent sampleEnvironment sampleDetector sampleEvent,
      Promise sampleEnvironment sampleDetector opp
        (walkStates sampleDetector sampleEvent opp.path.hops) := by
  have hSent : (processEvent sampleEnvironment sampleDetector sampleEvent).length = 1 := by
    decide +kernel
  have hMem : (processEvent sampleEnvironment sampleDetector sampleEvent)[0] ∈
      processEvent sampleEnvironment sampleDetector sampleEvent :=
    List.getElem_mem (by omega)
  exact ⟨_, hMem, sent_quote sampleEnvironment sampleDetector sampleEvent _ hMem⟩

end SovereignShadow.Ports.SentQuotes
